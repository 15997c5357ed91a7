import MailMerge.Toml.DateTime

/-!
# The calendar

What dates and times stand for, apart from how they are written. Each consists of
a few numbers, the larger units first. Days are counted from the first of January
of the year zero, and a date and time with an offset names an instant, which is
told by its minute in universal time. Seconds within a minute are not counted
through, since a minute may have a leap second.
-/

namespace MailMerge.Toml

/-! ## What can be written -/

/-- A day of the calendar whose year has four digits. -/
structure Date.Writable (date : Date) : Prop where
  isValid : date.IsValid
  year_le : date.year ≤ 9999

structure Time.Writable (time : Time) : Prop where
  hour_le : time.hour ≤ 23
  minute_le : time.minute ≤ 59
  second_le : time.second ≤ 60
  nanosecond_lt : time.nanosecond < 1000000000

/-- An offset is less than a day. -/
def Offset.Writable : Offset → Prop
  | .universal => True
  | .minutes east => east.natAbs < 1440

/-- A date or time that a text can name. -/
def DateTime.Writable : DateTime → Prop
  | .offsetDateTime date time offset => date.Writable ∧ time.Writable ∧ offset.Writable
  | .localDateTime date time => date.Writable ∧ time.Writable
  | .localDate date => date.Writable
  | .localTime time => time.Writable

instance (date : Date) : Decidable date.Writable :=
  decidable_of_iff (date.IsValid ∧ date.year ≤ 9999)
    ⟨fun ⟨valid, year⟩ => ⟨valid, year⟩, fun ⟨valid, year⟩ => ⟨valid, year⟩⟩

instance (time : Time) : Decidable time.Writable :=
  decidable_of_iff
    (time.hour ≤ 23 ∧ time.minute ≤ 59 ∧ time.second ≤ 60 ∧ time.nanosecond < 1000000000)
    ⟨fun ⟨hour, minute, second, nanosecond⟩ => ⟨hour, minute, second, nanosecond⟩,
      fun ⟨hour, minute, second, nanosecond⟩ => ⟨hour, minute, second, nanosecond⟩⟩

instance : (offset : Offset) → Decidable offset.Writable
  | .universal => inferInstanceAs (Decidable True)
  | .minutes east => inferInstanceAs (Decidable (east.natAbs < 1440))

instance : (moment : DateTime) → Decidable moment.Writable
  | .offsetDateTime date time offset =>
    inferInstanceAs (Decidable (date.Writable ∧ time.Writable ∧ offset.Writable))
  | .localDateTime date time => inferInstanceAs (Decidable (date.Writable ∧ time.Writable))
  | .localDate date => inferInstanceAs (Decidable date.Writable)
  | .localTime time => inferInstanceAs (Decidable time.Writable)

/-! ## Numbers -/

def Date.parts (date : Date) : List Nat :=
  [date.year, date.month, date.day]

def Time.parts (time : Time) : List Nat :=
  [time.hour, time.minute, time.second, time.nanosecond]

/-- The numbers of a date or time as it is written, wherever it is. -/
def DateTime.parts : DateTime → List Nat
  | .offsetDateTime date time _ => date.parts ++ time.parts
  | .localDateTime date time => date.parts ++ time.parts
  | .localDate date => date.parts
  | .localTime time => time.parts

/-- Two of one form, neither of them with an offset. -/
inductive DateTime.BothLocal : DateTime → DateTime → Prop
  | dateTimes (date date' : Date) (time time' : Time) :
      BothLocal (.localDateTime date time) (.localDateTime date' time')
  | dates (date date' : Date) : BothLocal (.localDate date) (.localDate date')
  | times (time time' : Time) : BothLocal (.localTime time) (.localTime time')

/-! ## Days -/

/-- The days of a year before the month that so many others come before. -/
def daysBeforeMonth (year : Nat) : Nat → Nat
  | 0 => 0
  | months + 1 => daysBeforeMonth year months + daysInMonth year (months + 1)

def daysInYear (year : Nat) : Nat :=
  daysBeforeMonth year 12

def daysBeforeYear : Nat → Nat
  | 0 => 0
  | year + 1 => daysBeforeYear year + daysInYear year

/-- The number of days before a date. -/
def Date.dayNumber (date : Date) : Nat :=
  daysBeforeYear date.year + (daysBeforeMonth date.year (date.month - 1) + (date.day - 1))

/-! ## Instants -/

structure Instant where
  /-- The number of minutes of universal time before this one. -/
  minute : Int
  second : Nat
  nanosecond : Nat
  deriving Repr, DecidableEq

/-- The earlier instant is less. -/
instance : Ord Instant where
  compare a b :=
    (compare a.minute b.minute).then
      ((compare a.second b.second).then (compare a.nanosecond b.nanosecond))

/-- How many minutes a local time is ahead of universal time. -/
def Offset.east : Offset → Int
  | .universal => 0
  | .minutes east => east

/-- The number of minutes before a date and time on its own clock. -/
def localMinute (date : Date) (time : Time) : Nat :=
  (date.dayNumber * 24 + time.hour) * 60 + time.minute

/-- The instant at which a clock that is so far ahead shows a date and time. -/
def instantAt (date : Date) (time : Time) (offset : Offset) : Instant :=
  ⟨localMinute date time - offset.east, time.second, time.nanosecond⟩

def DateTime.offset? : DateTime → Option Offset
  | .offsetDateTime _ _ offset => some offset
  | _ => none

/-- The instant that a date and time names, if it has an offset. -/
def DateTime.instant? : DateTime → Option Instant
  | .offsetDateTime date time offset => some (instantAt date time offset)
  | _ => none

end MailMerge.Toml
