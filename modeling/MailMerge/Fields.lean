/-!
# Objects as seen through their fields

A template never sees an object itself, only what the object answers when it is
asked for a name. That view is all there is to `Fields`: the names it makes
known, and a text for each name that has one. A name may be known and still
have no text.

Looking a name up in vain is no error, but it is noted in a log, next to the
names that would have been known.
-/

namespace MailMerge

/-- What an object shows of itself. -/
structure Fields where
  /-- The names made known, in the object's own order. -/
  names : List String
  /-- The text for a name. Names are compared exactly. -/
  value? : String → Option String

/-- What is noted while texts are made. -/
inductive Event
  /-- A placeholder's name has no text; the object knows other names. -/
  | noValue (field : String) (known : List String)
  /-- The element at this place of a list is about to be written. -/
  | writingElement (index : Nat)
  deriving Repr, DecidableEq

/-- An object given by its entries; an entry may lack a value. The first entry
of a name counts. -/
def Fields.ofEntries (entries : List (String × Option String)) : Fields where
  names := entries.map Prod.fst
  value? name := (entries.lookup name).join

/-- Looks a name up; a miss is noted. -/
def Fields.resolve (object : Fields) (name : String) : Option String × List Event :=
  match object.value? name with
  | some value => (some value, [])
  | none => (none, [.noValue name object.names])

@[simp] theorem Fields.fst_resolve (object : Fields) (name : String) :
    (object.resolve name).1 = object.value? name := by
  unfold Fields.resolve
  cases object.value? name <;> rfl

end MailMerge
