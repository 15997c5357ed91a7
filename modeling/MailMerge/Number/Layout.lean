import MailMerge.Number.Shortest

/-!
# How floating-point numbers are spelt

A floating-point number is written with the digits of its shortest numeral.
What else there is to decide about its text is one record, `NumberLayout`, and
each kind of output has its own.
-/

namespace MailMerge

/-- The choices in writing a floating-point number. -/
structure NumberLayout where
  /-- Whether a whole number without an exponent ends in `.0`. -/
  wholeMark : Bool
  /-- The powers of ten of the first digit between which a number is written
  without an exponent; without bounds it always is. -/
  positional : Option (Int × Int)
  /-- What is no number. -/
  nan : String
  infinity : String

/-- The digits of a decimal number with its point, and no exponent. -/
def positionalText (wholeMark : Bool) (d : Decimal) : List Char :=
  let digits := digitsOf d.coefficient
  if 0 ≤ d.exponent then
    digits ++ List.replicate d.exponent.toNat '0' ++ (if wholeMark then ['.', '0'] else [])
  else
    let places := (-d.exponent).toNat
    let padded := padZeros (places + 1) digits
    padded.take (padded.length - places) ++ '.' :: padded.drop (padded.length - places)

/-- An integer in decimal digits, with a minus sign if it is negative. -/
def intText (i : Int) : List Char :=
  if i < 0 then '-' :: digitsOf i.natAbs else digitsOf i.natAbs

/-- The first digit, the others behind a point if there are any, and the power
of ten of the first digit. -/
def exponentText (d : Decimal) : List Char :=
  let digits := digitsOf d.coefficient
  let others := digits.drop 1
  digits.take 1 ++ (if others = [] then [] else '.' :: others)
    ++ 'e' :: intText (d.exponent + others.length)

/-- The power of ten of a decimal number's first digit. -/
def Decimal.leading (d : Decimal) : Int :=
  d.exponent + ((digitsOf d.coefficient).length - 1 : Nat)

/-- A floating-point number in a layout. The sign of a zero is kept. -/
def NumberLayout.text (layout : NumberLayout) (x : Binary64) : List Char :=
  if x.isNaN then layout.nan.toList
  else
    let sign := if x.isNegative then ['-'] else []
    if x.isInfinite then sign ++ layout.infinity.toList
    else
      let d := x.shortest
      let inBounds :=
        match layout.positional with
        | none => true
        | some (least, greatest) =>
          d.coefficient == 0 || (decide (least ≤ d.leading) && decide (d.leading ≤ greatest))
      sign ++ if inBounds then positionalText layout.wholeMark d else exponentText d

/-- Fields are written without exponent and without a mark on whole numbers. -/
def fieldLayout : NumberLayout :=
  ⟨false, none, "NaN", "inf"⟩

/-- Arguments have a mark on whole numbers, and an exponent below `1e-4` and
from `1e16` on. -/
def argumentLayout : NumberLayout :=
  ⟨true, some (-4, 15), "NaN", "inf"⟩

/-- Inside arrays and tables whole numbers are marked, so that they read back
as floating-point numbers. -/
def inlineLayout : NumberLayout :=
  ⟨true, none, "nan", "inf"⟩

/-- In messages about a value of the wrong type whole numbers are marked. -/
def messageLayout : NumberLayout :=
  ⟨true, none, "NaN", "inf"⟩

end MailMerge
