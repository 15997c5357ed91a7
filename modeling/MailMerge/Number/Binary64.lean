/-!
# Floating-point numbers

A number of IEEE 754's 64-bit binary format is its bit pattern: a sign, an
exponent of eleven bits and a fraction of fifty-two. Everything about it that
this library prints or compares is worked out from these fields in exact
arithmetic on integers.
-/

namespace MailMerge

/-- A floating-point number of 64 bits, given by its bit pattern. -/
structure Binary64 where
  bits : UInt64
  deriving DecidableEq, Inhabited

namespace Binary64

/-- The weight of the sign bit, the highest one. -/
def signUnit : Nat := 0x8000000000000000

/-- The weight of the lowest bit of the exponent field. -/
def exponentUnit : Nat := 0x10000000000000

/-- Whether the sign bit is set; it may be on zero, too. -/
def isNegative (x : Binary64) : Bool :=
  decide (signUnit ≤ x.bits.toNat)

/-- The pattern without its sign bit. It grows with the absolute value. -/
def unsignedBits (x : Binary64) : Nat :=
  x.bits.toNat % signUnit

def exponentField (x : Binary64) : Nat :=
  x.unsignedBits / exponentUnit

def fraction (x : Binary64) : Nat :=
  x.unsignedBits % exponentUnit

/-- The exponent field of the infinities and of what is no number. -/
def specialExponent : Nat := 2047

def isNaN (x : Binary64) : Bool :=
  x.exponentField == specialExponent && x.fraction != 0

def isInfinite (x : Binary64) : Bool :=
  x.exponentField == specialExponent && x.fraction == 0

def isZero (x : Binary64) : Bool :=
  x.unsignedBits == 0

/-- A finite number is, up to its sign, `significand * 2 ^ scale`. -/
def significand (x : Binary64) : Nat :=
  if x.exponentField = 0 then x.fraction else exponentUnit + x.fraction

/-- The power of two that counts the significand. -/
def scale (x : Binary64) : Int :=
  max (x.exponentField : Int) 1 - 1075

/-- The absolute value of a finite number, as a quotient of natural numbers. -/
def magnitude (x : Binary64) : Nat × Nat :=
  (x.significand * Nat.pow 2 x.scale.toNat, Nat.pow 2 (-x.scale).toNat)

/-- The number with the given sign and unsigned pattern. -/
def ofUnsignedBits (negative : Bool) (pattern : Nat) : Binary64 :=
  ⟨UInt64.ofNat (if negative then signUnit + pattern else pattern)⟩

/-- Positive infinity's pattern. -/
def infinityBits : Nat := specialExponent * exponentUnit

def infinity (negative : Bool) : Binary64 :=
  ofUnsignedBits negative infinityBits

def nan (negative : Bool) : Binary64 :=
  ofUnsignedBits negative (infinityBits + exponentUnit / 2)

/-- A number's place among all numbers; the two zeros share theirs. -/
def orderKey (x : Binary64) : Int :=
  if x.isNegative then -(x.unsignedBits : Int) else x.unsignedBits

/-- How two numbers compare. What is no number has no order, not even
relative to itself. -/
def compare? (x y : Binary64) : Option Ordering :=
  if x.isNaN || y.isNaN then none else some (compare x.orderKey y.orderKey)

theorem compare?_isSome_iff {x y : Binary64} :
    (x.compare? y).isSome ↔ x.isNaN = false ∧ y.isNaN = false := by
  unfold compare?
  cases x.isNaN <;> cases y.isNaN <;> simp

end Binary64

end MailMerge
