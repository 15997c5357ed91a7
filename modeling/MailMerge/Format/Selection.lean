import MailMerge.Format.Fill

/-!
# What a format string asks for

Which arguments a format string needs, and of what kinds, can be told without
filling it in. Every specifier that takes an argument selects one by its place,
and what the place is depends on nothing but the indexes of the specifiers in
front. The conversion then says what the argument may be. Flags and widths have no
part in this, and precisions have none but that they can ask for too many places of
a number.
-/

namespace MailMerge.Format

/-- Code points that are characters: all of Unicode's but the surrogates. -/
def IsScalarValue (code : Int) : Prop :=
  (0 ≤ code ∧ code < 0xD800) ∨ (0xE000 ≤ code ∧ code < 0x110000)

/-- What a conversion applies to. The null argument is good for all of them. -/
def Conversion.Accepts : Conversion → Argument → Prop
  | _, .null => True
  | .string _, _ | .boolean _, _ => True
  | .decimal, .integer _ | .hex _, .integer _ | .octal, .integer _ => True
  | .fixed, .float _ | .scientific _, .float _ => True
  | .character _, .character _ => True
  | .character _, .integer value => IsScalarValue value.toInt
  | _, _ => False

/-- The place of the argument that an index means, behind specifiers with the given
indexes, the nearest one first: in order, one place for each in order before; by
a number, counted from one; or where the nearest one found its argument. -/
def ArgumentIndex.placeBehind : List ArgumentIndex → ArgumentIndex → Option Nat
  | front, .next => some (front.count .next)
  | _, .explicit number => some (number - 1)
  | [], .previous => none
  | index :: front, .previous => index.placeBehind front

/-- The place of an argument, unless there is none that `<` could mean, and what
the argument is selected for. -/
structure Selection where
  place : Option Nat
  conversion : Conversion
  precision : Option Nat
  deriving Repr, DecidableEq

/-- The arguments have one at the place, and of a kind that is accepted. -/
def Selection.Served (arguments : List Argument) (selection : Selection) : Prop :=
  ∃ place argument, selection.place = some place ∧ arguments[place]? = some argument ∧
    selection.conversion.Accepts argument

/-- The argument at the place is to be written with more places than numbers can be
written with. -/
def Selection.Overlong (arguments : List Argument) (selection : Selection) : Prop :=
  ∃ place argument, selection.place = some place ∧ arguments[place]? = some argument ∧
    selection.conversion.WritesPlaces argument ∧ maxPlaces < placesFor selection.precision

/-- Another selection is for the same argument and the same conversion, with a precision
that is no greater than that of the first one or than numbers can be written with. -/
structure Selection.Matches (selection other : Selection) : Prop where
  place : other.place = selection.place
  conversion : other.conversion = selection.conversion
  places : placesFor other.precision ≤ max maxPlaces (placesFor selection.precision)

/-- The specifier of a token, if it can be read and takes an argument. -/
def Token.taker? : Token → Option Spec
  | .specifier modifiers closing =>
    match Spec.read modifiers closing with
    | .ok spec => if spec.conversion.takesArgument then some spec else none
    | .error _ => none
  | .text _ | .invalid _ => none

/-- What specifiers select, behind others with the given indexes. -/
def selectionsBehind (front : List ArgumentIndex) : List Spec → List Selection
  | [] => []
  | spec :: rest =>
    ⟨spec.index.placeBehind front, spec.conversion, spec.precision⟩
      :: selectionsBehind (spec.index :: front) rest

/-- What a format string selects, in order. -/
def selections (format : String) : List Selection :=
  selectionsBehind [] ((scan format.toList).filterMap Token.taker?)

/-- A token that is no lone percent sign, and can be read if it is a specifier. -/
def Token.Sound : Token → Prop
  | .specifier modifiers closing => ∃ spec, Spec.read modifiers closing = .ok spec
  | .text _ => True
  | .invalid _ => False

/-- There is nothing wrong with a format string in itself. -/
def WellFormed (format : String) : Prop :=
  ∀ token ∈ scan format.toList, token.Sound

theorem ArgumentIndex.placeBehind_next (front : List ArgumentIndex) :
    ArgumentIndex.next.placeBehind front = some (front.count .next) := by
  cases front <;> rfl

theorem ArgumentIndex.placeBehind_explicit (number : Nat) (front : List ArgumentIndex) :
    (ArgumentIndex.explicit number).placeBehind front = some (number - 1) := by
  cases front <;> rfl

theorem ArgumentIndex.placeBehind_previous (index : ArgumentIndex) (front : List ArgumentIndex) :
    ArgumentIndex.previous.placeBehind (index :: front) = index.placeBehind front := rfl

theorem Conversion.accepts_null (conversion : Conversion) : conversion.Accepts .null := by
  cases conversion <;> trivial

theorem isSome_scalar?_iff {code : Int} : (scalar? code).isSome ↔ IsScalarValue code := by
  unfold scalar? IsScalarValue Nat.isValidChar
  split
  · next h => simp only [Option.isSome_some, true_iff]; omega
  · next h => simp only [Option.isSome_none, Bool.false_eq_true, false_iff]; omega

end MailMerge.Format
