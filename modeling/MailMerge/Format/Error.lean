import MailMerge.Text.Span
import MailMerge.Format.Argument

/-!
# What can be wrong with a format string

Every fault belongs to one piece of the format string, and the error names that
piece and its place.

There is one way to come to no text without an error. Numbers can be written with
so many places and no more, and where one is asked for with more than that the run
breaks off: nothing is returned.
-/

namespace MailMerge.Format

inductive Fault
  /-- It asks for an argument that is not there. -/
  | missingArgument
  /-- It does not apply to arguments of this kind. -/
  | illegalConversion (found : ArgumentKind)
  /-- It is malformed, or its closing character has no meaning. -/
  | unknownConversion
  /-- It has a precision that is malformed or that it must not have. -/
  | illegalPrecision
  deriving Repr, DecidableEq

/-- A fault, the text it was found in, and the place of that text. -/
structure Error where
  fault : Fault
  specifier : String
  span : Span
  deriving Repr, DecidableEq

/-- Why there is no text. -/
inductive Failure (ε : Type)
  /-- There is an error, and it is returned. -/
  | returned (error : ε)
  /-- A number should have more places than numbers can be written with. Nothing is
  returned, and the run breaks off. -/
  | tooManyPlaces
  deriving Repr, DecidableEq

def Failure.map {ε δ : Type} (f : ε → δ) : Failure ε → Failure δ
  | .returned error => .returned (f error)
  | .tooManyPlaces => .tooManyPlaces

/-- A result that, if it is an error, is returned. -/
def returning {ε α : Type} : Except ε α → Except (Failure ε) α
  | .ok value => .ok value
  | .error error => .error (.returned error)

def Error.message (error : Error) : String :=
  match error.fault with
  | .missingArgument => "missing argument for format specifier '" ++ error.specifier ++ "'"
  | .illegalConversion found =>
    "format specifier '" ++ error.specifier ++ "' cannot be applied to " ++ found.describe
  | .unknownConversion => "unknown format conversion '" ++ error.specifier ++ "'"
  | .illegalPrecision => "precision not allowed in format specifier '" ++ error.specifier ++ "'"

def Fault.hint : Fault → String
  | .missingArgument => "no argument left for this specifier"
  | .illegalConversion found => "argument is " ++ found.describe
  | .unknownConversion => "use %% for a literal percent sign"
  | .illegalPrecision => "remove the .precision part"

end MailMerge.Format
