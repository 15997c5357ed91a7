import MailMerge.Number.Layout
import MailMerge.Number.Rounding

/-!
# Arguments

The values that the specifiers of a format string are filled with. Integers
have 64 bits and two's complement, because the hexadecimal and octal
conversions show just that.
-/

namespace MailMerge.Format

inductive Argument
  | text (content : String)
  | integer (value : Int64)
  | float (value : Binary64)
  | boolean (value : Bool)
  | character (value : Char)
  /-- An absent value. -/
  | null
  deriving DecidableEq

inductive ArgumentKind
  | text
  | integer
  | float
  | boolean
  | character
  | null
  deriving Repr, DecidableEq

namespace Argument

def kind : Argument → ArgumentKind
  | .text _ => .text
  | .integer _ => .integer
  | .float _ => .float
  | .boolean _ => .boolean
  | .character _ => .character
  | .null => .null

def plain : Argument → List Char
  | .text content => content.toList
  | .integer value => intText value.toInt
  | .float value => argumentLayout.text value
  | .boolean value => if value then "true".toList else "false".toList
  | .character value => [value]
  | .null => "null".toList

/-- A 32-bit floating-point number as an argument. -/
def ofBinary32 (pattern : UInt32) : Argument :=
  .float (.ofBinary32 pattern)

/-- A value that may be absent. -/
def ofOption (value : Option Argument) : Argument :=
  value.getD .null

end Argument

def ArgumentKind.describe : ArgumentKind → String
  | .text => "a string"
  | .integer => "an integer"
  | .float => "a float"
  | .boolean => "a boolean"
  | .character => "a character"
  | .null => "null"

end MailMerge.Format
