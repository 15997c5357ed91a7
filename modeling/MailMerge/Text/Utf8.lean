/-!
# Reading UTF-8

Files have to be UTF-8 throughout. A text that was cut off after some number of
bytes is shown up to its last whole character.
-/

namespace MailMerge

/-- The text that the bytes are the UTF-8 form of, if there is one. -/
def utf8Text? (bytes : List UInt8) : Option String :=
  String.fromUTF8? bytes.toByteArray

/-- The text of a UTF-8 form that was cut off: a character that lost its end
is shown as U+FFFD. At most three bytes of a character can be there without
the last one. -/
def cutText (bytes : List UInt8) : String :=
  match utf8Text? bytes with
  | some text => text
  | none =>
    match [1, 2, 3].findSome? fun lost => utf8Text? (bytes.take (bytes.length - lost)) with
    | some text => text.push '\uFFFD'
    | none => "\uFFFD"

end MailMerge
