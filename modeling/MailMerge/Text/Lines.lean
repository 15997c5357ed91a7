import MailMerge.Text.Span

/-!
# Lines

A text is cut after every line break of Unicode; a carriage return and a line
feed together are one. Each line keeps its break, so the lines together are the
text. There is no empty last line, and an empty text has no lines at all.
-/

namespace MailMerge

/-- The characters that end a line. -/
def isLineBreak (c : Char) : Bool :=
  "\n\x0b\x0c\r\u0085\u2028\u2029".toList.contains c

/-- The lines of a text, with their breaks. -/
def splitLines : List Char → List (List Char)
  | [] => []
  | '\r' :: '\n' :: rest => ['\r', '\n'] :: splitLines rest
  | c :: rest =>
    if isLineBreak c then [c] :: splitLines rest
    else
      match splitLines rest with
      | [] => [[c]]
      | line :: others => (c :: line) :: others

theorem flatten_splitLines (text : List Char) : (splitLines text).flatten = text := by
  fun_induction splitLines text with
  | case1 => rfl
  | case2 rest ih => simp [ih]
  | case3 c rest _ _ ih => simp [ih]
  | case4 c rest _ _ h ih => rw [h] at ih; simp_all
  | case5 c rest _ _ line others h ih => rw [h] at ih; simp_all

/-- The lines of a text with their places, counted in characters. -/
def numberedLines (text : List Char) : List (Span × List Char) :=
  layOut List.length 0 (splitLines text)

end MailMerge
