import MailMerge.Text.Blank
import MailMerge.Text.Lines

/-!
# Drawing remarks on a text

A report shows the lines of a text that somebody has remarks on. Under each of
them, lines in colour lead from the characters remarked on to the remarks.
Places are counted in characters here. A remark is left out if it lies past the
end of the text, and it is not drawn if it runs over the end of a line.
-/

namespace MailMerge

/-- A remark on some characters of a text. -/
structure Report.Label where
  /-- The characters, by their numbers. -/
  span : Span
  message : String
  deriving Repr, DecidableEq

/-- What a report says. -/
structure Report where
  /-- The word before the message. -/
  word : String
  /-- The number of the colour of the word and of the lines to the remarks. -/
  color : String
  message : String
  /-- The character that the report as a whole is about. -/
  location : Nat
  labels : List Report.Label
  deriving Repr, DecidableEq

namespace Report

/-- The numbers of the colours of the margin, of skipped lines, and of
characters without a remark. -/
def marginColor : String := "38;5;246"

@[inherit_doc marginColor]
def skippedColor : String := "38;5;240"

@[inherit_doc marginColor]
def plainColor : String := "38;5;249"

/-- A text in a colour. -/
def paint (color text : String) : String :=
  "\x1b[" ++ color ++ "m" ++ text ++ "\x1b[0m"

/-- A text several times. -/
def repeated (count : Nat) (text : String) : String :=
  String.join (List.replicate count text)

/-- The lines of a text and the number of its characters. -/
structure Source where
  lines : List (Span × List Char)
  size : Nat

def Source.of (text : List Char) : Source :=
  ⟨numberedLines text, text.length⟩

/-- The number of the line, counted from zero, that a character is on. The
place after the last character is on the last line. -/
def Source.lineOf? (source : Source) (offset : Nat) : Option Nat :=
  if source.size < offset ∨ source.lines = [] then none
  else some ((source.lines.filter fun line => decide (line.1.start ≤ offset)).length - 1)

/-- The last character of a span; of an empty one, the place itself. -/
def lastOf (span : Span) : Nat :=
  max (span.stop - 1) span.start

/-- A line with the remarks on it, and the columns in which they are drawn:
the middle of the characters they are about. -/
structure MarkedLine where
  start : Nat
  text : List Char
  marks : List (Nat × Label)

namespace MarkedLine

/-- The remarks that lie wholly on a line, from left to right. -/
def of (line : Span × List Char) (labels : List Label) : MarkedLine where
  start := line.1.start
  text := trimEnd line.2
  marks :=
    let inside := labels.filter fun label =>
      decide (line.1.start ≤ label.span.start) && decide (label.span.stop ≤ line.1.stop)
    let placed := inside.map fun label =>
      ((label.span.start + label.span.stop) / 2 - line.1.start, label)
    placed.mergeSort fun a b =>
      decide (a.1 < b.1) || (a.1 == b.1 && decide (b.2.span.start ≤ a.2.span.start))

/-- The cells that a column takes; a tab reaches to the next multiple of four. -/
def cells (line : MarkedLine) (column : Nat) : Nat :=
  if line.text[column]? = some '\t' then 4 - column % 4 else 1

/-- Whether there is a remark on the character in a column. -/
def covered (line : MarkedLine) (column : Nat) : Bool :=
  line.marks.any fun mark =>
    decide (mark.2.span.start ≤ line.start + column)
      && decide (line.start + column < mark.2.span.stop)

/-- The column in which the remarks themselves begin. -/
def arrowEnd (line : MarkedLine) : Nat :=
  (line.marks.map fun mark => mark.2.span.stop - line.start).foldl max 0 + 2

/-- Whether the line to one of the remarks from `row` on goes through a
column. -/
def hasBar (line : MarkedLine) (row column : Nat) : Bool :=
  (line.marks.drop row).any fun mark => mark.1 == column

/-- A character of the line. -/
def drawChar (line : MarkedLine) (color : String) (column : Nat) (c : Char) : String :=
  let color := if line.covered column then color else plainColor
  if isBlank c then repeated (line.cells column) (paint color " ")
  else paint color (String.singleton c)

/-- One column of a drawn row: what stands in its first cell, and what fills
the others. -/
def drawCells (line : MarkedLine) (column : Nat) (head tail : String) : String :=
  head ++ repeated (line.cells column - 1) tail

/-- The row above a remark: the lines to it and to the ones after it. Above the
first remark the characters remarked on are underlined. -/
def drawBars (line : MarkedLine) (color : String) (row column : Nat) : String :=
  let underlined := row == 0 && line.covered column
  if line.hasBar row column then
    if underlined then line.drawCells column (paint color "┬") (paint color "─")
    else line.drawCells column (paint color "│") (paint color " ")
  else if underlined then line.drawCells column (paint color "─") (paint color "─")
  else line.drawCells column " " " "

/-- The row of a remark: the turn of its line, and the lines to the remarks
after it. -/
def drawTurn (line : MarkedLine) (color : String) (row turn column : Nat) : String :=
  if column = turn then line.drawCells column (paint color "╰") (paint color "─")
  else if turn < column then line.drawCells column (paint color "─") (paint color "─")
  else if line.hasBar row column then line.drawCells column (paint color "│") (paint color " ")
  else line.drawCells column " " " "

/-- The rows under the line, two for each remark. -/
def drawMarks (line : MarkedLine) (color gap : String) : String :=
  let columns := List.range line.arrowEnd
  String.join <| line.marks.mapIdx fun row mark =>
    gap ++ String.join (columns.map (line.drawBars color row)) ++ "\n"
      ++ gap ++ String.join (columns.map (line.drawTurn color row mark.1))
      ++ " " ++ mark.2.message ++ "\n"

/-- The characters of the line. -/
def drawText (line : MarkedLine) (color : String) : String :=
  String.join (line.text.mapIdx (line.drawChar color))

end MarkedLine

/-- The lines of a report from the first to the last that has a remark. Of
consecutive lines without one only a gap is left. -/
def drawLines (color : String) (width : Nat) (labels : List Label) :
    Bool → List (Nat × Span × List Char) → String
  | _, [] => ""
  | skipping, (number, line) :: rest =>
    let gap := " " ++ paint skippedColor (repeated (width + 1) " " ++ "│") ++ " "
    let marked := MarkedLine.of line labels
    if marked.marks.isEmpty then
      (if skipping then "" else gap ++ "\n") ++ drawLines color width labels true rest
    else
      let digits := toString (number + 1)
      " " ++ paint marginColor (repeated (width - digits.length) " " ++ digits ++ " │") ++ " "
        ++ marked.drawText color ++ "\n" ++ marked.drawMarks color gap
        ++ drawLines color width labels false rest

/-- A report on a text, which is called by a name. -/
def draw (report : Report) (name : String) (text : List Char) : String :=
  let source := Source.of text
  let title := paint report.color (report.word ++ ":") ++ " " ++ report.message ++ "\n"
  let labels := report.labels.filter fun label =>
    (source.lineOf? label.span.start).isSome && (source.lineOf? (lastOf label.span)).isSome
  match labels with
  | [] => title
  | first :: others =>
    let low := others.foldl (fun low label => min low label.span.start) first.span.start
    let high := others.foldl (fun high label => max high label.span.stop) first.span.stop
    let firstLine := (source.lineOf? low).getD 0
    let lastLine := (source.lineOf? (lastOf ⟨low, high⟩)).getD 0
    let width := (toString (lastLine + 1)).length
    let place :=
      match source.lineOf? report.location with
      | some line =>
        let start := (source.lines[line]?.map fun l => l.1.start).getD 0
        toString (line + 1) ++ ":" ++ toString (report.location - start + 1)
      | none => "?:?"
    let shown := (source.lines.mapIdx fun number line => (number, line)).filter fun line =>
      decide (firstLine ≤ line.1) && decide (line.1 ≤ lastLine)
    let indent := repeated (width + 2) " "
    title
      ++ indent ++ paint marginColor "╭" ++ paint marginColor "─" ++ paint marginColor "["
      ++ name ++ ":" ++ place ++ paint marginColor "]" ++ "\n"
      ++ indent ++ paint marginColor "│" ++ "\n"
      ++ drawLines report.color width labels false shown
      ++ paint marginColor (repeated (width + 2) "─" ++ "╯") ++ "\n"

end Report

end MailMerge
