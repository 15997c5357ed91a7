import MailMerge.Text.CapitalTable

/-!
# Capital letters

A text in capitals is the text with each character replaced by its capital
form; since some forms have several characters, the text may grow.
-/

namespace MailMerge

def capitalForm (c : Char) : List Char :=
  if c.toNat < 0x80 then [c.toUpper]
  else
    match capitalSequences.find? fun entry => entry.1 == c.toNat with
    | some entry => entry.2.map Char.ofNat
    | none =>
      match capitalRows.findSome? fun row => row.capital? c.toNat with
      | some code => [Char.ofNat code]
      | none => [c]

def capitals (text : List Char) : List Char :=
  text.flatMap capitalForm

@[simp] theorem capitals_append (a b : List Char) :
    capitals (a ++ b) = capitals a ++ capitals b := by
  simp [capitals]

end MailMerge
