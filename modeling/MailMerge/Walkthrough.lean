import MailMerge.Writing

/-!
# A walkthrough

A short demonstration on people that come with the program: one person written
alone, and three as a list.
-/

namespace MailMerge

structure Person where
  name : String
  age : Nat
  deriving Repr, DecidableEq

def Person.fields (person : Person) : Fields :=
  .ofEntries [("name", some person.name), ("age", some (toString person.age))]

def walkthroughTemplate : String :=
  "$\x7bname\x7d, $\x7bage\x7d years old"

/-- The person written alone. -/
def soloist : Person := ⟨"Elliot Alderson", 30⟩

/-- The people written as a list. -/
def ensemble : List Person :=
  [⟨"Carl Johnson", 37⟩, ⟨"Big Smoke", 43⟩, ⟨"OG Loc", 35⟩]

def walkthrough : Writer :=
  (Writer.chunk "Testing string formatting...\n".toList).andThen <|
    (writeObject soloist.fields (walkthroughTemplate ++ "\n\n")).andThen <|
      (Writer.chunk "Testing list formatting...\n".toList).andThen <|
        writeList (ensemble.map Person.fields) walkthroughTemplate .lines

end MailMerge
