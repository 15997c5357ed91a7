import MailMerge.Format.Fill

/-!
# Arguments by their numbers

A specifier need not name its argument by a number: without an index it takes
the next argument in order, and `<` takes the one that was taken last. Both
depend on the specifiers in front of it. A format string can be rewritten so
that they do not: every specifier that takes an argument is given the number of
that argument, and nothing else of its text is touched. The numbers can be told
from the format string alone.
-/

namespace MailMerge.Format

/-- How a token names its argument, if it is a specifier that takes one. -/
def Token.takes? : Token → Option ArgumentIndex
  | .specifier modifiers closing =>
    match Spec.read modifiers closing with
    | .ok spec => if spec.conversion.takesArgument then some spec.index else none
    | .error _ => none
  | .text _ | .invalid _ => none

/-- What stands behind `<`, if a specifier begins with it. -/
def afterPrevious : List Char → List Char
  | '<' :: rest => rest
  | modifiers => modifiers

/-- A specifier with a number for its index, in place of `<` or of nothing. -/
def Token.numbered (number : Nat) : Token → Token
  | .specifier modifiers closing =>
    .specifier (digitsOf number ++ '$' :: afterPrevious modifiers) closing
  | token => token

/-- How far the arguments have been numbered. -/
structure Numbering where
  /-- How many specifiers have taken the next argument in order. -/
  inOrder : Nat
  /-- The number of the argument that was taken last. -/
  last : Option Nat
  deriving Repr, DecidableEq

namespace Numbering

def start : Numbering := ⟨0, none⟩

/-- A token with its argument's number. Where nothing was taken before, `<`
stays. -/
def token (numbering : Numbering) (token : Token) : Token :=
  match token.takes? with
  | some .next => token.numbered (numbering.inOrder + 1)
  | some .previous =>
    match numbering.last with
    | some number => token.numbered number
    | none => token
  | some (.explicit _) | none => token

def after (numbering : Numbering) (token : Token) : Numbering :=
  match token.takes? with
  | some .next => ⟨numbering.inOrder + 1, some (numbering.inOrder + 1)⟩
  | some (.explicit number) => ⟨numbering.inOrder, some number⟩
  | some .previous | none => numbering

end Numbering

def numberTokens (numbering : Numbering) : List Token → List Token
  | [] => []
  | token :: rest => numbering.token token :: numberTokens (numbering.after token) rest

/-- A format string with its arguments' numbers. -/
def numbered (format : String) : String :=
  String.ofList ((numberTokens .start (scan format.toList)).flatMap Token.raw)

@[simp] theorem numberTokens_nil (numbering : Numbering) : numberTokens numbering [] = [] := rfl

@[simp] theorem numberTokens_cons (numbering : Numbering) (token : Token) (rest : List Token) :
    numberTokens numbering (token :: rest)
      = numbering.token token :: numberTokens (numbering.after token) rest := rfl

theorem numberTokens_append (numbering : Numbering) (front back : List Token) :
    numberTokens numbering (front ++ back)
      = numberTokens numbering front ++ numberTokens (front.foldl Numbering.after numbering) back := by
  induction front generalizing numbering with
  | nil => rfl
  | cons token front ih =>
    rw [List.cons_append, numberTokens_cons, ih, numberTokens_cons, List.foldl_cons,
      List.cons_append]

theorem length_numberTokens (numbering : Numbering) (pieces : List Token) :
    (numberTokens numbering pieces).length = pieces.length := by
  induction pieces generalizing numbering with
  | nil => rfl
  | cons token rest ih => rw [numberTokens_cons, List.length_cons, ih, List.length_cons]

end MailMerge.Format
