import MailMerge.Format.Apply
import MailMerge.Format.Token

/-!
# Filling a format string with arguments

The specifiers of a format string take their arguments from left to right. Two
things are remembered between them: how many were taken in order, and which
argument was used last. Specifiers that use no argument change neither.
Arguments that no specifier asks for do not matter.
-/

namespace MailMerge.Format

/-- How far the arguments have been used. -/
structure Progress where
  /-- The place of the next argument in order. -/
  next : Nat
  /-- The place of the argument used last. -/
  previous : Option Nat
  deriving Repr, DecidableEq

def Progress.start : Progress := ⟨0, none⟩

/-- The place of the argument that an index asks for. -/
def Progress.place? (progress : Progress) : ArgumentIndex → Option Nat
  | .next => some progress.next
  | .explicit number => some (number - 1)
  | .previous => progress.previous

/-- After an argument was used. Only an index in order moves the order on. -/
def Progress.advance (progress : Progress) (index : ArgumentIndex) (place : Nat) : Progress :=
  match index with
  | .next => ⟨progress.next + 1, some place⟩
  | _ => ⟨progress.next, some place⟩

/-- The argument that a specifier takes, and the progress after it. -/
def select (arguments : List Argument) (progress : Progress) (spec : Spec) :
    Except Fault (Option Argument × Progress) :=
  if spec.conversion.takesArgument then
    match progress.place? spec.index with
    | some place =>
      match arguments[place]? with
      | some argument => .ok (some argument, progress.advance spec.index place)
      | none => .error .missingArgument
    | none => .error .missingArgument
  else .ok (none, progress)

def fillToken (arguments : List Argument) (progress : Progress) :
    Token → Except (Failure Fault) (List Char × Progress)
  | .text content => .ok (content, progress)
  | .invalid _ => .error (.returned .unknownConversion)
  | .specifier modifiers closing => do
    let spec ← returning (Spec.read modifiers closing)
    let (argument, progress) ← returning (select arguments progress spec)
    let text ← spec.apply argument
    return (text, progress)

/-- A result with the place of its fault, if it is one. -/
def located {α : Type} (token : Span × Token) :
    Except (Failure Fault) α → Except (Failure Error) α
  | .ok value => .ok value
  | .error failure =>
    .error (failure.map fun fault => ⟨fault, String.ofList token.2.raw, token.1⟩)

/-- Fills the tokens one after the other and stops at the first one that comes to no
text. -/
def fillTokens (arguments : List Argument) (progress : Progress) :
    List (Span × Token) → Except (Failure Error) (List Char)
  | [] => .ok []
  | token :: rest => do
    let (text, progress) ← located token (fillToken arguments progress token.2)
    let others ← fillTokens arguments progress rest
    return text ++ others

/-- A format string with its specifiers replaced by the arguments they take. -/
def fill (format : String) (arguments : List Argument) : Except (Failure Error) String := do
  let text ← fillTokens arguments .start (tokens format)
  return String.ofList text

end MailMerge.Format
