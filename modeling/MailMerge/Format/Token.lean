import MailMerge.Text.Span

/-!
# Pieces of a format string

A format string is text with specifiers: a percent sign, any number of
modifiers and a closing ASCII letter or percent sign. A format string falls
into tokens that together are the format string again. A percent sign whose
modifiers run out without a closing character is invalid, and its token ends
where they do.
-/

namespace MailMerge.Format

inductive Token
  /-- A specifier, by its modifiers and its closing character. -/
  | specifier (modifiers : List Char) (closing : Char)
  /-- Text that stands for itself. -/
  | text (content : List Char)
  /-- A percent sign with modifiers that nothing closes. -/
  | invalid (modifiers : List Char)
  deriving Repr, DecidableEq

def Token.raw : Token → List Char
  | .specifier modifiers closing => '%' :: modifiers ++ [closing]
  | .text content => content
  | .invalid modifiers => '%' :: modifiers

/-- The characters between the percent sign and the closing character. -/
def isModifier (c : Char) : Bool :=
  c.isDigit || "-#+ ,<$.".toList.contains c

def isClosing (c : Char) : Bool :=
  c.isAlpha || c == '%'

/-- The token that a format string begins with, and the format string after
it. -/
def firstToken (c : Char) (rest : List Char) : Token × List Char :=
  if c = '%' then
    let modifiers := rest.takeWhile isModifier
    match rest.dropWhile isModifier with
    | [] => (.invalid modifiers, [])
    | d :: after =>
      if isClosing d then (.specifier modifiers d, after) else (.invalid modifiers, d :: after)
  else (.text (c :: rest.takeWhile (· ≠ '%')), rest.dropWhile (· ≠ '%'))

/-- The first token and what follows it make up the format string. -/
theorem raw_firstToken_append (c : Char) (rest : List Char) :
    (firstToken c rest).1.raw ++ (firstToken c rest).2 = c :: rest := by
  unfold firstToken
  split
  · next hc =>
    subst hc
    have h := List.takeWhile_append_dropWhile (p := isModifier) (l := rest)
    split
    · next he => rw [he] at h; simp_all [Token.raw]
    · next d after he =>
      rw [he] at h
      split <;> simp [Token.raw, h]
  · simp [Token.raw]

theorem raw_firstToken_ne_nil (c : Char) (rest : List Char) :
    (firstToken c rest).1.raw ≠ [] := by
  unfold firstToken
  split
  · split
    · simp [Token.raw]
    · split <;> simp [Token.raw]
  · simp [Token.raw]

theorem length_firstToken_lt (c : Char) (rest : List Char) :
    (firstToken c rest).2.length < (c :: rest).length := by
  have h := congrArg List.length (raw_firstToken_append c rest)
  have := List.length_pos_iff.mpr (raw_firstToken_ne_nil c rest)
  rw [List.length_append] at h
  omega

def scan : List Char → List Token
  | [] => []
  | c :: rest => (firstToken c rest).1 :: scan (firstToken c rest).2
termination_by format => format.length
decreasing_by exact length_firstToken_lt c rest

/-- Nothing of a format string is lost, and nothing added. -/
theorem flatMap_raw_scan (format : List Char) : (scan format).flatMap Token.raw = format := by
  fun_induction scan format with
  | case1 => rfl
  | case2 c rest ih => rw [List.flatMap_cons, ih, raw_firstToken_append]

/-- The tokens of a format string with their places. -/
def tokens (format : String) : List (Span × Token) :=
  layOut (fun token => byteLength token.raw) 0 (scan format.toList)

end MailMerge.Format
