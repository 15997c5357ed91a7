import MailMerge.Text.Span

/-!
# Pieces of a template

A template is text with placeholders: a dollar sign and a name in braces, where
the name has only ASCII letters, digits, underscores and points. A template
falls into tokens that together are the template again, character for
character. What looks like a placeholder but is never closed is ordinary text,
up to the character that spoilt it, where the search for placeholders goes on.
-/

namespace MailMerge.Template

inductive Token
  /-- A placeholder, by its name. -/
  | placeholder (name : List Char)
  /-- A dollar sign with no brace behind it. -/
  | dollar
  /-- Text that stands for itself. -/
  | text (content : List Char)
  deriving Repr, DecidableEq

def Token.raw : Token → List Char
  | .placeholder name => '$' :: '{' :: name ++ ['}']
  | .dollar => ['$']
  | .text content => content

def isNameChar (c : Char) : Bool :=
  c.isAlphanum || c == '_' || c == '.'

/-- The token that a template begins with, and the template after it. -/
def firstToken (c : Char) (rest : List Char) : Token × List Char :=
  if c = '$' then
    match rest with
    | '{' :: inner =>
      match inner.dropWhile isNameChar with
      | '}' :: after => (.placeholder (inner.takeWhile isNameChar), after)
      | after => (.text ('$' :: '{' :: inner.takeWhile isNameChar), after)
    | after => (.dollar, after)
  else (.text (c :: rest.takeWhile (· ≠ '$')), rest.dropWhile (· ≠ '$'))

/-- The first token and what follows it make up the template. -/
theorem raw_firstToken_append (c : Char) (rest : List Char) :
    (firstToken c rest).1.raw ++ (firstToken c rest).2 = c :: rest := by
  unfold firstToken
  split
  · next hc =>
    subst hc
    split
    · next inner =>
      have h := List.takeWhile_append_dropWhile (p := isNameChar) (l := inner)
      split
      · next after he => rw [he] at h; simp [Token.raw, h]
      · simp [Token.raw]
    · rfl
  · simp [Token.raw]

theorem raw_firstToken_ne_nil (c : Char) (rest : List Char) :
    (firstToken c rest).1.raw ≠ [] := by
  unfold firstToken
  split
  · split
    · split <;> simp [Token.raw]
    · simp [Token.raw]
  · simp [Token.raw]

theorem length_firstToken_lt (c : Char) (rest : List Char) :
    (firstToken c rest).2.length < (c :: rest).length := by
  have h := congrArg List.length (raw_firstToken_append c rest)
  have := List.length_pos_iff.mpr (raw_firstToken_ne_nil c rest)
  rw [List.length_append] at h
  omega

def scan : List Char → List Token
  | [] => []
  | c :: rest => (firstToken c rest).1 :: scan (firstToken c rest).2
termination_by template => template.length
decreasing_by exact length_firstToken_lt c rest

/-- Nothing of a template is lost, and nothing added. -/
theorem flatMap_raw_scan (template : List Char) :
    (scan template).flatMap Token.raw = template := by
  fun_induction scan template with
  | case1 => rfl
  | case2 c rest ih => rw [List.flatMap_cons, ih, raw_firstToken_append]

/-- The tokens of a template with their places. -/
def tokens (template : String) : List (Span × Token) :=
  layOut (fun token => byteLength token.raw) 0 (scan template.toList)

end MailMerge.Template
