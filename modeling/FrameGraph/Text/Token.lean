import FrameGraph.Text.Blank

/-! # Tokens of shader text

A text is a row of comments, words and single characters; putting them back together gives the text.
Line comments end before the line feed, block comments nest, and a comment that is never closed runs
to the end. Words are maximal runs of ASCII letters, digits and underscores that start with no digit;
a digit outside a word is a character of its own, so a word right after one is the tail of a number.
-/

namespace FrameGraph.Text

def isWordStart (c : Char) : Bool := c.isAlpha || c == '_'

def isWordChar (c : Char) : Bool := c.isAlphanum || c == '_'

inductive Token where
  | comment (text : List Char)
  | word (text : List Char)
  | char (c : Char)
deriving DecidableEq, Repr

namespace Token

def chars : Token → List Char
  | .comment text => text
  | .word text => text
  | .char c => [c]

/-- Size in UTF-8 bytes. -/
def size (token : Token) : Nat := utf8Size token.chars

def isComment : Token → Bool
  | .comment _ => true
  | _ => false

end Token

/-- The text of a row of tokens. -/
def render (tokens : List Token) : List Char := tokens.flatMap Token.chars

/-- UTF-8 bytes of a row of tokens. -/
def byteSize : List Token → Nat
  | [] => 0
  | token :: rest => token.size + byteSize rest

/-- Split after the closing mark of a block comment that is `depth` levels open. -/
def splitBlock : Nat → List Char → List Char × List Char
  | 0, rest => ([], rest)
  | _ + 1, [] => ([], [])
  | depth + 1, '/' :: '*' :: rest =>
    let (inside, after) := splitBlock (depth + 2) rest
    ('/' :: '*' :: inside, after)
  | depth + 1, '*' :: '/' :: rest =>
    let (inside, after) := splitBlock depth rest
    ('*' :: '/' :: inside, after)
  | depth + 1, c :: rest =>
    let (inside, after) := splitBlock (depth + 1) rest
    (c :: inside, after)

theorem splitBlock_append (depth : Nat) (text : List Char) :
    (splitBlock depth text).1 ++ (splitBlock depth text).2 = text := by
  fun_induction splitBlock depth text <;> simp_all

/-- The first token of a text that starts with `c`, and the text after it. -/
def firstToken (c : Char) (rest : List Char) : Token × List Char :=
  if c = '/' ∧ rest.head? = some '/' then
    (.comment (c :: rest.takeWhile (· != '\n')), rest.dropWhile (· != '\n'))
  else if c = '/' ∧ rest.head? = some '*' then
    let (inside, after) := splitBlock 1 rest.tail
    (.comment (c :: '*' :: inside), after)
  else if isWordStart c then
    (.word (c :: rest.takeWhile isWordChar), rest.dropWhile isWordChar)
  else (.char c, rest)

theorem firstToken_append (c : Char) (rest : List Char) :
    (firstToken c rest).1.chars ++ (firstToken c rest).2 = c :: rest := by
  unfold firstToken
  split
  · simp [Token.chars]
  · split
    · rename_i h
      obtain ⟨_, h⟩ := h
      cases rest with
      | nil => simp at h
      | cons d rest =>
        simp only [List.head?_cons, Option.some.injEq] at h
        subst h
        simp [Token.chars, splitBlock_append]
    · split <;> simp [Token.chars]

theorem firstToken_length_lt (c : Char) (rest : List Char) :
    (firstToken c rest).2.length < (c :: rest).length := by
  have whole := congrArg List.length (firstToken_append c rest)
  have some_char : 0 < (firstToken c rest).1.chars.length := by
    unfold firstToken
    split
    · simp [Token.chars]
    · split
      · simp [Token.chars]
      · split <;> simp [Token.chars]
  simp only [List.length_append] at whole
  omega

/-- The tokens of a text. -/
def tokens : List Char → List Token
  | [] => []
  | c :: rest => (firstToken c rest).1 :: tokens (firstToken c rest).2
termination_by text => text.length
decreasing_by exact firstToken_length_lt c rest

/-- Tokens lose nothing of their text. -/
theorem render_tokens (text : List Char) : render (tokens text) = text := by
  fun_induction tokens text with
  | case1 => rfl
  | case2 c rest ih =>
    simp only [render] at ih
    simp [render, ih, firstToken_append]

end FrameGraph.Text
