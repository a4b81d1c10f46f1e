import FrameGraph.Proofs.Text.Comments

/-! # Rows of tokens that are read back

Not every row of tokens is the row of its own text: two words without a gap are one word, and a slash in front of a
slash starts a comment. A row is read back where each of its tokens ends in front of what follows it, and this hangs
on the next character only. So a row stays readable when a word is spelled otherwise or when what follows it starts
with the same character, and texts can be put together from rows.
-/

namespace FrameGraph.Text

/-- Spelled like a word: a letter or an underscore first, then letters, digits and underscores. -/
def isIdentifier : List Char → Bool
  | [] => false
  | c :: rest => isWordStart c && rest.all isWordChar

/-- Letters are those from `A` to `Z` and from `a` to `z`. -/
theorem isAlpha_eq (c : Char) : c.isAlpha = (decide ('A'.val ≤ c.val ∧ c.val ≤ 'Z'.val) ||
    decide ('a'.val ≤ c.val) && decide (c.val ≤ 'z'.val)) := rfl

theorem isWordChar_of_isWordStart {c : Char} (start : isWordStart c = true) : isWordChar c = true := by
  simp only [isWordStart, isWordChar, Char.isAlphanum, Bool.or_eq_true] at *
  tauto

theorem isIdentifier_cons {c : Char} {rest : List Char} :
    isIdentifier (c :: rest) = true ↔ isWordStart c = true ∧ ∀ d ∈ rest, isWordChar d = true := by
  simp [isIdentifier]

/-- A name with letters, digits and underscores behind it is a name. -/
theorem isIdentifier_append {name more : List Char} (spelled : isIdentifier name = true)
    (words : ∀ c ∈ more, isWordChar c = true) : isIdentifier (name ++ more) = true := by
  cases name with
  | nil => cases spelled
  | cons c name =>
    obtain ⟨start, inside⟩ := isIdentifier_cons.mp spelled
    exact isIdentifier_cons.mpr ⟨start, List.forall_mem_append.mpr ⟨inside, words⟩⟩

theorem ne_nil_of_isIdentifier {text : List Char} (spelled : isIdentifier text = true) : text ≠ [] := by
  rintro rfl
  cases spelled

theorem isWordChar_of_mem {text : List Char} (spelled : isIdentifier text = true) {c : Char} (member : c ∈ text) :
    isWordChar c = true := by
  cases text with
  | nil => cases member
  | cons first rest =>
    obtain ⟨start, inside⟩ := isIdentifier_cons.mp spelled
    rcases List.mem_cons.mp member with rfl | later
    · exact isWordChar_of_isWordStart start
    · exact inside c later

/-! ## Block comments that are closed -/

/-- The inside of a block comment that is `depth` levels open, up to and with its closing mark. -/
inductive Closes : Nat → List Char → Prop where
  | done : Closes 0 []
  | opening {depth : Nat} {text : List Char} (rest : Closes (depth + 2) text) :
      Closes (depth + 1) ('/' :: '*' :: text)
  | closing {depth : Nat} {text : List Char} (rest : Closes depth text) : Closes (depth + 1) ('*' :: '/' :: text)
  | other {depth : Nat} {c d : Char} {text : List Char} (apart : ¬ (c = '/' ∧ d = '*') ∧ ¬ (c = '*' ∧ d = '/'))
      (rest : Closes (depth + 1) (d :: text)) : Closes (depth + 1) (c :: d :: text)

theorem splitBlock_other {depth : Nat} {c d : Char} {text : List Char}
    (apart : ¬ (c = '/' ∧ d = '*') ∧ ¬ (c = '*' ∧ d = '/')) :
    splitBlock (depth + 1) (c :: d :: text) =
      (c :: (splitBlock (depth + 1) (d :: text)).1, (splitBlock (depth + 1) (d :: text)).2) := by
  rw [splitBlock.eq_5]
  · rintro rest rfl same
    cases same
    exact apart.1 ⟨rfl, rfl⟩
  · rintro rest rfl same
    cases same
    exact apart.2 ⟨rfl, rfl⟩

/-- A closed comment is cut off whatever follows. -/
theorem Closes.splitBlock_append {depth : Nat} {text : List Char} (closed : Closes depth text) (rest : List Char) :
    splitBlock depth (text ++ rest) = (text, rest) := by
  induction closed with
  | done => simp [splitBlock]
  | opening _ ih => simp [splitBlock, ih]
  | closing _ ih => simp [splitBlock, ih]
  | other apart _ ih =>
    rw [List.cons_append, List.cons_append, splitBlock_other apart, ← List.cons_append, ih]

/-- A comment is closed, or it runs to the end. -/
theorem closes_splitBlock (depth : Nat) (text : List Char) :
    Closes depth (splitBlock depth text).1 ∨ (splitBlock depth text).2 = [] := by
  fun_induction splitBlock depth text with
  | case1 => exact .inl .done
  | case2 => exact .inr rfl
  | case3 depth rest inside after split ih =>
    rw [split] at ih
    exact ih.imp_left .opening
  | case4 depth rest inside after split ih =>
    rw [split] at ih
    exact ih.imp_left .closing
  | case5 depth c rest notOpening notClosing inside after split ih =>
    rw [split] at ih
    refine ih.imp_left fun closed => ?_
    have whole := FrameGraph.Text.splitBlock_append (depth + 1) rest
    rw [split] at whole
    cases inside with
    | nil => cases closed
    | cons d inside =>
      refine .other ⟨?_, ?_⟩ closed
      · rintro ⟨rfl, rfl⟩
        exact notOpening (inside ++ after) rfl whole.symm
      · rintro ⟨rfl, rfl⟩
        exact notClosing (inside ++ after) rfl whole.symm

/-! ## Tokens in front of a text -/

/-- In front of `rest` the token is read as it stands. -/
def Token.EndsAt (token : Token) (rest : List Char) : Prop :=
  ∃ c more, token.chars = c :: more ∧ firstToken c (more ++ rest) = (token, rest)

theorem Token.EndsAt.tokens_eq {token : Token} {rest : List Char} (ends : token.EndsAt rest) :
    tokens (token.chars ++ rest) = token :: tokens rest := by
  obtain ⟨c, more, chars, first⟩ := ends
  rw [chars, List.cons_append, tokens, first]

/-- A token is read back in front of what was left when it was read. -/
theorem endsAt_firstToken (c : Char) (rest : List Char) :
    (firstToken c rest).1.EndsAt (firstToken c rest).2 := by
  have whole := firstToken_append c rest
  cases chars : (firstToken c rest).1.chars with
  | nil =>
    rw [chars, List.nil_append] at whole
    have shorter := firstToken_length_lt c rest
    rw [whole] at shorter
    omega
  | cons d more =>
    rw [chars, List.cons_append, List.cons.injEq] at whole
    obtain ⟨rfl, same⟩ := whole
    refine ⟨d, more, chars, ?_⟩
    rw [same]

theorem endsAt_word {text rest : List Char} :
    (Token.word text).EndsAt rest ↔
      isIdentifier text = true ∧ ∀ c, rest.head? = some c → isWordChar c = false := by
  constructor
  · rintro ⟨c, more, rfl, first⟩
    cases starts c (more ++ rest) with
    | line read => simp [read] at first
    | block read => simp [read] at first
    | char read => simp [read] at first
    | word read start =>
      rw [read, Prod.mk.injEq, Token.word.injEq, List.cons.injEq] at first
      obtain ⟨⟨-, inside⟩, after⟩ := first
      refine ⟨isIdentifier_cons.mpr ⟨start, fun d member => ?_⟩, fun d head => ?_⟩
      · exact List.mem_takeWhile_imp (inside ▸ member)
      · exact head_dropWhile (after ▸ head)
  · rintro ⟨spelled, stop⟩
    cases text with
    | nil => cases spelled
    | cons c more =>
      obtain ⟨start, inside⟩ := isIdentifier_cons.mp spelled
      have bounds := span_append inside stop
      exact ⟨c, more, rfl, by rw [firstToken_word start, bounds.1, bounds.2]⟩

theorem endsAt_char {c : Char} {rest : List Char} :
    (Token.char c).EndsAt rest ↔
      isWordStart c = false ∧ (c = '/' → rest.head? ≠ some '/' ∧ rest.head? ≠ some '*') := by
  constructor
  · rintro ⟨d, more, chars, first⟩
    obtain ⟨rfl, rfl⟩ : d = c ∧ more = [] := by simpa [Token.chars, eq_comm] using chars
    cases starts d rest with
    | line read => simp [read] at first
    | block read => simp [read] at first
    | word read => simp [read] at first
    | char _ bare plain => exact ⟨plain, bare⟩
  · rintro ⟨plain, bare⟩
    exact ⟨c, [], rfl, firstToken_char bare plain⟩

/-- The three kinds of comments, by what may follow them. -/
theorem endsAt_comment {body rest : List Char} (ends : (Token.comment body).EndsAt rest) :
    (∃ text, body = '/' :: '/' :: text ∧ '\n' ∉ text ∧ ∀ c, rest.head? = some c → c = '\n') ∨
      (∃ text, body = '/' :: '*' :: text ∧ Closes 1 text) ∨
      (∃ text, body = '/' :: '*' :: text ∧ splitBlock 1 text = (text, [])) ∧ rest = [] := by
  obtain ⟨c, more, rfl, first⟩ := ends
  cases starts c (more ++ rest) with
  | word read => simp [read] at first
  | char read => simp [read] at first
  | line read second =>
    rw [read, Prod.mk.injEq, Token.comment.injEq, List.cons.injEq] at first
    obtain ⟨⟨rfl, inside⟩, after⟩ := first
    left
    cases more with
    | nil =>
      -- the second slash is part of the comment
      rw [List.nil_append] at inside second
      cases rest with
      | nil => cases second
      | cons d rest =>
        simp only [List.head?_cons, Option.some.injEq] at second
        subst second
        simp at inside
    | cons d more =>
      simp only [List.cons_append, List.head?_cons, Option.some.injEq] at second
      subst second
      refine ⟨more, rfl, fun member => ?_, fun e head => ?_⟩
      · have := List.mem_takeWhile_imp (inside ▸ List.mem_cons_of_mem _ member :
          '\n' ∈ List.takeWhile (· != '\n') _)
        simp at this
      · have := head_dropWhile (after ▸ head)
        simpa using this
  | block read =>
    rw [read, Prod.mk.injEq, Token.comment.injEq, List.cons.injEq] at first
    obtain ⟨⟨rfl, inside⟩, after⟩ := first
    right
    obtain ⟨text, rfl⟩ : ∃ text, more = '*' :: text := ⟨_, inside.symm⟩
    rw [List.cons.injEq] at inside
    rcases closes_splitBlock 1 (text ++ rest) with closed | none
    · left
      exact ⟨text, rfl, inside.2 ▸ closed⟩
    · right
      have done : rest = [] := after.symm.trans none
      subst done
      refine ⟨⟨text, rfl, ?_⟩, rfl⟩
      rw [List.cons_append, List.append_nil, List.tail_cons] at inside after
      exact Prod.ext inside.2 after

theorem comment_starts {body rest : List Char} (ends : (Token.comment body).EndsAt rest) :
    ∃ more, body = '/' :: more := by
  rcases endsAt_comment ends with ⟨text, rfl, -⟩ | ⟨text, rfl, -⟩ | ⟨⟨text, rfl, -⟩, -⟩ <;> exact ⟨_, rfl⟩

theorem endsAt_line {text rest : List Char} (inside : '\n' ∉ text) (stop : ∀ c, rest.head? = some c → c = '\n') :
    (Token.comment ('/' :: '/' :: text)).EndsAt rest := by
  have kept : ∀ c ∈ '/' :: text, (c != '\n') = true := by
    intro c member
    rcases List.mem_cons.mp member with rfl | member
    · decide
    · exact bne_iff_ne.mpr fun same => inside (same ▸ member)
  have next : ∀ c, rest.head? = some c → (c != '\n') = false := fun c head => by simp [stop c head]
  have bounds := span_append kept next
  refine ⟨'/', '/' :: text, rfl, ?_⟩
  rw [firstToken, if_pos ⟨rfl, rfl⟩, bounds.1, bounds.2]

theorem endsAt_block {text rest : List Char} (cut : splitBlock 1 (text ++ rest) = (text, rest)) :
    (Token.comment ('/' :: '*' :: text)).EndsAt rest := by
  refine ⟨'/', '*' :: text, rfl, ?_⟩
  simp [firstToken, cut]

theorem head_chars {text : List Char} (some : text ≠ []) (more : List Char) :
    (text ++ more).head? = text.head? := by
  cases text with
  | nil => contradiction
  | cons c text => rfl

/-- A text that may stand in the place of another after any token: it starts with the same character, or both start
with a word, or it is empty. -/
def Replaces (rest' rest : List Char) : Prop :=
  rest'.head? = rest.head? ∨ rest' = [] ∨
    ∃ c c', rest.head? = some c ∧ rest'.head? = some c' ∧ isWordStart c = true ∧ isWordStart c' = true

/-- A word may stand in the place of another. -/
theorem replaces_word {a b : List Char} (spelled : isIdentifier a = true) (spelled' : isIdentifier b = true)
    (x y : List Char) : Replaces (a ++ x) (b ++ y) := by
  cases a with
  | nil => cases spelled
  | cons c a =>
    cases b with
    | nil => cases spelled'
    | cons d b =>
      exact .inr (.inr ⟨d, c, rfl, rfl, (isIdentifier_cons.mp spelled').1, (isIdentifier_cons.mp spelled).1⟩)

theorem Replaces.head_ne {rest' rest : List Char} (replaces : Replaces rest' rest) {c : Char}
    (plain : isWordStart c = false) (other : rest.head? ≠ some c) : rest'.head? ≠ some c := by
  rcases replaces with same | rfl | ⟨-, d, -, head, -, start⟩
  · rwa [same]
  · simp
  · rintro second
    obtain rfl : d = c := by simpa [head] using second
    rw [start] at plain
    cases plain

/-- Whether a token is read back hangs on the next character only. -/
theorem Token.EndsAt.follow {token : Token} {rest rest' : List Char} (ends : token.EndsAt rest)
    (replaces : Replaces rest' rest) : token.EndsAt rest' := by
  have next : ∀ {p : Char → Prop}, (∀ c, isWordStart c = true → ¬ p c) →
      (∀ c, rest.head? = some c → p c) → ∀ c, rest'.head? = some c → p c := by
    intro p apart holds c head
    rcases replaces with same | none | ⟨d, -, first, -, start, -⟩
    · exact holds c (same ▸ head)
    · simp [none] at head
    · exact absurd (holds d first) (apart d start)
  cases token with
  | word text =>
    obtain ⟨spelled, stop⟩ := endsAt_word.mp ends
    refine endsAt_word.mpr ⟨spelled, next (fun c start stopped => ?_) stop⟩
    rw [isWordChar_of_isWordStart start] at stopped
    cases stopped
  | char c =>
    obtain ⟨plain, bare⟩ := endsAt_char.mp ends
    refine endsAt_char.mpr ⟨plain, fun slash => ?_⟩
    exact ⟨replaces.head_ne rfl (bare slash).1, replaces.head_ne rfl (bare slash).2⟩
  | comment body =>
    rcases endsAt_comment ends with ⟨text, rfl, inside, stop⟩ | ⟨text, rfl, closed⟩ | ⟨⟨text, rfl, cut⟩, rfl⟩
    · refine endsAt_line inside (next (fun c start line => ?_) stop)
      subst line
      revert start
      decide
    · exact endsAt_block (closed.splitBlock_append rest')
    · have none : rest' = [] := by
        rcases replaces with same | none | ⟨c, -, head, -⟩
        · simpa using same
        · exact none
        · cases head
      subst none
      exact endsAt_block (by rw [List.append_nil, cut])

/-! ## Rows in front of a text -/

/-- In front of `rest` the row is read token by token. -/
def Legible (rest : List Char) : List Token → Prop
  | [] => True
  | token :: row => token.EndsAt (render row ++ rest) ∧ Legible rest row

theorem render_append (a b : List Token) : render (a ++ b) = render a ++ render b := by
  simp [render]

theorem Legible.tokens_eq {rest : List Char} {row : List Token} (legible : Legible rest row) :
    tokens (render row ++ rest) = row ++ tokens rest := by
  induction row with
  | nil => rfl
  | cons token row ih =>
    rw [render_cons, List.append_assoc, legible.1.tokens_eq, ih legible.2, List.cons_append]

/-- The row of a text is read back from its own text. -/
theorem Legible.tokens_render {row : List Token} (legible : Legible [] row) : tokens (render row) = row := by
  simpa [tokens] using legible.tokens_eq

theorem legible_tokens (text : List Char) : Legible [] (tokens text) := by
  fun_induction tokens text with
  | case1 => trivial
  | case2 c rest ih =>
    refine ⟨?_, ih⟩
    rw [render_tokens, List.append_nil]
    exact endsAt_firstToken c rest

theorem legible_append {rest : List Char} {a b : List Token} :
    Legible rest (a ++ b) ↔ Legible (render b ++ rest) a ∧ Legible rest b := by
  induction a with
  | nil => simp [Legible]
  | cons token a ih =>
    simp only [List.cons_append, Legible, render_append, List.append_assoc, ih, and_assoc]

theorem head_append {a b b' : List Char} (replaces : Replaces b' b) : Replaces (a ++ b') (a ++ b) := by
  cases a with
  | nil => exact replaces
  | cons c a => exact .inl rfl

/-- What follows a row may be replaced. -/
theorem Legible.follow {rest rest' : List Char} {row : List Token} (legible : Legible rest row)
    (replaces : Replaces rest' rest) : Legible rest' row := by
  induction row with
  | nil => trivial
  | cons token row ih => exact ⟨legible.1.follow (head_append replaces), ih legible.2⟩

/-- A part of a row is read back alone. -/
theorem Legible.alone {rest : List Char} {row : List Token} (legible : Legible rest row) : Legible [] row :=
  legible.follow (.inr (.inl rfl))

end FrameGraph.Text
