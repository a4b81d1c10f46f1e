import FrameGraph.Text.Identifier
import Mathlib.Data.List.Induction
import Mathlib.Data.List.TakeWhile

/-! # Comments and free words

Replacing each comment of a text by a space leaves its other tokens as they are, place by place. Which
words are free need not stay the same, since the character that decides is looked for in comments too:
a line comment that ends in `.` or `@` hides the word after it, and any other comment between a `.` or
`@` and a word frees the word. Nothing else changes, and renaming never touches a comment.
-/

namespace FrameGraph.Text

namespace Token

/-- A comment becomes one space. -/
def blanked : Token → Token
  | .comment _ => .char ' '
  | other => other

/-- The last character that is no separator. -/
def lastVisible (token : Token) : Option Char := token.chars.reverse.find? (fun c => !isSeparator c)

/-- It ends in `.` or `@`, which makes a word after it a member or an attribute. -/
def marks (token : Token) : Bool :=
  token.lastVisible == some '.' || token.lastVisible == some '@'

/-- A word under its new name. -/
def renamed (renames : Renames) : Token → Token
  | .word text => .word (renames.apply text)
  | other => other

end Token

/-- The text with a space for each comment. -/
def eraseComments (text : List Char) : List Char := render ((tokens text).map Token.blanked)

/-! ## The tokens of a text without its comments -/

@[simp] theorem render_nil : render [] = [] := rfl

@[simp] theorem render_cons (token : Token) (row : List Token) :
    render (token :: row) = token.chars ++ render row := rfl

@[simp] theorem eraseComments_nil : eraseComments [] = [] := by
  simp [eraseComments, tokens]

theorem eraseComments_cons (c : Char) (rest : List Char) :
    eraseComments (c :: rest) =
      (firstToken c rest).1.blanked.chars ++ eraseComments (firstToken c rest).2 := by
  simp [eraseComments, tokens]

theorem firstToken_word {c : Char} {rest : List Char} (start : isWordStart c = true) :
    firstToken c rest = (.word (c :: rest.takeWhile isWordChar), rest.dropWhile isWordChar) := by
  have no_slash : c ≠ '/' := by
    rintro rfl
    revert start
    decide
  simp [firstToken, no_slash, start]

theorem firstToken_char {c : Char} {rest : List Char}
    (bare : c = '/' → rest.head? ≠ some '/' ∧ rest.head? ≠ some '*')
    (plain : isWordStart c = false) : firstToken c rest = (.char c, rest) := by
  have line : ¬ (c = '/' ∧ rest.head? = some '/') := fun both => (bare both.1).1 both.2
  have block : ¬ (c = '/' ∧ rest.head? = some '*') := fun both => (bare both.1).2 both.2
  simp [firstToken, line, block, plain]

/-- The four ways a text can start. -/
inductive Starts (c : Char) (rest : List Char) : Prop where
  | line (first : firstToken c rest =
      (.comment ('/' :: rest.takeWhile (· != '\n')), rest.dropWhile (· != '\n')))
      (second : rest.head? = some '/')
  | block (first : firstToken c rest =
      (.comment ('/' :: '*' :: (splitBlock 1 rest.tail).1), (splitBlock 1 rest.tail).2))
  | word (first : firstToken c rest =
      (.word (c :: rest.takeWhile isWordChar), rest.dropWhile isWordChar))
      (start : isWordStart c = true)
  | char (first : firstToken c rest = (.char c, rest))
      (bare : c = '/' → rest.head? ≠ some '/' ∧ rest.head? ≠ some '*')
      (plain : isWordStart c = false)

theorem starts (c : Char) (rest : List Char) : Starts c rest := by
  by_cases line : c = '/' ∧ rest.head? = some '/'
  · apply Starts.line _ line.2
    simp [firstToken, line]
  by_cases block : c = '/' ∧ rest.head? = some '*'
  · apply Starts.block
    simp [firstToken, block]
  cases start : isWordStart c with
  | true => exact .word (firstToken_word start) start
  | false =>
    have bare : c = '/' → rest.head? ≠ some '/' ∧ rest.head? ≠ some '*' :=
      fun slash => ⟨fun second => line ⟨slash, second⟩, fun second => block ⟨slash, second⟩⟩
    exact .char (firstToken_char bare start) bare start

/-- Without its comments a text starts as before, or with a space. -/
theorem head_eraseComments (text : List Char) :
    (eraseComments text).head? = text.head? ∨ (eraseComments text).head? = some ' ' := by
  cases text with
  | nil => simp
  | cons c rest =>
    rw [eraseComments_cons]
    cases starts c rest with
    | line first => simp [first, Token.blanked, Token.chars]
    | block first => simp [first, Token.blanked, Token.chars]
    | word first => simp [first, Token.blanked, Token.chars]
    | char first => simp [first, Token.blanked, Token.chars]

/-- A run that stops at the end of `word` is read back from a longer text. -/
theorem span_append {p : Char → Bool} {word after : List Char}
    (inside : ∀ c ∈ word, p c = true) (stop : ∀ c, after.head? = some c → p c = false) :
    (word ++ after).takeWhile p = word ∧ (word ++ after).dropWhile p = after := by
  rw [List.takeWhile_append_of_pos inside, List.dropWhile_append_of_pos inside]
  cases after with
  | nil => simp
  | cons c rest => simp [stop c rfl]

theorem head_dropWhile {p : Char → Bool} {text : List Char} {c : Char}
    (head : (text.dropWhile p).head? = some c) : p c = false := by
  have stop := List.head?_dropWhile_not p text
  rw [head] at stop
  exact stop

theorem tokens_space (text : List Char) : tokens (' ' :: text) = .char ' ' :: tokens text := by
  rw [tokens, firstToken_char (by simp) (by decide)]

/-- The other tokens of a text stay as they are when each comment becomes a space. -/
theorem tokens_eraseComments (text : List Char) :
    tokens (eraseComments text) = (tokens text).map Token.blanked := by
  fun_induction tokens text with
  | case1 => simp [tokens]
  | case2 c rest ih =>
    rw [eraseComments_cons, List.map_cons, ← ih]
    cases starts c rest with
    | line first => simp [first, Token.blanked, Token.chars, tokens_space]
    | block first => simp [first, Token.blanked, Token.chars, tokens_space]
    | word first start =>
      -- no letter follows the word: the next character is the one before or a space
      have stop : ∀ d, (eraseComments (rest.dropWhile isWordChar)).head? = some d →
          isWordChar d = false := by
        intro d head
        rcases head_eraseComments (rest.dropWhile isWordChar) with same | blank
        · exact head_dropWhile (same ▸ head)
        · rw [blank] at head
          cases head
          decide
      have inside : ∀ d ∈ rest.takeWhile isWordChar, isWordChar d = true :=
        fun _ member => List.mem_takeWhile_imp member
      have bounds := span_append inside stop
      rw [first]
      simp only [Token.blanked, Token.chars, List.cons_append]
      rw [tokens, firstToken_word start, bounds.1, bounds.2]
    | char first bare plain =>
      -- a slash that began no comment begins none now
      have kept : c = '/' → (eraseComments rest).head? ≠ some '/' ∧
          (eraseComments rest).head? ≠ some '*' := by
        intro slash
        rcases head_eraseComments rest with same | blank
        · exact same ▸ bare slash
        · simp [blank]
      rw [first]
      simp only [Token.blanked, Token.chars, List.singleton_append]
      rw [tokens, firstToken_char kept plain]

/-! ## What stands before a place -/

/-- What stands before a place of a row. -/
def Context.before (row : List Token) (place : Nat) : Context :=
  (row.take place).foldl Context.after .start

/-- The token at a place is a free word. -/
def FreeAt (row : List Token) (place : Nat) (word : List Char) : Prop :=
  row[place]? = some (.word word) ∧ (Context.before row place).isFree = true

/-- The nearest token before a place that is no separator. -/
def nearest (row : List Token) (place : Nat) : Option Token :=
  (row.take place).reverse.find? (fun token => token.lastVisible.isSome)

/-- The nearest token before a place that is neither a separator nor a comment. -/
def nearestCode (row : List Token) (place : Nat) : Option Token :=
  (row.take place).reverse.find? (fun token => token.lastVisible.isSome && !token.isComment)

/-- The line comment before a place ends in `.` or `@`, and the code before it does not. -/
def HiddenAt (row : List Token) (place : Nat) : Prop :=
  ∃ text, nearest row place = some (.comment ('/' :: '/' :: text)) ∧
    (Token.comment ('/' :: '/' :: text)).marks = true ∧ (nearestCode row place).any Token.marks = false

/-- The code before a place ends in `.` or `@`, and a comment that does not stands in between. -/
def FreedAt (row : List Token) (place : Nat) : Prop :=
  ∃ text, nearest row place = some (.comment text) ∧
    (Token.comment text).marks = false ∧ (nearestCode row place).any Token.marks = true

theorem mem_freeWordsFrom {context : Context} {row : List Token} {word : List Char} :
    word ∈ freeWordsFrom context row ↔ ∃ place, row[place]? = some (.word word) ∧
      ((row.take place).foldl Context.after context).isFree = true := by
  induction row generalizing context with
  | nil => simp [freeWordsFrom]
  | cons token rest ih =>
    rw [← Nat.or_exists_add_one]
    cases token with
    | word text =>
      cases free : context.isFree <;> simp [freeWordsFrom, ih, free, @eq_comm _ word]
    | comment text => simp [freeWordsFrom, ih]
    | char c => simp [freeWordsFrom, ih]

/-- A name is referred to where it is a free word. -/
theorem references_iff {row : List Token} {name : String} :
    references row name = true ↔ ∃ place, FreeAt row place name.toList := by
  simp [references, freeWords, mem_freeWordsFrom, FreeAt, Context.before]

theorem renameFrom_eq (renames : Renames) (context : Context) (row : List Token) :
    renameFrom renames context row = render (row.mapIdx fun place token =>
      if ((row.take place).foldl Context.after context).isFree then token.renamed renames
      else token) := by
  induction row generalizing context with
  | nil => simp [renameFrom]
  | cons token rest ih =>
    rw [List.mapIdx_cons, render_cons]
    change _ ++ renameFrom renames (context.after token) rest = _
    rw [ih (context.after token)]
    congr 1
    cases token <;> cases free : context.isFree <;> simp [free, Token.renamed, Token.chars]

/-- Renaming rewrites the free words, each in its place, and nothing else. -/
theorem rename_eq (renames : Renames) (row : List Token) :
    rename renames row = render (row.mapIdx fun place token =>
      if (Context.before row place).isFree then token.renamed renames else token) :=
  renameFrom_eq renames .start row

/-! ## Free words with and without comments -/

theorem findSome?_eq_bind {α β : Type} (f : α → Option β) (items : List α) :
    items.findSome? f = (items.find? (fun item => (f item).isSome)).bind f := by
  induction items with
  | nil => rfl
  | cons item rest ih => cases here : f item <;> simp [here, ih]

theorem visible_foldl (context : Context) (row : List Token) :
    (row.foldl Context.after context).visible =
      (row.reverse.findSome? Token.lastVisible).or context.visible := by
  induction row generalizing context with
  | nil => rfl
  | cons token rest ih =>
    have one : (context.after token).visible = token.lastVisible.or context.visible := by
      cases seen : token.chars.reverse.find? (fun c => !isSeparator c) <;>
        simp [Context.after, Token.lastVisible, seen]
    cases later : rest.reverse.findSome? Token.lastVisible <;>
      simp [ih, one, List.findSome?_append, later]

theorem visible_before (row : List Token) (place : Nat) :
    (Context.before row place).visible = (nearest row place).bind Token.lastVisible := by
  rw [Context.before, visible_foldl, findSome?_eq_bind]
  simp [nearest, Context.start]

/-- A word is free if neither a digit stands right before it nor a mark nearest before it. -/
theorem isFree_before (row : List Token) (place : Nat) :
    (Context.before row place).isFree =
      (!(Context.before row place).digit && !(nearest row place).any Token.marks) := by
  rw [Context.isFree, visible_before]
  cases nearest row place with
  | none => simp [bne]
  | some token => simp [Token.marks, Bool.and_assoc, bne]

theorem lastVisible_blanked (token : Token) :
    token.blanked.lastVisible.isSome = (token.lastVisible.isSome && !token.isComment) := by
  cases token <;> simp [Token.blanked, Token.isComment]
  decide

theorem nearest_blanked (row : List Token) (place : Nat) :
    nearest (row.map Token.blanked) place = nearestCode row place := by
  have kept : ∀ token, nearestCode row place = some token → token.blanked = token := by
    intro token found
    have code := List.find?_some found
    cases token <;> simp_all [Token.isComment, Token.blanked]
  rw [nearest, ← List.map_take, ← List.map_reverse, List.find?_map]
  simp only [Function.comp_def, lastVisible_blanked]
  change (nearestCode row place).map Token.blanked = _
  cases found : nearestCode row place with
  | none => rfl
  | some token => simp [kept token found]

theorem digit_before {row : List Token} {place : Nat} :
    (Context.before row place).digit = true ↔
      ∃ c, (row.take place).getLast? = some (.char c) ∧ c.isDigit = true := by
  rw [Context.before]
  generalize row.take place = front
  induction front using List.reverseRecOn with
  | nil => simp [Context.start]
  | append_singleton front token _ => cases token <;> simp [Context.after]

/-- Digits stand where they stood. -/
theorem digit_blanked (row : List Token) (place : Nat) :
    (Context.before (row.map Token.blanked) place).digit = (Context.before row place).digit := by
  rw [Bool.eq_iff_iff, digit_before, digit_before, ← List.map_take, List.getLast?_map]
  cases (row.take place).getLast? with
  | none => simp
  | some token =>
    cases token with
    | comment text => simp [Token.blanked]
    | word text => simp [Token.blanked]
    | char c => simp [Token.blanked]

/-- What comes right after a digit has it nearest. -/
theorem nearest_of_digit {row : List Token} {place : Nat}
    (digit : (Context.before row place).digit = true) :
    ∃ c, nearest row place = some (.char c) := by
  obtain ⟨c, last, digit⟩ := digit_before.mp digit
  have visible : (Token.char c).lastVisible.isSome = true := by
    have dark : isSeparator c = false := by
      by_contra blank
      simp only [isSeparator, Bool.not_eq_false, Bool.or_eq_true, beq_iff_eq] at blank
      rcases blank with (((rfl | rfl) | rfl) | rfl) | rfl <;> revert digit <;> decide
    simp [Token.lastVisible, Token.chars, dark]
  obtain ⟨front, split⟩ := List.getLast?_eq_some_iff.mp last
  exact ⟨c, by simp [nearest, split, visible]⟩

/-- Without a comment in between, the nearest token is the nearest one of the code. -/
theorem nearestCode_of_nearest {row : List Token} {place : Nat}
    (plain : ∀ text, nearest row place ≠ some (.comment text)) :
    nearestCode row place = nearest row place := by
  unfold nearest nearestCode at *
  generalize (row.take place).reverse = back at *
  induction back with
  | nil => rfl
  | cons token rest ih =>
    cases seen : token.lastVisible.isSome with
    | false =>
      simp only [List.find?_cons, seen, Bool.false_and] at plain ⊢
      exact ih plain
    | true =>
      simp only [List.find?_cons, seen, Bool.true_and] at plain ⊢
      cases token with
      | comment text => exact absurd rfl (plain text)
      | word text => rfl
      | char c => rfl

/-! ## Line comments -/

/-- A block comment that something follows is closed. -/
theorem splitBlock_closed {depth : Nat} {text : List Char} (inside : depth ≠ 0)
    (follows : (splitBlock depth text).2 ≠ []) :
    (splitBlock depth text).1.getLast? = some '/' := by
  fun_induction splitBlock depth text with
  | case1 => contradiction
  | case2 => simp at follows
  | case3 depth rest inner after split ih => simp_all [List.getLast?_cons]
  | case4 depth rest inner after split ih =>
    cases depth with
    | zero => simp_all [splitBlock]
    | succ depth => simp_all [List.getLast?_cons]
  | case5 depth c rest _ _ inner after split ih => simp_all [List.getLast?_cons]

/-- A comment is a line comment, or ends in a slash, or ends the text. -/
theorem comment_shape {text body : List Char} {place : Nat}
    (here : (tokens text)[place]? = some (.comment body)) :
    (∃ rest, body = '/' :: '/' :: rest) ∨ body.getLast? = some '/' ∨
      place + 1 = (tokens text).length := by
  fun_induction tokens text generalizing place with
  | case1 => simp at here
  | case2 c rest ih =>
    cases place with
    | succ place =>
      simp only [List.getElem?_cons_succ] at here
      simpa using ih here
    | zero =>
      simp only [List.getElem?_cons_zero, Option.some.injEq] at here
      cases starts c rest with
      | line first second =>
        left
        obtain ⟨d, rest, rfl⟩ : ∃ d tail, rest = d :: tail := by
          cases rest with
          | nil => simp at second
          | cons d tail => exact ⟨d, tail, rfl⟩
        rw [first] at here
        simp only [List.head?_cons, Option.some.injEq] at second
        subst second
        simp only [Token.comment.injEq] at here
        exact ⟨rest.takeWhile (· != '\n'), by simp [← here]⟩
      | block first =>
        right
        rw [first] at here ⊢
        simp only [Token.comment.injEq] at here
        by_cases follows : (splitBlock 1 rest.tail).2 = []
        · right
          simp [follows, tokens]
        · left
          simp [← here, List.getLast?_cons, splitBlock_closed Nat.one_ne_zero follows]
      | word first => simp [first] at here
      | char first => simp [first] at here

/-- Of the comments before a place only a line comment can end in `.` or `@`. -/
theorem nearest_marks_line {text body : List Char} {place : Nat} {token : Token}
    (here : (tokens text)[place]? = some token)
    (before : nearest (tokens text) place = some (.comment body))
    (marks : (Token.comment body).marks = true) : ∃ rest, body = '/' :: '/' :: rest := by
  have member : .comment body ∈ (tokens text).take place := by
    simpa using List.mem_of_find?_eq_some before
  obtain ⟨earlier, inside, found⟩ := List.mem_iff_getElem.mp member
  rw [List.length_take] at inside
  have found : (tokens text)[earlier]? = some (.comment body) := by
    rw [List.getElem_take] at found
    rw [← found]
    exact List.getElem?_eq_getElem _
  have bound := (List.getElem?_eq_some_iff.mp here).1
  rcases comment_shape found with line | slash | last
  · exact line
  · obtain ⟨front, split⟩ := List.getLast?_eq_some_iff.mp slash
    have visible : (Token.comment body).lastVisible = some '/' := by
      simp [Token.lastVisible, Token.chars, split, isSeparator]
    simp [Token.marks, visible] at marks
  · omega

/-! ## Which places comments change -/

/-- A comment changes whether a word is free in two ways: a line comment hides it, or a comment frees it. -/
theorem free_changes {text word : List Char} {place : Nat}
    (here : (tokens text)[place]? = some (.word word)) :
    ((FreeAt (tokens (eraseComments text)) place word ∧ ¬ FreeAt (tokens text) place word) ↔
      HiddenAt (tokens text) place) ∧
    ((FreeAt (tokens text) place word ∧ ¬ FreeAt (tokens (eraseComments text)) place word) ↔
      FreedAt (tokens text) place) := by
  have erased : ((tokens text).map Token.blanked)[place]? = some (.word word) := by
    simp [here, Token.blanked]
  simp only [tokens_eraseComments, FreeAt, here, erased, true_and, isFree_before, nearest_blanked,
    digit_blanked]
  by_cases comment : ∃ body, nearest (tokens text) place = some (.comment body)
  · obtain ⟨body, before⟩ := comment
    have digit : (Context.before (tokens text) place).digit = false := by
      by_contra digit
      obtain ⟨c, other⟩ := nearest_of_digit (eq_true_of_ne_false digit)
      simp [other] at before
    simp only [HiddenAt, FreedAt, before, digit, Option.any_some]
    constructor
    · constructor
      · rintro ⟨bare, seen⟩
        have marks : (Token.comment body).marks = true := by simpa using seen
        obtain ⟨rest, rfl⟩ := nearest_marks_line here before marks
        exact ⟨rest, rfl, marks, by simpa using bare⟩
      · rintro ⟨rest, same, marks, bare⟩
        cases same
        simp [marks, bare]
    · constructor
      · rintro ⟨seen, bare⟩
        exact ⟨body, rfl, by simpa using seen, by simpa using bare⟩
      · rintro ⟨rest, same, marks, bare⟩
        cases same
        simp [marks, bare]
  · have plain : ∀ body, nearest (tokens text) place ≠ some (.comment body) :=
      fun body before => comment ⟨body, before⟩
    simp [nearestCode_of_nearest plain, HiddenAt, FreedAt, plain]

theorem word_of_erased {text word : List Char} {place : Nat}
    (here : (tokens (eraseComments text))[place]? = some (.word word)) :
    (tokens text)[place]? = some (.word word) := by
  rw [tokens_eraseComments, List.getElem?_map, Option.map_eq_some_iff] at here
  obtain ⟨token, here, same⟩ := here
  cases token <;> simp_all [Token.blanked]

/-- Every word is as free as it is without comments, but for the words that a line comment hides or a comment
frees. References and renaming concern the free words only, each in its place. -/
theorem free_except_misread (text : List Char) :
    (∀ row, (∀ name, references row name = true ↔ ∃ place, FreeAt row place name.toList) ∧
      ∀ renames, rename renames row = render (row.mapIdx fun place token =>
        if (Context.before row place).isFree then token.renamed renames else token)) ∧
    tokens (eraseComments text) = (tokens text).map Token.blanked ∧
    (∀ place word, (tokens text)[place]? = some (.word word) →
      ((FreeAt (tokens (eraseComments text)) place word ∧ ¬ FreeAt (tokens text) place word) ↔
        HiddenAt (tokens text) place) ∧
      ((FreeAt (tokens text) place word ∧ ¬ FreeAt (tokens (eraseComments text)) place word) ↔
        FreedAt (tokens text) place)) ∧
    ∀ name, references (tokens text) name ≠ references (tokens (eraseComments text)) name →
      ∃ place, (tokens text)[place]? = some (.word name.toList) ∧
        (HiddenAt (tokens text) place ∨ FreedAt (tokens text) place) := by
  refine ⟨fun row => ⟨fun name => references_iff, fun renames => rename_eq renames row⟩,
    tokens_eraseComments text, fun place word => free_changes, ?_⟩
  intro name differ
  rw [ne_eq, Bool.eq_iff_iff, references_iff, references_iff] at differ
  by_contra nowhere
  push Not at nowhere
  apply differ
  apply exists_congr
  intro place
  constructor
  · intro free
    by_contra bare
    exact (nowhere place free.1).2 ((free_changes free.1).2.mp ⟨free, bare⟩)
  · intro bare
    by_contra free
    have here := word_of_erased bare.1
    exact (nowhere place here).1 ((free_changes here).1.mp ⟨bare, free⟩)

/-- A sentence in a line comment hides the word after it. -/
theorem free_except_misread_sentence :
    references (tokens "// end.\nfoo".toList) "foo" = false ∧
      references (tokens (eraseComments "// end.\nfoo".toList)) "foo" = true ∧
      HiddenAt (tokens "// end.\nfoo".toList) 2 := by
  refine ⟨by decide +kernel, by decide +kernel, ?_⟩
  have here : (tokens "// end.\nfoo".toList)[2]? = some (.word "foo".toList) := by decide +kernel
  apply ((free_except_misread _).2.2.1 2 "foo".toList here).1.mp
  constructor
  · exact ⟨by decide +kernel, by decide +kernel⟩
  · intro free
    exact absurd free.2 (by decide +kernel)

end FrameGraph.Text
