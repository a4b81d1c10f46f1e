import FrameGraph.Proofs.Text.Attribute
import FrameGraph.Proofs.Text.Finding
import FrameGraph.Text.Header

/-! # Attributes that a header mentions

The search for an attribute reads the header as plain text. It finds the attributes of the code, and it finds the same
text in comments: a mention never runs from a comment into the code or from the code into a comment, because what
follows a line comment is no part of a word and a block comment ends in a slash. So the first mention is either the
first attribute of the code or stands inside one comment.
-/

namespace FrameGraph

open Text

namespace Text

/-- The text behind an attribute that stands at the start of a text. -/
def attributeRest? (word : List Char) : List Char → Option (List Char)
  | '@' :: text => if text.takeWhile isWordChar = word then some (text.dropWhile isWordChar) else none
  | _ => none

/-- The attribute stands in the code of a row. -/
def HasAttribute (word : List Char) (row : List Token) : Prop := [.char '@', .word word] <:+: row

/-- The text of an attribute stands in a comment. -/
def Token.mentions (word : List Char) : Token → Bool
  | .comment text => (afterAttribute? ('@' :: word) 0 text).isSome
  | _ => false

/-- The row does not have the attribute, and no comment in it mentions it. -/
def Unmentioned (word : List Char) (row : List Token) : Prop :=
  ¬HasAttribute word row ∧ ∀ token ∈ row, token.mentions word = false

variable {word text rest : List Char} {row : List Token}

/-! ## The search by characters -/

/-- The search goes on behind the characters that belong to the occurrence before. -/
theorem afterAttribute?_skip {attr : List Char} (some : attr ≠ []) (skip : Nat) (text : List Char) :
    afterAttribute? attr skip text = afterAttribute? attr 0 (text.drop skip) := by
  induction text generalizing skip with
  | nil => simp [afterAttribute?, some]
  | cons c text ih =>
    cases skip with
    | zero => rfl
    | succ skip => simp [afterAttribute?, ih skip]

theorem afterAttribute?_other {c : Char} (other : c ≠ '@') (text : List Char) :
    afterAttribute? ('@' :: word) 0 (c :: text) = afterAttribute? ('@' :: word) 0 text := by
  simp [afterAttribute?, Ne.symm other]

/-- Text without an `@` is passed over. -/
theorem afterAttribute?_append (none : '@' ∉ text) (rest : List Char) :
    afterAttribute? ('@' :: word) 0 (text ++ rest) = afterAttribute? ('@' :: word) 0 rest := by
  induction text with
  | nil => rfl
  | cons c text ih =>
    rw [List.mem_cons, not_or] at none
    rw [List.cons_append, afterAttribute?_other (Ne.symm none.1), ih none.2]

theorem not_at_of_words {text : List Char} (words : ∀ c ∈ text, isWordChar c = true) : '@' ∉ text := fun member => by
  cases words _ member

/-- The search tries one place after the other. -/
theorem afterAttribute?_cons (words : ∀ c ∈ word, isWordChar c = true) (c : Char) (text : List Char) :
    afterAttribute? ('@' :: word) 0 (c :: text) =
      (attributeRest? word (c :: text)).or (afterAttribute? ('@' :: word) 0 text) := by
  by_cases other : c = '@'
  case neg =>
    rw [afterAttribute?_other other, attributeRest?.eq_2 _ _ fun _ same => other (List.cons.inj same).1]
    rfl
  subst other
  rw [attributeRest?]
  by_cases starts : word.isPrefixOf text = true
  · obtain ⟨after, rfl⟩ := List.isPrefixOf_iff_prefix.mp starts
    have run : (word ++ after).takeWhile isWordChar = word ++ after.takeWhile isWordChar :=
      List.takeWhile_append_of_pos words
    have past : (word ++ after).dropWhile isWordChar = after.dropWhile isWordChar :=
      List.dropWhile_append_of_pos words
    cases next : after.head?.any isWordChar with
    | false =>
      have stop : after.takeWhile isWordChar = [] ∧ after.dropWhile isWordChar = after := by
        cases after with
        | nil => simp
        | cons d after => simp_all
      simp [afterAttribute?, next, run, past, stop]
    | true =>
      have longer : after.takeWhile isWordChar ≠ [] := by
        cases after with
        | nil => cases next
        | cons d after => simp_all
      have skipped := afterAttribute?_skip (List.cons_ne_nil '@' word) word.length (word ++ after)
      simp only [List.drop_left] at skipped
      simp [afterAttribute?, next, run, longer, skipped, afterAttribute?_append (not_at_of_words words)]
  · have differs : text.takeWhile isWordChar ≠ word := fun same =>
      starts (List.isPrefixOf_iff_prefix.mpr (same ▸ List.takeWhile_prefix _))
    simp [afterAttribute?, starts, differs]

/-- An attribute in front of anything that does not continue its word is found at once. -/
theorem afterAttribute?_here (words : ∀ c ∈ word, isWordChar c = true)
    (stop : ∀ c, rest.head? = some c → isWordChar c = false) :
    afterAttribute? ('@' :: word) 0 ('@' :: (word ++ rest)) = some rest := by
  have bounds := span_append words stop
  rw [afterAttribute?_cons words, attributeRest?, if_pos bounds.1, bounds.2]
  rfl

/-- A text that does not run on into what follows it: a line ends there, or the text ends in a slash. -/
def Severed (text rest : List Char) : Prop :=
  text ≠ [] → (∀ c, rest.head? = some c → c = '\n') ∨ text.getLast? = some '/'

theorem Severed.tail {c : Char} (severed : Severed (c :: text) rest) : Severed text rest := by
  intro some
  refine (severed (List.cons_ne_nil _ _)).imp_right fun slash => ?_
  rwa [List.getLast?_cons_of_ne_nil some] at slash

theorem attributeRest?_append {c : Char} (severed : Severed (c :: text) rest) :
    attributeRest? word (c :: text ++ rest) = (attributeRest? word (c :: text)).map (· ++ rest) := by
  by_cases other : c = '@'
  case neg =>
    rw [List.cons_append, attributeRest?.eq_2 _ _ fun _ same => other (List.cons.inj same).1,
      attributeRest?.eq_2 _ _ fun _ same => other (List.cons.inj same).1]
    rfl
  subst other
  rw [List.cons_append, attributeRest?, attributeRest?]
  by_cases inside : ∀ c ∈ text, isWordChar c = true
  · -- the word reaches the end of the text, so it ends there
    have stop : ∀ c, rest.head? = some c → isWordChar c = false := by
      rcases severed (List.cons_ne_nil _ _) with line | slash
      · intro c head
        rw [line c head]
        rfl
      · rcases List.mem_cons.mp (List.mem_of_getLast? slash) with same | member
        · cases same
        · cases inside _ member
    have bounds := span_append inside stop
    have alone := span_append inside (show ∀ c, List.head? [] = some c → isWordChar c = false by simp)
    rw [List.append_nil] at alone
    rw [bounds.1, bounds.2, alone.1, alone.2]
    split <;> rfl
  · have runs : (text.takeWhile isWordChar).length ≠ text.length := fun same =>
      inside (List.takeWhile_eq_self_iff.mp ((List.takeWhile_prefix _).eq_of_length same))
    have left : (text.dropWhile isWordChar).isEmpty = false := by
      rwa [List.isEmpty_eq_false_iff, Ne, List.dropWhile_eq_nil_iff]
    rw [List.takeWhile_append, if_neg runs, List.dropWhile_append, left]
    split <;> rfl

/-- What a text mentions, and else what follows it mentions. -/
theorem afterAttribute?_severed (words : ∀ c ∈ word, isWordChar c = true) (severed : Severed text rest) :
    afterAttribute? ('@' :: word) 0 (text ++ rest) =
      ((afterAttribute? ('@' :: word) 0 text).map (· ++ rest)).or (afterAttribute? ('@' :: word) 0 rest) := by
  induction text with
  | nil => rfl
  | cons c text ih =>
    have first : attributeRest? word (c :: text ++ rest) = (attributeRest? word (c :: text)).map (· ++ rest) :=
      attributeRest?_append severed
    rw [List.cons_append] at first ⊢
    rw [afterAttribute?_cons words, afterAttribute?_cons words c text, first, ih severed.tail]
    cases attributeRest? word (c :: text) <;> rfl

/-! ## The search by tokens -/

/-- A comment is severed from what follows it. -/
theorem severed_comment {text rest : List Char} (ends : (Token.comment text).EndsAt rest) : Severed text rest := by
  intro some
  rcases endsAt_comment ends with ⟨body, rfl, -, line⟩ | ⟨body, rfl, closed⟩ | ⟨-, rfl⟩
  · exact .inl line
  · right
    simp [List.getLast?_cons, closed.getLast?_eq]
  · exact .inl (by simp)

/-- The letters in front of a row are its first word. -/
theorem exists_word (legible : Legible rest row) (stop : ∀ c, rest.head? = some c → isWordChar c = false)
    (identifier : isIdentifier word = true) (letters : (render row ++ rest).takeWhile isWordChar = word) :
    ∃ more, row = .word word :: more := by
  cases row with
  | nil =>
    rw [render_nil, List.nil_append] at letters
    cases rest with
    | nil => exact absurd letters.symm (ne_nil_of_isIdentifier identifier)
    | cons c rest =>
      rw [List.takeWhile_cons_of_neg (by simp [stop c rfl])] at letters
      exact absurd letters.symm (ne_nil_of_isIdentifier identifier)
  | cons token row =>
    rw [render_cons, List.append_assoc] at letters
    cases token with
    | word text =>
      obtain ⟨spelled, next⟩ := endsAt_word.mp legible.1
      rw [Token.chars, (span_append (fun c => isWordChar_of_mem spelled) next).1] at letters
      exact ⟨row, by rw [letters]⟩
    | comment text =>
      obtain ⟨body, rfl⟩ := comment_starts legible.1
      exact absurd letters.symm (ne_nil_of_isIdentifier identifier)
    | char c =>
      have plain := (endsAt_char.mp legible.1).1
      cases inside : isWordChar c with
      | false =>
        rw [Token.chars, List.singleton_append, List.takeWhile_cons_of_neg (by simp [inside])] at letters
        exact absurd letters.symm (ne_nil_of_isIdentifier identifier)
      | true =>
        rw [Token.chars, List.singleton_append, List.takeWhile_cons_of_pos inside] at letters
        rw [← letters, isIdentifier_cons, plain] at identifier
        cases identifier.1

theorem unmentioned_cons {token : Token} : Unmentioned word (token :: row) ↔
    (¬[.char '@', .word word] <+: token :: row ∧ token.mentions word = false) ∧ Unmentioned word row := by
  simp only [Unmentioned, HasAttribute, List.infix_cons_iff, List.forall_mem_cons, not_or]
  tauto

/-- The first mention is an attribute of the code or stands in a comment. -/
theorem mention_cases (word : List Char) (row : List Token) : Unmentioned word row ∨
    (∃ front back, row = front ++ .char '@' :: .word word :: back ∧ Unmentioned word front) ∨
    ∃ front text after back, row = front ++ .comment text :: back ∧ Unmentioned word front ∧
      afterAttribute? ('@' :: word) 0 text = some after := by
  have none : Unmentioned word [] := by simp [Unmentioned, HasAttribute]
  induction row with
  | nil => exact .inl none
  | cons token row ih =>
    by_cases here : [.char '@', .word word] <+: token :: row
    · obtain ⟨back, split⟩ := here
      exact .inr (.inl ⟨[], back, split.symm, none⟩)
    cases inside : token.mentions word with
    | true =>
      cases token with
      | comment text =>
        obtain ⟨after, found⟩ := Option.isSome_iff_exists.mp inside
        exact .inr (.inr ⟨[], text, after, row, rfl, none, found⟩)
      | word text => cases inside
      | char c => cases inside
    | false =>
      -- what is in front of the first mention of the rest is still without one
      have extend : ∀ {front back : List Token}, row = front ++ back → Unmentioned word front →
          Unmentioned word (token :: front) := by
        rintro front back rfl unmentioned
        refine unmentioned_cons.mpr ⟨⟨fun starts => here ?_, inside⟩, unmentioned⟩
        exact starts.trans (List.prefix_append (token :: front) back)
      rcases ih with unmentioned | ⟨front, back, split, unmentioned⟩ | ⟨front, text, after, back, split, unmentioned, found⟩
      · exact .inl (extend (List.append_nil row).symm unmentioned)
      · exact .inr (.inl ⟨token :: front, back, by rw [split]; rfl, extend split unmentioned⟩)
      · exact .inr (.inr ⟨token :: front, text, after, back, by rw [split]; rfl, extend split unmentioned, found⟩)

section Search

variable (identifier : isIdentifier word = true)

include identifier

/-- Where nothing mentions the attribute the search goes on behind the row. -/
theorem afterAttribute?_unmentioned (legible : Legible rest row)
    (stop : ∀ c, rest.head? = some c → isWordChar c = false) (unmentioned : Unmentioned word row) :
    afterAttribute? ('@' :: word) 0 (render row ++ rest) = afterAttribute? ('@' :: word) 0 rest := by
  have words : ∀ c ∈ word, isWordChar c = true := fun c => isWordChar_of_mem identifier
  induction row with
  | nil => rfl
  | cons token row ih =>
    obtain ⟨⟨here, inside⟩, later⟩ := unmentioned_cons.mp unmentioned
    have after := ih legible.2 later
    rw [render_cons, List.append_assoc]
    cases token with
    | word text =>
      have plain := not_at_of_words fun c => isWordChar_of_mem (endsAt_word.mp legible.1).1 (c := c)
      rw [Token.chars, afterAttribute?_append plain, after]
    | comment text =>
      have none := Option.not_isSome_iff_eq_none.mp (ne_true_of_eq_false inside)
      rw [Token.chars, afterAttribute?_severed words (severed_comment legible.1), none, after]
      rfl
    | char c =>
      rw [Token.chars, List.singleton_append]
      by_cases other : c = '@'
      · subst other
        have differs : (render row ++ rest).takeWhile isWordChar ≠ word := by
          intro letters
          obtain ⟨more, rfl⟩ := exists_word legible.2 stop identifier letters
          exact here ⟨more, rfl⟩
        rw [afterAttribute?_cons words, attributeRest?, if_neg differs, after]
        rfl
      · rw [afterAttribute?_other other, after]

/-- The search finds an attribute of the code that nothing in front mentions. -/
theorem afterAttribute?_attribute {front back : List Token}
    (legible : Legible rest (front ++ .char '@' :: .word word :: back)) (unmentioned : Unmentioned word front) :
    afterAttribute? ('@' :: word) 0 (render (front ++ .char '@' :: .word word :: back) ++ rest) =
      some (render back ++ rest) := by
  obtain ⟨first, -, ends, -⟩ := legible_append.mp legible
  have found := afterAttribute?_here (fun c => isWordChar_of_mem identifier) (endsAt_word.mp ends).2
  rw [render_append, List.append_assoc,
    afterAttribute?_unmentioned identifier first (by rintro c ⟨⟩; rfl) unmentioned, ← found]
  simp [Token.chars]

/-- The search finds a comment that mentions the attribute when nothing in front does. -/
theorem afterAttribute?_comment {front back : List Token} {text after : List Char}
    (legible : Legible rest (front ++ .comment text :: back)) (unmentioned : Unmentioned word front)
    (found : afterAttribute? ('@' :: word) 0 text = some after) :
    afterAttribute? ('@' :: word) 0 (render (front ++ .comment text :: back) ++ rest) =
      some (after ++ render back ++ rest) := by
  obtain ⟨first, ends, -⟩ := legible_append.mp legible
  have slash : ∀ c, (render (.comment text :: back) ++ rest).head? = some c → isWordChar c = false := by
    obtain ⟨body, rfl⟩ := comment_starts ends
    rintro c ⟨⟩
    rfl
  rw [render_append, List.append_assoc, afterAttribute?_unmentioned identifier first slash unmentioned, render_cons,
    List.append_assoc, Token.chars,
    afterAttribute?_severed (fun c => isWordChar_of_mem identifier) (severed_comment ends), found]
  simp

/-- The search finds something unless nothing mentions the attribute. -/
theorem afterAttribute?_eq_none (legible : Legible [] row) :
    afterAttribute? ('@' :: word) 0 (render row) = none ↔ Unmentioned word row := by
  have whole (row : List Token) : render row = render row ++ [] := (List.append_nil _).symm
  rcases mention_cases word row with none | ⟨front, back, rfl, first⟩ | ⟨front, text, after, back, rfl, first, found⟩
  · rw [whole, afterAttribute?_unmentioned identifier legible (by simp) none]
    exact iff_of_true rfl none
  · rw [whole, afterAttribute?_attribute identifier legible first]
    exact iff_of_false nofun fun none => none.1 ⟨front, back, by simp⟩
  · rw [whole, afterAttribute?_comment identifier legible first found]
    refine iff_of_false nofun fun none => ?_
    have inside := none.2 (.comment text) (by simp)
    rw [Token.mentions, found] at inside
    cases inside

end Search

/-! ## Without comments -/

theorem blanked_eq_char {token : Token} {c : Char} (dark : c ≠ ' ') :
    token.blanked = .char c ↔ token = .char c := by
  cases token <;> simp [Token.blanked, dark.symm]

theorem blanked_eq_word {token : Token} : token.blanked = .word word ↔ token = .word word := by
  cases token <;> simp [Token.blanked]

/-- The code has the same attributes without its comments. -/
theorem hasAttribute_blanked : HasAttribute word (row.map Token.blanked) ↔ HasAttribute word row := by
  constructor
  · rintro ⟨front, back, split⟩
    rw [eq_comm, List.append_assoc, List.cons_append, List.singleton_append, List.map_eq_append_iff] at split
    obtain ⟨front, more, rfl, -, split⟩ := split
    obtain ⟨mark, more, rfl, is, split⟩ := List.map_eq_cons_iff.mp split
    obtain ⟨name, back, rfl, same, -⟩ := List.map_eq_cons_iff.mp split
    obtain rfl := (blanked_eq_char (by decide)).mp is
    obtain rfl := blanked_eq_word.mp same
    exact ⟨front, back, by simp⟩
  · exact fun has => has.map Token.blanked

theorem unmentioned_blanked : Unmentioned word (row.map Token.blanked) ↔ ¬HasAttribute word row := by
  rw [Unmentioned, hasAttribute_blanked, and_iff_left_iff_imp]
  rintro - token member
  obtain ⟨token, -, rfl⟩ := List.mem_map.mp member
  cases token <;> rfl

theorem legible_blanked (legible : Legible [] row) : Legible [] (row.map Token.blanked) := by
  have read := tokens_eraseComments (render row)
  rw [legible.tokens_render] at read
  exact read ▸ legible_tokens _

/-- The text of a row without its comments. -/
theorem render_blanked (legible : Legible [] row) : render (row.map Token.blanked) = eraseComments (render row) := by
  rw [eraseComments, legible.tokens_render]

/-! ## Sizes -/

/-- The sizes that stand between the brackets. -/
def sizesIn (inner : List Char) : WorkgroupAttribute :=
  let values := ((splitOn ',' [] inner).map trim).filter fun value => !value.isEmpty
  match values.mapM fun value => decimalBelow? UInt32.size (dropSuffix value) with
  | some sizes => EntryPoint.workgroupOf sizes
  | none => .notLiteral

/-- The sizes in the text behind the attribute. -/
def sizesAfter (after : List Char) : WorkgroupAttribute :=
  match bracketedStart? after with
  | none => .notLiteral
  | some inner => sizesIn inner

theorem sizesAfter_ne_absent (after : List Char) : sizesAfter after ≠ .absent := by
  have some (sizes : List Nat) : EntryPoint.workgroupOf sizes ≠ .absent := by
    unfold EntryPoint.workgroupOf
    split <;> nofun
  unfold sizesAfter sizesIn
  split
  · nofun
  · dsimp only
    split
    · exact some _
    · nofun

theorem mem_splitOn {c separator : Char} (other : c ≠ separator) {text : List Char} (part : List Char)
    (member : c ∈ part ∨ c ∈ text) : ∃ piece ∈ splitOn separator part text, c ∈ piece := by
  induction text generalizing part with
  | nil => exact ⟨part.reverse, .head _, by simpa using member⟩
  | cons d text ih =>
    rw [splitOn]
    split
    · rename_i same
      rcases member with front | behind
      · exact ⟨part.reverse, .head _, by simpa using front⟩
      · obtain ⟨piece, listed, has⟩ := ih [] (.inr ((List.mem_cons.mp behind).resolve_left (same ▸ other)))
        exact ⟨piece, .tail _ listed, has⟩
    · refine ih (d :: part) ?_
      rw [List.mem_cons] at member ⊢
      tauto

theorem mem_dropWhile {c : Char} {p : Char → Bool} (keeps : p c = false) {text : List Char} (member : c ∈ text) :
    c ∈ text.dropWhile p := by
  rw [← List.takeWhile_append_dropWhile (p := p) (l := text), List.mem_append] at member
  refine member.resolve_left fun front => ?_
  rw [List.mem_takeWhile_imp front] at keeps
  cases keeps

theorem mem_trim {c : Char} (dark : isBlank c = false) {text : List Char} (member : c ∈ text) : c ∈ trim text := by
  rw [trim, trimEnd, trimStart, List.mem_reverse]
  exact mem_dropWhile dark (List.mem_reverse.mpr (mem_dropWhile dark member))

/-- What has a slash in it is no number. -/
theorem decimalBelow?_slash {bound : Nat} {text : List Char} (slash : '/' ∈ text) : decimalBelow? bound text = none := by
  have digits : ∀ {text : List Char}, '/' ∈ text → text.all Char.isDigit = false := fun member =>
    List.all_eq_false.mpr ⟨'/', member, by decide⟩
  unfold decimalBelow?
  dsimp only
  split
  · rw [digits ((List.mem_cons.mp slash).resolve_left (by decide))]
    simp
  · rw [digits slash]
    simp

theorem mapM_eq_none {α β : Type} {f : α → Option β} {items : List α} {item : α} (member : item ∈ items)
    (fails : f item = none) : items.mapM f = none := by
  induction items with
  | nil => cases member
  | cons first items ih =>
    rw [List.mapM_cons]
    rcases List.mem_cons.mp member with rfl | later
    · rw [fails]
      rfl
    · rw [ih later]
      cases f first <;> rfl

theorem sizesIn_slash {inner : List Char} (slash : '/' ∈ inner) : sizesIn inner = .notLiteral := by
  obtain ⟨piece, listed, has⟩ := mem_splitOn (show '/' ≠ ',' by decide) [] (.inr slash)
  have kept := mem_trim (by decide) has
  have dropped : '/' ∈ dropSuffix (trim piece) :=
    List.mem_reverse.mpr (mem_dropWhile (by decide) (List.mem_reverse.mpr kept))
  have value : trim piece ∈ ((splitOn ',' [] inner).map trim).filter fun value => !value.isEmpty := by
    rw [List.mem_filter]
    refine ⟨List.mem_map_of_mem listed, ?_⟩
    simpa using List.ne_nil_of_mem kept
  have none := mapM_eq_none (f := fun value => decimalBelow? UInt32.size (dropSuffix value)) value
    (decimalBelow?_slash dropped)
  unfold sizesIn
  dsimp only
  rw [none]

/-! ## Sizes in a row -/

theorem bracketedStart?_cons (c : Char) (text : List Char) :
    bracketedStart? (c :: text) = if isBlank c then bracketedStart? text
      else if c = '(' ∧ ')' ∈ text then some (text.takeWhile (· != ')')) else none := by
  unfold bracketedStart? trimStart
  cases blank : isBlank c with
  | true => simp [blank]
  | false =>
    rw [List.dropWhile_cons_of_neg (by simp [blank])]
    by_cases round : c = '('
    · subst round
      simp
    · simp [round]

/-- What is behind the closing bracket does not matter. -/
theorem bracketedStart?_closed {front : List Char} (x y : List Char) :
    bracketedStart? (front ++ ')' :: x) = bracketedStart? (front ++ ')' :: y) := by
  induction front with
  | nil => rw [List.nil_append, List.nil_append, bracketedStart?_cons, bracketedStart?_cons]; rfl
  | cons c front ih =>
    rw [List.cons_append, List.cons_append, bracketedStart?_cons, bracketedStart?_cons, ih]
    have same (rest : List Char) : (front ++ ')' :: rest).takeWhile (· != ')') = front.takeWhile (· != ')') := by
      rw [List.takeWhile_append]
      split
      · rename_i whole
        simp [(List.takeWhile_prefix _).eq_of_length whole]
      · rfl
    simp [same]

/-- A slash in front of the closing bracket is part of what is read. -/
theorem mem_bracketedStart? {front rest inner : List Char} (open_ : ')' ∉ front)
    (read : bracketedStart? (front ++ '/' :: rest) = some inner) : '/' ∈ inner := by
  induction front with
  | nil =>
    rw [List.nil_append, bracketedStart?_cons] at read
    cases read
  | cons c front ih =>
    rw [List.mem_cons, not_or] at open_
    rw [List.cons_append, bracketedStart?_cons] at read
    split at read
    · exact ih open_.2 read
    · split at read
      · cases read
        have kept : ∀ c ∈ front, (c != ')') = true := fun c member => bne_iff_ne.mpr fun same => open_.2 (same ▸ member)
        rw [List.takeWhile_append_of_pos kept]
        simp
      · cases read

/-- The part of a row up to the first closing bracket. -/
def upToClose (row : List Token) : List Token := row.takeWhile (· != .char ')')

theorem not_close_render {rest : List Char} {row : List Token} (legible : Legible rest row)
    (plain : ∀ token ∈ row, token.isComment = false ∧ token ≠ .char ')') : ')' ∉ render row := by
  induction row with
  | nil => simp
  | cons token row ih =>
    obtain ⟨⟨bare, other⟩, later⟩ := List.forall_mem_cons.mp plain
    rw [render_cons, List.mem_append, not_or]
    refine ⟨fun member => ?_, ih legible.2 later⟩
    cases token with
    | comment text => cases bare
    | word text => cases isWordChar_of_mem (endsAt_word.mp legible.1).1 member
    | char c => exact other (by rw [List.mem_singleton.mp member])

theorem mem_upToClose {token : Token} (member : token ∈ upToClose row) : token ≠ .char ')' :=
  bne_iff_ne.mp (List.mem_takeWhile_imp (p := fun token => token != Token.char ')') member)

/-- With a comment in front of the closing bracket the sizes are no numbers. -/
theorem sizesAfter_comment (legible : Legible rest row) {text : List Char} (member : .comment text ∈ upToClose row) :
    sizesAfter (render row ++ rest) = .notLiteral := by
  obtain ⟨after, split⟩ : upToClose row <+: row := List.takeWhile_prefix _
  -- the first comment of the row
  obtain ⟨body, found⟩ : ∃ body, (upToClose row).find? Token.isComment = some (.comment body) := by
    have some : ((upToClose row).find? Token.isComment).isSome := List.find?_isSome.mpr ⟨_, member, rfl⟩
    obtain ⟨first, found⟩ := Option.isSome_iff_exists.mp some
    cases first with
    | comment body => exact ⟨body, found⟩
    | word text => cases List.find?_some found
    | char c => cases List.find?_some found
  obtain ⟨-, front, back, parts, bare⟩ := List.find?_eq_some_iff_append.mp found
  have whole : row = front ++ .comment body :: (back ++ after) := by rw [← split, parts]; simp
  rw [whole] at legible
  obtain ⟨first, ends, -⟩ := legible_append.mp legible
  obtain ⟨more, rfl⟩ := comment_starts ends
  have open_ : ')' ∉ render front := by
    refine not_close_render first fun token member => ⟨by simpa using bare token member, ?_⟩
    have inside : token ∈ upToClose row := parts ▸ List.mem_append_left _ member
    exact mem_upToClose inside
  have text_eq : render row ++ rest = render front ++ '/' :: (more ++ render (back ++ after) ++ rest) := by
    rw [whole, render_append, render_cons]
    simp [Token.chars]
  unfold sizesAfter
  rw [text_eq]
  split
  · rfl
  · rename_i inner read
    exact sizesIn_slash (mem_bracketedStart? open_ read)

theorem blanked_of_code {token : Token} (code : token.isComment = false) : token.blanked = token := by
  cases token with
  | comment text => cases code
  | word text => rfl
  | char c => rfl

/-- Without a comment in front of the closing bracket, comments do not matter. -/
theorem sizesAfter_blanked (bare : ∀ token ∈ upToClose row, token.isComment = false) :
    sizesAfter (render row) = sizesAfter (render (row.map Token.blanked)) := by
  have kept : (upToClose row).map Token.blanked = upToClose row :=
    (List.map_congr_left fun token member => blanked_of_code (bare token member)).trans (List.map_id _)
  have split : row = upToClose row ++ row.dropWhile (· != .char ')') := List.takeWhile_append_dropWhile.symm
  have behind : row.dropWhile (· != .char ')') = [] ∨ ∃ back, row.dropWhile (· != .char ')') = .char ')' :: back := by
    cases rest : row.dropWhile (· != .char ')') with
    | nil => exact .inl rfl
    | cons token back =>
      have close := List.head?_dropWhile_not (· != Token.char ')') row
      rw [rest] at close
      exact .inr ⟨back, by rw [show token = .char ')' by simpa using close]⟩
  rcases behind with none | ⟨back, closes⟩
  · rw [none, List.append_nil] at split
    rw [split, kept]
  · rw [closes] at split
    rw [split, List.map_append, kept, render_append, render_append]
    unfold sizesAfter
    rw [render_cons, List.map_cons, render_cons, show (Token.char ')').blanked.chars = [')'] from rfl,
      show (Token.char ')').chars = [')'] from rfl, List.singleton_append, List.singleton_append,
      bracketedStart?_closed]

end Text

/-! ## Headers -/

namespace EntryPoint

variable {entry : EntryPoint} {stage : Stage} {name : String}

/-- The entry point with a space for each comment of its header. -/
def bare (entry : EntryPoint) : EntryPoint :=
  { entry with
    lead := entry.lead.map Token.blanked
    gap := entry.gap.map Token.blanked
    params := entry.params.map Token.blanked
    trailer := entry.trailer.map Token.blanked }

theorem bare_headerTokens (entry : EntryPoint) : entry.bare.headerTokens = entry.headerTokens.map Token.blanked := by
  simp [bare, headerTokens, Token.blanked]

/-- The header and the parameters of an entry point that is found are read back from their text. -/
theorem legible_header {source : String} (found : find source stage name = .ok entry) :
    Legible [] entry.headerTokens ∧ Legible [] entry.params := by
  have legible := legible_extract (isFirst_of_find found)
  have params := (entry.legible_iff.mp legible).2.2.2.2.1
  have split : entry.extract.tokens = entry.headerTokens ++ ([.char '\x7b'] ++ entry.body ++ [.char '\x7d']) := by
    simp [tokens, extract, headerTokens]
  rw [split] at legible
  exact ⟨(legible_append.mp legible).1.alone, params.alone⟩

/-- The header says nothing of an attribute that the code does not have and no comment mentions. -/
theorem hasAttribute_eq_false {word : String} (identifier : isIdentifier word.toList = true)
    (legible : Legible [] entry.headerTokens) :
    entry.hasAttribute ("@" ++ word) = false ↔ Unmentioned word.toList entry.headerTokens := by
  rw [hasAttribute, header, String.toList_append, show "@".toList ++ word.toList = '@' :: word.toList from rfl,
    ← afterAttribute?_eq_none identifier legible, Option.isSome_eq_false_iff, Option.isNone_iff_eq_none]

theorem workgroupSize_eq (entry : EntryPoint) :
    entry.workgroupSize = ((afterAttribute? ('@' :: sizeWord) 0 entry.header).map sizesAfter).getD .absent := by
  unfold workgroupSize
  rw [show "@workgroup_size".toList = '@' :: sizeWord from rfl]
  cases afterAttribute? ('@' :: sizeWord) 0 entry.header <;> rfl

theorem sizeWord_identifier : isIdentifier sizeWord = true := by decide +kernel

/-- How the workgroup size is read: the first mention counts, in the code or in a comment. -/
structure SizeRead (entry : EntryPoint) : Prop where
  absent_iff : entry.workgroupSize = .absent ↔ Unmentioned sizeWord entry.headerTokens
  /-- A comment between the attribute and its closing bracket spoils the numbers. -/
  code : ∀ front back, entry.headerTokens = front ++ .char '@' :: .word sizeWord :: back → Unmentioned sizeWord front →
    entry.workgroupSize = if (upToClose back).any Token.isComment then .notLiteral else entry.bare.workgroupSize
  /-- What a comment mentions is read from there on. -/
  comment : ∀ front text after back, entry.headerTokens = front ++ .comment text :: back →
    Unmentioned sizeWord front → afterAttribute? ('@' :: sizeWord) 0 text = some after →
    entry.workgroupSize = sizesAfter (after ++ render back)

theorem workgroupSize_eq_absent (legible : Legible [] entry.headerTokens) :
    entry.workgroupSize = .absent ↔ Unmentioned sizeWord entry.headerTokens := by
  rw [workgroupSize_eq, header, ← afterAttribute?_eq_none sizeWord_identifier legible]
  cases afterAttribute? ('@' :: sizeWord) 0 (render entry.headerTokens) with
  | none => exact iff_of_true rfl rfl
  | some after => exact iff_of_false (sizesAfter_ne_absent after) nofun

theorem sizeRead (legible : Legible [] entry.headerTokens) : entry.SizeRead where
  absent_iff := workgroupSize_eq_absent legible
  code front back split unmentioned := by
    have bareSplit : entry.bare.headerTokens =
        front.map Token.blanked ++ .char '@' :: .word sizeWord :: back.map Token.blanked := by
      rw [bare_headerTokens, split]
      simp [Token.blanked]
    have bareLegible : Legible [] entry.bare.headerTokens := entry.bare_headerTokens ▸ legible_blanked legible
    rw [split] at legible
    rw [bareSplit] at bareLegible
    have own := afterAttribute?_attribute sizeWord_identifier legible unmentioned
    have other := afterAttribute?_attribute sizeWord_identifier bareLegible (unmentioned_blanked.mpr unmentioned.1)
    rw [List.append_nil, List.append_nil] at own other
    rw [workgroupSize_eq, workgroupSize_eq, header, header, split, bareSplit, own, other]
    simp only [Option.map_some, Option.getD_some]
    split
    · rename_i comments
      obtain ⟨token, member, comment⟩ := List.any_eq_true.mp comments
      cases token with
      | comment text =>
        have behind : Legible [] back := (legible_append.mp legible).2.2.2
        have spoilt := sizesAfter_comment behind member
        rwa [List.append_nil] at spoilt
      | word text => cases comment
      | char c => cases comment
    · rename_i plain
      exact sizesAfter_blanked fun token member => eq_false_of_ne_true fun comment =>
        plain (List.any_eq_true.mpr ⟨token, member, comment⟩)
  comment front text after back split unmentioned found := by
    rw [split] at legible
    have own := afterAttribute?_comment sizeWord_identifier legible unmentioned found
    rw [List.append_nil, List.append_nil] at own
    rw [workgroupSize_eq, header, split, own]
    rfl

end EntryPoint

end FrameGraph
