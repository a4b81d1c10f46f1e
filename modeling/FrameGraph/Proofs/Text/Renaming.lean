import FrameGraph.Proofs.Text.Reading
import Mathlib.Data.List.Nodup

/-! # Renaming keeps the text between the words

A text is its free words and the parts between them. Renaming to identifiers gives every free word its new name and
leaves the parts as they are, also when the new text is read again: where a word ends, whether a number or a comment
starts and whether a word is a member or an attribute does not hang on how the words before are spelled. So the words
of the new text are the new names in their order, and names that were not in use lead back.
-/

namespace FrameGraph.Text

/-- Every new name is an identifier. -/
def Renames.Spelled (renames : Renames) : Prop :=
  ∀ old new, renames.lookup old = some new → isIdentifier new.toList = true

/-- No two words get the same name. -/
def Renames.Injective (renames : Renames) : Prop :=
  ∀ a b new, renames.lookup a = some new → renames.lookup b = some new → a = b

/-- The names back: the entries that count, turned around. -/
def Renames.inverse (renames : Renames) : Renames :=
  (renames.filter fun entry => renames.lookup entry.1 == some entry.2).map Prod.swap

/-- Text put in front of the first part. -/
def extendFirst (text : List Char) : List (List Char) → List (List Char)
  | [] => [text]
  | part :: parts => (text ++ part) :: parts

/-- The parts of a row between its free words, from a context on. -/
def gapsFrom (context : Context) : List Token → List (List Char)
  | [] => [[]]
  | token :: rest =>
    let later := gapsFrom (context.after token) rest
    match token with
    | .word text => if context.isFree then [] :: later else extendFirst text later
    | other => extendFirst other.chars later

/-- The parts of a row before, between and after its free words. -/
def gaps (row : List Token) : List (List Char) := gapsFrom .start row

/-- Words put between parts. -/
def weave : List (List Char) → List (List Char) → List Char
  | gap :: gaps, word :: words => gap ++ word ++ weave gaps words
  | gaps, _ => gaps.flatten

/-! ## A text is its parts and its words -/

theorem gapsFrom_length (context : Context) (row : List Token) :
    (gapsFrom context row).length = (freeWordsFrom context row).length + 1 := by
  induction row generalizing context with
  | nil => rfl
  | cons token rest ih =>
    have later := ih (context.after token)
    have longer : ∀ text, (extendFirst text (gapsFrom (context.after token) rest)).length =
        (freeWordsFrom (context.after token) rest).length + 1 := by
      intro text
      rw [← later]
      cases parts : gapsFrom (context.after token) rest with
      | nil => simp [parts] at later
      | cons part parts => rfl
    cases token <;> cases free : context.isFree <;> simp [gapsFrom, freeWordsFrom, free, ih, longer]

theorem gapsFrom_ne_nil (context : Context) (row : List Token) : gapsFrom context row ≠ [] := by
  rw [← List.length_pos_iff, gapsFrom_length]
  omega

/-- Text in front of the first part is in front of the whole. -/
theorem weave_extendFirst {parts : List (List Char)} (some : parts ≠ []) (text : List Char)
    (words : List (List Char)) : weave (extendFirst text parts) words = text ++ weave parts words := by
  cases parts with
  | nil => contradiction
  | cons part parts => cases words <;> simp [extendFirst, weave]

theorem renameFrom_weave (renames : Renames) (context : Context) (row : List Token) :
    renameFrom renames context row =
      weave (gapsFrom context row) ((freeWordsFrom context row).map renames.apply) := by
  induction row generalizing context with
  | nil => rfl
  | cons token rest ih =>
    have later := gapsFrom_ne_nil (context.after token) rest
    cases token <;> cases free : context.isFree <;>
      simp [renameFrom, gapsFrom, freeWordsFrom, free, ih, weave, weave_extendFirst later]

/-- Without new names a text stays. -/
theorem renameFrom_nil (context : Context) (row : List Token) : renameFrom [] context row = render row := by
  induction row generalizing context with
  | nil => rfl
  | cons token rest ih =>
    cases token <;> cases free : context.isFree <;> simp [renameFrom, free, ih, Renames.apply, Token.chars]

theorem weave_freeWords (row : List Token) : weave (gaps row) (freeWords row) = render row := by
  have same : Renames.apply [] = id := by
    funext word
    simp [Renames.apply]
  rw [← renameFrom_nil .start row, renameFrom_weave, same, List.map_id]
  rfl

/-! ## The renamed row is read back -/

/-- A row with its free words renamed, from a context of the row as it was. -/
def renamedRow (renames : Renames) (context : Context) : List Token → List Token
  | [] => []
  | token :: rest =>
    (if context.isFree then token.renamed renames else token) :: renamedRow renames (context.after token) rest

theorem renameFrom_eq_render (renames : Renames) (context : Context) (row : List Token) :
    renameFrom renames context row = render (renamedRow renames context row) := by
  induction row generalizing context with
  | nil => rfl
  | cons token rest ih =>
    cases token <;> cases free : context.isFree <;>
      simp [renameFrom, renamedRow, free, ih, Token.renamed, Token.chars]

variable {renames : Renames} {rest : List Char}

theorem apply_spelled (spelled : renames.Spelled) {word : List Char} (identifier : isIdentifier word = true) :
    isIdentifier (renames.apply word) = true := by
  unfold Renames.apply
  split
  · rename_i new found
    exact spelled _ new found
  · exact identifier

/-- A renamed token ends where it ended. -/
theorem endsAt_renamed (spelled : renames.Spelled) {token : Token} (ends : token.EndsAt rest) :
    (token.renamed renames).EndsAt rest := by
  cases token with
  | word text =>
    obtain ⟨identifier, stop⟩ := endsAt_word.mp ends
    exact endsAt_word.mpr ⟨apply_spelled spelled identifier, stop⟩
  | comment text => exact ends
  | char c => exact ends

/-- The renamed row starts as the row did, or both start with a word. -/
theorem renamedRow_replaces (spelled : renames.Spelled) (context : Context) {row : List Token}
    (legible : Legible rest row) :
    Replaces (render (renamedRow renames context row) ++ rest) (render row ++ rest) := by
  cases row with
  | nil => exact .inl rfl
  | cons token row =>
    obtain ⟨c, more, chars, -⟩ := legible.1
    by_cases same : (if context.isFree then token.renamed renames else token) = token
    · rw [renamedRow, same, render_cons, render_cons, chars]
      exact .inl rfl
    · have free : context.isFree = true := by
        by_contra bound
        exact same (if_neg bound)
      rw [if_pos free] at same
      cases token with
      | comment text => exact absurd rfl same
      | char c => exact absurd rfl same
      | word text =>
        obtain ⟨identifier, -⟩ := endsAt_word.mp legible.1
        rw [renamedRow, if_pos free, render_cons, render_cons, List.append_assoc, List.append_assoc]
        exact replaces_word (apply_spelled spelled identifier) identifier _ _

theorem legible_renamedRow (spelled : renames.Spelled) (context : Context) {row : List Token}
    (legible : Legible rest row) : Legible rest (renamedRow renames context row) := by
  induction row generalizing context with
  | nil => trivial
  | cons token row ih =>
    have ends := legible.1.follow (renamedRow_replaces spelled (context.after token) legible.2)
    refine ⟨?_, ih _ legible.2⟩
    split
    · exact endsAt_renamed spelled ends
    · exact ends

/-- The tokens of a renamed text are the tokens of the text, renamed. -/
theorem tokens_rename (spelled : renames.Spelled) (text : List Char) :
    tokens (rename renames (tokens text)) = renamedRow renames .start (tokens text) := by
  rw [rename, renameFrom_eq_render]
  exact (legible_renamedRow spelled .start (legible_tokens text)).tokens_render

/-! ## The same places are free -/

/-- A word in this place is a member or an attribute. -/
def Context.isMarked (context : Context) : Bool :=
  context.visible == some '.' || context.visible == some '@'

/-- Both contexts leave a word free, and go on to do so. -/
def Context.Agrees (a b : Context) : Prop := a.digit = b.digit ∧ a.isMarked = b.isMarked

theorem Context.Agrees.isFree_eq {a b : Context} (agrees : a.Agrees b) : a.isFree = b.isFree := by
  have plain : ∀ context : Context, context.isFree = (!context.digit && !context.isMarked) := by
    intro context
    simp [isFree, isMarked, bne, Bool.and_assoc]
  rw [plain, plain, agrees.1, agrees.2]

theorem Context.after_isMarked (context : Context) (token : Token) :
    (context.after token).isMarked = if token.lastVisible.isSome then token.marks else context.isMarked := by
  unfold isMarked Token.marks Context.after
  dsimp only
  cases seen : token.lastVisible with
  | none =>
    unfold Token.lastVisible at seen
    simp [seen]
  | some c =>
    have here := seen
    unfold Token.lastVisible at here
    simp [here]

theorem Context.Agrees.after {a b : Context} (agrees : a.Agrees b) (token : Token) :
    (a.after token).Agrees (b.after token) := by
  refine ⟨rfl, ?_⟩
  rw [after_isMarked, after_isMarked, agrees.2]

/-- A word ends in a character that is no mark. -/
theorem word_lastVisible {text : List Char} (identifier : isIdentifier text = true) :
    (Token.word text).lastVisible.isSome = true ∧ (Token.word text).marks = false := by
  have some := ne_nil_of_isIdentifier identifier
  have last := isWordChar_of_mem identifier (List.getLast_mem some)
  have visible : (Token.word text).lastVisible = text.getLast? := by
    obtain ⟨front, split⟩ := List.getLast?_eq_some_iff.mp (List.getLast?_eq_some_getLast some)
    have dark : isSeparator (text.getLast some) = false := by
      by_contra blank
      simp only [isSeparator, Bool.not_eq_false, Bool.or_eq_true, beq_iff_eq] at blank
      rcases blank with (((blank | blank) | blank) | blank) | blank <;>
        (rw [blank] at last; revert last; decide)
    rw [Token.lastVisible, Token.chars, split]
    simp [dark]
  rw [Token.marks, visible, List.getLast?_eq_some_getLast some]
  refine ⟨rfl, ?_⟩
  simp only [Bool.or_eq_false_iff, beq_eq_false_iff_ne, ne_eq, Option.some.injEq]
  constructor <;>
    (intro mark; rw [mark] at last; revert last; decide)

/-- After a word it does not matter how the word is spelled. -/
theorem Context.agrees_after_word {a b : Context} {text text' : List Char} (identifier : isIdentifier text = true)
    (identifier' : isIdentifier text' = true) : (a.after (.word text)).Agrees (b.after (.word text')) := by
  obtain ⟨seen, plain⟩ := word_lastVisible identifier
  obtain ⟨seen', plain'⟩ := word_lastVisible identifier'
  refine ⟨rfl, ?_⟩
  rw [after_isMarked, after_isMarked, if_pos seen, if_pos seen', plain, plain']

theorem Context.Agrees.after_renamed (spelled : renames.Spelled) {a b : Context} (agrees : a.Agrees b)
    {token : Token} (ends : token.EndsAt rest) :
    (a.after (if b.isFree then token.renamed renames else token)).Agrees (b.after token) := by
  split
  · cases token with
    | word text =>
      have identifier := (endsAt_word.mp ends).1
      exact agrees_after_word (apply_spelled spelled identifier) identifier
    | comment text => exact agrees.after _
    | char c => exact agrees.after _
  · exact agrees.after token

/-- The words of the renamed row are the new names of the words. -/
theorem freeWordsFrom_renamedRow (spelled : renames.Spelled) {a b : Context} (agrees : a.Agrees b) {row : List Token}
    (legible : Legible rest row) :
    freeWordsFrom a (renamedRow renames b row) = (freeWordsFrom b row).map renames.apply := by
  induction row generalizing a b with
  | nil => rfl
  | cons token row ih =>
    have later := ih (agrees.after_renamed spelled legible.1) legible.2
    have free := agrees.isFree_eq
    cases token <;> cases here : b.isFree <;>
      simp_all [renamedRow, freeWordsFrom, Token.renamed]

/-- The parts between the words stay. -/
theorem gapsFrom_renamedRow (spelled : renames.Spelled) {a b : Context} (agrees : a.Agrees b) {row : List Token}
    (legible : Legible rest row) : gapsFrom a (renamedRow renames b row) = gapsFrom b row := by
  induction row generalizing a b with
  | nil => rfl
  | cons token row ih =>
    have later := ih (agrees.after_renamed spelled legible.1) legible.2
    have free := agrees.isFree_eq
    cases token <;> cases here : b.isFree <;>
      simp_all [renamedRow, gapsFrom, Token.renamed]

/-! ## There and back -/

theorem lookup_inverse (injective : renames.Injective) {old new : String} :
    renames.inverse.lookup new = some old ↔ renames.lookup old = some new := by
  have entry : ∀ {word name : String}, (name, word) ∈ renames.inverse ↔ renames.lookup word = some name := by
    intro word name
    simp only [Renames.inverse, List.mem_map, List.mem_filter, beq_iff_eq, Prod.exists, Prod.swap_prod_mk,
      Prod.mk.injEq]
    constructor
    · rintro ⟨_, _, ⟨-, counts⟩, rfl, rfl⟩
      exact counts
    · intro counts
      obtain ⟨front, back, rfl, -⟩ := List.lookup_eq_some_iff.mp counts
      exact ⟨word, name, ⟨by simp, counts⟩, rfl, rfl⟩
  constructor
  · intro found
    obtain ⟨front, back, split, -⟩ := List.lookup_eq_some_iff.mp found
    exact entry.mp (by simp [split])
  · intro counts
    cases found : renames.inverse.lookup new with
    | none =>
      have absent := List.lookup_eq_none_iff.mp found (new, old) (entry.mpr counts)
      simp at absent
    | some other =>
      obtain ⟨front, back, split, -⟩ := List.lookup_eq_some_iff.mp found
      have counts' := entry.mp (show (new, other) ∈ renames.inverse by simp [split])
      rw [injective other old new counts' counts]

/-- A word that is no new name gets its old name back. -/
theorem inverse_apply (injective : renames.Injective) {word : List Char}
    (fresh : ∀ old new, renames.lookup old = some new → new.toList ≠ word) :
    renames.inverse.apply (renames.apply word) = word := by
  unfold Renames.apply
  cases named : renames.lookup (String.ofList word) with
  | some new => simp [(lookup_inverse injective).mpr named]
  | none =>
    cases back : renames.inverse.lookup (String.ofList word) with
    | none => simp
    | some old =>
      have counts := (lookup_inverse injective).mp back
      exact absurd (by simp) (fresh old _ counts)

theorem spelled_of_forall (all : ∀ entry ∈ renames, isIdentifier entry.2.toList = true) : renames.Spelled := by
  intro old new found
  obtain ⟨front, back, split, -⟩ := List.lookup_eq_some_iff.mp found
  exact all (old, new) (by simp [split])

theorem injective_of_nodup (distinct : (renames.map Prod.snd).Nodup) : renames.Injective := by
  intro a b new first second
  obtain ⟨_, _, split, -⟩ := List.lookup_eq_some_iff.mp first
  obtain ⟨_, _, split', -⟩ := List.lookup_eq_some_iff.mp second
  have here : (a, new) ∈ renames := by simp [split]
  have there : (b, new) ∈ renames := by simp [split']
  exact congrArg Prod.fst (List.inj_on_of_nodup_map distinct here there rfl)

/-- Renaming to identifiers gives every free word its new name, in its place, and keeps everything between the words;
a renamed text refers to the new names of its words, and names that were not in use lead back to the text. -/
theorem rename_words (text : List Char) (renames : Renames) (spelled : renames.Spelled) :
    text = weave (gaps (tokens text)) (freeWords (tokens text)) ∧
    (gaps (tokens text)).length = (freeWords (tokens text)).length + 1 ∧
    rename renames (tokens text) = weave (gaps (tokens text)) ((freeWords (tokens text)).map renames.apply) ∧
    gaps (tokens (rename renames (tokens text))) = gaps (tokens text) ∧
    freeWords (tokens (rename renames (tokens text))) = (freeWords (tokens text)).map renames.apply ∧
    (∀ name, references (tokens (rename renames (tokens text))) name = true ↔
      ∃ word ∈ freeWords (tokens text), renames.apply word = name.toList) ∧
    (renames.Injective → (∀ old new, renames.lookup old = some new → new.toList ∉ freeWords (tokens text)) →
      rename renames.inverse (tokens (rename renames (tokens text))) = text) := by
  have legible := legible_tokens text
  have read := tokens_rename spelled text
  have parts : gaps (tokens (rename renames (tokens text))) = gaps (tokens text) := by
    rw [read]
    exact gapsFrom_renamedRow spelled ⟨rfl, rfl⟩ legible
  have words : freeWords (tokens (rename renames (tokens text))) = (freeWords (tokens text)).map renames.apply := by
    rw [read]
    exact freeWordsFrom_renamedRow spelled ⟨rfl, rfl⟩ legible
  have whole : weave (gaps (tokens text)) (freeWords (tokens text)) = text := by
    rw [weave_freeWords, render_tokens]
  refine ⟨whole.symm, gapsFrom_length _ _, renameFrom_weave _ _ _, parts, words, fun name => ?_,
    fun injective fresh => ?_⟩
  · simp [references, words]
  · have back : ((freeWords (tokens text)).map renames.apply).map renames.inverse.apply = freeWords (tokens text) := by
      rw [List.map_map]
      refine (List.map_congr_left fun word member => ?_).trans (List.map_id _)
      refine inverse_apply injective fun old new counts same => ?_
      exact fresh old new counts (same ▸ member)
    rw [rename, renameFrom_weave]
    change weave (gaps _) ((freeWords _).map _) = text
    rw [parts, words, back, whole]

/-- Members, comments and the tails of numbers stay as they are. -/
theorem rename_words_scaled :
    let text := "pos.gid + gid /* gid */ - 1gid".toList
    let renames : Renames := [("gid", "id"), ("pos", "k__pos")]
    renames.Spelled ∧ renames.Injective ∧
      rename renames (tokens text) = "k__pos.gid + id /* gid */ - 1gid".toList ∧
      references (tokens (rename renames (tokens text))) "id" = true ∧
      rename renames.inverse (tokens (rename renames (tokens text))) = text := by
  intro text renames
  have spelled : renames.Spelled := spelled_of_forall (by decide)
  have injective : renames.Injective := injective_of_nodup (by decide)
  have fresh : ∀ old new, renames.lookup old = some new → new.toList ∉ freeWords (tokens text) := by
    intro old new found
    obtain ⟨_, _, split, -⟩ := List.lookup_eq_some_iff.mp found
    have all : ∀ entry ∈ renames, entry.2.toList ∉ freeWords (tokens text) := by decide +kernel
    exact all (old, new) (by simp [split])
  have told := rename_words text renames spelled
  refine ⟨spelled, injective, by decide +kernel, ?_, told.2.2.2.2.2.2 injective fresh⟩
  exact (told.2.2.2.2.2.1 "id").mpr ⟨"gid".toList, by decide +kernel, by decide⟩

end FrameGraph.Text
