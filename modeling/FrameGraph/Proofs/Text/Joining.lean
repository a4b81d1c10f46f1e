import FrameGraph.Proofs.Text.Balance
import FrameGraph.Proofs.Text.Renaming

/-! # Texts put together

A text without comments that is put in front of another may run into its first word, so that the tokens of the two
are not the tokens of the whole. Its brackets are, unless a slash at its end meets a slash or a star: what runs
together are letters, digits and underscores. In a text without slashes there are no comments, and the brackets among
its characters are its brackets.
-/

namespace FrameGraph.Text

/-- A text without comments whose brackets have their partners. -/
def IsPlain (text : List Char) : Prop :=
  Balanced (tokens text) ∧ ∀ token ∈ tokens text, token.isComment = false

instance (text : List Char) : Decidable (IsPlain text) := inferInstanceAs (Decidable (_ ∧ _))

/-- The end of the text and the start of `rest` make no comment. -/
def Apart (text rest : List Char) : Prop :=
  text.getLast? = some '/' → rest.head? ≠ some '/' ∧ rest.head? ≠ some '*'

instance (text rest : List Char) : Decidable (Apart text rest) := inferInstanceAs (Decidable (_ → _))

variable {rest : List Char}

/-- Letters, digits and underscores at the start of a row can be taken off; no bracket is among them. -/
theorem exists_run (stop : ∀ c, rest.head? = some c → isWordChar c = false) {row : List Token}
    (legible : Legible rest row) :
    ∃ run row', render row = run ++ render row' ∧ (∀ c ∈ run, isWordChar c = true) ∧
      (∀ c, (render row' ++ rest).head? = some c → isWordChar c = false) ∧ Legible rest row' ∧
      brackets row' = brackets row := by
  induction row with
  | nil => exact ⟨[], [], rfl, by simp, stop, trivial, rfl⟩
  | cons token row ih =>
    cases token with
    | word text =>
      obtain ⟨spelled, next⟩ := endsAt_word.mp legible.1
      exact ⟨text, row, rfl, fun c member => isWordChar_of_mem spelled member, next, legible.2,
        by rw [brackets_cons (.word text), brackets_plain rfl, List.nil_append]⟩
    | comment text =>
      refine ⟨[], .comment text :: row, rfl, by simp, fun c head => ?_, legible, rfl⟩
      obtain ⟨body, rfl⟩ := comment_starts legible.1
      cases head
      decide
    | char c =>
      cases inside : isWordChar c with
      | false => exact ⟨[], .char c :: row, rfl, by simp, fun d head => by cases head; exact inside, legible, rfl⟩
      | true =>
        obtain ⟨run, row', split, all, next, legible', same⟩ := ih legible.2
        have plain : ¬ isBracket c = true := fun bracket => by simp [isWordChar_bracket bracket] at inside
        have none : (Token.char c).bracket? = none := by simp [Token.bracket?, plain]
        refine ⟨c :: run, row', by rw [render_cons, split]; rfl, ?_, next, legible', ?_⟩
        · simpa [inside] using all
        · rw [same, brackets_cons (.char c), brackets_plain none, List.nil_append]

/-- A row without comments can be put in front of a row; the brackets are those of both. -/
theorem exists_join (stop : ∀ c, rest.head? = some c → isWordChar c = false) {front row : List Token}
    (plain : ∀ token ∈ front, token.isComment = false) (first : Legible [] front) (legible : Legible rest row)
    (apart : Apart (render front) (render row ++ rest)) :
    ∃ whole, render whole = render front ++ render row ∧ Legible rest whole ∧
      brackets whole = brackets front ++ brackets row := by
  induction front with
  | nil => exact ⟨row, rfl, legible, rfl⟩
  | cons token front ih =>
    cases front with
    | nil =>
      cases token with
      | comment text => cases plain (.comment text) (by simp)
      | char c =>
        refine ⟨.char c :: row, by simp, ⟨endsAt_char.mpr ⟨(endsAt_char.mp first.1).1, ?_⟩, legible⟩,
          brackets_cons _ _⟩
        rintro rfl
        exact apart rfl
      | word text =>
        obtain ⟨run, row', split, all, next, legible', same⟩ := exists_run stop legible
        have spelled := (endsAt_word.mp first.1).1
        refine ⟨.word (text ++ run) :: row', by simp [Token.chars, split],
          ⟨endsAt_word.mpr ⟨isIdentifier_append spelled all, next⟩, legible'⟩, ?_⟩
        rw [brackets_cons, same]
        rfl
    | cons next front =>
      obtain ⟨c, more, chars, -⟩ := first.2.1
      have some : render (next :: front) ≠ [] := by simp [chars]
      obtain ⟨whole, split, legible', same⟩ := ih (fun u member => plain u (List.mem_cons_of_mem _ member)) first.2
        (by rwa [render_cons, Apart, List.getLast?_append_of_ne_nil _ some] at apart)
      refine ⟨token :: whole, by rw [render_cons, split, render_cons token, List.append_assoc], ⟨?_, legible'⟩, ?_⟩
      · refine first.1.follow (.inl ?_)
        rw [split, List.append_nil, List.append_assoc, head_chars some]
      · rw [brackets_cons, same, brackets_cons token (next :: front), List.append_assoc]

/-- A balanced text without comments can be put in front of a balanced row. -/
theorem IsPlain.exists_join (stop : ∀ c, rest.head? = some c → isWordChar c = false) {text : List Char}
    (plain : IsPlain text) {row : List Token} (legible : Legible rest row) (balanced : Balanced row)
    (apart : Apart text (render row ++ rest)) :
    ∃ whole, render whole = text ++ render row ∧ Legible rest whole ∧ Balanced whole := by
  obtain ⟨whole, split, legible', same⟩ := Text.exists_join stop plain.2 (legible_tokens text) legible
    (by rwa [render_tokens])
  refine ⟨whole, by rw [split, render_tokens], legible', ?_⟩
  rw [Balanced, same, ← brackets_append]
  exact plain.1.append balanced

/-- Balanced texts without comments with commas in between can be put in front of a balanced row. -/
theorem exists_join_commas (stop : ∀ c, rest.head? = some c → isWordChar c = false) {texts : List String}
    (plain : ∀ text ∈ texts, IsPlain text.toList) {row : List Token} (legible : Legible rest row)
    (balanced : Balanced row)
    (apart : texts ≠ [] → (render row ++ rest).head? ≠ some '/' ∧ (render row ++ rest).head? ≠ some '*') :
    ∃ whole, render whole = (String.intercalate ", " texts).toList ++ render row ∧ Legible rest whole ∧
      Balanced whole := by
  match texts with
  | [] => exact ⟨row, rfl, legible, balanced⟩
  | [text] =>
    have one := (plain text (by simp)).exists_join stop legible balanced fun _ => apart (by simp)
    simpa using one
  | text :: next :: texts =>
    obtain ⟨tail, split, legible', balanced'⟩ := exists_join_commas stop
      (fun other member => plain other (List.mem_cons_of_mem _ member)) legible balanced fun _ => apart (by simp)
    have comma : Legible rest (.char ',' :: .char ' ' :: tail) :=
      ⟨endsAt_char.mpr ⟨rfl, by simp⟩, endsAt_char.mpr ⟨rfl, by simp⟩, legible'⟩
    obtain ⟨whole, split', legible'', balanced''⟩ := (plain text (by simp)).exists_join stop comma
      ((balanced_cons rfl).mpr ((balanced_cons rfl).mpr balanced')) (by simp [Apart, Token.chars])
    refine ⟨whole, ?_, legible'', balanced''⟩
    rw [split', render_cons, render_cons, split, String.intercalate_cons_cons]
    simp [Token.chars]

/-! ## Texts without slashes -/

/-- Neither slashes nor brackets. -/
def IsSmooth (text : List Char) : Prop := ∀ c ∈ text, c ≠ '/' ∧ isBracket c = false

instance (text : List Char) : Decidable (IsSmooth text) := List.decidableBAll _ text

/-- A text without slashes whose brackets have their partners. -/
structure IsTidy (text : List Char) : Prop where
  noSlash : '/' ∉ text
  paired : owedAfter [] (text.filter isBracket) = some []

instance (text : List Char) : Decidable (IsTidy text) :=
  decidable_of_iff ('/' ∉ text ∧ owedAfter [] (text.filter isBracket) = some [])
    ⟨fun ⟨noSlash, paired⟩ => ⟨noSlash, paired⟩, fun tidy => ⟨tidy.noSlash, tidy.paired⟩⟩

theorem IsSmooth.append {a b : List Char} (first : IsSmooth a) (second : IsSmooth b) : IsSmooth (a ++ b) :=
  List.forall_mem_append.mpr ⟨first, second⟩

theorem IsSmooth.filter_eq {text : List Char} (smooth : IsSmooth text) : text.filter isBracket = [] :=
  List.filter_eq_nil_iff.mpr fun c member => by simp [(smooth c member).2]

/-- Letters, digits and underscores are neither slashes nor brackets. -/
theorem isSmooth_of_words {text : List Char} (words : ∀ c ∈ text, isWordChar c = true) : IsSmooth text := by
  refine fun c member => ⟨?_, eq_false_of_ne_true fun bracket => ?_⟩
  · rintro rfl
    cases words _ member
  · have plain := isWordChar_bracket bracket
    rw [words c member] at plain
    cases plain

theorem isSmooth_intercalate {separator : String} (between : IsSmooth separator.toList) {texts : List String}
    (all : ∀ text ∈ texts, IsSmooth text.toList) : IsSmooth (String.intercalate separator texts).toList := by
  match texts with
  | [] => exact fun c none => by simp at none
  | [text] => simpa using all
  | text :: next :: texts =>
    obtain ⟨first, others⟩ := List.forall_mem_cons.mp all
    have later := isSmooth_intercalate between others
    simpa [String.intercalate_cons_cons] using first.append (between.append later)

theorem IsTidy.append {a b : List Char} (first : IsTidy a) (second : IsTidy b) : IsTidy (a ++ b) where
  noSlash member := (List.mem_append.mp member).elim first.noSlash second.noSlash
  paired := by rw [List.filter_append, owedAfter_append, first.paired, Option.bind_some, second.paired]

/-- What is neither a slash nor a bracket may stand anywhere. -/
theorem IsTidy.insert {a x b : List Char} (tidy : IsTidy (a ++ b)) (smooth : IsSmooth x) :
    IsTidy (a ++ (x ++ b)) where
  noSlash member := by
    obtain front | inside | behind := by simpa using member
    · exact tidy.noSlash (List.mem_append_left _ front)
    · exact (smooth _ inside).1 rfl
    · exact tidy.noSlash (List.mem_append_right _ behind)
  paired := by
    rw [List.filter_append, List.filter_append, smooth.filter_eq, List.nil_append, ← List.filter_append, tidy.paired]

/-- Without slashes there are no comments, and all brackets count. -/
theorem brackets_of_noSlash {row : List Token} (legible : Legible rest row) (noSlash : '/' ∉ render row) :
    brackets row = (render row).filter isBracket ∧ ∀ token ∈ row, token.isComment = false := by
  induction row with
  | nil => exact ⟨rfl, by simp⟩
  | cons token row ih =>
    rw [render_cons, List.mem_append, not_or] at noSlash
    obtain ⟨same, plain⟩ := ih legible.2 noSlash.2
    rw [brackets_cons, render_cons, List.filter_append, same, List.forall_mem_cons]
    cases token with
    | comment text =>
      obtain ⟨body, rfl⟩ := comment_starts legible.1
      exact absurd (.head _) noSlash.1
    | word text =>
      have words := isSmooth_of_words fun c member => isWordChar_of_mem (endsAt_word.mp legible.1).1 member
      rw [brackets_plain rfl, Token.chars, words.filter_eq]
      exact ⟨rfl, rfl, plain⟩
    | char c =>
      refine ⟨?_, rfl, plain⟩
      cases bracket : isBracket c <;> simp [brackets, Token.bracket?, Token.chars, bracket]

theorem IsTidy.isPlain {text : List Char} (tidy : IsTidy text) : IsPlain text := by
  obtain ⟨same, plain⟩ := brackets_of_noSlash (legible_tokens text) (by rw [render_tokens]; exact tidy.noSlash)
  rw [render_tokens] at same
  exact ⟨by rw [Balanced, same, tidy.paired], plain⟩

theorem IsTidy.apart {text : List Char} (tidy : IsTidy text) (rest : List Char) : Apart text rest :=
  fun slash => absurd (List.mem_of_getLast? slash) tidy.noSlash

/-! ## Renamed rows -/

/-- Renaming keeps the brackets. -/
theorem brackets_renamedRow (renames : Renames) (context : Context) (row : List Token) :
    brackets (renamedRow renames context row) = brackets row := by
  induction row generalizing context with
  | nil => rfl
  | cons token row ih =>
    rw [renamedRow, brackets_cons, ih, brackets_cons token]
    congr 1
    split
    · cases token <;> rfl
    · rfl

theorem Balanced.renamedRow {row : List Token} (balanced : Balanced row) (renames : Renames) (context : Context) :
    Balanced (renamedRow renames context row) := by
  rwa [Balanced, brackets_renamedRow]

/-! ## Blank texts -/

theorem toNat_of_isWordChar {c : Char} (word : isWordChar c = true) : 48 ≤ c.toNat ∧ c.toNat ≤ 122 := by
  have bounds : '0'.val.toNat = 48 ∧ '9'.val.toNat = 57 ∧ 'A'.val.toNat = 65 ∧ 'Z'.val.toNat = 90 ∧
      'a'.val.toNat = 97 ∧ 'z'.val.toNat = 122 := by decide
  simp only [isWordChar, Char.isAlphanum, isAlpha_eq, Char.isDigit, ge_iff_le, UInt32.le_iff_toNat_le,
    Bool.or_eq_true, Bool.and_eq_true, decide_eq_true_eq, beq_iff_eq, bounds] at word
  change 48 ≤ c.val.toNat ∧ c.val.toNat ≤ 122
  rcases word with ((upper | lower) | digit) | rfl
  · omega
  · omega
  · omega
  · decide

theorem isBlank_of_isWordChar {c : Char} (word : isWordChar c = true) : isBlank c = false := by
  have bounds := toNat_of_isWordChar word
  simp only [isBlank, Bool.or_eq_false_iff, Bool.and_eq_false_iff, decide_eq_false_iff_not, beq_eq_false_iff_ne]
  omega

theorem trim_eq_nil_iff {text : List Char} : trim text = [] ↔ ∀ c ∈ text, isBlank c = true := by
  rw [trim, trimEnd, List.reverse_eq_nil_iff, List.dropWhile_eq_nil_iff, trimStart]
  constructor
  · intro all
    by_contra some
    have more : text.dropWhile isBlank ≠ [] := by rwa [Ne, List.dropWhile_eq_nil_iff]
    have head := List.head_dropWhile_not isBlank more
    rw [all _ (List.mem_reverse.mpr (List.head_mem more))] at head
    cases head
  · intro all c member
    exact all c ((List.dropWhile_sublist _).mem (List.mem_reverse.mp member))

/-- A text is blank if its renamed text is. -/
theorem isBlank_renamedRow {renames : Renames} (spelled : renames.Spelled) {rest : List Char} (context : Context)
    {row : List Token} (legible : Legible rest row) :
    (∀ c ∈ render (renamedRow renames context row), isBlank c = true) ↔ ∀ c ∈ render row, isBlank c = true := by
  have visible : ∀ {text : List Char}, isIdentifier text = true → ¬ ∀ c ∈ text, isBlank c = true := by
    intro text identifier all
    have member := List.head_mem (ne_nil_of_isIdentifier identifier)
    have word := isBlank_of_isWordChar (isWordChar_of_mem identifier member)
    rw [all _ member] at word
    cases word
  induction row generalizing context with
  | nil => rfl
  | cons token row ih =>
    simp only [renamedRow, render_cons, List.mem_append, or_imp, forall_and, ih _ legible.2]
    cases token with
    | comment text => simp [Token.renamed]
    | char c => simp [Token.renamed]
    | word text =>
      have identifier := (endsAt_word.mp legible.1).1
      have old := visible identifier
      have new := visible (apply_spelled spelled identifier)
      split
      · simp only [Token.renamed, Token.chars, new, old, false_and]
      · rfl

end FrameGraph.Text
