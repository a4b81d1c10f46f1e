import FrameGraph.Axes
import FrameGraph.Proofs.Text.Headings
import FrameGraph.Text.Patch

/-! # The workgroup size in a header

The attribute that sets the workgroup size is read back wherever it stands. In front of the words of a header it
changes nothing that the header declares: its parameter list belongs to no function, and no two words on both sides of
the list count together.
-/

namespace FrameGraph

/-- What an edit puts behind the stage mark. -/
def attrText : Option String → List Char
  | some text => ' ' :: text.toList
  | none => []

theorem EntryPoint.patchedLead_eq (entry : EntryPoint) (patch : Patch) :
    entry.patchedLead patch = Text.render (entry.lead.takeWhile extendsMark) ++ attrText patch.attr ++
      Text.render (entry.lead.dropWhile extendsMark) := by
  unfold patchedLead
  cases patch.attr <;> rfl

namespace Text

/-- The attribute that sets the workgroup size. -/
def sizeAttr (size : Axes) : String := s!"@workgroup_size({size.x}, {size.y}, {size.z})"

def sizeWord : List Char := "workgroup_size".toList

/-- The digits of a number. -/
def number (n : Nat) : List Token := (Nat.toDigits 10 n).map Token.char

/-- The numbers of the attribute. -/
def sizeNumbers (size : Axes) : List Token :=
  number size.x ++ .char ',' :: .char ' ' :: (number size.y ++ .char ',' :: .char ' ' :: number size.z)

/-- The attribute with a space in front. -/
def sizeRow (size : Axes) : List Token :=
  [.char ' ', .char '@', .word sizeWord] ++ group '(' (sizeNumbers size)

theorem render_chars (text : List Char) : render (text.map Token.char) = text := by
  induction text with
  | nil => rfl
  | cons c text ih =>
    rw [List.map_cons, render_cons, ih]
    rfl

theorem render_number (n : Nat) : render (number n) = (toString n).toList := by
  have digits : (toString n).toList = Nat.toDigits 10 n := by
    rw [Nat.toString_eq_ofList_toDigits]
    exact String.toList_ofList
  exact (render_chars _).trans digits.symm

theorem render_sizeRow (size : Axes) : render (sizeRow size) = ' ' :: (sizeAttr size).toList := by
  have parts : sizeAttr size = "@workgroup_size(" ++ toString size.x ++ ", " ++ toString size.y ++ ", " ++
      toString size.z ++ ")" := rfl
  have front : "@workgroup_size(".toList = '@' :: (sizeWord ++ ['(']) := by decide +kernel
  have comma : ", ".toList = [',', ' '] := by decide +kernel
  have closing : ")".toList = [')'] := by decide +kernel
  rw [parts]
  repeat rw [String.toList_append]
  rw [front, comma, closing, ← render_number, ← render_number, ← render_number]
  simp only [sizeRow, sizeNumbers, group, render_append, render_cons, render_nil, Token.chars, List.append_assoc,
    List.cons_append, List.nil_append, List.append_nil]
  rfl

theorem isWordStart_of_isDigit {c : Char} (digit : c.isDigit = true) : isWordStart c = false := by
  have upper : '9'.val.toNat < 'A'.val.toNat := by decide
  have lower : '9'.val.toNat < 'a'.val.toNat := by decide
  have other : c ≠ '_' := by
    rintro rfl
    revert digit
    decide
  simp only [Char.isDigit, ge_iff_le, Bool.and_eq_true, decide_eq_true_eq, UInt32.le_iff_toNat_le] at digit
  simp only [isWordStart, isAlpha_eq, UInt32.le_iff_toNat_le, Bool.or_eq_false_iff, Bool.and_eq_false_iff,
    decide_eq_false_iff_not, beq_eq_false_iff_ne]
  exact ⟨⟨by omega, by omega⟩, other⟩

theorem legible_digits (rest : List Char) {digits : List Char} (all : ∀ c ∈ digits, c.isDigit = true) :
    Legible rest (digits.map Token.char) := by
  induction digits with
  | nil => trivial
  | cons c digits ih =>
    obtain ⟨first, others⟩ := List.forall_mem_cons.mp all
    refine ⟨endsAt_char.mpr ⟨isWordStart_of_isDigit first, ?_⟩, ih others⟩
    rintro rfl
    cases first

theorem isDigit_of_mem {n : Nat} {c : Char} (member : c ∈ Nat.toDigits 10 n) : c.isDigit = true :=
  Nat.isDigit_of_mem_toDigits (by decide) (by decide) member

theorem isWordChar_number {n : Nat} {c : Char} (member : c ∈ (toString n).toList) : isWordChar c = true := by
  rw [← render_number, number, render_chars] at member
  simp [isWordChar, Char.isAlphanum, isDigit_of_mem member]

theorem legible_number (rest : List Char) (n : Nat) : Legible rest (number n) :=
  legible_digits rest fun _ => isDigit_of_mem

theorem balanced_number (n : Nat) : Balanced (number n) := by
  refine (balanced_append_plain (a := []) fun token member => ?_).mpr balanced_nil
  obtain ⟨c, digit, rfl⟩ := List.mem_map.mp member
  have plain : ¬ isBracket c = true := fun bracket => by
    simpa [isWordChar, Char.isAlphanum, isDigit_of_mem digit] using isWordChar_bracket bracket
  simp [Token.bracket?, plain]

/-- The attribute is read back in front of any text. -/
theorem legible_sizeRow (rest : List Char) (size : Axes) : Legible rest (sizeRow size) := by
  have char : ∀ {c : Char} {rest : List Char}, isWordStart c = false → c ≠ '/' → (Token.char c).EndsAt rest :=
    fun plain other => endsAt_char.mpr ⟨plain, fun slash => absurd slash other⟩
  have word : (Token.word sizeWord).EndsAt ('(' :: rest) :=
    endsAt_word.mpr ⟨by decide +kernel, by rintro c ⟨⟩; decide⟩
  simp only [sizeRow, sizeNumbers, group, List.cons_append, List.nil_append, Legible, legible_append, legible_number,
    true_and, and_true]
  refine ⟨char rfl (by decide), char rfl (by decide), word.follow (.inl rfl), char rfl (by decide), ?_⟩
  refine ⟨⟨char rfl (by decide), char rfl (by decide), char rfl (by decide), char rfl (by decide)⟩, ?_⟩
  exact char rfl (by decide)

theorem balanced_sizeNumbers (size : Axes) : Balanced (sizeNumbers size) := by
  have comma : ∀ {row : List Token}, Balanced row → Balanced (.char ',' :: .char ' ' :: row) := fun balanced =>
    (balanced_cons rfl).mpr ((balanced_cons rfl).mpr balanced)
  exact (balanced_number _).append (comma ((balanced_number _).append (comma (balanced_number _))))

theorem isHeader_sizeRow (size : Axes) : IsHeader (sizeRow size) := by
  have word := isHeader_plain (.word sizeWord) rfl rfl
  have front := (isHeader_plain (.char ' ') rfl rfl).append
    ((isHeader_plain (.char '@') rfl rfl).append word)
  exact front.append (isHeader_group (balanced_sizeNumbers size))

/-- The attribute declares nothing, and no declaration begins in it. -/
theorem Fresh.sizeRow {name : String} {front : List Token} (fresh : Fresh name front) (size : Axes) :
    Fresh name (sizeRow size ++ front) := by
  refine Fresh.append ?_ (isHeader_sizeRow size).balanced fun done rest split top heralds =>
    fresh done rest split top (heralds.behind_group _ _)
  have word : Fresh name [.char ' ', .char '@', .word sizeWord] :=
    (fresh_nil name).plain balanced_nil (by simp [Token.bracket?, isBracket, isOpener, isCloser])
  refine word.group rfl (balanced_sizeNumbers size) fun heralds => ?_
  -- one word cannot be two
  have two : name.toList = sizeWord ∧ LastWord ['f', 'n'] [.char ' ', .char '@'] := (endsIn_word rfl).mp heralds
  obtain ⟨left, gap, split, -⟩ := two.2
  have member : Token.word ['f', 'n'] ∈ [Token.char ' ', Token.char '@'] := by simp [split]
  simp at member

end Text

end FrameGraph
