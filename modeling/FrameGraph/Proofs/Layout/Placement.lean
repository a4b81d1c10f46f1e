import FrameGraph.Layout.ShaderType
import FrameGraph.Proofs.Symbols
import Mathlib.Data.Nat.Prime.Basic
import Mathlib.Order.Bounds.Defs

/-! # Placing the members of a record

Members are placed one after the other, each at the least aligned byte behind the one before. `Places` follows the
placement member by member, in exact numbers; what is known of the offsets of a record is read off it by induction.
Sizes are counted in 64-bit words, in two loops over the members: as long as the exact size of a type fits into a word,
both loops do what `Places` says. Alignments are divisors of sixteen, so that of two alignments the smaller divides the
larger one, and all of them divide the number of words.
-/

namespace FrameGraph

/-! ## Rounding up to an alignment -/

namespace Layout

theorem le_ceil (align value : Nat) : value ≤ ceil align value := by
  unfold ceil
  split
  · exact Nat.le_refl value
  · have quotient := Nat.div_add_mod (value + align - 1) align
    have remainder := Nat.mod_lt (value + align - 1) (show 0 < align by omega)
    rw [Nat.mul_comm] at quotient
    omega

theorem dvd_ceil {align : Nat} (positive : 0 < align) (value : Nat) : align ∣ ceil align value := by
  rw [ceil, if_neg (Nat.ne_of_gt positive)]
  exact Nat.dvd_mul_left align _

theorem ceil_le {align value byte : Nat} (behind : value ≤ byte) (aligned : align ∣ byte) :
    ceil align value ≤ byte := by
  unfold ceil
  split
  · exact behind
  · obtain ⟨units, rfl⟩ := aligned
    rw [Nat.mul_comm align units]
    apply Nat.mul_le_mul_right
    apply Nat.le_of_lt_succ
    rw [Nat.div_lt_iff_lt_mul (by omega), Nat.succ_mul, Nat.mul_comm units align]
    omega

theorem ceil_eq_self {align value : Nat} (aligned : align ∣ value) : ceil align value = value :=
  Nat.le_antisymm (ceil_le (Nat.le_refl value) aligned) (le_ceil align value)

theorem word_eq {bytes : Nat} (fits : bytes < UInt64.size) : word bytes = bytes := Nat.mod_eq_of_lt fits

theorem word_lt (bytes : Nat) : word bytes < UInt64.size := Nat.mod_lt bytes (by decide)

@[simp] theorem word_zero : word 0 = 0 := rfl

theorem ne_zero_of_word {count stride : Nat} (sized : word (count * stride) ≠ 0) : count ≠ 0 ∧ stride ≠ 0 := by
  constructor
  · rintro rfl
    exact sized (by rw [Nat.zero_mul, word_zero])
  · rintro rfl
    exact sized (by rw [Nat.mul_zero, word_zero])

/-- Reducing a number of bytes to a word keeps it aligned. -/
theorem dvd_word {align bytes : Nat} (small : align ∣ 16) (aligned : align ∣ bytes) : align ∣ word bytes :=
  (Nat.dvd_mod_iff (Nat.dvd_trans small (by decide))).mpr aligned

theorem roundUp_eq {align value : Nat} (fits : ceil align value < UInt64.size) :
    roundUp align value = ceil align value := word_eq fits

theorem dvd_roundUp {align : Nat} (small : align ∣ 16) (value : Nat) : align ∣ roundUp align value :=
  dvd_word small (dvd_ceil (Nat.pos_of_dvd_of_pos small (by decide)) value)

theorem roundUp_eq_self {align value : Nat} (aligned : align ∣ value) (fits : value < UInt64.size) :
    roundUp align value = value := by
  rw [roundUp, ceil_eq_self aligned, word_eq fits]

theorem roundUp_roundUp {align : Nat} (small : align ∣ 16) (value : Nat) :
    roundUp align (roundUp align value) = roundUp align value :=
  roundUp_eq_self (dvd_roundUp small value) (word_lt _)

@[simp] theorem roundUp_zero (align : Nat) : roundUp align 0 = 0 := by
  rw [roundUp, ceil_eq_self (Nat.dvd_zero align), word_zero]

theorem Extents.dvd_stride {extents : Extents} (small : extents.align ∣ 16) : extents.align ∣ extents.stride :=
  dvd_roundUp small _

/-- Elements that fit are followed by no gap. -/
theorem stride_of_mul {align count stride : Nat} (aligned : align ∣ stride) (fits : count * stride < UInt64.size) :
    Extents.stride ⟨align, word (count * stride)⟩ = count * stride := by
  rw [Extents.stride, word_eq fits]
  exact roundUp_eq_self (Nat.dvd_mul_left_of_dvd aligned count) fits

theorem isPowerOfTwo_of_dvd {align : Nat} (small : align ∣ 16) : align.isPowerOfTwo := by
  obtain ⟨k, -, rfl⟩ := (Nat.dvd_prime_pow Nat.prime_two (m := 4)).mp small
  exact ⟨k, rfl⟩

/-- Of two alignments the smaller divides the larger one. -/
theorem dvd_of_le {small large : Nat} (first : small ∣ 16) (second : large ∣ 16) (le : small ≤ large) :
    small ∣ large := by
  obtain ⟨i, rfl⟩ := isPowerOfTwo_of_dvd first
  obtain ⟨j, rfl⟩ := isPowerOfTwo_of_dvd second
  exact Nat.pow_dvd_pow 2 ((Nat.pow_le_pow_iff_right (by decide)).mp le)

theorem max_dvd {a b : Nat} (first : a ∣ 16) (second : b ∣ 16) : max a b ∣ 16 := by
  rcases Nat.le_total a b with le | le
  · rwa [Nat.max_eq_right le]
  · rwa [Nat.max_eq_left le]

theorem size_dvd (format : Scalar) : format.size ∣ 4 := by cases format <;> decide

/-- A vector is aligned to two or to four of its scalars, whatever its length. -/
theorem vector_align (format : Scalar) (count : Nat) :
    (vector format count).align = if count = 2 then format.size * 2 else format.size * 4 := by
  by_cases pair : count = 2
  · subst pair
    cases format <;> rfl
  · exact (if_neg pair).trans (if_neg pair).symm

theorem vector_align_dvd (format : Scalar) (count : Nat) : (vector format count).align ∣ 16 := by
  have four : format.size * 4 ∣ 16 := Nat.mul_dvd_mul_right (size_dvd format) 4
  rw [vector_align]
  split
  · exact Nat.dvd_trans (Nat.mul_dvd_mul_left _ (by decide)) four
  · exact four

end Layout

/-! ## Placement -/

namespace ShaderType

/-- Built of 32-bit numbers: no 16-bit scalar and no type known by name only stands inside. -/
inductive OfWords : ShaderType → Prop where
  | scalar {format : Scalar} (wide : format ≠ .u16) : OfWords (.scalar format)
  | vector {format : Scalar} (wide : format ≠ .u16) (count : Nat) : OfWords (.vector format count)
  | matrix (columns rows : Nat) : OfWords (.matrix columns rows)
  | array {element : ShaderType} (inner : OfWords element) (count : Nat) : OfWords (.array element count)
  | record {decl : Record} (members : ∀ field ∈ decl.fields, OfWords field.type) : OfWords (.record decl)

/-- Records inside a type that is built of words are built of words. -/
theorem OfWords.contained {type : ShaderType} {decl : Record} (words : type.OfWords) (inside : type.Contains decl) :
    (ShaderType.record decl).OfWords := by
  induction inside with
  | here decl => exact words
  | element count _ ih =>
    cases words with
    | array inner => exact ih inner
  | member listed _ ih =>
    cases words with
    | record members => exact ih (members _ listed)

/-! ### Alignments -/

mutual

/-- Every alignment divides sixteen. -/
theorem align_dvd : ∀ {type : ShaderType} {layout : Layout.Extents}, type.layout? = some layout → layout.align ∣ 16
  | .scalar format, _, laid => by
    cases laid
    exact Nat.dvd_trans (Layout.size_dvd format) (by decide)
  | .vector format count, _, laid => by
    cases laid
    exact Layout.vector_align_dvd format count
  | .matrix _ rows, _, laid => by
    cases laid
    exact Layout.vector_align_dvd .f32 rows
  | .array element _, _, laid => by
    obtain ⟨inner, found, rfl⟩ := Option.map_eq_some_iff.mp laid
    change inner.align ∣ 16
    exact align_dvd found
  | .record ⟨_, fields, _⟩, _, laid => by
    rw [layout?] at laid
    split at laid
    · cases laid
    · obtain ⟨last, measured, rfl⟩ := Option.map_eq_some_iff.mp laid
      exact measure?_align_dvd measured (by decide)
  | .named _, _, laid => by cases laid

/-- So does the strictest one among some members. -/
theorem measure?_align_dvd : ∀ {fields : List Field} {offsets : List Nat} {reached last : Layout.Cursor},
    measure? fields offsets reached = some last → reached.align ∣ 16 → last.align ∣ 16
  | [], _, _, _, measured, small => by
    cases measured
    exact small
  | _ :: _, [], _, _, measured, small => by
    cases measured
    exact small
  | ⟨_, type, _⟩ :: rest, offset :: offsets, reached, last, measured, small => by
    rw [measure?] at measured
    split at measured
    · cases measured
    · rename_i member found
      exact measure?_align_dvd measured (Layout.max_dvd small (align_dvd found))

end

/-! ### Exact sizes -/

mutual

/-- Alignment and size by the same rules, in numbers without bound. -/
def extents : ShaderType → Layout.Extents
  | .scalar s => ⟨s.size, s.size⟩
  | .vector s n => ⟨if n = 2 then s.size * 2 else s.size * 4, s.size * n⟩
  | .matrix columns rows =>
    let align := if rows = 2 then 8 else 16
    ⟨align, columns * Layout.ceil align (4 * rows)⟩
  | .array e n => ⟨(extents e).align, n * Layout.ceil (extents e).align (extents e).size⟩
  | .record ⟨_, fields, _⟩ =>
    let last := reach fields ⟨0, 1⟩
    ⟨last.align, Layout.ceil last.align last.offset⟩
  | .named _ => ⟨1, 0⟩

/-- Where members end that are placed behind `start`, and the strictest alignment among them. -/
def reach : List Field → Layout.Cursor → Layout.Cursor
  | [], start => start
  | ⟨_, type, _⟩ :: rest, start =>
    reach rest ⟨Layout.ceil (extents type).align start.offset + (extents type).size,
      max start.align (extents type).align⟩

end

/-- The exact size fits into a 64-bit word. -/
def Fits (type : ShaderType) : Prop := type.extents.size < UInt64.size

instance (type : ShaderType) : Decidable type.Fits := inferInstanceAs (Decidable (_ < _))

theorem reach_grows (fields : List Field) (start : Layout.Cursor) : start.offset ≤ (reach fields start).offset := by
  induction fields generalizing start with
  | nil => exact Nat.le_refl _
  | cons field rest ih =>
    have behind := Layout.le_ceil field.type.extents.align start.offset
    have more := ih ⟨Layout.ceil field.type.extents.align start.offset + field.type.extents.size,
      max start.align field.type.extents.align⟩
    rw [reach]
    dsimp only at more
    omega

/-- No member is larger than the bytes up to the end of the last one. -/
theorem size_le_reach {fields : List Field} {field : Field} (listed : field ∈ fields) (start : Layout.Cursor) :
    field.type.extents.size ≤ (reach fields start).offset := by
  induction fields generalizing start with
  | nil => cases listed
  | cons first rest ih =>
    rw [reach]
    cases listed with
    | head =>
      apply Nat.le_trans _ (reach_grows _ _)
      exact Nat.le_add_left _ _
    | tail _ more => exact ih more _

/-- The elements fit of an array that does, and so do the gaps between them. -/
theorem Fits.element {element : ShaderType} {count : Nat} (filled : 0 < count)
    (fits : count * Layout.ceil element.extents.align element.extents.size < UInt64.size) :
    element.Fits ∧ Layout.ceil element.extents.align element.extents.size < UInt64.size := by
  have one := Nat.le_mul_of_pos_left (Layout.ceil element.extents.align element.extents.size) filled
  have small := Layout.le_ceil element.extents.align element.extents.size
  rw [Fits]
  omega

/-- The end of the last member of a record that fits. -/
theorem Fits.reach_lt {decl : Record} (fits : (ShaderType.record decl).Fits) :
    (reach decl.fields ⟨0, 1⟩).offset < UInt64.size := Nat.lt_of_le_of_lt (Layout.le_ceil _ _) fits

/-- The members fit of a record that does. -/
theorem Fits.member {decl : Record} (fits : (ShaderType.record decl).Fits) {field : Field}
    (listed : field ∈ decl.fields) : field.type.Fits :=
  Nat.lt_of_le_of_lt (size_le_reach listed _) fits.reach_lt

/-! ### Two loops over the members -/

section

variable {field : Field} {member : Layout.Extents} (laid : field.type.layout? = some member) (rest : List Field)

include laid

theorem offsetsFrom?_cons (free : Nat) :
    offsetsFrom? (field :: rest) free =
      (offsetsFrom? rest (Layout.word (Layout.roundUp member.align free + member.size))).map
        (Layout.roundUp member.align free :: ·) := by
  rw [offsetsFrom?, laid]

theorem measure?_cons (offset : Nat) (offsets : List Nat) (reached : Layout.Cursor) :
    measure? (field :: rest) (offset :: offsets) reached =
      measure? rest offsets ⟨Layout.word (offset + member.size), max reached.align member.align⟩ := by
  rw [measure?, laid]

end

theorem exists_offsets {fields : List Field} (laid : ∀ field ∈ fields, ∃ member, field.type.layout? = some member)
    (free : Nat) : ∃ offsets, offsetsFrom? fields free = some offsets ∧ offsets.length = fields.length := by
  induction fields generalizing free with
  | nil => exact ⟨[], rfl, rfl⟩
  | cons field rest ih =>
    obtain ⟨member, found⟩ := laid field List.mem_cons_self
    obtain ⟨offsets, placed, same⟩ := ih (fun other listed => laid other (List.mem_cons_of_mem _ listed))
      (Layout.word (Layout.roundUp member.align free + member.size))
    refine ⟨Layout.roundUp member.align free :: offsets, ?_, congrArg (· + 1) same⟩
    rw [offsetsFrom?_cons found, placed, Option.map_some]

theorem exists_measure {fields : List Field} (laid : ∀ field ∈ fields, ∃ member, field.type.layout? = some member)
    (offsets : List Nat) (reached : Layout.Cursor) : ∃ last, measure? fields offsets reached = some last := by
  induction fields generalizing offsets reached with
  | nil => exact ⟨reached, by simp [measure?]⟩
  | cons field rest ih =>
    obtain ⟨member, found⟩ := laid field List.mem_cons_self
    cases offsets with
    | nil => exact ⟨reached, by simp [measure?]⟩
    | cons offset offsets =>
      rw [measure?_cons found]
      exact ih (fun other listed => laid other (List.mem_cons_of_mem _ listed)) _ _

/-- The strictest alignment does not depend on the offsets. -/
theorem measure?_align {fields : List Field} (exact : ∀ field ∈ fields, ∀ member,
      field.type.layout? = some member → member.align = field.type.extents.align)
    {offsets : List Nat} (paired : offsets.length = fields.length) {reached last start : Layout.Cursor}
    (same : reached.align = start.align) (measured : measure? fields offsets reached = some last) :
    last.align = (reach fields start).align := by
  induction fields generalizing offsets reached start with
  | nil =>
    rw [measure?] at measured
    · cases measured
      exact same
    · simp
  | cons field rest ih =>
    cases offsets with
    | nil => cases paired
    | cons offset offsets =>
      cases laid : field.type.layout? with
      | none =>
        rw [measure?, laid] at measured
        cases measured
      | some member =>
        rw [measure?_cons laid] at measured
        apply ih (fun other listed => exact other (List.mem_cons_of_mem _ listed)) (Nat.succ.inj paired) _ measured
        rw [same, exact field List.mem_cons_self member laid]

/-- Members placed from `start` on stand at these offsets, and the last one ends where `last` says. -/
inductive Places : Layout.Cursor → List Field → List Nat → Layout.Cursor → Prop where
  | nil (start : Layout.Cursor) : Places start [] [] start
  | cons {start last : Layout.Cursor} {field : Field} {member : Layout.Extents} {rest : List Field}
    {offsets : List Nat} (laid : field.type.layout? = some member)
    (more : Places ⟨Layout.ceil member.align start.offset + member.size, max start.align member.align⟩
      rest offsets last) :
    Places start (field :: rest) (Layout.ceil member.align start.offset :: offsets) last

namespace Places

variable {start last : Layout.Cursor} {fields : List Field} {offsets : List Nat}

/-- Members that are laid out exactly are placed. -/
theorem exist (exact : ∀ field ∈ fields, field.type.layout? = some field.type.extents) (start : Layout.Cursor) :
    ∃ offsets, Places start fields offsets (reach fields start) := by
  induction fields generalizing start with
  | nil => exact ⟨[], .nil start⟩
  | cons field rest ih =>
    obtain ⟨offsets, more⟩ := ih (fun other listed => exact other (List.mem_cons_of_mem _ listed)) _
    exact ⟨_, .cons (exact field List.mem_cons_self) more⟩

theorem length_eq (places : Places start fields offsets last) : offsets.length = fields.length := by
  induction places with
  | nil => rfl
  | cons _ _ ih => simp only [List.length_cons, ih]

/-- Placing goes forward and forgets no alignment. -/
theorem grows (places : Places start fields offsets last) :
    start.offset ≤ last.offset ∧ start.align ≤ last.align := by
  induction places with
  | nil => exact ⟨Nat.le_refl _, Nat.le_refl _⟩
  | @cons start last field member rest offsets laid more ih =>
    have behind := Layout.le_ceil member.align start.offset
    have strict := Nat.le_max_left start.align member.align
    dsimp only at ih
    omega

/-- Every member stands aligned between the start and the end. -/
theorem member (places : Places start fields offsets last) {index offset : Nat} {field : Field}
    (listed : fields[index]? = some field) (put : offsets[index]? = some offset)
    {extents : Layout.Extents} (laid : field.type.layout? = some extents) (positive : 0 < extents.align) :
    start.offset ≤ offset ∧ offset + extents.size ≤ last.offset ∧ extents.align ∣ offset ∧
      extents.align ≤ last.align := by
  induction places generalizing index with
  | nil => cases listed
  | @cons start last first placed rest offsets found more ih =>
    have ends := more.grows
    dsimp only at ends
    cases index with
    | zero =>
      cases listed
      cases put
      cases found.symm.trans laid
      have strict := Nat.le_max_right start.align extents.align
      refine ⟨Layout.le_ceil _ _, ends.1, Layout.dvd_ceil positive _, ?_⟩
      omega
    | succ index =>
      obtain ⟨after, inside, aligned, strict⟩ := ih listed put
      have behind := Layout.le_ceil placed.align start.offset
      dsimp only at after
      refine ⟨?_, inside, aligned, strict⟩
      omega

/-- A member ends before the next ones start. -/
theorem ordered (places : Places start fields offsets last) {index next offset later : Nat} (before : index < next)
    {field other : Field} (listed : fields[index]? = some field) (put : offsets[index]? = some offset)
    (listed' : fields[next]? = some other) (put' : offsets[next]? = some later)
    {extents extents' : Layout.Extents} (laid : field.type.layout? = some extents)
    (laid' : other.type.layout? = some extents') (positive : 0 < extents'.align) :
    offset + extents.size ≤ later := by
  induction places generalizing index next with
  | nil => cases listed
  | @cons start last first member rest offsets found more ih =>
    obtain ⟨next, rfl⟩ : ∃ k, next = k + 1 := ⟨next - 1, by omega⟩
    cases index with
    | zero =>
      cases listed
      cases put
      cases found.symm.trans laid
      exact (more.member listed' put' laid' positive).1
    | succ index => exact ih (by omega) listed put listed' put'

end Places

/-- Where the members in front of the `index`-th end: at the end of the last of them, or at the start. -/
def endBefore? (start : Nat) (fields : List Field) (offsets : List Nat) : Nat → Option Nat
  | 0 => some start
  | earlier + 1 => do
    let field ← fields[earlier]?
    let offset ← offsets[earlier]?
    let member ← field.type.layout?
    return offset + member.size

theorem endBefore?_cons {field : Field} {member : Layout.Extents} (laid : field.type.layout? = some member)
    (start offset : Nat) (fields : List Field) (offsets : List Nat) (index : Nat) :
    endBefore? start (field :: fields) (offset :: offsets) (index + 1) =
      endBefore? (offset + member.size) fields offsets index := by
  cases index with
  | zero => simp [endBefore?, laid]
  | succ earlier => rfl

namespace Places

variable {start last : Layout.Cursor} {fields : List Field} {offsets : List Nat}

/-- A member stands at the end of the one before, rounded up to its own alignment. -/
theorem offset_eq (places : Places start fields offsets last) {index offset : Nat} {field : Field}
    (listed : fields[index]? = some field) (put : offsets[index]? = some offset) {member : Layout.Extents}
    (laid : field.type.layout? = some member) :
    ∃ before, endBefore? start.offset fields offsets index = some before ∧
      offset = Layout.ceil member.align before := by
  induction places generalizing index with
  | nil => cases listed
  | @cons start last first placed rest offsets found more ih =>
    cases index with
    | zero =>
      cases listed
      cases put
      cases found.symm.trans laid
      exact ⟨start.offset, rfl, rfl⟩
    | succ index =>
      rw [endBefore?_cons found]
      exact ih listed put

/-- The first loop places them so as long as the exact end fits into a word. -/
theorem offsetsFrom?_eq (places : Places start fields offsets last) (fits : last.offset < UInt64.size) :
    offsetsFrom? fields start.offset = some offsets := by
  induction places with
  | nil => rfl
  | @cons start last field member rest offsets laid more ih =>
    have ends := more.grows.1
    dsimp only at ends
    have offset_eq : Layout.roundUp member.align start.offset = Layout.ceil member.align start.offset :=
      Layout.roundUp_eq (by omega)
    have end_eq : Layout.word (Layout.ceil member.align start.offset + member.size) =
        Layout.ceil member.align start.offset + member.size := Layout.word_eq (by omega)
    rw [offsetsFrom?_cons laid, offset_eq, end_eq, ih fits, Option.map_some]

/-- The second loop reads off where the last of them ends. -/
theorem measure?_eq (places : Places start fields offsets last) (fits : last.offset < UInt64.size) :
    measure? fields offsets start = some last := by
  induction places with
  | nil => rfl
  | @cons start last field member rest offsets laid more ih =>
    have ends := more.grows.1
    dsimp only at ends
    have end_eq : Layout.word (Layout.ceil member.align start.offset + member.size) =
        Layout.ceil member.align start.offset + member.size := Layout.word_eq (by omega)
    rw [measure?_cons laid, end_eq, ih fits]

end Places

end ShaderType

namespace RecordOf

variable {decl : Record}

/-- Where the members in front of the `index`-th end. -/
def endBefore? (decl : Record) (index : Nat) : Option Nat := do
  ShaderType.endBefore? 0 decl.fields (← decl.offsets?) index

theorem layout?_eq_some {layout : Layout.Extents} :
    (ShaderType.record decl).layout? = some layout ↔ ∃ offsets last, decl.offsets? = some offsets ∧
      ShaderType.measure? decl.fields offsets ⟨0, 1⟩ = some last ∧
        layout = ⟨last.align, Layout.roundUp last.align last.offset⟩ := by
  rw [ShaderType.layout?, offsets?]
  cases ShaderType.offsetsFrom? decl.fields 0 with
  | none => simp
  | some offsets => simp [eq_comm]

end RecordOf

/-! ### Layouts of values that are built of words -/

namespace ShaderType.OfWords

variable {type : ShaderType}

/-- A type that is built of words has a layout, in its exact alignment. -/
theorem exists_layout (words : type.OfWords) :
    ∃ layout, type.layout? = some layout ∧ layout.align = type.extents.align := by
  induction words with
  | scalar _ => exact ⟨_, rfl, rfl⟩
  | @vector format _ count => exact ⟨_, rfl, Layout.vector_align format count⟩
  | matrix columns rows => exact ⟨_, rfl, Layout.vector_align .f32 rows⟩
  | array _ count ih =>
    obtain ⟨layout, found, same⟩ := ih
    exact ⟨_, Option.map_eq_some_iff.mpr ⟨layout, found, rfl⟩, same⟩
  | @record decl _ ih =>
    have laid (field : Field) (listed : field ∈ decl.fields) : ∃ member, field.type.layout? = some member :=
      (ih field listed).imp fun _ found => found.1
    obtain ⟨offsets, placed, paired⟩ := ShaderType.exists_offsets laid 0
    obtain ⟨last, measured⟩ := exists_measure laid offsets ⟨0, 1⟩
    refine ⟨_, RecordOf.layout?_eq_some.mpr ⟨offsets, last, placed, measured, rfl⟩, ?_⟩
    apply measure?_align _ paired rfl measured
    intro field listed member found
    obtain ⟨_, found', same⟩ := ih field listed
    cases found.symm.trans found'
    exact same

/-- The members of a record that is built of words have offsets. -/
theorem exists_offsets {decl : Record} (words : (ShaderType.record decl).OfWords) :
    ∃ offsets, decl.offsets? = some offsets ∧ offsets.length = decl.fields.length := by
  cases words with
  | record members =>
    exact ShaderType.exists_offsets (fun field listed => (members field listed).exists_layout.imp fun _ found => found.1) 0

theorem align_dvd (words : type.OfWords) : type.extents.align ∣ 16 := by
  obtain ⟨layout, laid, same⟩ := words.exists_layout
  exact same ▸ ShaderType.align_dvd laid

theorem align_pos (words : type.OfWords) : 0 < type.extents.align := Nat.pos_of_dvd_of_pos words.align_dvd (by decide)

theorem vector_eq {format : Scalar} {count : Nat} (fits : (ShaderType.vector format count).Fits) :
    Layout.vector format count = (ShaderType.vector format count).extents := by
  rw [extents, ← Layout.vector_align]
  exact congrArg (Layout.Extents.mk _) (Layout.word_eq fits)

/-- The layout is exact when the exact size fits into a word. -/
theorem layout?_eq (words : type.OfWords) (fits : type.Fits) : type.layout? = some type.extents := by
  induction words with
  | scalar _ => rfl
  | vector _ count => exact congrArg some (vector_eq fits)
  | matrix columns rows =>
    rcases Nat.eq_zero_or_pos columns with rfl | filled
    · rw [layout?, Layout.vector_align, Nat.zero_mul]
      simp [extents, Scalar.size]
    · obtain ⟨column_fits, stride_fits⟩ := @Fits.element (.vector .f32 rows) columns filled fits
      rw [layout?, vector_eq column_fits, Layout.Extents.stride, Layout.roundUp_eq stride_fits]
      exact congrArg (fun size => some (Layout.Extents.mk _ size)) (Layout.word_eq fits)
  | @array element inner count ih =>
    rcases Nat.eq_zero_or_pos count with rfl | filled
    · obtain ⟨layout, found, same⟩ := inner.exists_layout
      simp [layout?, found, extents, same]
    · obtain ⟨element_fits, stride_fits⟩ := Fits.element filled fits
      rw [layout?, ih element_fits, Option.map_some, Layout.Extents.stride, Layout.roundUp_eq stride_fits]
      exact congrArg (fun size => some (Layout.Extents.mk _ size)) (Layout.word_eq fits)
  | @record decl members ih =>
    obtain ⟨offsets, places⟩ := Places.exist (fun field listed => ih field listed (fits.member listed)) ⟨0, 1⟩
    exact RecordOf.layout?_eq_some.mpr ⟨offsets, _, places.offsetsFrom?_eq fits.reach_lt,
      places.measure?_eq fits.reach_lt, congrArg (Layout.Extents.mk _) (Layout.roundUp_eq fits).symm⟩

/-- The members of a record that fits are placed exactly. -/
theorem places {decl : Record} (words : (ShaderType.record decl).OfWords) (fits : (ShaderType.record decl).Fits) :
    ∃ offsets, decl.offsets? = some offsets ∧ Places ⟨0, 1⟩ decl.fields offsets (reach decl.fields ⟨0, 1⟩) := by
  cases words with
  | record members =>
    obtain ⟨offsets, places⟩ :=
      Places.exist (fun field listed => (members field listed).layout?_eq (fits.member listed)) ⟨0, 1⟩
    exact ⟨offsets, places.offsetsFrom?_eq fits.reach_lt, places⟩

end ShaderType.OfWords

end FrameGraph
