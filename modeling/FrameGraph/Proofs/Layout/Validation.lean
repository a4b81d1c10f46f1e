import FrameGraph.Proofs.Layout.Parts

/-! # Validated records

The host keeps the elements of an array and the columns of a matrix packed, and the members of a record where it says.
Validation compares where members start and how large records are. What lies deeper follows from that but for one thing:
elements or columns that the device spaces further apart than the host, at the end of a member whose padding makes up
for the difference.
-/

namespace FrameGraph

namespace ShaderType

/-- Bytes in host memory. -/
def hostSize : ShaderType → Nat
  | .scalar format => format.size
  | .vector format count => format.size * count
  | .matrix columns rows => columns * (4 * rows)
  | .array element count => count * hostSize element
  | .record decl => decl.hostSize
  | .named _ => 0

/-- A part of a value in host memory by its number. -/
def hostPart? : ShaderType → Nat → Option Part
  | .vector format count, index => if index < count then some ⟨.scalar format, index * format.size⟩ else none
  | .matrix columns rows, index => if index < columns then some ⟨.vector .f32 rows, index * (4 * rows)⟩ else none
  | .array element count, index => if index < count then some ⟨element, index * element.hostSize⟩ else none
  | .record decl, index => (decl.fields[index]?).map fun field => ⟨field.type, field.hostOffset⟩
  | .scalar _, _ | .named _, _ => none

/-- The part of a value in host memory that a path leads to. -/
def hostAt? : ShaderType → List Nat → Option Part := partAt? hostPart?

/-- Every scalar inside starts at the same byte on the device and in host memory. -/
def ByteExact (type : ShaderType) : Prop :=
  ∀ path format offset,
    type.deviceAt? path = some ⟨.scalar format, offset⟩ ↔ type.hostAt? path = some ⟨.scalar format, offset⟩

/-- Elements or columns are not spaced on the device as they are in host memory. -/
def Gapped : ShaderType → Prop
  | .array element count => 2 ≤ count ∧ ∃ layout, element.layout? = some layout ∧ layout.stride ≠ element.hostSize
  | .matrix columns rows => 2 ≤ columns ∧ (Layout.vector .f32 rows).stride ≠ 4 * rows
  | .scalar _ | .vector .. | .record _ | .named _ => False

/-- Every record inside agrees with its host layout. -/
def Valid (type : ShaderType) : Prop := ∀ decl, type.Contains decl → decl.validate = .ok ()

end ShaderType

/-- A record agrees with its host layout exactly when all members start at the same bytes and the sizes are the same. -/
theorem RecordOf.validate_eq_ok {decl : Record} {offsets : List Nat} {layout : Layout.Extents}
    (placed : decl.offsets? = some offsets) (laid : decl.layout? = some layout) :
    decl.validate = .ok () ↔
      (∀ (index : Nat) (field : Field) (offset : Nat), decl.fields[index]? = some field →
        offsets[index]? = some offset → field.hostOffset = offset) ∧ layout.size = decl.hostSize := by
  have misplaced : firstMisplaced? decl.fields offsets = none ↔ ∀ (index : Nat) (field : Field) (offset : Nat),
      decl.fields[index]? = some field → offsets[index]? = some offset → field.hostOffset = offset := by
    rw [firstMisplaced?, List.find?_eq_none]
    constructor
    · intro none index field offset listed put
      have zipped : (field, offset) ∈ decl.fields.zip offsets :=
        List.mem_of_getElem? (List.getElem?_zip_eq_some.mpr ⟨listed, put⟩)
      simpa using none _ zipped
    · rintro all ⟨field, offset⟩ zipped
      obtain ⟨index, found⟩ := List.mem_iff_getElem?.mp zipped
      obtain ⟨listed, put⟩ := List.getElem?_zip_eq_some.mp found
      simpa using all index field offset listed put
  rw [validate, placed, laid, ← misplaced]
  dsimp only
  cases firstMisplaced? decl.fields offsets with
  | some found => simp
  | none =>
    by_cases same : layout.size = decl.hostSize <;> simp [same]

namespace ShaderType

variable {type : ShaderType} {part : Part}

/-! ### Parts and paths -/

theorem hostPart?_vector {format : Scalar} {count index : Nat} :
    (vector format count).hostPart? index = some part ↔
      index < count ∧ part = ⟨.scalar format, index * format.size⟩ := devicePart?_vector

theorem hostPart?_matrix {columns rows index : Nat} :
    (matrix columns rows).hostPart? index = some part ↔
      index < columns ∧ part = ⟨.vector .f32 rows, index * (4 * rows)⟩ := by
  simp only [hostPart?, Option.ite_none_right_eq_some, Option.some.injEq, eq_comm (a := part)]

theorem hostPart?_array {element : ShaderType} {count index : Nat} :
    (array element count).hostPart? index = some part ↔ index < count ∧ part = ⟨element, index * element.hostSize⟩ := by
  simp only [hostPart?, Option.ite_none_right_eq_some, Option.some.injEq, eq_comm (a := part)]

theorem hostPart?_record {decl : Record} {index : Nat} :
    (record decl).hostPart? index = some part ↔
      ∃ field, decl.fields[index]? = some field ∧ part = ⟨field.type, field.hostOffset⟩ := by
  simp only [hostPart?, Option.map_eq_some_iff, eq_comm (a := part)]

theorem partAt?_append {part? : ShaderType → Nat → Option Part} {type final : ShaderType} {path rest : List Nat}
    {offset : Nat} :
    partAt? part? type (path ++ rest) = some ⟨final, offset⟩ ↔
      ∃ middle first second, partAt? part? type path = some ⟨middle, first⟩ ∧
        partAt? part? middle rest = some ⟨final, second⟩ ∧ offset = first + second := by
  induction path generalizing type offset with
  | nil =>
    constructor
    · exact fun reached => ⟨type, 0, offset, rfl, reached, (Nat.zero_add offset).symm⟩
    · rintro ⟨_, _, second, ⟨⟩, reached, rfl⟩
      rwa [Nat.zero_add]
  | cons index path ih =>
    rw [List.cons_append, partAt?_cons]
    constructor
    · rintro ⟨part, inner, found, further, rfl⟩
      obtain ⟨middle, first, second, reached, last, rfl⟩ := ih.mp further
      exact ⟨middle, part.offset + first, second, partAt?_cons.mpr ⟨part, first, found, reached, rfl⟩, last,
        (Nat.add_assoc _ _ _).symm⟩
    · rintro ⟨middle, _, second, reached, last, rfl⟩
      obtain ⟨part, first, found, further, rfl⟩ := partAt?_cons.mp reached
      exact ⟨part, first + second, found, ih.mpr ⟨middle, first, second, further, last, rfl⟩, Nat.add_assoc _ _ _⟩

/-- Records inside a part stand inside the whole. -/
theorem Contains.ofPart {index : Nat} {decl : Record} (found : type.devicePart? index = some part)
    (inside : part.type.Contains decl) : type.Contains decl := by
  cases type with
  | scalar | named => cases found
  | vector format count =>
    obtain ⟨-, rfl⟩ := devicePart?_vector.mp found
    cases inside
  | matrix columns rows =>
    obtain ⟨-, rfl⟩ := devicePart?_matrix.mp found
    cases inside
  | array element count =>
    obtain ⟨layout, laid, -⟩ := Option.bind_eq_some_iff.mp found
    obtain ⟨-, rfl⟩ := (devicePart?_array laid).mp found
    exact .element count inside
  | record outer =>
    obtain ⟨field, listed, found⟩ := Option.bind_eq_some_iff.mp found
    obtain ⟨offsets, -, found⟩ := Option.bind_eq_some_iff.mp found
    obtain ⟨offset, -, same⟩ := Option.bind_eq_some_iff.mp found
    cases same
    exact .member (List.mem_of_getElem? listed) inside

theorem Valid.ofPart (valid : type.Valid) {index : Nat} (found : type.devicePart? index = some part) :
    part.type.Valid := fun decl inside => valid decl (.ofPart found inside)

theorem Valid.at (valid : type.Valid) {path : List Nat} (reached : type.deviceAt? path = some part) :
    part.type.Valid := by
  obtain ⟨final, offset⟩ := part
  induction path generalizing type offset with
  | nil =>
    cases reached
    exact valid
  | cons index path ih =>
    obtain ⟨first, inner, found, further, -⟩ := partAt?_cons.mp reached
    exact ih (valid.ofPart found) inner further

/-! ### Members and elements that agree -/

/-- The device and the host number the same parts. -/
theorem type_eq_of_part {index : Nat} {other : Part} (found : type.devicePart? index = some part)
    (found' : type.hostPart? index = some other) : other.type = part.type := by
  cases type with
  | scalar | named => cases found
  | vector format count =>
    obtain ⟨-, rfl⟩ := devicePart?_vector.mp found
    obtain ⟨-, rfl⟩ := hostPart?_vector.mp found'
    rfl
  | matrix columns rows =>
    obtain ⟨-, rfl⟩ := devicePart?_matrix.mp found
    obtain ⟨-, rfl⟩ := hostPart?_matrix.mp found'
    rfl
  | array element count =>
    obtain ⟨layout, laid, -⟩ := Option.bind_eq_some_iff.mp found
    obtain ⟨-, rfl⟩ := (devicePart?_array laid).mp found
    obtain ⟨-, rfl⟩ := hostPart?_array.mp found'
    rfl
  | record decl =>
    obtain ⟨field, listed, found⟩ := Option.bind_eq_some_iff.mp found
    obtain ⟨offsets, -, found⟩ := Option.bind_eq_some_iff.mp found
    obtain ⟨offset, -, same⟩ := Option.bind_eq_some_iff.mp found
    obtain ⟨field', listed', rfl⟩ := hostPart?_record.mp found'
    cases listed.symm.trans listed'
    cases same
    rfl

theorem type_eq_at {path : List Nat} {other : Part} (reached : type.deviceAt? path = some part)
    (reached' : type.hostAt? path = some other) : other.type = part.type := by
  obtain ⟨final, offset⟩ := part
  obtain ⟨final', offset'⟩ := other
  induction path generalizing type offset offset' with
  | nil =>
    cases reached
    cases reached'
    rfl
  | cons index path ih =>
    obtain ⟨first, inner, found, further, -⟩ := partAt?_cons.mp reached
    obtain ⟨first', inner', found', further', -⟩ := partAt?_cons.mp reached'
    rw [type_eq_of_part found found'] at further'
    exact ih inner further inner' further'

/-- With one part at most, its spacing does not matter. -/
theorem mul_eq_of_alike {count index device host : Nat} (before : index < count)
    (alike : ¬(2 ≤ count ∧ device ≠ host)) : index * host = index * device := by
  by_cases same : device = host
  · rw [same]
  · have first : index = 0 := by omega
    rw [first, Nat.zero_mul, Nat.zero_mul]

/-- Parts that are spaced alike stand alike. -/
theorem OfWords.hostPart?_eq (words : type.OfWords) (valid : type.Valid) (alike : ¬type.Gapped) (index : Nat) :
    type.hostPart? index = type.devicePart? index := by
  ext part
  cases words with
  | scalar | vector => rfl
  | matrix columns rows =>
    rw [hostPart?_matrix, devicePart?_matrix]
    refine and_congr_right fun before => ?_
    rw [mul_eq_of_alike before alike]
  | @array element inner count =>
    obtain ⟨layout, laid, -⟩ := inner.exists_layout
    have spaced : ¬(2 ≤ count ∧ layout.stride ≠ element.hostSize) :=
      fun apart => alike ⟨apart.1, layout, laid, apart.2⟩
    rw [hostPart?_array, devicePart?_array laid]
    refine and_congr_right fun before => ?_
    rw [mul_eq_of_alike before spaced]
  | @record decl members =>
    obtain ⟨layout, laid, -⟩ := (OfWords.record members).exists_layout
    obtain ⟨offsets, placed, paired⟩ := (OfWords.record members).exists_offsets
    obtain ⟨same, -⟩ := (RecordOf.validate_eq_ok placed laid).mp (valid decl (.here decl))
    rw [devicePart?_record placed, hostPart?_record]
    constructor
    · rintro ⟨field, listed, rfl⟩
      obtain ⟨inside, -⟩ := List.getElem?_eq_some_iff.mp listed
      obtain ⟨offset, put⟩ : ∃ offset, offsets[index]? = some offset :=
        ⟨_, List.getElem?_eq_getElem (paired ▸ inside)⟩
      exact ⟨field, offset, listed, put, by rw [same index field offset listed put]⟩
    · rintro ⟨field, offset, listed, put, rfl⟩
      exact ⟨field, listed, by rw [same index field offset listed put]⟩

/-- A value stands in host memory as it does on the device when nothing inside is spaced differently. -/
theorem OfWords.hostAt?_eq (words : type.OfWords) (valid : type.Valid)
    (alike : ∀ path part, type.deviceAt? path = some part → ¬part.type.Gapped) (path : List Nat) :
    type.hostAt? path = type.deviceAt? path := by
  induction path generalizing type with
  | nil => rfl
  | cons index path ih =>
    have here := words.hostPart?_eq valid (alike [] _ rfl) index
    have inside (part : Part) (found : type.devicePart? index = some part) :
        part.type.hostAt? path = part.type.deviceAt? path := by
      refine ih (words.ofPart found) (valid.ofPart found) fun rest inner reached => ?_
      obtain ⟨final, offset⟩ := inner
      exact alike (index :: rest) ⟨final, part.offset + offset⟩ (partAt?_cons.mpr ⟨part, offset, found, reached, rfl⟩)
    ext ⟨final, offset⟩
    rw [hostAt?, deviceAt?, partAt?_cons, partAt?_cons, here]
    constructor
    · rintro ⟨part, inner, found, further, rfl⟩
      exact ⟨part, inner, found, (inside part found).symm.trans further, rfl⟩
    · rintro ⟨part, inner, found, further, rfl⟩
      exact ⟨part, inner, found, (inside part found).trans further, rfl⟩

/-! ### Scalars inside -/

/-- Members that end behind the first byte are not all empty. -/
theorem exists_sized {fields : List Field} {offsets : List Nat} {last : Layout.Cursor} {align : Nat}
    (placed : offsetsFrom? fields 0 = some offsets) (measured : measure? fields offsets ⟨0, align⟩ = some last)
    (sized : last.offset ≠ 0) :
    ∃ (index : Nat) (field : Field) (offset : Nat) (member : Layout.Extents), fields[index]? = some field ∧
      offsets[index]? = some offset ∧ field.type.layout? = some member ∧ member.size ≠ 0 := by
  induction fields generalizing offsets align with
  | nil =>
    cases placed
    cases measured
    exact absurd rfl sized
  | cons field rest ih =>
    cases laid : field.type.layout? with
    | none =>
      rw [offsetsFrom?, laid] at placed
      cases placed
    | some member =>
      rw [offsetsFrom?_cons laid] at placed
      obtain ⟨behind, more, rfl⟩ := Option.map_eq_some_iff.mp placed
      rw [measure?_cons laid] at measured
      by_cases none : member.size = 0
      · rw [none, Layout.roundUp_zero] at more measured
        obtain ⟨index, other, offset, extents, listed, put, found, some⟩ := ih more measured
        exact ⟨index + 1, other, offset, extents, listed, put, found, some⟩
      · exact ⟨0, field, _, member, rfl, rfl, laid, none⟩

/-- A scalar inside a part is one inside the whole. -/
theorem exists_scalar_of_part {index : Nat} (found : type.devicePart? index = some part)
    (inside : ∃ path format offset, part.type.deviceAt? path = some ⟨.scalar format, offset⟩) :
    ∃ path format offset, type.deviceAt? path = some ⟨.scalar format, offset⟩ := by
  obtain ⟨path, format, offset, reached⟩ := inside
  exact ⟨index :: path, format, part.offset + offset, partAt?_cons.mpr ⟨part, offset, found, reached, rfl⟩⟩

theorem vector_exists_scalar (format : Scalar) {count : Nat} (filled : count ≠ 0) :
    ∃ path other offset, (vector format count).deviceAt? path = some ⟨.scalar other, offset⟩ := by
  exact exists_scalar_of_part (devicePart?_vector.mpr ⟨Nat.pos_of_ne_zero filled, rfl⟩) ⟨[], format, 0, rfl⟩

/-- A type that takes up bytes has a scalar inside. -/
theorem OfWords.exists_scalar (words : type.OfWords) {layout : Layout.Extents} (laid : type.layout? = some layout)
    (sized : layout.size ≠ 0) : ∃ path format offset, type.deviceAt? path = some ⟨.scalar format, offset⟩ := by
  induction words generalizing layout with
  | @scalar format _ => exact ⟨[], format, 0, rfl⟩
  | @vector format _ count =>
    cases laid
    exact vector_exists_scalar format (Layout.ne_zero_of_word sized).2
  | matrix columns rows =>
    cases laid
    obtain ⟨filled, spaced⟩ := Layout.ne_zero_of_word sized
    refine exists_scalar_of_part (devicePart?_matrix.mpr ⟨Nat.pos_of_ne_zero filled, rfl⟩)
      (vector_exists_scalar .f32 ?_)
    rintro rfl
    exact spaced rfl
  | array inner count ih =>
    obtain ⟨element, element_laid, -⟩ := inner.exists_layout
    rw [layout?, element_laid] at laid
    cases laid
    obtain ⟨filled, spaced⟩ := Layout.ne_zero_of_word sized
    refine exists_scalar_of_part ((devicePart?_array element_laid).mpr ⟨Nat.pos_of_ne_zero filled, rfl⟩)
      (ih element_laid fun none => spaced ?_)
    rw [Layout.Extents.stride, none, Layout.roundUp_zero]
  | record members ih =>
    obtain ⟨offsets, last, placed, measured, rfl⟩ := RecordOf.layout?_eq_some.mp laid
    have ends : last.offset ≠ 0 := by
      intro none
      exact sized (by rw [none, Layout.roundUp_zero])
    obtain ⟨index, field, offset, member, listed, put, found, filled⟩ := exists_sized placed measured ends
    exact exists_scalar_of_part ((devicePart?_record placed).mpr ⟨field, offset, listed, put, rfl⟩)
      (ih field (List.mem_of_getElem? listed) found filled)

/-- So has one that takes up bytes in host memory. -/
theorem OfWords.exists_scalar_of_hostSize (words : type.OfWords) (valid : type.Valid) (sized : type.hostSize ≠ 0) :
    ∃ path format offset, type.deviceAt? path = some ⟨.scalar format, offset⟩ := by
  induction words with
  | @scalar format _ => exact ⟨[], format, 0, rfl⟩
  | @vector format _ count => exact vector_exists_scalar format (Nat.mul_ne_zero_iff.mp sized).2
  | matrix columns rows =>
    obtain ⟨filled, column⟩ := Nat.mul_ne_zero_iff.mp sized
    exact exists_scalar_of_part (devicePart?_matrix.mpr ⟨Nat.pos_of_ne_zero filled, rfl⟩)
      (vector_exists_scalar .f32 (Nat.mul_ne_zero_iff.mp column).2)
  | array inner count ih =>
    obtain ⟨filled, element⟩ := Nat.mul_ne_zero_iff.mp sized
    obtain ⟨layout, laid, -⟩ := inner.exists_layout
    exact exists_scalar_of_part ((devicePart?_array laid).mpr ⟨Nat.pos_of_ne_zero filled, rfl⟩)
      (ih (fun decl inside => valid decl (.element count inside)) element)
  | @record decl members _ =>
    obtain ⟨layout, laid, -⟩ := (OfWords.record members).exists_layout
    obtain ⟨offsets, placed, -⟩ := (OfWords.record members).exists_offsets
    obtain ⟨-, same⟩ := (RecordOf.validate_eq_ok placed laid).mp (valid decl (.here decl))
    exact (OfWords.record members).exists_scalar laid (same ▸ sized)

/-! ### Parts that are spaced differently -/

/-- Two neighbours that the device and the host space differently, with a scalar in each. -/
structure SpacedApart (type inner : ShaderType) (stride : Nat) : Prop where
  device_zero : type.devicePart? 0 = some ⟨inner, 0⟩
  device_one : type.devicePart? 1 = some ⟨inner, stride⟩
  host_zero : type.hostPart? 0 = some ⟨inner, 0⟩
  host_one : type.hostPart? 1 = some ⟨inner, inner.hostSize⟩
  stride_ne : stride ≠ inner.hostSize
  exists_scalar : ∃ path format offset, inner.deviceAt? path = some ⟨.scalar format, offset⟩

theorem OfWords.exists_spacedApart (words : type.OfWords) (valid : type.Valid) (gapped : type.Gapped) :
    ∃ inner stride, type.SpacedApart inner stride := by
  cases words with
  | scalar | vector | record => exact gapped.elim
  | matrix columns rows =>
    obtain ⟨several, apart⟩ := gapped
    refine ⟨.vector .f32 rows, (Layout.vector .f32 rows).stride, ?_, ?_, ?_, ?_, apart, ?_⟩
    · exact devicePart?_matrix.mpr ⟨by omega, by rw [Nat.zero_mul]⟩
    · exact devicePart?_matrix.mpr ⟨several, by rw [Nat.one_mul]⟩
    · exact hostPart?_matrix.mpr ⟨by omega, by rw [Nat.zero_mul]⟩
    · rw [hostPart?_matrix, Nat.one_mul]
      exact ⟨several, rfl⟩
    · refine vector_exists_scalar .f32 ?_
      rintro rfl
      exact apart rfl
  | @array element inner count =>
    obtain ⟨several, layout, laid, apart⟩ := gapped
    refine ⟨element, layout.stride, ?_, ?_, ?_, ?_, apart, ?_⟩
    · exact (devicePart?_array laid).mpr ⟨by omega, by rw [Nat.zero_mul]⟩
    · exact (devicePart?_array laid).mpr ⟨several, by rw [Nat.one_mul]⟩
    · exact hostPart?_array.mpr ⟨by omega, by rw [Nat.zero_mul]⟩
    · exact hostPart?_array.mpr ⟨several, by rw [Nat.one_mul]⟩
    · by_cases empty : element.hostSize = 0
      · apply inner.exists_scalar laid
        intro none
        exact apart (by rw [empty, Layout.Extents.stride, none, Layout.roundUp_zero])
      · exact inner.exists_scalar_of_hostSize (fun decl inside => valid decl (.element count inside)) empty

/-- Then the two scalars cannot both start where they do on the device. -/
theorem SpacedApart.not_byteExact {inner : ShaderType} {stride : Nat} {path : List Nat}
    (apart : part.type.SpacedApart inner stride) (reached : type.deviceAt? path = some part) : ¬type.ByteExact := by
  intro exact
  obtain ⟨final, start⟩ := part
  obtain ⟨rest, format, offset, inside⟩ := apart.exists_scalar
  have first : type.deviceAt? (path ++ 0 :: rest) = some ⟨.scalar format, start + (0 + offset)⟩ :=
    partAt?_append.mpr ⟨_, _, _, reached, partAt?_cons.mpr ⟨_, _, apart.device_zero, inside, rfl⟩, rfl⟩
  have second : type.deviceAt? (path ++ 1 :: rest) = some ⟨.scalar format, start + (stride + offset)⟩ :=
    partAt?_append.mpr ⟨_, _, _, reached, partAt?_cons.mpr ⟨_, _, apart.device_one, inside, rfl⟩, rfl⟩
  obtain ⟨middle, start', _, there, further, sum⟩ := partAt?_append.mp ((exact _ _ _).mp first)
  obtain ⟨_, _, _, there', further', sum'⟩ := partAt?_append.mp ((exact _ _ _).mp second)
  cases there.symm.trans there'
  have same : middle = final := type_eq_at reached there
  subst same
  obtain ⟨_, inner_zero, found, within, rfl⟩ := partAt?_cons.mp further
  obtain ⟨_, inner_one, found', within', rfl⟩ := partAt?_cons.mp further'
  cases apart.host_zero.symm.trans found
  cases apart.host_one.symm.trans found'
  cases within.symm.trans within'
  have spaced := apart.stride_ne
  dsimp only at sum sum'
  omega

end ShaderType

/-- Records of a type that is accepted stand byte for byte in host memory exactly when nothing inside them is spaced
differently. -/
theorem SymbolTable.declare_byteExact_iff {type : ShaderType} {table : SymbolTable} (words : type.OfWords)
    (accepted : SymbolTable.empty.declare type = (table, .ok ())) {decl : Record} (inside : type.Contains decl) :
    (ShaderType.record decl).ByteExact ↔
      ∀ path part, (ShaderType.record decl).deviceAt? path = some part → ¬part.type.Gapped := by
  obtain ⟨wellFormed, listed⟩ := declare_adds _ _ WellFormed.empty _ accepted
  have valid : (ShaderType.record decl).Valid :=
    fun inner within => wellFormed.valid inner ((listed inner).mpr (.inr (inside.trans within)))
  have decl_words := words.contained inside
  constructor
  · rintro exact path part reached gapped
    obtain ⟨inner, stride, apart⟩ := (decl_words.ofPath reached).exists_spacedApart (valid.at reached) gapped
    exact apart.not_byteExact reached exact
  · intro alike path format offset
    rw [decl_words.hostAt?_eq valid alike]

/-- Two vectors of three floats, packed into 24 bytes and eight bytes of padding in host memory. -/
def paddedTriples : Record := ⟨"S", [⟨"a", .array (.vector .f32 3) 2, 0⟩], 32⟩

/-- The record is accepted, and the second vector starts at byte 12 in host memory and at byte 16 on the device. -/
theorem SymbolTable.declare_byteExact_iff_padded :
    SymbolTable.empty.declare (.record paddedTriples) = (⟨[paddedTriples]⟩, .ok ()) ∧
      (ShaderType.record paddedTriples).hostAt? [0, 1, 0] = some ⟨.scalar .f32, 12⟩ ∧
      (ShaderType.record paddedTriples).deviceAt? [0, 1, 0] = some ⟨.scalar .f32, 16⟩ ∧
      ¬(ShaderType.record paddedTriples).ByteExact := by
  have words : (ShaderType.record paddedTriples).OfWords := by
    refine .record fun field listed => ?_
    rw [List.mem_singleton.mp listed]
    exact .array (.vector (by decide) 3) 2
  have accepted : SymbolTable.empty.declare (.record paddedTriples) = (⟨[paddedTriples]⟩, .ok ()) := rfl
  refine ⟨accepted, rfl, rfl, fun exact => ?_⟩
  exact (declare_byteExact_iff words accepted (.here _)).mp exact [0] ⟨.array (.vector .f32 3) 2, 0⟩ rfl
    ⟨by decide, ⟨16, 12⟩, rfl, by decide⟩

end FrameGraph
