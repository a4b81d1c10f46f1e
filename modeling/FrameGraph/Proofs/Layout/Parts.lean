import FrameGraph.Proofs.Layout.Placement
import Mathlib.Data.Set.Lattice
import Mathlib.Order.CompletePartialOrder
import Mathlib.Order.Interval.Set.Basic

/-! # Parts of values on the device

A value consists of parts, and those of parts again: components of vectors, columns of matrices, elements of arrays and
members of records. A path of part numbers leads to any of them. Each part stands aligned inside the whole, and parts
that neither stands inside the other share no byte.
-/

namespace FrameGraph

namespace Layout

/-- A value of layout `inner` that starts at a byte of one of layout `outer` stands aligned inside it. -/
structure Extents.Holds (outer inner : Extents) (offset : Nat) : Prop where
  strict : inner.align ∣ outer.align
  aligned : inner.align ∣ offset
  inside : offset + inner.size ≤ outer.size

namespace Extents.Holds

variable {outer middle inner : Extents} {first second : Nat}

theorem refl (extents : Extents) : extents.Holds extents 0 :=
  ⟨Nat.dvd_refl _, Nat.dvd_zero _, Nat.le_of_eq (Nat.zero_add _)⟩

theorem trans (one : outer.Holds middle first) (two : middle.Holds inner second) :
    outer.Holds inner (first + second) where
  strict := Nat.dvd_trans two.strict one.strict
  aligned := Nat.dvd_add (Nat.dvd_trans two.strict one.aligned) two.aligned
  inside := by
    have whole := one.inside
    have part := two.inside
    omega

/-- Elements stand in an array one stride apart. -/
theorem spaced {index count : Nat} (before : index < count) (positive : 0 < inner.align) :
    Holds ⟨inner.align, count * ceil inner.align inner.size⟩ inner (index * ceil inner.align inner.size) where
  strict := Nat.dvd_refl _
  aligned := Nat.dvd_mul_left_of_dvd (dvd_ceil positive _) index
  inside := calc
    index * ceil inner.align inner.size + inner.size ≤
        index * ceil inner.align inner.size + ceil inner.align inner.size :=
      Nat.add_le_add_left (le_ceil _ _) _
    _ = (index + 1) * ceil inner.align inner.size := (Nat.succ_mul _ _).symm
    _ ≤ count * ceil inner.align inner.size := Nat.mul_le_mul_right _ before

end Extents.Holds

end Layout

namespace ShaderType

/-- A part of a value: what it is, and the byte that it starts at. -/
structure Part where
  type : ShaderType
  offset : Nat

/-- A part of a value on the device by its number: a component, a column, an element or a member. -/
def devicePart? : ShaderType → Nat → Option Part
  | .vector format count, index => if index < count then some ⟨.scalar format, index * format.size⟩ else none
  | .matrix columns rows, index =>
    if index < columns then some ⟨.vector .f32 rows, index * (Layout.vector .f32 rows).stride⟩ else none
  | .array element count, index => do
    let layout ← element.layout?
    if index < count then some ⟨element, index * layout.stride⟩ else none
  | .record decl, index => do
    let field ← decl.fields[index]?
    let offset ← (← decl.offsets?)[index]?
    return ⟨field.type, offset⟩
  | .scalar _, _ | .named _, _ => none

/-- The part that a path leads to, where `part?` gives the parts of every type. -/
def partAt? (part? : ShaderType → Nat → Option Part) : ShaderType → List Nat → Option Part
  | type, [] => some ⟨type, 0⟩
  | type, index :: path => do
    let part ← part? type index
    let inner ← partAt? part? part.type path
    return ⟨inner.type, part.offset + inner.offset⟩

/-- The part of a value on the device that a path leads to. -/
def deviceAt? : ShaderType → List Nat → Option Part := partAt? devicePart?

section

variable {part? : ShaderType → Nat → Option Part} {type : ShaderType}

theorem partAt?_cons {index offset : Nat} {path : List Nat} {final : ShaderType} :
    partAt? part? type (index :: path) = some ⟨final, offset⟩ ↔
      ∃ part inner, part? type index = some part ∧ partAt? part? part.type path = some ⟨final, inner⟩ ∧
        offset = part.offset + inner := by
  simp only [partAt?, Option.bind_eq_bind, Option.bind_eq_some_iff, Option.pure_def, Option.some.injEq, Part.mk.injEq]
  constructor
  · rintro ⟨part, found, inner, reached, rfl, rfl⟩
    exact ⟨part, inner.offset, found, reached, rfl⟩
  · rintro ⟨part, inner, found, reached, rfl⟩
    exact ⟨part, found, ⟨final, inner⟩, reached, rfl, rfl⟩

theorem devicePart?_vector {format : Scalar} {count index : Nat} {part : Part} :
    (vector format count).devicePart? index = some part ↔
      index < count ∧ part = ⟨.scalar format, index * format.size⟩ := by
  simp only [devicePart?, Option.ite_none_right_eq_some, Option.some.injEq, eq_comm (a := part)]

theorem devicePart?_matrix {columns rows index : Nat} {part : Part} :
    (matrix columns rows).devicePart? index = some part ↔
      index < columns ∧ part = ⟨.vector .f32 rows, index * (Layout.vector .f32 rows).stride⟩ := by
  simp only [devicePart?, Option.ite_none_right_eq_some, Option.some.injEq, eq_comm (a := part)]

theorem devicePart?_array {element : ShaderType} {count index : Nat} {layout : Layout.Extents} {part : Part}
    (laid : element.layout? = some layout) :
    (array element count).devicePart? index = some part ↔ index < count ∧ part = ⟨element, index * layout.stride⟩ := by
  simp only [devicePart?, laid, Option.bind_eq_bind, Option.bind_some, Option.ite_none_right_eq_some,
    Option.some.injEq, eq_comm (a := part)]

theorem devicePart?_record {decl : Record} {offsets : List Nat} {index : Nat} {part : Part}
    (placed : decl.offsets? = some offsets) :
    (record decl).devicePart? index = some part ↔
      ∃ field offset, decl.fields[index]? = some field ∧ offsets[index]? = some offset ∧
        part = ⟨field.type, offset⟩ := by
  simp only [devicePart?, placed, Option.bind_eq_bind, Option.bind_some, Option.bind_eq_some_iff, Option.pure_def,
    Option.some.injEq]
  constructor
  · rintro ⟨field, listed, offset, put, rfl⟩
    exact ⟨field, offset, listed, put, rfl⟩
  · rintro ⟨field, offset, listed, put, rfl⟩
    exact ⟨field, listed, offset, put, rfl⟩

end

/-! ### Values that fit -/

/-- Columns of a matrix that fits stand their exact stride apart. -/
theorem devicePart?_matrix_of_fits {columns rows index : Nat} {part : Part} (fits : (matrix columns rows).Fits) :
    (matrix columns rows).devicePart? index = some part ↔ index < columns ∧
      part = ⟨.vector .f32 rows, index * Layout.ceil (vector .f32 rows).extents.align (vector .f32 rows).extents.size⟩ := by
  rw [devicePart?_matrix]
  apply and_congr_right
  intro before
  obtain ⟨column_fits, stride_fits⟩ := @Fits.element (.vector .f32 rows) columns (by omega) fits
  rw [OfWords.vector_eq column_fits, Layout.Extents.stride, Layout.roundUp_eq stride_fits]

/-- So do elements of an array that fits. -/
theorem devicePart?_array_of_fits {element : ShaderType} (words : element.OfWords) {count index : Nat} {part : Part}
    (fits : (array element count).Fits) :
    (array element count).devicePart? index = some part ↔ index < count ∧
      part = ⟨element, index * Layout.ceil element.extents.align element.extents.size⟩ := by
  obtain ⟨layout, laid, -⟩ := words.exists_layout
  rw [devicePart?_array laid]
  apply and_congr_right
  intro before
  obtain ⟨element_fits, stride_fits⟩ := Fits.element (by omega) fits
  cases laid.symm.trans (words.layout?_eq element_fits)
  rw [Layout.Extents.stride, Layout.roundUp_eq stride_fits]

namespace OfWords

variable {type : ShaderType} {part : Part}

/-- Each part is built of words. -/
theorem ofPart (words : type.OfWords) {index : Nat} (found : type.devicePart? index = some part) :
    part.type.OfWords := by
  cases words with
  | scalar wide => cases found
  | vector wide count =>
    obtain ⟨-, rfl⟩ := devicePart?_vector.mp found
    exact .scalar wide
  | matrix columns rows =>
    obtain ⟨-, rfl⟩ := devicePart?_matrix.mp found
    exact .vector (by decide) rows
  | array inner count =>
    obtain ⟨layout, laid, -⟩ := inner.exists_layout
    obtain ⟨-, rfl⟩ := (devicePart?_array laid).mp found
    exact inner
  | @record decl members =>
    obtain ⟨offsets, placed, -⟩ := (OfWords.record members).exists_offsets
    obtain ⟨field, offset, listed, -, rfl⟩ := (devicePart?_record placed).mp found
    exact members field (List.mem_of_getElem? listed)

/-- So is the part that a path leads to. -/
theorem ofPath (words : type.OfWords) {path : List Nat} (reached : type.deviceAt? path = some part) :
    part.type.OfWords := by
  obtain ⟨final, offset⟩ := part
  induction path generalizing type offset with
  | nil =>
    cases reached
    exact words
  | cons index path ih =>
    obtain ⟨first, inner, found, further, -⟩ := partAt?_cons.mp reached
    exact ih (words.ofPart found) inner further

/-- Each part of a value that fits stands aligned inside it. -/
theorem holds (words : type.OfWords) (fits : type.Fits) {index : Nat} (found : type.devicePart? index = some part) :
    part.type.Fits ∧ type.extents.Holds part.type.extents part.offset := by
  cases words with
  | scalar wide => cases found
  | @vector format wide count =>
    obtain ⟨before, rfl⟩ := devicePart?_vector.mp found
    constructor
    · exact Nat.lt_of_le_of_lt (Nat.le_of_dvd (by decide) (Layout.size_dvd format)) (by decide)
    · refine ⟨?_, Nat.dvd_mul_left _ _, ?_⟩
      · change format.size ∣ if count = 2 then format.size * 2 else format.size * 4
        split <;> exact Nat.dvd_mul_right _ _
      · change index * format.size + format.size ≤ format.size * count
        rw [← Nat.succ_mul, Nat.mul_comm format.size]
        exact Nat.mul_le_mul_right _ before
  | matrix columns rows =>
    obtain ⟨before, rfl⟩ := (devicePart?_matrix_of_fits fits).mp found
    have column : (ShaderType.vector .f32 rows).OfWords := .vector (by decide) rows
    exact ⟨(@Fits.element (.vector .f32 rows) columns (by omega) fits).1, .spaced before column.align_pos⟩
  | array inner count =>
    obtain ⟨before, rfl⟩ := (devicePart?_array_of_fits inner fits).mp found
    exact ⟨(Fits.element (by omega) fits).1, .spaced before inner.align_pos⟩
  | @record decl members =>
    obtain ⟨offsets, placed, places⟩ := (OfWords.record members).places fits
    obtain ⟨field, offset, listed, put, rfl⟩ := (devicePart?_record placed).mp found
    have inside := List.mem_of_getElem? listed
    have field_words := members field inside
    have field_laid := field_words.layout?_eq (fits.member inside)
    obtain ⟨-, ends, aligned, strict⟩ := places.member listed put field_laid field_words.align_pos
    have whole : (reach decl.fields ⟨0, 1⟩).align ∣ 16 := (OfWords.record members).align_dvd
    exact ⟨fits.member inside, Layout.dvd_of_le field_words.align_dvd whole strict, aligned,
      Nat.le_trans ends (Layout.le_ceil _ _)⟩

/-- A part ends before the parts of higher numbers start. -/
theorem ordered (words : type.OfWords) (fits : type.Fits) {index next : Nat} (before : index < next)
    (found : type.devicePart? index = some part) {other : Part} (found' : type.devicePart? next = some other) :
    part.offset + part.type.extents.size ≤ other.offset := by
  have spaced {size stride : Nat} (small : size ≤ stride) : index * stride + size ≤ next * stride :=
    calc
      index * stride + size ≤ (index + 1) * stride := by rw [Nat.succ_mul]; omega
      _ ≤ next * stride := Nat.mul_le_mul_right _ before
  cases words with
  | scalar wide => cases found
  | vector wide count =>
    obtain ⟨-, rfl⟩ := devicePart?_vector.mp found
    obtain ⟨-, rfl⟩ := devicePart?_vector.mp found'
    exact spaced (Nat.le_refl _)
  | matrix columns rows =>
    obtain ⟨-, rfl⟩ := (devicePart?_matrix_of_fits fits).mp found
    obtain ⟨-, rfl⟩ := (devicePart?_matrix_of_fits fits).mp found'
    exact spaced (Layout.le_ceil _ _)
  | array inner count =>
    obtain ⟨-, rfl⟩ := (devicePart?_array_of_fits inner fits).mp found
    obtain ⟨-, rfl⟩ := (devicePart?_array_of_fits inner fits).mp found'
    exact spaced (Layout.le_ceil _ _)
  | @record decl members =>
    obtain ⟨offsets, placed, places⟩ := (OfWords.record members).places fits
    obtain ⟨field, offset, listed, put, rfl⟩ := (devicePart?_record placed).mp found
    obtain ⟨field', offset', listed', put', rfl⟩ := (devicePart?_record placed).mp found'
    have exact {field : Field} {index : Nat} (listed : decl.fields[index]? = some field) :
        field.type.OfWords ∧ field.type.layout? = some field.type.extents :=
      have inside := List.mem_of_getElem? listed
      ⟨members field inside, (members field inside).layout?_eq (fits.member inside)⟩
    exact places.ordered before listed put listed' put' (exact listed).2 (exact listed').2 (exact listed').1.align_pos

/-- The part that a path leads to stands aligned inside a value that fits. -/
theorem holdsAt (words : type.OfWords) (fits : type.Fits) {path : List Nat}
    (reached : type.deviceAt? path = some part) :
    part.type.Fits ∧ type.extents.Holds part.type.extents part.offset := by
  obtain ⟨final, offset⟩ := part
  induction path generalizing type offset with
  | nil =>
    cases reached
    exact ⟨fits, .refl _⟩
  | cons index path ih =>
    obtain ⟨first, inner, found, further, rfl⟩ := partAt?_cons.mp reached
    obtain ⟨first_fits, one⟩ := words.holds fits found
    obtain ⟨last_fits, two⟩ := ih (words.ofPart found) first_fits inner further
    exact ⟨last_fits, one.trans two⟩

/-- Scalars in different parts share no byte. -/
theorem apart (words : type.OfWords) (fits : type.Fits) {index next : Nat} (before : index < next) {other : Part}
    (found : type.devicePart? index = some part) (found' : type.devicePart? next = some other) {path : List Nat}
    {format : Scalar} {offset : Nat} (reached : part.type.deviceAt? path = some ⟨.scalar format, offset⟩) :
    part.offset + offset + format.size ≤ other.offset := by
  have inside : offset + format.size ≤ part.type.extents.size :=
    ((words.ofPart found).holdsAt (words.holds fits found).1 reached).2.inside
  have ends := words.ordered fits before found found'
  omega

end OfWords

end ShaderType

/-- Two lights of a vector of three, two columns of three and a number each. -/
def ShaderType.lights : ShaderType :=
  .array (.record ⟨"Light",
    [⟨"position", .vector .f32 3, 0⟩, ⟨"axes", .matrix 2 3, 16⟩, ⟨"count", .scalar .u32, 48⟩], 64⟩) 2

end FrameGraph
