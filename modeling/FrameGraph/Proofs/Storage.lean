import FrameGraph.Proofs.Compile.Records
import FrameGraph.Proofs.Layout.Validation

/-! # Sizes of storage buffers

A storage buffer is allocated by the size that its elements have in host memory, and a program reads it by their
stride on the device. The two are the same for every type that compiles but for vectors and matrix columns of three
components, which take twelve bytes on the host and sixteen on the device.
-/

namespace FrameGraph

/-- Vectors and matrix columns of three components in one value, outside of records. -/
def ShaderType.triples : ShaderType → Nat
  | .vector _ count => if count = 3 then 1 else 0
  | .matrix columns rows => if rows = 3 then columns else 0
  | .array element count => count * element.triples
  | .scalar _ | .record _ | .named _ => 0

/-- Vectors and matrix columns have two to four components, as in the shading language. -/
def ShaderType.Regular : ShaderType → Prop
  | .vector _ count => 2 ≤ count ∧ count ≤ 4
  | .matrix _ rows => 2 ≤ rows ∧ rows ≤ 4
  | .array element _ => element.Regular
  | .scalar _ | .record _ | .named _ => True

/-- The host keeps no value of more bytes than a signed 64-bit word counts. -/
def HostType.Sized (host : HostType) : Prop := host.size ≤ 9223372036854775807

instance (host : HostType) : Decidable host.Sized := inferInstanceAs (Decidable (_ ≤ _))

namespace HostType

/-! ### Layouts of host types -/

theorem arrayType_cases (element : ShaderType) (count : Nat) :
    arrayType element count = .array element count ∨ ∃ format, element = .scalar format ∧ 2 ≤ count ∧ count ≤ 4 ∧
      arrayType element count = .vector format count := by
  cases element with
  | scalar format =>
    by_cases short : 2 ≤ count ∧ count ≤ 4 ∧ format ≠ .u16
    · exact .inr ⟨format, rfl, short.1, short.2.1, if_pos short⟩
    · exact .inl (if_neg short)
  | _ => exact .inl rfl

/-- Only a scalar is seen as one. -/
theorem eq_scalar {host : HostType} {format : Scalar} (seen : host.shaderType = .scalar format) :
    host = .scalar format := by
  cases host with
  | scalar other =>
    rw [shaderType] at seen
    cases seen
    rfl
  | vector _ _ =>
    rw [shaderType] at seen
    cases seen
  | matrix _ _ =>
    rw [shaderType] at seen
    cases seen
  | array element count =>
    rw [shaderType] at seen
    rcases arrayType_cases element.shaderType count with same | ⟨_, _, _, _, same⟩
    · rw [same] at seen
      cases seen
    · rw [same] at seen
      cases seen
  | record decl =>
    rw [shaderType] at seen
    cases seen

mutual

/-- Every host type has a layout on the device. -/
theorem exists_layout : ∀ host : HostType, ∃ layout, host.shaderType.layout? = some layout
  | .scalar _ => ⟨_, rfl⟩
  | .vector _ _ => ⟨_, rfl⟩
  | .matrix _ _ => ⟨_, rfl⟩
  | .array element count => by
    obtain ⟨layout, found⟩ := exists_layout element
    rw [shaderType]
    rcases arrayType_cases element.shaderType count with same | ⟨_, _, _, _, same⟩
    · rw [same, ShaderType.layout?, found]
      exact ⟨_, rfl⟩
    · rw [same]
      exact ⟨_, rfl⟩
  | .record ⟨name, fields, size⟩ => by
    obtain ⟨offsets, placed, -⟩ := ShaderType.exists_offsets (exists_layout_of_mem fields) 0
    obtain ⟨last, measured⟩ := ShaderType.exists_measure (exists_layout_of_mem fields) offsets ⟨0, 1⟩
    rw [shaderType]
    exact ⟨_, RecordOf.layout?_eq_some.mpr ⟨offsets, last, placed, measured, rfl⟩⟩

theorem exists_layout_of_mem : ∀ (fields : List (FieldOf HostType)), ∀ field ∈ shaderFields fields,
    ∃ layout, field.type.layout? = some layout
  | [], _, listed => by cases listed
  | ⟨_, type, _⟩ :: rest, field, listed => by
    rw [shaderFields, List.mem_cons] at listed
    rcases listed with rfl | more
    · exact exists_layout type
    · exact exists_layout_of_mem rest field more

end

end HostType

/-- A record that agrees with its host layout has the host's size on the device. -/
theorem RecordOf.size_of_validate {decl : Record} {layout : Layout.Extents} (valid : decl.validate = .ok ())
    (found : (ShaderType.record decl).layout? = some layout) : layout.size = decl.hostSize := by
  obtain ⟨offsets, last, placed, -, -⟩ := layout?_eq_some.mp found
  exact ((validate_eq_ok placed found).mp valid).2

theorem Layout.vector_stride {format : Scalar} {count : Nat} (short : 2 ≤ count ∧ count ≤ 4) (sized : format ≠ .u16) :
    (Layout.vector format count).stride = 4 * count + 4 * (if count = 3 then 1 else 0) := by
  have counts : count = 2 ∨ count = 3 ∨ count = 4 := by omega
  cases format with
  | u16 => contradiction
  | _ => rcases counts with rfl | rfl | rfl <;> rfl

namespace HostType

/-- The stride of a vector that compiles, against its size on the host. -/
theorem vector_stride {format : Scalar} {count : Nat} (short : 2 ≤ count ∧ count ≤ 4)
    (named : ∃ name, (ShaderType.vector format count).name = .ok name) :
    (Layout.vector format count).stride = format.size * count + 4 * (ShaderType.vector format count).triples ∧
      ((ShaderType.vector format count).triples ≠ 0 →
        format.size * count = 12 * (ShaderType.vector format count).triples) := by
  have sized : format ≠ .u16 := by
    rintro rfl
    obtain ⟨name, spelled⟩ := named
    cases spelled
  have size_eq : format.size = 4 := by cases format <;> first | rfl | contradiction
  rw [Layout.vector_stride short sized, size_eq, ShaderType.triples]
  by_cases three : count = 3
  · subst three
    decide
  · simp [three]

theorem matrix_stride {columns rows : Nat} (short : 2 ≤ rows ∧ rows ≤ 4)
    (sized : columns * rows * 4 ≤ 9223372036854775807) {layout : Layout.Extents}
    (found : (ShaderType.matrix columns rows).layout? = some layout) :
    layout.stride = columns * rows * 4 + 4 * (ShaderType.matrix columns rows).triples ∧
      ((ShaderType.matrix columns rows).triples ≠ 0 →
        columns * rows * 4 = 12 * (ShaderType.matrix columns rows).triples) := by
  have column := Layout.vector_stride short (by decide : Scalar.f32 ≠ .u16)
  have aligned := Layout.Extents.dvd_stride (Layout.vector_align_dvd .f32 rows)
  have fits : columns * (Layout.vector .f32 rows).stride < UInt64.size := by
    rw [column, UInt64.size]
    have counts : rows = 2 ∨ rows = 3 ∨ rows = 4 := by omega
    rcases counts with rfl | rfl | rfl
    · rw [if_neg (by decide)]
      omega
    · rw [if_pos rfl]
      omega
    · rw [if_neg (by decide)]
      omega
  cases found
  rw [Layout.stride_of_mul aligned fits, column, ShaderType.triples]
  by_cases three : rows = 3
  · subst three
    simp only [if_true]
    omega
  · simp [three, Nat.mul_assoc, Nat.mul_comm 4 rows]

/-- The stride of an array is that of its elements, as often. -/
theorem array_stride {size triples count : Nat} {inner : Layout.Extents} (small : inner.align ∣ 16)
    (sized : count * size ≤ 9223372036854775807) (spaced : inner.stride = size + 4 * triples)
    (only : triples ≠ 0 → size = 12 * triples) :
    Layout.Extents.stride ⟨inner.align, Layout.word (count * inner.stride)⟩ = count * size + 4 * (count * triples) ∧
      (count * triples ≠ 0 → count * size = 12 * (count * triples)) := by
  have whole : count * inner.stride = count * size + 4 * (count * triples) := by
    rw [spaced, Nat.mul_add, Nat.mul_left_comm]
  have filled (some : count * triples ≠ 0) : count * size = 12 * (count * triples) := by
    rw [only (Nat.mul_ne_zero_iff.mp some).2, Nat.mul_left_comm]
  have fits : count * inner.stride < UInt64.size := by
    rw [whole, UInt64.size]
    omega
  rw [Layout.stride_of_mul (Layout.Extents.dvd_stride small) fits]
  exact ⟨whole, filled⟩

/-- The stride on the device is the size on the host, and four more bytes for each vector and each column of three
components; with any of these the value consists of nothing else. -/
theorem stride_eq (host : HostType) (regular : host.shaderType.Regular) (sized : host.Sized)
    (named : ∃ name, host.shaderType.name = .ok name)
    (valid : ∀ decl, host.shaderType.Contains decl → decl.validate = .ok ()) {layout : Layout.Extents}
    (found : host.shaderType.layout? = some layout) :
    layout.stride = host.size + 4 * host.shaderType.triples ∧
      (host.shaderType.triples ≠ 0 → host.size = 12 * host.shaderType.triples) := by
  match host with
  | .scalar format =>
    cases found
    cases format <;> exact ⟨rfl, fun some => absurd rfl some⟩
  | .vector format count =>
    cases found
    exact vector_stride regular named
  | .matrix columns rows => exact matrix_stride regular sized found
  | .array element count =>
    rw [shaderType] at regular named valid found ⊢
    rcases arrayType_cases element.shaderType count with same | ⟨format, seen, least, most, same⟩
    · rw [same] at regular named valid found ⊢
      obtain ⟨inner, inner_found⟩ := exists_layout element
      rw [ShaderType.layout?, inner_found] at found
      cases found
      rw [Sized, size] at sized
      rw [size, ShaderType.triples]
      rcases Nat.eq_zero_or_pos count with rfl | filled
      · simp [Layout.Extents.stride]
      · have inner_named : ∃ name, element.shaderType.name = .ok name := by
          obtain ⟨name, spelled⟩ := named
          rw [ShaderType.name] at spelled
          split at spelled
          · exact ⟨_, by assumption⟩
          · cases spelled
        have inner_sized : element.Sized := Nat.le_trans (Nat.le_mul_of_pos_left _ filled) sized
        obtain ⟨stride, only⟩ := stride_eq element regular inner_sized inner_named
          (fun decl inside => valid decl (.element count inside)) inner_found
        exact array_stride (ShaderType.align_dvd inner_found) sized stride only
    · cases eq_scalar seen
      rw [same] at regular named found ⊢
      cases found
      rw [size, size, Nat.mul_comm]
      exact vector_stride ⟨least, most⟩ named
  | .record ⟨name, fields, size⟩ =>
    rw [shaderType] at valid found ⊢
    have agrees := RecordOf.size_of_validate (valid _ (.here _)) found
    have whole : layout.stride = layout.size := by
      have small := ShaderType.align_dvd found
      obtain ⟨_, _, -, -, rfl⟩ := RecordOf.layout?_eq_some.mp found
      exact Layout.roundUp_roundUp small _
    rw [whole, agrees]
    exact ⟨rfl, fun some => absurd rfl some⟩

end HostType

/-! ### Allocations -/

namespace BufferDecl

variable {decl : BufferDecl} {surface : Extent}

/-- Sizes are multiples of sixteen, and there is none beyond 64 bits. -/
theorem byteSize_le : decl.byteSize surface ≤ UInt64.size - 16 := by
  change (max (decl.elementCount surface * decl.elementSize % UInt64.size) 16 + 15) / 16 * 16 % UInt64.size ≤ _
  rw [UInt64.size]
  omega

/-- A size that is a 64-bit word is rounded up. -/
theorem byteSize_eq (small : decl.elementCount surface * decl.elementSize ≤ UInt64.size - 16) :
    decl.byteSize surface = (max (decl.elementCount surface * decl.elementSize) 16 + 15) / 16 * 16 := by
  change (max (decl.elementCount surface * decl.elementSize % UInt64.size) 16 + 15) / 16 * 16 % UInt64.size = _
  rw [UInt64.size] at *
  rw [Nat.mod_eq_of_lt (by omega), Nat.mod_eq_of_lt (by omega)]

/-- Elements that need four more bytes on the device for each of their columns of three components fit when there are
at most three such columns, and when the size that is asked for is a 64-bit word. -/
theorem fits_iff {stride triples : Nat} (spaced : stride = decl.elementSize + 4 * triples)
    (only : triples ≠ 0 → decl.elementSize = 12 * triples) :
    decl.elementCount surface * stride ≤ decl.byteSize surface ↔
      decl.elementCount surface * decl.elementSize ≤ UInt64.size - 16 ∧ decl.elementCount surface * triples ≤ 3 := by
  have needed : decl.elementCount surface * stride =
      decl.elementCount surface * decl.elementSize + 4 * (decl.elementCount surface * triples) := by
    rw [spaced, Nat.mul_add, Nat.mul_left_comm]
  have columns : decl.elementCount surface * triples ≠ 0 →
      decl.elementCount surface * decl.elementSize = 12 * (decl.elementCount surface * triples) := by
    intro some
    rw [only (Nat.mul_ne_zero_iff.mp some).2, Nat.mul_left_comm]
  rw [needed]
  by_cases small : decl.elementCount surface * decl.elementSize ≤ UInt64.size - 16
  · rw [byteSize_eq small]
    omega
  · have bound : decl.byteSize surface ≤ UInt64.size - 16 := byteSize_le
    omega

end BufferDecl

/-- Every leaf of a compiled program has its unit. -/
theorem Program.exists_unit {source : Program} {table : ResourceTable} {caps : DeviceCaps} {program : CompiledProgram}
    {log : List LogLine} (compiled : source.compile table caps = .ok (program, log)) {flat : FlatLeaf}
    (listed : flat ∈ (Flattened.ofProgram source).leaves) : ∃ unit, program.units[flat.unit]? = some unit := by
  have whole := source.compile_ok compiled
  obtain ⟨place, inside, rfl⟩ := List.mem_iff_getElem.mp listed
  have both : place < (source.compiledLeaves program).length := by
    rw [Program.compiledLeaves, List.length_zip, whole.length_eq, Nat.min_self]
    exact inside
  have first : (source.compiledLeaves program)[place].1 = (Flattened.ofProgram source).leaves[place] := by
    simp [Program.compiledLeaves]
  have known := (whole.becomes _ (List.getElem_mem both)).2
  rw [first] at known
  exact ⟨_, List.getElem?_eq_getElem known⟩

/-- A storage buffer of a compiled program holds all elements of its host type, in the stride that the program reads
them with, when its size is a 64-bit word and it has at most three columns of three components. -/
theorem Program.storage_fits_iff {source : Program} {table : ResourceTable} {caps : DeviceCaps}
    {program : CompiledProgram} {log : List LogLine} (compiled : source.compile table caps = .ok (program, log))
    {flat : FlatLeaf} (listed : flat ∈ (Flattened.ofProgram source).leaves) {argument : Argument}
    (bound : argument ∈ flat.node.arguments.flatMap Argument.parts) {handle : BufferHandle} {readOnly : Bool}
    (kind : argument.kind = .buffer handle (.storage readOnly)) (untyped : argument.type = none) {name : String}
    {host : HostType} {count : ElementCount} (declared : table.buffer? handle = some (.ofHost name host count))
    (regular : host.shaderType.Regular) (sized : host.Sized) :
    ∃ layout, host.shaderType.layout? = some layout ∧ ∀ surface,
      (BufferDecl.ofHost name host count).elementCount surface * layout.stride ≤
          (BufferDecl.ofHost name host count).byteSize surface ↔
        (BufferDecl.ofHost name host count).elementCount surface * host.size ≤ UInt64.size - 16 ∧
          (BufferDecl.ofHost name host count).elementCount surface * host.shaderType.triples ≤ 3 := by
  have spelled : host.shaderType ∈ source.unitTypes table flat.unit := by
    have own : argument.ownTypes table = [host.shaderType] := by
      simp [Argument.ownTypes, untyped, kind, ArgumentKind.spelled?, declared, BufferDecl.ofHost]
    obtain ⟨outer, has, part⟩ := List.mem_flatMap.mp bound
    apply List.mem_flatMap.mpr
    refine ⟨flat, List.mem_filter.mpr ⟨listed, by simp⟩, List.mem_flatMap.mpr ⟨outer, has, ?_⟩⟩
    exact List.mem_flatMap.mpr ⟨argument, part, own ▸ List.mem_singleton.mpr rfl⟩
  obtain ⟨unit, found⟩ := source.exists_unit compiled listed
  obtain ⟨symbols, wellFormed, -, named, mem_iff, -⟩ := source.compile_symbols compiled found
  have valid : ∀ decl, host.shaderType.Contains decl → decl.validate = .ok () :=
    fun decl inside => wellFormed.valid decl ((mem_iff decl).mpr ⟨_, spelled, inside⟩)
  obtain ⟨layout, layout_eq⟩ := host.exists_layout
  obtain ⟨spaced, only⟩ := host.stride_eq regular sized (named _ spelled) valid layout_eq
  exact ⟨layout, layout_eq, fun surface => BufferDecl.fits_iff spaced only⟩

/-- A kernel over a storage buffer. -/
def storageKernel : Program where
  library := ""
  root := [.leaf (.dispatch {
    label := "k"
    source := "@compute fn k() { x[gid.x] = vec3<f32>(1.0); }"
    function := "k"
    arguments := [⟨"x", none, none, .buffer ⟨0⟩ (.storage false)⟩]
    fits := [.buffer "x"] })]

/-- Ten vectors of three floats take 160 bytes on the device, and 128 are allocated. -/
theorem Program.storage_fits_iff_triples :
    ∃ program log layout,
      storageKernel.compile { buffers := [.ofHost "x" (.array (.scalar .f32) 3) (.fixed 10)] } {} = .ok (program, log) ∧
      (HostType.array (.scalar .f32) 3).shaderType.layout? = some layout ∧
      ¬ 10 * layout.stride ≤ (BufferDecl.ofHost "x" (.array (.scalar .f32) 3) (.fixed 10)).byteSize ⟨64, 64, 1⟩ := by
  have run : (storageKernel.compile
      { buffers := [.ofHost "x" (.array (.scalar .f32) 3) (.fixed 10)] } {}).toOption.isSome = true := by
    decide +kernel
  obtain ⟨⟨program, log⟩, read⟩ := Option.isSome_iff_exists.mp run
  have compiled := ok_of_toOption read
  have inside : 0 < (Flattened.ofProgram storageKernel).leaves.length := by decide
  have regular : (HostType.array (.scalar .f32) 3).shaderType.Regular := by
    change 2 ≤ 3 ∧ 3 ≤ 4
    decide
  obtain ⟨layout, found, fits⟩ := storageKernel.storage_fits_iff compiled (List.getElem_mem inside)
    (List.mem_singleton.mpr rfl) rfl rfl rfl regular (by decide)
  refine ⟨program, log, layout, compiled, found, fun room => ?_⟩
  have few := ((fits ⟨64, 64, 1⟩).mp room).2
  revert few
  decide

end FrameGraph
