import FrameGraph.Proofs.Symbols

/-! # Tables after any number of declarations

A refused declaration stops somewhere inside its type and leaves the records that it stored up to there, so what holds
of every table is carried through refusals as well. Whether a type is refused depends only on the records in the
table and in the type, and not on the order in which `declare` meets them.
-/

namespace FrameGraph

namespace SymbolTable

variable {table : SymbolTable} {decl : Record}

/-- The table after one declaration of each type, refused ones included. -/
def filled (types : List ShaderType) : SymbolTable :=
  types.foldl (fun table type => (table.declare type).1) .empty

/-- What the table asks of the records that are declared in it: the new ones agree with their host layouts, and among
these and the stored ones those of one name are one record. -/
structure Admits (table : SymbolTable) (declared : Record → Prop) : Prop where
  valid : ∀ decl, declared decl → decl ∉ table.records → decl.validate = .ok ()
  agree : ∀ a b, a ∈ table.records ∨ declared a → b ∈ table.records ∨ declared b → a.name = b.name → a = b

namespace Admits

variable {declared part : Record → Prop}

theorem mono (admits : table.Admits declared) (inside : ∀ decl, part decl → declared decl) : table.Admits part where
  valid decl listed new := admits.valid decl (inside decl listed) new
  agree a b one two same := admits.agree a b (one.imp_right (inside a)) (two.imp_right (inside b)) same

/-- Once part of the records is stored, the rest is still admitted. -/
theorem advance {after : SymbolTable} (admits : table.Admits declared) (inside : ∀ decl, part decl → declared decl)
    (stored : ∀ record, record ∈ after.records ↔ record ∈ table.records ∨ part record) : after.Admits declared := by
  have known : ∀ decl, decl ∈ after.records ∨ declared decl → decl ∈ table.records ∨ declared decl := by
    rintro decl (listed | listed)
    · exact ((stored decl).mp listed).imp_right (inside decl)
    · exact .inr listed
  constructor
  · intro decl listed new
    exact admits.valid decl listed fun old => new ((stored decl).mpr (.inl old))
  · intro a b one two same
    exact admits.agree a b (known a one) (known b two) same

end Admits

/-- A record is stored, also when it is there already, unless it is at odds with the table or with its host. -/
theorem insert_eq_ok (admits : table.Admits (· = decl)) : (table.insert decl).2 = .ok () := by
  unfold insert
  cases found : table.find? decl.name with
  | some stored =>
    have listed : stored ∈ table.records := List.mem_of_find?_eq_some found
    have named : stored.name = decl.name := by simpa using List.find?_some found
    have same : stored = decl := admits.agree stored decl (.inl listed) (.inr rfl) named
    simp only [same, if_true]
  | none =>
    have new : decl ∉ table.records := by
      intro listed
      have other := List.find?_eq_none.mp found decl listed
      simp at other
    simp only [admits.valid decl rfl new]

/-- A record joins a table behind the records inside it, or the table stays as it is. -/
theorem insert_keeps (wellFormed : table.WellFormed) (members : ∀ inner, decl.Contains inner → inner ∈ table.records) :
    (table.insert decl).1.WellFormed ∧ table.records <+: (table.insert decl).1.records := by
  unfold insert
  split
  · split
    · exact ⟨wellFormed, List.prefix_rfl⟩
    · exact ⟨wellFormed, List.prefix_rfl⟩
  · rename_i fresh
    split
    · rename_i valid
      exact ⟨wellFormed.append fresh members valid, List.prefix_append _ _⟩
    · exact ⟨wellFormed, List.prefix_rfl⟩

mutual

/-- A declaration, also one that is refused half way, keeps the table in order and adds records behind the stored
ones. -/
theorem declare_keeps (table : SymbolTable) (wellFormed : table.WellFormed) : ∀ type : ShaderType,
    (table.declare type).1.WellFormed ∧ table.records <+: (table.declare type).1.records
  | .array element count => by
    rw [declare]
    exact declare_keeps table wellFormed element
  | .record ⟨name, fields, size⟩ => by
    have inner := declareFields_keeps table wellFormed fields
    rw [declare]
    cases met : table.declareFields fields with
    | mk middle outcome =>
      rw [met] at inner
      cases outcome with
      | error _ => exact inner
      | ok _ =>
        obtain ⟨between, listed⟩ := declareFields_adds table middle wellFormed fields met
        have members : ∀ inner : Record, RecordOf.Contains ⟨name, fields, size⟩ inner → inner ∈ middle.records :=
          fun inner inside => (listed inner).mpr (.inr inside)
        obtain ⟨last, more⟩ := insert_keeps between members
        exact ⟨last, inner.2.trans more⟩
  | .scalar _ => ⟨wellFormed, List.prefix_rfl⟩
  | .vector .. => ⟨wellFormed, List.prefix_rfl⟩
  | .matrix .. => ⟨wellFormed, List.prefix_rfl⟩
  | .named _ => ⟨wellFormed, List.prefix_rfl⟩

theorem declareFields_keeps (table : SymbolTable) (wellFormed : table.WellFormed) : ∀ fields : List Field,
    (table.declareFields fields).1.WellFormed ∧ table.records <+: (table.declareFields fields).1.records
  | [] => ⟨wellFormed, List.prefix_rfl⟩
  | ⟨_, type, _⟩ :: rest => by
    have first := declare_keeps table wellFormed type
    rw [declareFields]
    cases met : table.declare type with
    | mk middle outcome =>
      rw [met] at first
      cases outcome with
      | error _ => exact first
      | ok _ =>
        obtain ⟨last, more⟩ := declareFields_keeps middle first.1 rest
        exact ⟨last, first.2.trans more⟩

end

mutual

/-- A type is declared when the table admits all records inside it. -/
theorem declare_eq_ok (table : SymbolTable) (wellFormed : table.WellFormed) : ∀ type : ShaderType,
    table.Admits type.Contains → (table.declare type).2 = .ok ()
  | .array element count, admits => by
    rw [declare]
    exact declare_eq_ok table wellFormed element (admits.mono fun _ => .element count)
  | .record ⟨name, fields, size⟩, admits => by
    have members : ∀ decl : Record, (∃ field ∈ fields, field.type.Contains decl) →
        (ShaderType.record ⟨name, fields, size⟩).Contains decl :=
      fun decl inside => ShaderType.contains_record.mpr (.inl inside)
    have inner := declareFields_eq_ok table wellFormed fields (admits.mono members)
    rw [declare]
    cases met : table.declareFields fields with
    | mk middle outcome =>
      rw [met] at inner
      cases inner
      obtain ⟨-, listed⟩ := declareFields_adds table middle wellFormed fields met
      have left := admits.advance members listed
      exact insert_eq_ok (left.mono fun decl same => ShaderType.contains_record.mpr (.inr same))
  | .scalar _, _ => rfl
  | .vector .., _ => rfl
  | .matrix .., _ => rfl
  | .named _, _ => rfl

theorem declareFields_eq_ok (table : SymbolTable) (wellFormed : table.WellFormed) : ∀ fields : List Field,
    (table.Admits fun decl => ∃ field ∈ fields, field.type.Contains decl) → (table.declareFields fields).2 = .ok ()
  | [], _ => rfl
  | ⟨name, type, offset⟩ :: rest, admits => by
    have one : ∀ decl, type.Contains decl →
        ∃ field ∈ (⟨name, type, offset⟩ : Field) :: rest, field.type.Contains decl :=
      fun decl inside => ⟨_, List.mem_cons_self, inside⟩
    have first := declare_eq_ok table wellFormed type (admits.mono one)
    rw [declareFields]
    cases met : table.declare type with
    | mk middle outcome =>
      rw [met] at first
      cases first
      obtain ⟨between, listed⟩ := declare_adds table middle wellFormed type met
      refine declareFields_eq_ok middle between rest ((admits.advance one listed).mono ?_)
      rintro decl ⟨field, member, inside⟩
      exact ⟨field, List.mem_cons_of_mem _ member, inside⟩

end

/-- A type that was declared had been admitted. -/
theorem Admits.of_declare (wellFormed : table.WellFormed) {type : ShaderType}
    (done : (table.declare type).2 = .ok ()) : table.Admits type.Contains := by
  obtain ⟨ordered, listed⟩ := declare_adds table _ wellFormed type (Prod.ext rfl done)
  constructor
  · intro decl inside _
    exact ordered.valid decl ((listed decl).mpr (.inr inside))
  · intro a b one two same
    exact ordered.eq_of_name ((listed a).mpr one) ((listed b).mpr two) same

/-- Any number of declarations leave the table in order. -/
theorem filled_wellFormed (types : List ShaderType) : (filled types).WellFormed := by
  have run : ∀ table : SymbolTable, table.WellFormed →
      (types.foldl (fun table type => (table.declare type).1) table).WellFormed := by
    induction types with
    | nil => exact fun _ wellFormed => wellFormed
    | cons type rest ih => exact fun table wellFormed => ih _ (declare_keeps table wellFormed type).1
  exact run .empty .empty

/-- After any declarations, refused ones included, the names in a table are apart, its records agree with their host
layouts, and each stands behind the records inside it. In a table of this kind a type is declared exactly when the
records inside it that are new agree with their host layouts and no two among these and the stored ones have one name
and differ; then the stored ones stay in front, in their order, followed by the new ones. -/
theorem declarations_ordered :
    (∀ types, (filled types).WellFormed) ∧
      ∀ table : SymbolTable, table.WellFormed → ∀ type,
        ((table.declare type).2 = .ok () ↔
          (∀ decl, type.Contains decl → decl ∉ table.records → decl.validate = .ok ()) ∧
            ∀ a b : Record, a ∈ table.records ∨ type.Contains a → b ∈ table.records ∨ type.Contains b →
              a.name = b.name → a = b) ∧
          ((table.declare type).2 = .ok () → ∃ new, (table.declare type).1.records = table.records ++ new ∧
            ∀ decl, decl ∈ new ↔ type.Contains decl ∧ decl ∉ table.records) := by
  refine ⟨filled_wellFormed, fun table wellFormed type => ⟨⟨?_, ?_⟩, ?_⟩⟩
  · intro done
    have admits := Admits.of_declare wellFormed done
    exact ⟨admits.valid, admits.agree⟩
  · rintro ⟨valid, agree⟩
    exact declare_eq_ok table wellFormed type ⟨valid, agree⟩
  · intro done
    obtain ⟨ordered, listed⟩ := declare_adds table _ wellFormed type (Prod.ext rfl done)
    obtain ⟨new, split⟩ := (declare_keeps table wellFormed type).2
    refine ⟨new, split.symm, fun decl => ?_⟩
    have distinct : (table.records ++ new).Nodup := split ▸ List.Nodup.of_map _ ordered.names_nodup
    have apart : decl ∈ table.records → decl ∉ new := fun old => List.disjoint_of_nodup_append distinct old
    have either : decl ∈ table.records ∨ decl ∈ new ↔ decl ∈ table.records ∨ type.Contains decl := by
      rw [← listed, ← split, List.mem_append]
    tauto

/-- A record of one number. -/
def cell : Record := ⟨"Cell", [⟨"value", .scalar .f32, 0⟩], 4⟩

/-- Four cells, and behind them a record whose number is misplaced. -/
def cells : Record :=
  ⟨"Cells", [⟨"all", .array (.record cell) 4, 0⟩, ⟨"last", .record ⟨"Last", [⟨"value", .scalar .u32, 4⟩], 4⟩, 16⟩], 20⟩

/-- The cells are refused at their last member, which leaves the single cell in the table: it is declared again without
a change, and another record of its name is refused. -/
theorem declarations_ordered_refused :
    (filled [.record cells]).records = [cell] ∧
      ((filled [.record cells]).declare (.array (.record cell) 2)).1.records = [cell] ∧
      ((filled [.record cells]).declare (.record ⟨"Cell", [], 0⟩)).2 ≠ .ok () := by
  have stored : (filled [.record cells]).records = [cell] := by decide +kernel
  have ordered := declarations_ordered.1 [.record cells]
  refine ⟨stored, ?_, ?_⟩
  · obtain ⟨new, split, added⟩ := (declarations_ordered.2 _ ordered (.array (.record cell) 2)).2 rfl
    have nothing : new = [] := by
      refine List.eq_nil_iff_forall_not_mem.mpr fun decl listed => ?_
      obtain ⟨inside, absent⟩ := (added decl).mp listed
      rcases ShaderType.contains_record.mp (ShaderType.contains_array.mp inside) with ⟨field, member, inside⟩ | rfl
      · rw [List.mem_singleton.mp member] at inside
        cases inside
      · exact absent (by simp [stored])
    rw [split, nothing, stored, List.append_nil]
  · intro done
    have agree := ((declarations_ordered.2 _ ordered _).1.mp done).2
    have same := agree cell ⟨"Cell", [], 0⟩ (.inl (by simp [stored])) (.inr (.here _)) rfl
    cases same

end SymbolTable

end FrameGraph
