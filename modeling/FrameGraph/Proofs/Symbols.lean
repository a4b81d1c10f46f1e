import FrameGraph.Layout.Symbols
import Mathlib.Data.List.Nodup

/-! # Declared records

A table that was filled by declaring types has the records inside these types and no others. Each name stands there
once, each record stands behind the records inside it, and each agrees with its host layout.
-/

namespace FrameGraph

/-- The record stands inside the type, at any depth of arrays and records. -/
inductive ShaderType.Contains : ShaderType → Record → Prop where
  | here (decl : Record) : Contains (.record decl) decl
  | element {element : ShaderType} {decl : Record} (count : Nat) (inside : Contains element decl) :
    Contains (.array element count) decl
  | member {outer decl : Record} {field : Field} (listed : field ∈ outer.fields)
    (inside : Contains field.type decl) : Contains (.record outer) decl

/-- A record stands inside one of the members. -/
def RecordOf.Contains (outer inner : Record) : Prop := ∃ field ∈ outer.fields, field.type.Contains inner

namespace ShaderType

theorem contains_record {outer decl : Record} :
    (record outer).Contains decl ↔ outer.Contains decl ∨ decl = outer := by
  constructor
  · intro inside
    cases inside with
    | here => exact .inr rfl
    | member listed inside => exact .inl ⟨_, listed, inside⟩
  · rintro (⟨field, listed, inside⟩ | rfl)
    · exact .member listed inside
    · exact .here decl

theorem contains_array {element : ShaderType} {count : Nat} {decl : Record} :
    (array element count).Contains decl ↔ element.Contains decl := by
  constructor
  · intro inside
    cases inside with
    | element count inside => exact inside
  · exact .element count

/-- Records inside a record that stands inside stand inside. -/
theorem Contains.trans {type : ShaderType} {outer inner : Record} (one : type.Contains outer)
    (two : (record outer).Contains inner) : type.Contains inner := by
  induction one with
  | here => exact two
  | element count _ ih => exact .element count (ih two)
  | member listed _ ih => exact .member listed (ih two)

end ShaderType

namespace SymbolTable

variable {table after : SymbolTable} {decl : Record}

/-- What holds of a table at all times. -/
structure WellFormed (table : SymbolTable) : Prop where
  names_nodup : table.names.Nodup
  inner_first : ∀ front outer rest, table.records = front ++ outer :: rest → ∀ inner, outer.Contains inner → inner ∈ front
  valid : ∀ decl ∈ table.records, decl.validate = .ok ()

theorem WellFormed.empty : SymbolTable.empty.WellFormed where
  names_nodup := .nil
  inner_first front outer rest split := by simp [SymbolTable.empty] at split
  valid := List.forall_mem_nil _

/-- Records of one name are one record. -/
theorem WellFormed.eq_of_name (wellFormed : table.WellFormed) {a b : Record} (first : a ∈ table.records)
    (second : b ∈ table.records) (same : a.name = b.name) : a = b :=
  List.inj_on_of_nodup_map wellFormed.names_nodup first second same

theorem WellFormed.append (wellFormed : table.WellFormed) (fresh : table.find? decl.name = none)
    (members : ∀ inner, decl.Contains inner → inner ∈ table.records) (valid : decl.validate = .ok ()) :
    WellFormed ⟨table.records ++ [decl]⟩ where
  names_nodup := by
    have unknown : decl.name ∉ table.records.map (·.name) := by
      simpa [SymbolTable.find?] using fresh
    rw [names, List.map_append]
    exact wellFormed.names_nodup.append (List.nodup_singleton _) (List.disjoint_singleton.mpr unknown)
  inner_first := by
    intro front outer rest split inner inside
    rcases List.eq_nil_or_concat rest with rfl | ⟨rest, last, rfl⟩
    · obtain ⟨rfl, same⟩ := List.append_inj' split rfl
      cases same
      exact members inner inside
    · rw [List.concat_eq_append, ← List.cons_append, ← List.append_assoc] at split
      obtain ⟨split, -⟩ := List.append_inj' split rfl
      exact wellFormed.inner_first front outer rest split inner inside
  valid := by
    rw [List.forall_mem_append, List.forall_mem_singleton]
    exact ⟨wellFormed.valid, valid⟩

/-- A record whose members are declared is there once it is stored, and nothing else changes. -/
theorem insert_adds (wellFormed : table.WellFormed) (members : ∀ inner, decl.Contains inner → inner ∈ table.records)
    (done : table.insert decl = (after, .ok ())) :
    after.WellFormed ∧ ∀ record, record ∈ after.records ↔ record ∈ table.records ∨ record = decl := by
  unfold insert at done
  split at done
  · rename_i stored found
    split at done
    · rename_i same
      cases done
      have known : decl ∈ table.records := same ▸ List.mem_of_find?_eq_some found
      refine ⟨wellFormed, fun record => ⟨.inl, ?_⟩⟩
      rintro (listed | rfl)
      · exact listed
      · exact known
    · cases done
  · rename_i fresh
    split at done
    · rename_i valid
      cases done
      exact ⟨wellFormed.append fresh members valid, fun record => by simp⟩
    · cases done

mutual

/-- Declaring a type adds the records inside it. -/
theorem declare_adds (table after : SymbolTable) (wellFormed : table.WellFormed) : ∀ type : ShaderType,
    table.declare type = (after, .ok ()) →
      after.WellFormed ∧ ∀ record, record ∈ after.records ↔ record ∈ table.records ∨ type.Contains record
  | .array element count, done => by
    rw [declare] at done
    simp only [ShaderType.contains_array]
    exact declare_adds table after wellFormed element done
  | .record ⟨name, fields, size⟩, done => by
    rw [declare] at done
    split at done
    · rename_i middle inner
      obtain ⟨between, listed⟩ := declareFields_adds table middle wellFormed fields inner
      have members : ∀ inner : Record, RecordOf.Contains ⟨name, fields, size⟩ inner → inner ∈ middle.records :=
        fun inner inside => (listed inner).mpr (.inr inside)
      obtain ⟨last, added⟩ := insert_adds between members done
      refine ⟨last, fun record => ?_⟩
      rw [added, listed, ShaderType.contains_record, or_assoc]
      rfl
    · cases done
  | .scalar _, done => by
    cases done
    exact ⟨wellFormed, fun record => ⟨.inl, fun found => found.resolve_right nofun⟩⟩
  | .vector .., done => by
    cases done
    exact ⟨wellFormed, fun record => ⟨.inl, fun found => found.resolve_right nofun⟩⟩
  | .matrix .., done => by
    cases done
    exact ⟨wellFormed, fun record => ⟨.inl, fun found => found.resolve_right nofun⟩⟩
  | .named _, done => by
    cases done
    exact ⟨wellFormed, fun record => ⟨.inl, fun found => found.resolve_right nofun⟩⟩

theorem declareFields_adds (table after : SymbolTable) (wellFormed : table.WellFormed) : ∀ fields : List Field,
    table.declareFields fields = (after, .ok ()) →
      after.WellFormed ∧ ∀ record, record ∈ after.records ↔
        record ∈ table.records ∨ ∃ field ∈ fields, field.type.Contains record
  | [], done => by
    cases done
    exact ⟨wellFormed, fun record => by simp⟩
  | ⟨name, type, offset⟩ :: rest, done => by
    rw [declareFields] at done
    split at done
    · rename_i middle first
      obtain ⟨between, listed⟩ := declare_adds table middle wellFormed type first
      obtain ⟨last, added⟩ := declareFields_adds middle after between rest done
      refine ⟨last, fun record => ?_⟩
      rw [added, listed, List.exists_mem_cons_iff, or_assoc]
    · cases done

end

/-- The types are declared one after the other, and none is refused. -/
inductive Declares : SymbolTable → List ShaderType → SymbolTable → Prop where
  | nil (table : SymbolTable) : Declares table [] table
  | cons {table next last : SymbolTable} {type : ShaderType} {types : List ShaderType}
    (one : table.declare type = (next, .ok ())) (rest : Declares next types last) :
    Declares table (type :: types) last

namespace Declares

variable {first middle last : SymbolTable} {types more : List ShaderType}

theorem append (one : Declares first types middle) (two : Declares middle more last) :
    Declares first (types ++ more) last := by
  induction one with
  | nil => exact two
  | cons one _ ih => exact .cons one (ih two)

/-- The records inside the types are added. -/
theorem adds (declares : Declares first types last) (wellFormed : first.WellFormed) :
    last.WellFormed ∧ ∀ record, record ∈ last.records ↔
      record ∈ first.records ∨ ∃ type ∈ types, type.Contains record := by
  induction declares with
  | nil => exact ⟨wellFormed, fun record => by simp⟩
  | cons one _ ih =>
    obtain ⟨between, listed⟩ := declare_adds _ _ wellFormed _ one
    obtain ⟨last, added⟩ := ih between
    refine ⟨last, fun record => ?_⟩
    rw [added, listed, List.exists_mem_cons_iff, or_assoc]

end Declares

end SymbolTable

end FrameGraph
