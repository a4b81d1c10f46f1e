import FrameGraph.Proofs.Compile.Growth
import Mathlib.Data.List.Perm.Subperm
import Mathlib.Order.Bounds.Defs

/-! # Names of entry points

The search for a name tries the name itself and then its numbered forms in order. Different numbers make different
names, so among `n` taken names the search ends at the number `n` at the latest, and a counter of 32 bits does for fewer
than `2 ^ 31` of them. Names that are given one after the other are all different, whatever is asked for: also where a
request looks like the numbered form of another.
-/

namespace FrameGraph

namespace Naming

/-- The search for a free name goes on from a candidate and ends at `found`; `n` is the number that is tried next. The
counter has 32 bits, one of them for the sign. -/
inductive Seeks (name : String) (taken : List String) : String → Int32 → String → Prop where
  | free {candidate : String} {n : Int32} (free : candidate ∉ taken) : Seeks name taken candidate n candidate
  | next {candidate found : String} {n : Int32} (held : candidate ∈ taken)
      (rest : Seeks name taken s!"{name}_{n}" (n + 1) found) : Seeks name taken candidate n found

section

variable {name : String} {taken : List String}

/-- A search ends at one name only. -/
theorem Seeks.unique {candidate a b : String} {n : Int32} (one : Seeks name taken candidate n a)
    (other : Seeks name taken candidate n b) : a = b := by
  induction one with
  | free free =>
    cases other with
    | free => rfl
    | next held => exact absurd held free
  | next held _ ih =>
    cases other with
    | free free => exact absurd held free
    | next _ rest => exact ih rest

/-- The counter spells its number as long as it does not overflow. -/
theorem numbered_ofNat (name : String) {n : Nat} (small : n < 2147483648) :
    s!"{name}_{Int32.ofNat n}" = numbered name n := by
  have digits : toString (Int32.ofNat n) = toString n := by
    change toString (Int32.ofNat n).toInt = toString n
    rw [Int32.toInt_ofNat_of_lt (by omega)]
    rfl
  rw [digits]
  rfl

/-- Numbered forms that are taken are passed, and the first free one is found. -/
theorem seeks_numbered {m : Nat} (small : m < 2147483648) (free : numbered name m ∉ taken) {n : Nat} (below : n ≤ m)
    (passed : ∀ k, n ≤ k → k < m → numbered name k ∈ taken) :
    Seeks name taken (numbered name n) (Int32.ofNat (n + 1)) (numbered name m) := by
  obtain ⟨more, rfl⟩ := Nat.exists_eq_add_of_le below
  induction more generalizing n with
  | zero => exact .free free
  | succ more ih =>
    have rest : n + (more + 1) = n + 1 + more := by omega
    rw [rest] at small free passed ⊢
    refine .next (passed n (Nat.le_refl n) (by omega)) ?_
    rw [numbered_ofNat name (by omega), show (1 : Int32) = Int32.ofNat 1 from rfl, ← Int32.ofNat_add]
    exact ih small free (by omega) fun k first => passed k (by omega)

theorem numbered_ne (name : String) (n : Nat) : numbered name n ≠ name := by
  intro same
  have length := congrArg (List.length ∘ String.toList) same
  simp [numbered, toString] at length

/-- Where a name and its first numbered forms are taken, there are as many names as these. -/
theorem le_length_of_passed (held : name ∈ taken) {m : Nat} (passed : ∀ k, 1 ≤ k → k < m → numbered name k ∈ taken) :
    m ≤ taken.length := by
  have numbers : ((List.range' 1 (m - 1)).map (numbered name)).Nodup :=
    List.Nodup.map (fun _ _ => numbered_injective name) List.nodup_range'
  have apart : name ∉ (List.range' 1 (m - 1)).map (numbered name) := by
    intro listed
    obtain ⟨k, -, same⟩ := List.mem_map.mp listed
    exact numbered_ne name k same
  have inside : name :: (List.range' 1 (m - 1)).map (numbered name) ⊆ taken := by
    refine List.cons_subset.mpr ⟨held, fun form listed => ?_⟩
    obtain ⟨k, range, rfl⟩ := List.mem_map.mp listed
    rw [List.mem_range'_1] at range
    exact passed k range.1 (by omega)
  have bound := ((List.nodup_cons.mpr ⟨apart, numbers⟩).subperm inside).length_le
  simp only [List.length_cons, List.length_map, List.length_range'] at bound
  omega

/-- A free name is kept. -/
theorem fresh_of_free (free : name ∉ taken) : fresh name taken = name := if_neg free

/-- A taken name gets the least number from one on that makes a free name. -/
theorem fresh_of_held (held : name ∈ taken) :
    ∃ n, IsLeast {n | 1 ≤ n ∧ numbered name n ∉ taken} n ∧ fresh name taken = numbered name n := by
  obtain ⟨n, first, result, free, passed⟩ := freshFrom_eq name taken 1
  refine ⟨n, ⟨⟨first, free⟩, ?_⟩, (if_pos held).trans result⟩
  rintro k ⟨one, unused⟩
  by_contra below
  exact unused (passed k one (by omega))

/-- The search from the name itself ends at the fresh name. -/
theorem seeks_fresh (few : taken.length < 2147483648) : Seeks name taken name 1 (fresh name taken) := by
  by_cases held : name ∈ taken
  · obtain ⟨n, first, result, free, passed⟩ := freshFrom_eq name taken 1
    have bound := le_length_of_passed held passed
    rw [fresh, if_pos held, result]
    refine .next held ?_
    rw [show (1 : Int32) = Int32.ofNat 1 from rfl, numbered_ofNat name (by decide), ← Int32.ofNat_add]
    exact seeks_numbered (by omega) free first passed
  · rw [fresh_of_free held]
    exact .free held

/-- What a search has to answer when it is asked for a name: it ends at this entry and no other, which is the name itself
if it is free and otherwise its numbered form with the least number from one on that is free. -/
structure Answers (taken : List String) (name entry : String) : Prop where
  found : ∀ other, Seeks name taken name 1 other ↔ other = entry
  kept : name ∉ taken → entry = name
  numbered : name ∈ taken → ∃ n, IsLeast {n | 1 ≤ n ∧ Naming.numbered name n ∉ taken} n ∧ entry = Naming.numbered name n

theorem fresh_answers (name : String) (few : taken.length < 2147483648) : Answers taken name (fresh name taken) where
  found other := by
    constructor
    · exact fun found => found.unique (seeks_fresh few)
    · rintro rfl
      exact seeks_fresh few
  kept := fresh_of_free
  numbered := fresh_of_held

end

end Naming

namespace UnitState

/-- Give out a name for each request, in order. -/
def giveEntries (unit : UnitState) : List String → List String × UnitState
  | [] => ([], unit)
  | name :: rest =>
    let (entry, changed) := unit.giveEntry name
    let (others, last) := changed.giveEntries rest
    (entry :: others, last)

theorem giveEntries_cons (unit : UnitState) (name : String) (rest : List String) :
    (unit.giveEntries (name :: rest)).1 =
      (unit.giveEntry name).1 :: ((unit.giveEntry name).2.giveEntries rest).1 := rfl

theorem giveEntry_entries (unit : UnitState) (name : String) :
    (unit.giveEntry name).2.entries = unit.entries ++ [(unit.giveEntry name).1] := rfl

theorem length_giveEntries (unit : UnitState) (requests : List String) :
    (unit.giveEntries requests).1.length = requests.length := by
  induction requests generalizing unit with
  | nil => rfl
  | cons name rest ih => rw [giveEntries_cons, List.length_cons, ih, List.length_cons]

/-- Names that are given are new, and no two of them are the same. -/
theorem giveEntries_new (unit : UnitState) (requests : List String) :
    (unit.giveEntries requests).1.Nodup ∧ ∀ entry ∈ (unit.giveEntries requests).1, entry ∉ unit.entries := by
  induction requests generalizing unit with
  | nil => exact ⟨.nil, List.forall_mem_nil _⟩
  | cons name rest ih =>
    obtain ⟨apart, new⟩ := ih (unit.giveEntry name).2
    simp only [giveEntry_entries, List.mem_append, List.mem_singleton, not_or] at new
    rw [giveEntries_cons]
    refine ⟨List.nodup_cons.mpr ⟨fun again => (new _ again).2 rfl, apart⟩, List.forall_mem_cons.mpr ⟨?_, ?_⟩⟩
    · exact Naming.fresh_not_mem name unit.entries
    · exact fun entry given => (new entry given).1

/-- Each request is answered as if it were the only one, where the names given before are taken. -/
theorem giveEntries_getElem? (unit : UnitState) (requests : List String) (place : Nat) :
    (unit.giveEntries requests).1[place]? = requests[place]?.map fun name =>
      Naming.fresh name (unit.entries ++ (unit.giveEntries requests).1.take place) := by
  induction requests generalizing unit place with
  | nil => rfl
  | cons name rest ih =>
    rw [giveEntries_cons]
    cases place with
    | zero => simp [giveEntry]
    | succ place =>
      rw [List.getElem?_cons_succ, List.getElem?_cons_succ, ih, giveEntry_entries, List.take_succ_cons]
      simp

/-- Among fewer than `2 ^ 31` names the search for a name ends and answers it. So whatever is asked for in a unit, one
request after the other, each is answered among the names of the unit and those that were given before; the names that
are given are new and all different. -/
theorem giveEntries_answers :
    (∀ (name : String) (taken : List String), taken.length < 2147483648 →
      Naming.Answers taken name (Naming.fresh name taken)) ∧
    ∀ (unit : UnitState) (requests : List String), unit.entries.length + requests.length ≤ 2147483648 →
      (unit.giveEntries requests).1.length = requests.length ∧ (unit.giveEntries requests).1.Nodup ∧
      (∀ entry ∈ (unit.giveEntries requests).1, entry ∉ unit.entries) ∧
      ∀ (place : Nat) (name : String), requests[place]? = some name →
        ∃ entry, (unit.giveEntries requests).1[place]? = some entry ∧
          Naming.Answers (unit.entries ++ (unit.giveEntries requests).1.take place) name entry := by
  refine ⟨fun name taken few => Naming.fresh_answers name few, fun unit requests few => ?_⟩
  obtain ⟨apart, new⟩ := unit.giveEntries_new requests
  have length := unit.length_giveEntries requests
  refine ⟨length, apart, new, fun place name asked => ?_⟩
  have given := unit.giveEntries_getElem? requests place
  rw [asked, Option.map_some] at given
  refine ⟨_, given, Naming.fresh_answers name ?_⟩
  -- the names that came before are fewer than the requests
  have before := (List.getElem?_eq_some_iff.mp asked).1
  rw [List.length_append, List.length_take]
  omega

/-- The unit has `k`. A request for `k_1` keeps that name, so that the next two for `k` get `k_2` and `k_3`. -/
theorem giveEntries_answers_numbered :
    let unit : UnitState := ⟨"main", "", .empty, [], ["k"]⟩
    let requests := ["k_1", "k", "k", "k_1"]
    unit.entries.length + requests.length ≤ 2147483648 ∧
      (unit.giveEntries requests).1 = ["k_1", "k_2", "k_3", "k_1_1"] ∧ (unit.giveEntries requests).1.Nodup ∧
      Naming.Answers ["k", "k_1", "k_2"] "k" "k_3" := by
  intro unit requests
  have few : unit.entries.length + requests.length ≤ 2147483648 := by decide
  have given : (unit.giveEntries requests).1 = ["k_1", "k_2", "k_3", "k_1_1"] := by decide +kernel
  obtain ⟨-, apart, -, answered⟩ := giveEntries_answers.2 unit requests few
  obtain ⟨entry, there, answers⟩ := answered 2 "k" rfl
  rw [given] at there answers
  cases there
  exact ⟨few, given, apart, answers⟩

end UnitState

end FrameGraph
