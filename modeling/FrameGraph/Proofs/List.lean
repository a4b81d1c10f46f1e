import Mathlib.Data.List.Forall2
import Mathlib.Data.List.Induction
import Mathlib.Data.List.Nodup
import Mathlib.Data.List.Perm.Basic

/-! # Lists

Partners in matching lists, lists that are put together of pieces in different orders, and the first of equal elements.
-/

namespace List

variable {α β γ κ : Type}

/-! ### Matching lists -/

variable {R : α → β → Prop} {xs : List α} {ys : List β}

/-- Elements of matching lists stand at the same place in them. -/
theorem Forall₂.exists_zip (all : Forall₂ R xs ys) {y : β} (found : y ∈ ys) : ∃ x, (x, y) ∈ xs.zip ys ∧ R x y := by
  induction all with
  | nil => cases found
  | cons related _ ih =>
    obtain rfl | found := List.mem_cons.mp found
    · exact ⟨_, .head _, related⟩
    · obtain ⟨x, has, related⟩ := ih found
      exact ⟨x, .tail _ has, related⟩

/-- Elements of matching lists have partners. -/
theorem Forall₂.exists_right (all : Forall₂ R xs ys) {x : α} (found : x ∈ xs) : ∃ y ∈ ys, R x y := by
  obtain ⟨y, together, related⟩ := all.flip.exists_zip found
  exact ⟨y, (List.of_mem_zip together).1, related⟩

theorem Forall₂.and {S : α → β → Prop} (one : Forall₂ R xs ys) (two : Forall₂ S xs ys) :
    Forall₂ (fun x y => R x y ∧ S x y) xs ys := by
  induction one with
  | nil => exact .nil
  | cons first _ ih =>
    obtain ⟨second, rest⟩ := List.forall₂_cons.mp two
    exact .cons ⟨first, second⟩ (ih rest)

/-- Lists that are put together of pieces match when the pieces do. -/
theorem flatMap_perm_of_forall₂ {f : α → List γ} {g : β → List γ} (each : ∀ a b, R a b → (f a).Perm (g b))
    (all : Forall₂ R xs ys) : (xs.flatMap f).Perm (ys.flatMap g) := by
  induction all with
  | nil => exact .nil
  | cons first _ ih => exact (each _ _ first).append ih

/-! ### Pieces in another order -/

theorem perm_middle_last (xs : List α) (x : α) (ys : List α) : (xs ++ [x] ++ ys).Perm (xs ++ ys ++ [x]) := by
  rw [List.append_assoc, List.append_assoc]
  exact List.perm_append_comm.append_left xs

/-- Grouping by keys that cover a list keeps all of it. -/
theorem flatMap_filter_perm [DecidableEq κ] {keys : List κ} (nodup : keys.Nodup) (key : α → κ) {xs : List α}
    (covered : ∀ x ∈ xs, key x ∈ keys) : (keys.flatMap fun k => xs.filter (key · == k)).Perm xs := by
  induction keys generalizing xs with
  | nil => simp [List.eq_nil_iff_forall_not_mem.mpr fun x found => List.not_mem_nil (covered x found)]
  | cons k keys ih =>
    obtain ⟨absent, nodup⟩ := List.nodup_cons.mp nodup
    rw [List.flatMap_cons]
    refine .trans (.append_left _ ?_) (List.filter_append_perm (key · == k) xs)
    refine .trans (.of_eq (List.flatMap_congr fun other known => ?_)) (ih nodup ?_)
    · rw [List.filter_filter]
      refine List.filter_congr fun x _ => ?_
      by_cases same : key x = other
      · have other_ne : other ≠ k := fun equal => absent (equal ▸ known)
        simp [same, other_ne]
      · simp [same]
    · intro x found
      simp only [List.mem_filter, Bool.not_eq_true', beq_eq_false_iff_ne] at found
      exact (List.mem_cons.mp (covered x found.1)).resolve_left found.2

/-- Elements that give nothing do not count. -/
theorem flatMap_perm_of_mem_iff {xs ys : List α} {f : α → List β} (once : xs.Pairwise fun x y => x = y → f x = [])
    (nodup : ys.Nodup) (same : ∀ x, x ∈ xs ↔ x ∈ ys) : (xs.flatMap f).Perm (ys.flatMap f) := by
  have filled (zs : List α) : zs.flatMap f = (zs.filter fun z => !(f z).isEmpty).flatMap f := by
    induction zs with
    | nil => rfl
    | cons z zs ih => by_cases empty : f z = [] <;> simp [empty, ih]
  rw [filled xs, filled ys]
  refine .flatMap_right f ((List.perm_ext_iff_of_nodup ?_ (nodup.filter _)).mpr ?_)
  · refine List.pairwise_filter.mpr (once.imp fun {x y} once some _ equal => ?_)
    simp [once equal] at some
  · intro x
    simp only [List.mem_filter, same]

/-- Pieces that are tagged by different keys are found again by their keys. -/
theorem filter_tagged [DecidableEq κ] {items : List α} {key : α → κ} (nodup : (items.map key).Nodup)
    (pieces : α → List β) {item : α} (found : item ∈ items) :
    (items.flatMap fun other => (pieces other).map (Prod.mk (key other))).filter (·.1 == key item) =
      (pieces item).map (Prod.mk (key item)) := by
  have own (other : α) : ((pieces other).map (Prod.mk (key other))).filter (·.1 == key item) =
      if key other = key item then (pieces other).map (Prod.mk (key other)) else [] := by
    split <;> simp [*]
  rw [List.filter_flatMap]
  simp only [own]
  induction items with
  | nil => cases found
  | cons first rest ih =>
    rw [List.map_cons, List.nodup_cons] at nodup
    rw [List.flatMap_cons]
    obtain rfl | found := List.mem_cons.mp found
    · rw [if_pos rfl, List.flatMap_eq_nil_iff.mpr, List.append_nil]
      intro other has
      have apart : key other ≠ key item := fun same => nodup.1 (same ▸ List.mem_map_of_mem has)
      exact if_neg apart
    · have apart : key first ≠ key item := fun same => nodup.1 (same ▸ List.mem_map_of_mem found)
      rw [if_neg apart, ih nodup.2 found, List.nil_append]

/-! ### Equal elements -/

variable [DecidableEq α]

/-- Only the first of equal elements stays. -/
theorem eraseDups_concat (xs : List α) (x : α) :
    (xs ++ [x]).eraseDups = xs.eraseDups ++ if x ∈ xs then [] else [x] := by
  rw [eraseDups_append]
  by_cases known : x ∈ xs <;> simp [removeAll, known, eraseDups_cons]

theorem eraseDups_nodup (xs : List α) : xs.eraseDups.Nodup := by
  induction xs using List.reverseRecOn with
  | nil => exact .nil
  | append_singleton xs x ih =>
    rw [eraseDups_concat]
    split
    · simpa using ih
    · rename_i fresh
      exact ih.append (nodup_singleton x) (by simpa using fresh)

end List
