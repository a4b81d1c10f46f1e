import FrameGraph.Proofs.OffFrame.History
import Mathlib.Data.List.Induction

/-! # Batches of coalesced runs

Every history splits the parameters of its runs into consecutive batches, one for each dispatch, and a
rest that waits. A dispatch carries the left fold of its batch, and the pending parameters are the fold
of the rest. Where parameters are maps, the fold holds for every key what its batch wrote last.
-/

namespace FrameGraph.OffFrame

variable {P K V : Type}

/-- The runs of a batch merged from left to right; absent when there is none. -/
def merged? [Parameters P] : List P → Option P
  | [] => none
  | first :: rest => some (rest.foldl Parameters.merge first)

theorem merged?_eq_none [Parameters P] {batch : List P} : merged? batch = none ↔ batch = [] := by
  cases batch <;> simp [merged?]

/-- One more run is merged into what waits. -/
theorem merged?_concat [Parameters P] (batch : List P) (params : P) :
    merged? (batch ++ [params]) = State.addPending (merged? batch) params := by
  cases batch with
  | nil => rfl
  | cons first rest => simp [merged?, State.addPending, List.foldl_append]

/-- Batches of dispatched runs and the runs that wait, as a history from idle made them. -/
structure Coalesced [Parameters P] (events : List (Event P)) (batches : List (List P))
    (waiting : List P) : Prop where
  /-- Every run is in one batch or waits, in the order of the runs. -/
  runs_eq : runs events = batches.flatten ++ waiting
  nonempty : ∀ batch ∈ batches, batch ≠ []
  /-- The dispatches carry the folds of the batches, one for one. -/
  dispatches_eq : (State.idle.dispatches events).map some = batches.map merged?
  /-- What is pending is the fold of the rest. -/
  pending_eq : (State.idle.after events).pending? = merged? waiting

theorem Coalesced.nil [Parameters P] : Coalesced (P := P) [] [] [] :=
  ⟨rfl, nofun, rfl, rfl⟩

/-- An event extends the rest, or closes a batch. -/
theorem Coalesced.step [Parameters P] {events : List (Event P)} {batches : List (List P)}
    {waiting : List P} (split : Coalesced events batches waiting) (event : Event P) :
    ∃ batches waiting, Coalesced (events ++ [event]) batches waiting := by
  have runs_eq := runs_concat events event
  have dispatches_eq := State.dispatches_concat .idle events event
  have after_eq := State.after_concat .idle events event
  have pending_eq := split.pending_eq
  obtain ⟨params, sent, pending⟩ | ⟨new, params, sent, pending⟩ | ⟨new, params, idle, sent, pending⟩ |
    ⟨next, params, waits, sent, pending⟩ := State.step_cases (State.idle.after events) event
  · refine ⟨batches, waiting, ?_, split.nonempty, ?_, ?_⟩
    · simp [runs_eq, params, split.runs_eq]
    · simp [dispatches_eq, sent, split.dispatches_eq]
    · rw [after_eq, pending, pending_eq]
  · refine ⟨batches, waiting ++ [new], ?_, split.nonempty, ?_, ?_⟩
    · simp [runs_eq, params, split.runs_eq]
    · simp [dispatches_eq, sent, split.dispatches_eq]
    · rw [after_eq, pending, pending_eq, merged?_concat]
  · obtain rfl : waiting = [] := merged?_eq_none.mp (pending_eq.symm.trans idle)
    refine ⟨batches ++ [[new]], [], ?_, ?_, ?_, ?_⟩
    · simp [runs_eq, params, split.runs_eq]
    · simpa [or_imp, forall_and] using split.nonempty
    · simp [dispatches_eq, sent, split.dispatches_eq, merged?]
    · rw [after_eq, pending, merged?]
  · have full : merged? waiting = some next := pending_eq.symm.trans waits
    refine ⟨batches ++ [waiting], [], ?_, ?_, ?_, ?_⟩
    · simp [runs_eq, params, split.runs_eq]
    · have nonempty : waiting ≠ [] := fun empty => by simp [empty, merged?] at full
      simpa [or_imp, forall_and, nonempty] using split.nonempty
    · simp [dispatches_eq, sent, split.dispatches_eq, full]
    · rw [after_eq, pending, merged?]

/-- Every history from idle coalesces its runs into batches. -/
theorem exists_coalesced [Parameters P] (events : List (Event P)) :
    ∃ batches waiting, Coalesced events batches waiting := by
  induction events using List.reverseRecOn with
  | nil => exact ⟨[], [], .nil⟩
  | append_singleton events event ih =>
    obtain ⟨batches, waiting, split⟩ := ih
    exact split.step event

section Maps

variable [DecidableEq K]

/-- A list of entries stands for a map: a key occurs once. -/
def IsMap (entries : List (K × V)) : Prop := (entries.map Prod.fst).Nodup

instance (entries : List (K × V)) : Decidable (IsMap entries) :=
  inferInstanceAs (Decidable (List.Nodup _))

/-- What the runs of a batch wrote last for a key. -/
def lastWritten (key : K) (batch : List (List (K × V))) : Option V :=
  batch.reverse.findSome? (List.lookup key)

theorem lookup_eq_none_of_notMem {entries : List (K × V)} {key : K}
    (absent : key ∉ entries.map Prod.fst) : entries.lookup key = none := by
  refine List.lookup_eq_none_iff.mpr fun entry member => bne_iff_ne.mpr fun same => absent ?_
  exact List.mem_map.mpr ⟨entry, member, same.symm⟩

/-- The newer map decides where it has the key. -/
theorem lookup_mergeEntries (older : List (K × V)) {newer : List (K × V)} (map : IsMap newer) (key : K) :
    (mergeEntries older newer).lookup key = (newer.lookup key).or (older.lookup key) := by
  induction newer generalizing older with
  | nil => simp [mergeEntries]
  | cons entry rest ih =>
    obtain ⟨name, value⟩ := entry
    obtain ⟨fresh, restMap⟩ := List.nodup_cons.mp map
    have merge : mergeEntries older ((name, value) :: rest) =
        mergeEntries (Shared.assign name value older) rest := rfl
    rw [merge, ih _ restMap, Shared.lookup_assign]
    by_cases same : key = name
    · subst same
      simp [lookup_eq_none_of_notMem fresh]
    · simp [same, List.lookup_cons, beq_false_of_ne]

/-- The fold of a batch of maps holds what was written last. -/
theorem lookup_merged? {batch : List (List (K × V))} {params : List (K × V)}
    (maps : ∀ entries ∈ batch, IsMap entries) (fold : merged? batch = some params) (key : K) :
    params.lookup key = lastWritten key batch := by
  induction batch using List.reverseRecOn generalizing params with
  | nil => simp [merged?] at fold
  | append_singleton batch newest ih =>
    have newestMap : IsMap newest := maps newest (by simp)
    have earlier : ∀ entries ∈ batch, IsMap entries := fun entries member => maps entries (by simp [member])
    have last : lastWritten key (batch ++ [newest]) = (newest.lookup key).or (lastWritten key batch) := by
      simp only [lastWritten, List.reverse_append, List.reverse_singleton, List.singleton_append,
        List.findSome?_cons]
      cases newest.lookup key <;> rfl
    rw [merged?_concat] at fold
    rw [last]
    cases older : merged? batch with
    | none =>
      rw [older] at fold
      obtain rfl := Option.some.inj fold
      simp [merged?_eq_none.mp older, lastWritten]
    | some params =>
      rw [older] at fold
      obtain rfl := Option.some.inj fold
      rw [← ih earlier older]
      exact lookup_mergeEntries params newestMap key

/-- Maps that fold batches hold, key by key, what the batches wrote last. -/
theorem forall₂_lookup_merged? {folds : List (List (K × V))} {batches : List (List (List (K × V)))}
    (folded : folds.map some = batches.map merged?)
    (maps : ∀ batch ∈ batches, ∀ entries ∈ batch, IsMap entries) :
    List.Forall₂ (fun params batch => ∀ key, params.lookup key = lastWritten key batch) folds batches := by
  induction batches generalizing folds with
  | nil =>
    obtain rfl : folds = [] := List.map_eq_nil_iff.mp folded
    exact .nil
  | cons batch rest ih =>
    cases folds with
    | nil => simp at folded
    | cons params folds =>
      simp only [List.map_cons, List.cons.injEq] at folded
      refine .cons (fun key => ?_) (ih folded.2 fun other member => maps other (by simp [member]))
      exact lookup_merged? (maps batch (by simp)) folded.1.symm key

end Maps

/-- No run is lost, repeated or reordered: the runs of a history split into the batches of its
dispatches and what is pending, whatever the parameters are; dispatched maps hold for every key what
their batch wrote last. -/
theorem runs_coalesce :
    (∀ {P : Type} [Parameters P] (events : List (Event P)),
      ∃ batches waiting, Coalesced events batches waiting) ∧
    ∀ {K V : Type} [DecidableEq K] (events : List (Event (List (K × V)))),
      (∀ params ∈ runs events, IsMap params) →
      ∃ batches waiting, Coalesced events batches waiting ∧
        List.Forall₂ (fun params batch => ∀ key, params.lookup key = lastWritten key batch)
          (State.idle.dispatches events) batches := by
  refine ⟨fun events => exists_coalesced events, fun events maps => ?_⟩
  obtain ⟨batches, waiting, split⟩ := exists_coalesced events
  refine ⟨batches, waiting, split, forall₂_lookup_merged? split.dispatches_eq ?_⟩
  intro batch member entries inside
  refine maps entries ?_
  rw [split.runs_eq]
  exact List.mem_append_left _ (List.mem_flatten.mpr ⟨batch, member, inside⟩)

/-- Two runs during a dispatch that fails, and one after it. -/
theorem runs_coalesce_after_failure :
    ∃ batches waiting,
      Coalesced [.run [("a", 1)], .run [("b", 2), ("x", 1)], .run [("x", 2)], .finished false,
        .run [("b", 5)]] batches waiting ∧
      List.Forall₂ (fun params batch => ∀ key, params.lookup key = lastWritten key batch)
        [[("a", 1)], [("b", 2), ("x", 2)]] batches :=
  runs_coalesce.2 (K := String) (V := Nat)
    [.run [("a", 1)], .run [("b", 2), ("x", 1)], .run [("x", 2)], .finished false, .run [("b", 5)]]
    (by decide)

end FrameGraph.OffFrame
