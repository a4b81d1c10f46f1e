import FrameGraph.Proofs.Marks
import FrameGraph.Proofs.Pass.Conduct

/-! # What is done with each pass

Preparation and encoding of a tree, told pass by pass: a pass that is no group is marked with its address when its
preparation has succeeded, and again whenever it is about to be encoded.
-/

namespace FrameGraph.Pass

/-- A pass that is no group, and its address: its place among its siblings after the places of the groups around it. -/
abbrev Visit := List Nat × Pass

mutual

/-- The visits of a walk that goes through the children of a group a number of times. -/
def visits (times : GroupOptions → Nat → Nat) (address : List Nat) : Pass → List Visit
  | .group options planned children =>
    (List.replicate (times options planned) (visitsFrom times address 0 children)).flatten
  | leaf => [(address, leaf)]

/-- The visits among siblings, the first of which stands at a place. -/
def visitsFrom (times : GroupOptions → Nat → Nat) (address : List Nat) (place : Nat) : List Pass → List Visit
  | [] => []
  | pass :: rest => visits times (address ++ [place]) pass ++ visitsFrom times address (place + 1) rest

end

/-- Children are encoded as often as was planned. -/
def asPlanned (_ : GroupOptions) (planned : Nat) : Nat := planned

/-- Children are prepared once, if they are encoded at all. -/
def ifPlanned (_ : GroupOptions) (planned : Nat) : Nat := min planned 1

/-- Children are encoded as often as these values say. -/
def asRead (shared : Shared) (options : GroupOptions) (_ : Nat) : Nat := options.iterations shared

mutual

theorem visits_subset {times fewer : GroupOptions → Nat → Nat}
    (some : ∀ options planned, times options planned ≠ 0 → fewer options planned ≠ 0) :
    ∀ pass address, visits times address pass ⊆ visits fewer address pass
  | .group options planned children, address => by
    intro visit found
    rw [visits, List.mem_flatten] at found ⊢
    obtain ⟨round, listed, found⟩ := found
    obtain ⟨again, rfl⟩ := List.mem_replicate.mp listed
    refine ⟨_, List.mem_replicate.mpr ⟨some _ _ again, rfl⟩, ?_⟩
    exact visitsFrom_subset some children address 0 found
  | .dispatch _, _ | .draw _, _ | .blit _, _ | .filter _, _ | .callback _, _ | .offFrame _ _ _, _ =>
    List.Subset.refl _

/-- A walk that enters more groups visits more passes, however often. -/
theorem visitsFrom_subset {times fewer : GroupOptions → Nat → Nat}
    (some : ∀ options planned, times options planned ≠ 0 → fewer options planned ≠ 0) :
    ∀ passes address place, visitsFrom times address place passes ⊆ visitsFrom fewer address place passes
  | [], _, _ => List.Subset.refl _
  | pass :: rest, address, place => by
    intro visit found
    rw [visitsFrom, List.mem_append] at found ⊢
    exact found.imp (visits_subset some pass _ ·) (visitsFrom_subset some rest address _ ·)

end

/-- What a run does with a pass that is no group. -/
inductive Mark where
  /-- Its preparation has come to its end without an error; the pass is what was made of it. -/
  | prepared (visit : Visit)
  /-- Its commands are about to be recorded. -/
  | encoding (visit : Visit)

/-- The address of a pass that is about to be recorded. -/
def Mark.encoded? : Mark → Option (List Nat)
  | .prepared _ => none
  | .encoding visit => some visit.1

/-- The addresses of the passes that were recorded, in order. -/
def encodings (marks : List Mark) : List (List Nat) := marks.filterMap Mark.encoded?

@[simp] theorem encodings_append (marks more : List Mark) :
    encodings (marks ++ more) = encodings marks ++ encodings more := List.filterMap_append

@[simp] theorem encodings_prepared (visits : List Visit) : encodings (visits.map .prepared) = [] := by
  simp [encodings, List.filterMap_map, Function.comp_def, Mark.encoded?]

@[simp] theorem encodings_encoding (visits : List Visit) : encodings (visits.map .encoding) = visits.map Prod.fst := by
  simp [encodings, List.filterMap_map, Function.comp_def, Mark.encoded?]

variable {σ : Type} [Device σ]

/-- Prepare a pass that is no group and mark that it succeeded. -/
def prepareLeaf (view : PassView) (address : List Nat) (leaf : Pass) :
    StateM (Marked Mark (Session σ)) (Outcome Pass) := do
  let (result, leaf) ← Marked.silently (prepare view leaf)
  match result with
  | .error error => return (.error error, leaf)
  | .ok () =>
    modify (Marked.leave (.prepared (address, leaf)))
    return (.ok (), leaf)

mutual

/-- `prepare` with marks. -/
def prepareMarked (view : PassView) (address : List Nat) : Pass → StateM (Marked Mark (Session σ)) (Outcome Pass)
  | .group options _ children => do
    let planned := options.iterations (← get).1.shared
    if planned = 0 then return (.ok (), .group options planned children)
    else
      let (result, children) ← prepareAllMarked view address 0 children
      return (result, .group options planned children)
  | leaf => prepareLeaf view address leaf

/-- `prepareAll` with marks; the first pass stands at a place among its siblings. -/
def prepareAllMarked (view : PassView) (address : List Nat) (place : Nat) :
    List Pass → StateM (Marked Mark (Session σ)) (Outcome (List Pass))
  | [] => return (.ok (), [])
  | pass :: rest => do
    match ← prepareMarked view (address ++ [place]) pass with
    | (.error error, pass) => return (.error error, pass :: rest)
    | (.ok (), pass) =>
      let (result, rest) ← prepareAllMarked view address (place + 1) rest
      return (result, pass :: rest)

end

/-- Encoding with marks. -/
abbrev MarkedM (σ : Type) := PartEffect CommandStream (Marked Mark (Session σ)) PassError

mutual

/-- `encode` with marks. -/
def encodeMarked (ask : Ask σ) (view : EncodeView) (address : List Nat) : Pass → MarkedM σ Unit
  | .group options planned children =>
    if planned = 0 then
      (PartEffect.around (Session.note .trace .group s!"group '{options.label}' skipped")).inWhole Marked.whole
    else repeatedly (encodeAllMarked ask view address 0 children) planned
  | leaf => do
    PartEffect.around (modify (Marked.leave (.encoding (address, leaf))))
    (encode ask view leaf).inWhole Marked.whole

/-- `encodeAll` with marks; the first pass stands at a place among its siblings. -/
def encodeAllMarked (ask : Ask σ) (view : EncodeView) (address : List Nat) (place : Nat) : List Pass → MarkedM σ Unit
  | [] => return
  | pass :: rest => do
    encodeMarked ask view (address ++ [place]) pass
    encodeAllMarked ask view address (place + 1) rest

end

/-! ## Without the marks -/

theorem prepareLeaf_shadows (view : PassView) (address : List Nat) (leaf : Pass) :
    Marked.Shadows (prepareLeaf (σ := σ) view address leaf) (prepare view leaf) := by
  rw [← bind_pure (prepare view leaf)]
  refine .bind (.ofSilently _) fun (result, leaf) => ?_
  cases result with
  | error error => exact .ofReturn _
  | ok _ => exact .ofLeave _ (.ofReturn _)

mutual

theorem prepareMarked_shadows (view : PassView) : ∀ pass address,
    Marked.Shadows (prepareMarked (σ := σ) view address pass) (prepare view pass)
  | .group options planned children, address => by
    rw [prepareMarked, prepare]
    refine .ofGet fun session marks => ?_
    dsimp only
    split
    · exact .ofReturn _
    · exact (prepareAllMarked_shadows view children address 0).bind fun _ => .ofReturn _
  | .dispatch pass, address => prepareLeaf_shadows view address (.dispatch pass)
  | .draw pass, address => prepareLeaf_shadows view address (.draw pass)
  | .blit node, address => prepareLeaf_shadows view address (.blit node)
  | .filter pass, address => prepareLeaf_shadows view address (.filter pass)
  | .callback node, address => prepareLeaf_shadows view address (.callback node)
  | .offFrame name held children, address => prepareLeaf_shadows view address (.offFrame name held children)

theorem prepareAllMarked_shadows (view : PassView) : ∀ passes address place,
    Marked.Shadows (prepareAllMarked (σ := σ) view address place passes) (prepareAll view passes)
  | [], _, _ => .ofReturn _
  | pass :: rest, address, place => by
    rw [prepareAllMarked, prepareAll]
    refine (prepareMarked_shadows view pass _).bind fun (result, pass) => ?_
    cases result with
    | error error => exact .ofReturn _
    | ok _ => exact (prepareAllMarked_shadows view rest address _).bind fun _ => .ofReturn _

end

mutual

theorem encodeMarked_shadows (ask : Ask σ) (view : EncodeView) : ∀ pass address,
    PartEffect.Shadows (encodeMarked ask view address pass) (encode ask view pass)
  | .group options planned children, address => by
    rw [encodeMarked, encode]
    split
    · exact .inWhole _
    · exact .repeatedly (encodeAllMarked_shadows ask view children address 0) planned
  | .dispatch _, _ => .ofLeave _ (.inWhole _)
  | .draw _, _ => .ofLeave _ (.inWhole _)
  | .blit _, _ => .ofLeave _ (.inWhole _)
  | .filter _, _ => .ofLeave _ (.inWhole _)
  | .callback _, _ => .ofLeave _ (.inWhole _)
  | .offFrame _ _ _, _ => .ofLeave _ (.inWhole _)

theorem encodeAllMarked_shadows (ask : Ask σ) (view : EncodeView) : ∀ passes address place,
    PartEffect.Shadows (encodeAllMarked ask view address place passes) (encodeAll ask view passes)
  | [], _, _ => .ofPure ()
  | pass :: rest, _, _ =>
    (encodeMarked_shadows ask view pass _).bind fun _ => encodeAllMarked_shadows ask view rest _ _

end

/-! ## What the marks tell -/

/-- A walk sees the pass itself and nothing below it. -/
abbrev Single (pass : Pass) : Prop := ∀ times address, visits times address pass = [(address, pass)]

section

variable {start : Session σ} {view : PassView} {address : List Nat} {marks : List Mark} {read planned once : List Visit}

/-- What preparation leaves when it succeeds: encoding will visit passes at the addresses that the values say, and the
visits of preparation are marked. -/
structure Planned (start : Session σ) (marks : List Mark) (read planned once : List Visit)
    (marked : Marked Mark (Session σ)) : Prop where
  addresses_eq : planned.map Prod.fst = read.map Prod.fst
  alike : start.Alike marked.1
  marks_eq : marked.2 = marks ++ once.map .prepared

/-- Preparation plans what the values say; when it fails, nothing was encoded. -/
abbrev Plans {S : Type} (start : Session σ) (marks : List Mark) (read : List Visit) (planned once : S → List Visit)
    (step : StateM (Marked Mark (Session σ)) (Outcome S)) : Prop :=
  Step.Ensures (fun marked => start.Alike marked.1 ∧ marked.2 = marks) step
    (fun _ after => Planned start marks read (planned after) (once after))
    fun _ _ marked => encodings marked.2 = encodings marks

abbrev PassPlans (start : Session σ) (marks : List Mark) (address : List Nat) (pass : Pass)
    (step : StateM (Marked Mark (Session σ)) (Outcome Pass)) : Prop :=
  Plans start marks (visits (asRead start.shared) address pass) (visits asPlanned address) (visits ifPlanned address)
    step

theorem prepareLeaf_plans {leaf : Pass} (single : leaf.Single)
    (step : Step.Ensures start.Alike (prepare view leaf) (fun _ pass session => pass.Single ∧ start.Alike session)
      fun _ _ _ => True) : PassPlans start marks address leaf (prepareLeaf view address leaf) := by
  refine (Marked.silently_ensures step marks).bind (fun | (), pass => ?_) fun _ _ => .ofReturn fun _ failed => ?_
  · rintro ⟨session, _⟩ ⟨⟨alone, alike⟩, rfl⟩
    refine ⟨?_, alike, ?_⟩
    · rw [alone, single]
      rfl
    · rw [alone]
      rfl
  · rw [failed.2]

omit [Device σ] in
/-- A step of the state of a pass that is no group. -/
theorem stepOf_single {S B : Type} {wrap : S → Pass} {pass : S} {action : PassM S σ Unit} {built : S → B}
    {pool : Pool} {textures : List TextureHandle} {buffers : List BufferHandle} (single : ∀ s, (wrap s).Single)
    (conducts : Session.Conducts start.Alike built (built pass) pool textures buffers action) :
    Step.Ensures start.Alike (stepOf wrap pass action) (fun _ pass session => pass.Single ∧ start.Alike session)
      fun _ _ _ => True := by
  refine stepOf_step (.pre ?_ (conducts.mono (fun _ s _ done => ⟨single s, done.2⟩) fun _ _ _ _ => trivial))
  rintro _ _ ⟨rfl, alike⟩
  exact ⟨rfl, alike⟩

omit [Device σ] in
theorem still_single {pass : Pass} (single : pass.Single) :
    Step.Ensures start.Alike (still pass) (fun _ pass session => pass.Single ∧ start.Alike session)
      fun _ _ _ => True := .ofReturn fun _ alike => ⟨single, alike⟩

mutual

theorem prepareMarked_plans (start : Session σ) (view : PassView) : ∀ pass address marks,
    PassPlans start marks address pass (prepareMarked view address pass)
  | .group options before children, address, marks => by
    refine .ofGet fun marked held => ?_
    have read : options.iterations marked.1.shared = options.iterations start.shared := by rw [held.1.shared_eq]
    dsimp only
    rw [read]
    refine .ofIf (fun none => ?_) fun some => ?_
    · refine .ofReturn fun _ held => ⟨?_, held.2.1, ?_⟩
      · rw [visits, visits, asPlanned, asRead, none]
        rfl
      · rw [visits, ifPlanned, none, held.2.2]
        exact (List.append_nil marks).symm
    · refine (Step.Ensures.pre (fun _ held => held.2)
        (prepareAllMarked_plans start view children address 0 marks)).bind
        (fun | (), children => .ofReturn fun _ done => ⟨?_, done.alike, ?_⟩) fun _ _ => .ofReturn fun _ => id
      · rw [visits, visits, List.map_flatten, List.map_flatten, List.map_replicate, List.map_replicate, done.addresses_eq]
        rfl
      · rw [visits, ifPlanned, Nat.min_eq_right (Nat.one_le_iff_ne_zero.mpr some), List.replicate_one,
          List.flatten_singleton]
        exact done.marks_eq
  | .dispatch pass, _, _ =>
    prepareLeaf_plans (fun _ _ => rfl)
      (stepOf_single (fun _ _ _ => rfl) (DispatchPass.prepare_conducts (Session.Alike.aloof start) view))
  | .draw pass, _, _ =>
    prepareLeaf_plans (fun _ _ => rfl)
      (stepOf_single (fun _ _ _ => rfl) (DrawPass.prepare_conducts (Session.Alike.aloof start) view))
  | .blit _, _, _ => prepareLeaf_plans (fun _ _ => rfl) (still_single fun _ _ => rfl)
  | .filter _, _, _ => prepareLeaf_plans (fun _ _ => rfl) (still_single fun _ _ => rfl)
  | .callback _, _, _ => prepareLeaf_plans (fun _ _ => rfl) (still_single fun _ _ => rfl)
  | .offFrame _ _ _, _, _ => prepareLeaf_plans (fun _ _ => rfl) (still_single fun _ _ => rfl)

/-- Preparation of passes plans what the values say when it begins. -/
theorem prepareAllMarked_plans (start : Session σ) (view : PassView) : ∀ passes address place marks,
    Plans start marks (visitsFrom (asRead start.shared) address place passes) (visitsFrom asPlanned address place)
      (visitsFrom ifPlanned address place) (prepareAllMarked view address place passes)
  | [], _, _, marks => .ofReturn fun _ held => ⟨rfl, held.1, held.2.trans (List.append_nil marks).symm⟩
  | pass :: rest, address, place, marks => by
    refine cons_step (prepareMarked_plans start view pass (address ++ [place]) marks) (fun pass => ?_)
      fun _ _ _ failed => failed
    -- the others go on from the marks of the first
    refine .ofEach fun marked held => ?_
    have others := prepareAllMarked_plans start view rest address (place + 1) marked.2
    refine (Step.Ensures.pre ?_ others).mono (fun _ rest _ done => ?_) fun _ _ _ failed => ?_
    · rintro _ rfl
      exact ⟨held.alike, rfl⟩
    · refine ⟨?_, done.alike, ?_⟩
      · rw [visitsFrom, visitsFrom, List.map_append, List.map_append, held.addresses_eq, done.addresses_eq]
      · rw [visitsFrom, List.map_append, ← List.append_assoc, ← held.marks_eq]
        exact done.marks_eq
    · rw [failed, held.marks_eq, encodings_append, encodings_prepared, List.append_nil]

end

mutual

theorem encodeMarked_leaves (ask : Ask σ) (view : EncodeView) : ∀ pass address,
    PartEffect.Leaves (encodeMarked ask view address pass) ((visits asPlanned address pass).map .encoding)
  | .group options planned children, address => by
    rw [encodeMarked, visits, List.map_flatten, List.map_replicate]
    split
    · rename_i none
      rw [asPlanned, none]
      exact .inWhole _
    · exact .repeatedly (encodeAllMarked_leaves ask view children address 0) planned
  | .dispatch _, _ => (PartEffect.Leaves.ofLeave _).bind fun _ => .inWhole _
  | .draw _, _ => (PartEffect.Leaves.ofLeave _).bind fun _ => .inWhole _
  | .blit _, _ => (PartEffect.Leaves.ofLeave _).bind fun _ => .inWhole _
  | .filter _, _ => (PartEffect.Leaves.ofLeave _).bind fun _ => .inWhole _
  | .callback _, _ => (PartEffect.Leaves.ofLeave _).bind fun _ => .inWhole _
  | .offFrame _ _ _, _ => (PartEffect.Leaves.ofLeave _).bind fun _ => .inWhole _

theorem encodeAllMarked_leaves (ask : Ask σ) (view : EncodeView) : ∀ passes address place,
    PartEffect.Leaves (encodeAllMarked ask view address place passes)
      ((visitsFrom asPlanned address place passes).map .encoding)
  | [], _, _ => .ofPure ()
  | pass :: rest, address, place => by
    rw [encodeAllMarked, visitsFrom, List.map_append]
    exact (encodeMarked_leaves ask view pass _).bind fun _ => encodeAllMarked_leaves ask view rest address _

end

end

/-! ## Whole runs -/

/-- The addresses that are visited when the children of every group are gone through as often as these values say. -/
def schedule (shared : Shared) (passes : List Pass) : List (List Nat) :=
  (visitsFrom (asRead shared) [] 0 passes).map Prod.fst

/-- What the marks of a run over passes tell: whatever is encoded was prepared before, as it is encoded, and what is
encoded follows from the values alone. -/
structure Orderly (shared : Shared) (passes : List Pass) (marks : List Mark) : Prop where
  prepared : ∀ early visit late, marks = early ++ .encoding visit :: late → .prepared visit ∈ early
  scheduled : encodings marks <+: schedule shared passes

/-- What they tell when the run came to its end: it encoded all that follows from the values. -/
structure Complete (shared : Shared) (passes : List Pass) (marks : List Mark) : Prop extends
    Orderly shared passes marks where
  all : encodings marks = schedule shared passes

/-- The passes were prepared and marked, and are planned as the values say. -/
structure Prepared (shared : Shared) (before after : List Pass) (marks : List Mark) : Prop where
  scheduled : (visitsFrom asPlanned [] 0 after).map Prod.fst = schedule shared before
  marks_eq : marks = (visitsFrom ifPlanned [] 0 after).map .prepared

/-- What is encoded first comes after all that encodes nothing. -/
theorem quiet_early {visit : Visit} {quiet more early late : List Mark}
    (silent : ∀ mark ∈ quiet, mark ≠ .encoding visit) (split : quiet ++ more = early ++ .encoding visit :: late) :
    quiet ⊆ early ∧ .encoding visit ∈ more := by
  induction quiet generalizing early with
  | nil =>
    rw [List.nil_append] at split
    exact ⟨List.nil_subset _, by simp [split]⟩
  | cons mark rest ih =>
    cases early with
    | nil => exact absurd (List.cons.inj split).1 (silent mark (.head _))
    | cons first early =>
      obtain ⟨same, split⟩ := List.cons.inj split
      obtain ⟨inside, encoded⟩ := ih (fun mark found => silent mark (.tail _ found)) split
      exact ⟨same ▸ List.cons_subset_cons _ inside, encoded⟩

section

variable {shared : Shared} {before passes : List Pass} {marks : List Mark}

theorem orderly_of_quiet (quiet : encodings marks = []) : Orderly shared passes marks where
  prepared early visit late split := by
    rw [split, encodings_append] at quiet
    cases (List.append_eq_nil_iff.mp quiet).2
  scheduled := by
    rw [quiet]
    exact List.nil_prefix

/-- Where passes were prepared, some of them may be encoded as planned. -/
theorem Prepared.orderly (ready : Prepared shared before passes marks) {some : List Mark}
    (part : some <+: (visitsFrom asPlanned [] 0 passes).map .encoding) : Orderly shared before (marks ++ some) where
  prepared early visit late split := by
    have silent : ∀ mark ∈ marks, mark ≠ .encoding visit := by
      intro mark found
      rw [ready.marks_eq] at found
      obtain ⟨_, -, rfl⟩ := List.mem_map.mp found
      exact nofun
    obtain ⟨before, encoded⟩ := quiet_early silent split
    obtain ⟨_, planned, ⟨⟩⟩ := List.mem_map.mp (part.subset encoded)
    -- a group whose children are encoded is one whose children were prepared
    have once : visit ∈ visitsFrom ifPlanned [] 0 passes :=
      visitsFrom_subset (fun _ planned some => by rw [asPlanned] at some; rw [ifPlanned]; omega) passes [] 0 planned
    refine before ?_
    rw [ready.marks_eq]
    exact List.mem_map_of_mem once
  scheduled := by
    obtain ⟨more, all⟩ := part
    rw [← ready.scheduled, ← encodings_encoding, ← all, ready.marks_eq, encodings_append, encodings_prepared,
      encodings_append]
    exact List.prefix_append _ _

theorem Prepared.complete (ready : Prepared shared before passes marks) :
    Complete shared before (marks ++ (visitsFrom asPlanned [] 0 passes).map .encoding) where
  toOrderly := ready.orderly (List.prefix_refl _)
  all := by
    rw [encodings_append, ready.marks_eq, encodings_prepared, encodings_encoding, ready.scheduled, List.nil_append]

theorem prepareRoots_prepared (session : Session σ) (view : PassView) (passes : List Pass) :
    Step.Ensures (· = (session, [])) (prepareAllMarked view [] 0 passes)
      (fun _ after marked => Prepared session.shared passes after marked.2)
      fun _ _ marked => encodings marked.2 = [] := by
  refine .pre ?_ ((prepareAllMarked_plans session view passes [] 0 []).mono
    (fun _ _ _ plans => ⟨plans.addresses_eq, plans.marks_eq⟩) fun _ _ _ => id)
  rintro _ rfl
  exact ⟨.refl session, rfl⟩

theorem encodeRoots_orderly (ready : Prepared shared before passes marks) (ask : Ask σ) (view : EncodeView) :
    PartEffect.Ensures (fun _ marked => marked.2 = marks) (encodeAllMarked ask view [] 0 passes)
      (fun _ _ marked => Complete shared before marked.2) fun _ _ marked => Orderly shared before marked.2 := by
  refine (encodeAllMarked_leaves ask view passes [] 0 marks).mono ?_ ?_
  · rintro _ _ ⟨_, _⟩ rfl
    exact ready.complete
  · rintro _ _ ⟨_, _⟩ ⟨some, part, rfl⟩
    exact ready.orderly part

end

end FrameGraph.Pass
