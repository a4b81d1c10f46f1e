import FrameGraph.Pass.Tree
import FrameGraph.Proofs.Effect

/-! # Assertions on trees of passes

What holds of the leaves of a tree and of the session is followed through setup, preparation and
encoding of the whole tree: it is enough that every kind of leaf upholds it.
-/

namespace FrameGraph.Pass

mutual

/-- The leaves below a pass, in order; those of an off-frame group until setup hands them over. -/
def leaves : Pass → List Pass
  | .dispatch pass => [.dispatch pass]
  | .draw pass => [.draw pass]
  | .blit node => [.blit node]
  | .filter pass => [.filter pass]
  | .callback node => [.callback node]
  | .group _ _ children => leavesAll children
  | .offFrame _ true children => leavesAll children
  | .offFrame _ false _ => []

/-- The leaves of passes, in order. -/
def leavesAll : List Pass → List Pass
  | [] => []
  | pass :: rest => leaves pass ++ leavesAll rest

end

mutual

/-- The leaves below a pass that a frame encodes: those of a group only when it runs at all. -/
def planned : Pass → List Pass
  | .group _ times children => if times = 0 then [] else plannedAll children
  | .offFrame _ _ _ => []
  | leaf => [leaf]

/-- The leaves of passes that a frame encodes. -/
def plannedAll : List Pass → List Pass
  | [] => []
  | pass :: rest => planned pass ++ plannedAll rest

end

mutual

theorem planned_subset : ∀ pass, planned pass ⊆ leaves pass
  | .dispatch _ => List.Subset.refl _
  | .draw _ => List.Subset.refl _
  | .blit _ => List.Subset.refl _
  | .filter _ => List.Subset.refl _
  | .callback _ => List.Subset.refl _
  | .group _ times children => by
    rw [planned]
    split
    · exact List.nil_subset _
    · exact plannedAll_subset children
  | .offFrame _ _ _ => List.nil_subset _

theorem plannedAll_subset : ∀ passes, plannedAll passes ⊆ leavesAll passes
  | [] => List.nil_subset _
  | pass :: rest => by
    intro leaf found
    rw [leavesAll, List.mem_append]
    exact (List.mem_append.mp found).imp (planned_subset pass ·) (plannedAll_subset rest ·)

end

/-- Every leaf below a pass is as asked. -/
abbrev Every (good : Pass → Prop) (pass : Pass) : Prop := ∀ leaf ∈ leaves pass, good leaf

/-- Every leaf of the passes is as asked. -/
abbrev Each (good : Pass → Prop) (passes : List Pass) : Prop := ∀ leaf ∈ leavesAll passes, good leaf

theorem each_cons {good : Pass → Prop} {pass : Pass} {rest : List Pass} :
    Each good (pass :: rest) ↔ Every good pass ∧ Each good rest := by
  simp only [Each, Every, leavesAll, List.mem_append, or_imp, forall_and]

/-- Every leaf of the passes that a frame encodes is as asked. -/
abbrev EachPlanned (good : Pass → Prop) (passes : List Pass) : Prop := ∀ leaf ∈ plannedAll passes, good leaf

theorem eachPlanned_cons {good : Pass → Prop} {pass : Pass} {rest : List Pass} :
    EachPlanned good (pass :: rest) ↔ (∀ leaf ∈ planned pass, good leaf) ∧ EachPlanned good rest := by
  simp only [EachPlanned, plannedAll, List.mem_append, or_imp, forall_and]

theorem Each.planned {good : Pass → Prop} {passes : List Pass} (all : Each good passes) : EachPlanned good passes :=
  fun leaf found => all leaf (plannedAll_subset passes found)

variable {σ : Type} {inv : Session σ → Prop} {raw good : Pass → Prop} {view : PassView}
  {allowed : PassError → Prop}

/-- A step of the state of a leaf makes it a `good` leaf, or leaves it a `raw` one when it fails. -/
abbrev LeafStep {S : Type} (inv : Session σ → Prop) (wrap : S → Pass) (pass : S) (action : PassM S σ Unit)
    (raw good : Pass → Prop) (allowed : PassError → Prop) : Prop :=
  PartEffect.Ensures (fun p session => p = pass ∧ inv session) action
    (fun _ p session => good (wrap p) ∧ inv session)
    fun error p session => allowed error ∧ raw (wrap p) ∧ inv session

/-- An action that keeps what is asked of the state of a leaf is a step of the leaf. -/
theorem LeafStep.ofKeeps {S : Type} {known : S → Prop} {wrap : S → Pass} {pass : S} {action : PassM S σ Unit}
    {good : Pass → Prop} (keeps : PartEffect.Keeps (fun part session => known part ∧ inv session) action)
    (holds : known pass) (fits : ∀ part, known part → good (wrap part)) :
    LeafStep inv wrap pass action good good fun _ => True :=
  .pre (fun _ _ held => ⟨held.1 ▸ holds, held.2⟩) (keeps.mono (fun _ part _ done => ⟨fits part done.1, done.2⟩)
    fun _ part _ failed => ⟨trivial, fits part failed.1, failed.2⟩)

/-- The same of a step of several passes and all leaves below them. -/
abbrev PassesStep (inv : Session σ → Prop) (step : StateM (Session σ) (Outcome (List Pass)))
    (raw good : Pass → Prop) (allowed : PassError → Prop) : Prop :=
  Step.Ensures inv step (fun _ passes session => Each good passes ∧ inv session)
    fun error passes session => allowed error ∧ Each raw passes ∧ inv session

/-- A step of the state of a leaf is a step of the leaf. -/
theorem stepOf_step {S : Type} {wrap : S → Pass} {pass : S} {action : PassM S σ Unit} {before : Session σ → Prop}
    {ok : Pass → Session σ → Prop} {failed : PassError → Pass → Session σ → Prop}
    (step : PartEffect.Ensures (fun p session => p = pass ∧ before session) action (fun _ p => ok (wrap p))
      fun error p => failed error (wrap p)) :
    Step.Ensures before (stepOf wrap pass action) (fun _ => ok) failed := by
  intro session holds
  refine Step.Ensures.bind (fun whole held => step pass whole ⟨rfl, held⟩) (fun _ p => ?_) (fun _ p => ?_)
    session holds
  · exact .ofReturn fun _ => id
  · exact .ofReturn fun _ => id

/-- A step of the first pass, then of the others unless it failed. -/
theorem cons_step {W : Type} {first : StateM W (Outcome Pass)} {others : StateM W (Outcome (List Pass))}
    {rest : List Pass} {before : W → Prop} {one : Pass → W → Prop} {ok : List Pass → W → Prop}
    {broken : PassError → Pass → W → Prop} {failed : PassError → List Pass → W → Prop}
    (step : Step.Ensures before first (fun _ => one) broken)
    (more : ∀ pass, Step.Ensures (one pass) others (fun _ rest => ok (pass :: rest))
      fun error rest => failed error (pass :: rest))
    (untouched : ∀ error pass state, broken error pass state → failed error (pass :: rest) state) :
    Step.Ensures before
      (do
        match ← first with
        | (.error error, pass) => return (.error error, pass :: rest)
        | (.ok (), pass) =>
          let (result, rest) ← others
          return (result, pass :: rest))
      (fun _ => ok) failed := by
  refine step.bind (fun | (), pass => ?_) fun error pass => .ofReturn (untouched error pass)
  exact (more pass).bind (fun _ _ => .ofReturn fun _ => id) fun _ _ => .ofReturn fun _ => id

variable [Device σ]

/-- Setup of every kind of leaf makes a `raw` leaf a `good` one. -/
structure SetsUp (view : PassView) (inv : Session σ → Prop) (raw good : Pass → Prop)
    (allowed : PassError → Prop) : Prop where
  weaken : ∀ leaf, good leaf → raw leaf
  dispatch : ∀ pass, raw (.dispatch pass) →
    LeafStep inv .dispatch pass (DispatchPass.setup view) raw good allowed
  draw : ∀ pass, raw (.draw pass) → LeafStep inv .draw pass (DrawPass.setup view) raw good allowed
  filter : ∀ pass, raw (.filter pass) → LeafStep inv .filter pass (FilterPass.setup view) raw good allowed
  blit : ∀ node, raw (.blit node) → good (.blit node)
  callback : ∀ node, raw (.callback node) → good (.callback node)
  attach : ∀ session name passes, inv session → Each good passes → inv (session.attach name passes)

/-- Setup of every kind of leaf makes a `raw` leaf `good`, or leaves it `left` when it fails. Both may depend on the
session, so they have to last through what happens later: `reached` relates a session to what becomes of it. -/
structure Establishes (view : PassView) (reached : Session σ → Session σ → Prop) (raw : Pass → Prop)
    (good left : Session σ → Pass → Prop) (allowed : PassError → Prop) : Prop where
  refl : ∀ start session, reached start session → reached session session
  trans : ∀ start session later, reached start session → reached session later → reached start later
  lasts : ∀ session later leaf, reached session later → good session leaf → good later leaf
  weaken : ∀ session leaf, good session leaf → left session leaf
  untouched : ∀ start session leaf, reached start session → raw leaf → left session leaf
  dispatch : ∀ start pass, raw (.dispatch pass) →
    PartEffect.Ensures (fun p session => p = pass ∧ reached start session) (DispatchPass.setup view)
      (fun _ p session => good session (.dispatch p) ∧ reached start session)
      fun error p session => allowed error ∧ left session (.dispatch p) ∧ reached start session
  draw : ∀ start pass, raw (.draw pass) →
    PartEffect.Ensures (fun p session => p = pass ∧ reached start session) (DrawPass.setup view)
      (fun _ p session => good session (.draw p) ∧ reached start session)
      fun error p session => allowed error ∧ left session (.draw p) ∧ reached start session
  filter : ∀ start pass, raw (.filter pass) →
    PartEffect.Ensures (fun p session => p = pass ∧ reached start session) (FilterPass.setup view)
      (fun _ p session => good session (.filter p) ∧ reached start session)
      fun error p session => allowed error ∧ left session (.filter p) ∧ reached start session
  blit : ∀ session node, raw (.blit node) → good session (.blit node)
  callback : ∀ session node, raw (.callback node) → good session (.callback node)
  attach : ∀ start session name passes, reached start session → Each (good session) passes →
    reached start (session.attach name passes)

section

variable {reached : Session σ → Session σ → Prop} {start : Session σ} {sound left : Session σ → Pass → Prop}

/-- A step of a pass makes its leaves `good`, or leaves them `left` when it fails. -/
abbrev PassEstablished (reached : Session σ → Session σ → Prop) (start : Session σ)
    (step : StateM (Session σ) (Outcome Pass)) (good left : Session σ → Pass → Prop) (allowed : PassError → Prop) : Prop :=
  Step.Ensures (reached start) step (fun _ pass session => Every (good session) pass ∧ reached start session)
    fun error pass session => allowed error ∧ Every (left session) pass ∧ reached start session

/-- The same of a step of several passes. -/
abbrev PassesEstablished (reached : Session σ → Session σ → Prop) (start : Session σ)
    (step : StateM (Session σ) (Outcome (List Pass))) (good left : Session σ → Pass → Prop)
    (allowed : PassError → Prop) : Prop :=
  Step.Ensures (reached start) step (fun _ passes session => Each (good session) passes ∧ reached start session)
    fun error passes session => allowed error ∧ Each (left session) passes ∧ reached start session

omit [Device σ] in
theorem stepOf_established {S : Type} {wrap : S → Pass} {pass : S} {action : PassM S σ Unit}
    (leaf : ∀ s, leaves (wrap s) = [wrap s])
    (step : PartEffect.Ensures (fun p session => p = pass ∧ reached start session) action
      (fun _ p session => sound session (wrap p) ∧ reached start session)
      fun error p session => allowed error ∧ left session (wrap p) ∧ reached start session) :
    PassEstablished reached start (stepOf wrap pass action) sound left allowed := by
  refine stepOf_step (step.mono (fun _ p _ held => ?_) fun _ p _ held => ?_)
  · simpa only [Every, leaf, List.forall_mem_singleton] using held
  · simpa only [Every, leaf, List.forall_mem_singleton] using held

omit [Device σ] in
theorem still_established {pass : Pass} (all : ∀ session, Every (sound session) pass) :
    PassEstablished reached start (still pass) sound left allowed := .ofReturn fun session held => ⟨all session, held⟩

mutual

theorem setup_established (rules : Establishes view reached raw sound left allowed) :
    ∀ pass, Every raw pass → ∀ start, PassEstablished reached start (setup view pass) sound left allowed
  | .dispatch pass, all, start => stepOf_established (fun _ => rfl) (rules.dispatch start pass (all _ (.head _)))
  | .draw pass, all, start => stepOf_established (fun _ => rfl) (rules.draw start pass (all _ (.head _)))
  | .filter pass, all, start => stepOf_established (fun _ => rfl) (rules.filter start pass (all _ (.head _)))
  | .blit node, all, _ =>
    still_established fun session => List.forall_mem_singleton.mpr (rules.blit session node (all _ (.head _)))
  | .callback node, all, _ =>
    still_established fun session => List.forall_mem_singleton.mpr (rules.callback session node (all _ (.head _)))
  | .group _ _ children, all, start =>
    (setupAll_established rules children all start).bind (fun _ _ => .ofReturn fun _ => id)
      fun _ _ => .ofReturn fun _ => id
  | .offFrame name true children, all, start =>
    (setupAll_established rules children all start).bind
      (fun | (), passes, session, done => ⟨nofun, rules.attach start session name passes done.2 done.1⟩)
      fun _ _ => .ofReturn fun _ failed => ⟨failed.1, nofun, failed.2.2⟩
  | .offFrame _ false _, _, _ => still_established fun _ => nofun

theorem setupAll_established (rules : Establishes view reached raw sound left allowed) :
    ∀ passes, Each raw passes → ∀ start, PassesEstablished reached start (setupAll view passes) sound left allowed
  | [], _, _ => .ofReturn fun _ held => ⟨nofun, held⟩
  | pass :: rest, all, start => by
    have parts := each_cons.mp all
    refine cons_step (setup_established rules pass parts.1 start) (fun pass => ?_) fun _ _ session failed => ?_
    · -- the others start from where this pass was set up, so that it stays so
      refine .ofEach fun session ⟨every, held⟩ => ?_
      refine .pre (fun _ same => same ▸ rules.refl start session held)
        ((setupAll_established rules rest parts.2 session).mono (fun _ others later done => ?_)
          fun _ others later failed => ?_)
      · have still : Every (sound later) pass := fun leaf found => rules.lasts session later leaf done.2 (every leaf found)
        exact ⟨each_cons.mpr ⟨still, done.1⟩, rules.trans start session later held done.2⟩
      · have still : Every (left later) pass := fun leaf found =>
          rules.weaken later leaf (rules.lasts session later leaf failed.2.2 (every leaf found))
        exact ⟨failed.1, each_cons.mpr ⟨still, failed.2.1⟩, rules.trans start session later held failed.2.2⟩
    · have others : Each (left session) rest := fun leaf found =>
        rules.untouched start session leaf failed.2.2 (parts.2 leaf found)
      exact ⟨failed.1, each_cons.mpr ⟨failed.2.1, others⟩, failed.2.2⟩

end

end

/-- An assertion on sessions does not look back, and what is asked of a leaf does not depend on the session. -/
theorem SetsUp.establishes (rules : SetsUp view inv raw good allowed) :
    Establishes view (fun _ => inv) raw (fun _ => good) (fun _ => raw) allowed where
  refl _ _ := id
  trans _ _ _ _ := id
  lasts _ _ _ _ := id
  weaken _ := rules.weaken
  untouched _ _ _ _ := id
  dispatch _ := rules.dispatch
  draw _ := rules.draw
  filter _ := rules.filter
  blit _ := rules.blit
  callback _ := rules.callback
  attach _ := rules.attach

theorem setupAll_ensures (rules : SetsUp view inv raw good allowed) (passes : List Pass) (all : Each raw passes) :
    PassesStep inv (setupAll view passes) raw good allowed := by
  refine .ofEach fun session held => .pre (fun _ same => same ▸ held) ?_
  exact setupAll_established rules.establishes passes all session

/-- Preparation of every kind of leaf keeps a leaf `good` and makes it `ready`. What is `ready` may depend on the
session, so it has to last through what happens later: `reached` relates a session to what becomes of it. -/
structure Readies (view : PassView) (reached : Session σ → Session σ → Prop) (good : Pass → Prop)
    (ready : Session σ → Pass → Prop) (allowed : PassError → Prop) : Prop where
  refl : ∀ start session, reached start session → reached session session
  trans : ∀ start session later, reached start session → reached session later → reached start later
  lasts : ∀ session later leaf, reached session later → ready session leaf → ready later leaf
  dispatch : ∀ start pass, good (.dispatch pass) →
    PartEffect.Ensures (fun p session => p = pass ∧ reached start session) (DispatchPass.prepare view)
      (fun _ p session => (good (.dispatch p) ∧ ready session (.dispatch p)) ∧ reached start session)
      fun error p session => allowed error ∧ good (.dispatch p) ∧ reached start session
  draw : ∀ start pass, good (.draw pass) →
    PartEffect.Ensures (fun p session => p = pass ∧ reached start session) (DrawPass.prepare view)
      (fun _ p session => (good (.draw p) ∧ ready session (.draw p)) ∧ reached start session)
      fun error p session => allowed error ∧ good (.draw p) ∧ reached start session
  blit : ∀ session node, good (.blit node) → ready session (.blit node)
  filter : ∀ session pass, good (.filter pass) → ready session (.filter pass)
  callback : ∀ session node, good (.callback node) → ready session (.callback node)

section

variable {reached : Session σ → Session σ → Prop} {ready : Session σ → Pass → Prop} {start : Session σ}

/-- A step of a pass keeps its leaves `good` and makes those `ready` that a frame encodes. -/
abbrev PassReadied (reached : Session σ → Session σ → Prop) (start : Session σ)
    (step : StateM (Session σ) (Outcome Pass)) (good : Pass → Prop) (ready : Session σ → Pass → Prop)
    (allowed : PassError → Prop) : Prop :=
  Step.Ensures (reached start) step
    (fun _ pass session => (Every good pass ∧ ∀ leaf ∈ planned pass, ready session leaf) ∧ reached start session)
    fun error pass session => allowed error ∧ Every good pass ∧ reached start session

/-- The same of a step of several passes. -/
abbrev PassesReadied (reached : Session σ → Session σ → Prop) (start : Session σ)
    (step : StateM (Session σ) (Outcome (List Pass))) (good : Pass → Prop) (ready : Session σ → Pass → Prop)
    (allowed : PassError → Prop) : Prop :=
  Step.Ensures (reached start) step
    (fun _ passes session => (Each good passes ∧ EachPlanned (ready session) passes) ∧ reached start session)
    fun error passes session => allowed error ∧ Each good passes ∧ reached start session

omit [Device σ] in
theorem stepOf_readied {S : Type} {wrap : S → Pass} {pass : S} {action : PassM S σ Unit}
    (leaf : ∀ s, leaves (wrap s) = [wrap s] ∧ planned (wrap s) = [wrap s])
    (step : PartEffect.Ensures (fun p session => p = pass ∧ reached start session) action
      (fun _ p session => (good (wrap p) ∧ ready session (wrap p)) ∧ reached start session)
      fun error p session => allowed error ∧ good (wrap p) ∧ reached start session) :
    PassReadied reached start (stepOf wrap pass action) good ready allowed := by
  refine stepOf_step (step.mono (fun _ p _ held => ?_) fun _ p _ held => ?_)
  · simpa only [Every, leaf, List.forall_mem_singleton] using held
  · simpa only [Every, leaf, List.forall_mem_singleton] using held

omit [Device σ] in
theorem still_readied {pass : Pass} (all : Every good pass)
    (now : ∀ session, ∀ leaf ∈ planned pass, ready session leaf) :
    PassReadied reached start (still pass) good ready allowed := .ofReturn fun session held => ⟨⟨all, now session⟩, held⟩

mutual

theorem prepare_readied (rules : Readies view reached good ready allowed) :
    ∀ pass, Every good pass → ∀ start, PassReadied reached start (prepare view pass) good ready allowed
  | .dispatch pass, all, start => stepOf_readied (fun _ => ⟨rfl, rfl⟩) (rules.dispatch start pass (all _ (.head _)))
  | .draw pass, all, start => stepOf_readied (fun _ => ⟨rfl, rfl⟩) (rules.draw start pass (all _ (.head _)))
  | .filter pass, all, _ =>
    still_readied all fun session => List.forall_mem_singleton.mpr (rules.filter session pass (all _ (.head _)))
  | .blit node, all, _ =>
    still_readied all fun session => List.forall_mem_singleton.mpr (rules.blit session node (all _ (.head _)))
  | .callback node, all, _ =>
    still_readied all fun session => List.forall_mem_singleton.mpr (rules.callback session node (all _ (.head _)))
  | .group options _ children, all, start => by
    refine .ofGet fun session _ => .ofIf (fun none => ?_) fun some => ?_
    · refine .ofReturn fun _ held => ⟨⟨all, ?_⟩, held.2⟩
      simp only [planned, none, if_true, List.not_mem_nil, false_imp_iff, implies_true]
    · refine (Step.Ensures.pre (fun _ held => held.2) (prepareAll_readied rules children all start)).bind
        (fun _ _ => .ofReturn fun _ done => ?_) fun _ _ => .ofReturn fun _ => id
      simp only [planned, some, if_false]
      exact done
  | .offFrame _ _ _, all, _ => still_readied all fun _ => nofun

theorem prepareAll_readied (rules : Readies view reached good ready allowed) :
    ∀ passes, Each good passes → ∀ start, PassesReadied reached start (prepareAll view passes) good ready allowed
  | [], _, _ => .ofReturn fun _ held => ⟨⟨nofun, nofun⟩, held⟩
  | pass :: rest, all, start => by
    have parts := each_cons.mp all
    refine cons_step (prepare_readied rules pass parts.1 start) (fun pass => ?_)
      fun _ _ _ failed => ⟨failed.1, each_cons.mpr ⟨failed.2.1, parts.2⟩, failed.2.2⟩
    -- the others start from where this pass was made ready, so that it stays so
    refine .ofEach fun session ⟨⟨every, here⟩, held⟩ => ?_
    refine .pre (fun _ same => same ▸ rules.refl start session held)
      ((prepareAll_readied rules rest parts.2 session).mono (fun _ others later done => ?_)
        fun _ others later failed => ?_)
    · have still : ∀ leaf ∈ planned pass, ready later leaf := fun leaf found =>
        rules.lasts session later leaf done.2 (here leaf found)
      exact ⟨⟨each_cons.mpr ⟨every, done.1.1⟩, eachPlanned_cons.mpr ⟨still, done.1.2⟩⟩,
        rules.trans start session later held done.2⟩
    · exact ⟨failed.1, each_cons.mpr ⟨every, failed.2.1⟩, rules.trans start session later held failed.2.2⟩

end

end

/-- Preparation of every kind of leaf that has one keeps a leaf `good`. -/
structure Prepares (view : PassView) (inv : Session σ → Prop) (good : Pass → Prop)
    (allowed : PassError → Prop) : Prop where
  dispatch : ∀ pass, good (.dispatch pass) →
    LeafStep inv .dispatch pass (DispatchPass.prepare view) good good allowed
  draw : ∀ pass, good (.draw pass) → LeafStep inv .draw pass (DrawPass.prepare view) good good allowed

/-- An assertion on sessions does not look back, and what is `good` of a leaf does not depend on the session. -/
theorem Prepares.readies (rules : Prepares view inv good allowed) :
    Readies view (fun _ => inv) good (fun _ => good) allowed where
  refl _ _ := id
  trans _ _ _ _ := id
  lasts _ _ _ _ := id
  dispatch _ pass fits := (rules.dispatch pass fits).mono (fun _ _ _ done => ⟨⟨done.1, done.1⟩, done.2⟩)
    fun _ _ _ => id
  draw _ pass fits := (rules.draw pass fits).mono (fun _ _ _ done => ⟨⟨done.1, done.1⟩, done.2⟩) fun _ _ _ => id
  blit _ _ := id
  filter _ _ := id
  callback _ _ := id

theorem prepareAll_ensures (rules : Prepares view inv good allowed) (passes : List Pass) (all : Each good passes) :
    PassesStep inv (prepareAll view passes) good good allowed := by
  refine .ofEach fun session held => .pre (fun _ same => same ▸ held) ?_
  exact (prepareAll_readied rules.readies passes all session).mono (fun _ _ _ done => ⟨done.1.1, done.2⟩)
    fun _ _ _ => id

variable {stream : CommandStream → Session σ → Prop}

/-- Encoding of every kind of leaf stays in `stream`. -/
structure Encodes (ask : Ask σ) (view : EncodeView) (stream : CommandStream → Session σ → Prop)
    (good : Pass → Prop) (allowed : PassError → Prop) : Prop where
  dispatch : ∀ pass, good (.dispatch pass) →
    PartEffect.Ensures stream pass.encode (fun _ => stream) fun error s w => allowed error ∧ stream s w
  draw : ∀ pass, good (.draw pass) →
    PartEffect.Ensures stream (pass.encode view) (fun _ => stream) fun error s w => allowed error ∧ stream s w
  blit : ∀ node, good (.blit node) →
    PartEffect.Ensures stream (node.encode view) (fun _ => stream) fun error s w => allowed error ∧ stream s w
  filter : ∀ pass, good (.filter pass) →
    PartEffect.Ensures stream (pass.encode view) (fun _ => stream) fun error s w => allowed error ∧ stream s w
  callback : ∀ node, good (.callback node) →
    PartEffect.Ensures stream (node.encode ask view) (fun _ => stream) fun error s w =>
      allowed error ∧ stream s w
  skip : ∀ s session text, stream s session → stream s (session.addLog .trace .group text)
  observe : ∀ s session name, stream s session → stream s (session.observeFrame name)

mutual

theorem encode_ensures {ask : Ask σ} {view : EncodeView} (rules : Encodes ask view stream good allowed) :
    ∀ pass, (∀ leaf ∈ planned pass, good leaf) →
      PartEffect.Ensures stream (encode ask view pass) (fun _ => stream) fun error s w =>
        allowed error ∧ stream s w
  | .dispatch pass, all => rules.dispatch pass (all _ (.head _))
  | .draw pass, all => rules.draw pass (all _ (.head _))
  | .blit node, all => rules.blit node (all _ (.head _))
  | .filter pass, all => rules.filter pass (all _ (.head _))
  | .callback node, all => rules.callback node (all _ (.head _))
  | .group _ times children, all => by
    refine .ofIf (fun _ => .around fun _ => .ofModify fun _ => rules.skip _ _ _) fun some => ?_
    rw [planned, if_neg some] at all
    exact .repeatedly (encodeAll_ensures rules children all) times
  | .offFrame name _ _, _ => .around fun _ => .ofModify fun _ => rules.observe _ _ name

theorem encodeAll_ensures {ask : Ask σ} {view : EncodeView} (rules : Encodes ask view stream good allowed) :
    ∀ passes, EachPlanned good passes →
      PartEffect.Ensures stream (encodeAll ask view passes) (fun _ => stream) fun error s w =>
        allowed error ∧ stream s w
  | [], _ => .ofPure fun _ _ => id
  | pass :: rest, all =>
    have parts := eachPlanned_cons.mp all
    (encode_ensures rules pass parts.1).bind fun _ => encodeAll_ensures rules rest parts.2

end

end FrameGraph.Pass
