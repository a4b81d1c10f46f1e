import FrameGraph.Proofs.Pass.Becomes
import FrameGraph.Proofs.Pass.Binding

/-! # What setup hands over

Setup takes the children of an off-frame group out of the tree before it sets them up. When all of them are set up,
they go to the coordinator of the group; when one fails, all are lost, and a later setup finds nothing left to do for
the group.
-/

namespace FrameGraph

/-- An off-frame group: the name of its coordinator and its children. -/
abbrev OffFrameGroup := String × List Component

namespace Component

mutual

/-- The off-frame groups of a component in the order in which setup is done with them: a group comes after those
inside it. -/
def offFrames : Component → List OffFrameGroup
  | .leaf _ => []
  | .group _ children => offFramesAll children
  | .offFrame name children => offFramesAll children ++ [(name, children)]

/-- The off-frame groups of components, in order. -/
def offFramesAll : List Component → List OffFrameGroup
  | [] => []
  | component :: rest => offFrames component ++ offFramesAll rest

end

mutual

/-- The off-frame groups of a component whose children are still in the tree. -/
def pending : Component → Pass → List OffFrameGroup
  | .group _ children, .group _ _ passes => pendingAll children passes
  | .offFrame name children, .offFrame _ true passes => pendingAll children passes ++ [(name, children)]
  | _, _ => []

/-- The same of components, in order. -/
def pendingAll : List Component → List Pass → List OffFrameGroup
  | component :: rest, pass :: passes => pending component pass ++ pendingAll rest passes
  | _, _ => []

end

end Component

/-- The pass has all that its setup creates. -/
structure Bindings.IsSetUp (bindings : Bindings) : Prop where
  bytes : bindings.bytesBuffers.length = bindings.bytes.length
  grid : bindings.wantsGrid → bindings.gridBuffer.isSome
  groups : bindings.resolved.length = bindings.groups.length

namespace Pass

/-- A leaf has all that its setup creates. -/
def IsSetUp : Pass → Prop
  | .dispatch pass => pass.pipeline.isSome ∧ pass.bindings.IsSetUp
  | .draw pass => pass.pipeline.isSome ∧ pass.bindings.IsSetUp
  | .filter pass => pass.prepared.isSome
  | _ => True

/-- What setup has done with the children of an off-frame group. -/
structure Handover where
  name : String
  /-- The children as they were handed over; absent when one of them failed and all were lost. -/
  passes : Option (List Pass)

/-- The children that were handed over, with the coordinators they went to. -/
def attachments (handed : List Handover) : List (String × List Pass) :=
  handed.filterMap fun handover => handover.passes.map (handover.name, ·)

/-- A coordinator was handed children when one of the handovers was to it. -/
theorem mem_attachments {handed : List Handover} {name : String} :
    name ∈ (attachments handed).map Prod.fst ↔
      (name, true) ∈ handed.map fun handover => (handover.name, handover.passes.isSome) := by
  simp only [attachments, List.mem_map, List.mem_filterMap, Option.map_eq_some_iff, Prod.mk.injEq, Option.isSome_iff_exists]
  constructor
  · rintro ⟨_, ⟨handover, found, passes, has, rfl⟩, rfl⟩
    exact ⟨handover, found, rfl, passes, has⟩
  · rintro ⟨handover, found, rfl, passes, has⟩
    exact ⟨_, ⟨handover, found, passes, has, rfl⟩, rfl⟩

variable {σ : Type} [Device σ]

mutual

/-- What setup of a pass does with the children of the off-frame groups below it, in order. -/
def handovers (view : PassView) : Pass → Session σ → List Handover
  | .group _ _ children, session => handoversAll view children session
  | .offFrame name true children, session =>
    handoversAll view children session ++
      [⟨name, match ((setupAll view children).run session).1 with
        | (.ok (), passes) => some passes
        | (.error _, _) => none⟩]
  | _, _ => []

/-- The same of passes, up to the first failure. -/
def handoversAll (view : PassView) : List Pass → Session σ → List Handover
  | [], _ => []
  | pass :: rest, session =>
    handovers view pass session ++
      match (setup view pass).run session with
      | ((.ok (), _), session) => handoversAll view rest session
      | ((.error _, _), _) => []

end

end Pass

/-! ## Leaves that were set up -/

section

variable {σ : Type} [Device σ]

namespace Bindings

/-- A group number is looked up without a change to anything but the groups of the pass's own. -/
theorem resolveGroup_spares (known : Bindings → Prop) (same : ∀ bindings own, known bindings → known { bindings with own })
    (view : PassView) (group : GroupBinding × Nat) :
    PartEffect.Keeps (fun bindings (_ : Session σ) => known bindings) (resolveGroup view group) := by
  obtain ⟨spec | block, place⟩ := group
  · refine ownGroup_rule place spec view (fun _ _ _ held _ _ => held) fun bindings session held => ?_
    have any {α : Type} {start : Session σ → Prop} (effect : SessionM σ α) :
        Effect.Ensures start effect (fun _ _ => True) fun _ _ => known bindings :=
      .pre (fun _ _ => trivial) ((Effect.Ensures.any effect).mono (fun _ _ => id) fun _ _ _ => held)
    exact ⟨fun _ _ => True, any _, fun _ _ => any _, fun _ _ _ => same bindings _ held⟩
  · exact .apart _

/-- A refresh that succeeds has a group for each group number, and it changes only the groups. -/
theorem refresh_resolves (known : Bindings → Prop)
    (same : ∀ bindings own resolved, known bindings → known { bindings with own, resolved }) (view : PassView) :
    PartEffect.Ensures (fun bindings (_ : Session σ) => known bindings) (refresh view)
      (fun _ bindings _ => known bindings ∧ bindings.resolved.length = bindings.groups.length)
      fun _ bindings _ => known bindings := by
  refine .ofRead fun bindings held => ?_
  let inv (seen : List (GroupBinding × Nat)) (out : List BindGroup) (b : Bindings) (_ : Session σ) : Prop :=
    out.length = seen.length ∧ known b ∧ b.groups = bindings.groups
  refine .pre ?_ (.bind (.mapM inv fun seen out group _ => .given fun length => ?_) fun resolved => .ofModify ?_)
  · rintro _ _ rfl
    exact ⟨rfl, held, rfl⟩
  · refine (resolveGroup_spares (fun b => known b ∧ b.groups = bindings.groups) ?_ view group).mono ?_ ?_
    · exact fun b own here => ⟨same b own b.resolved here.1, here.2⟩
    · exact fun _ _ _ here => ⟨by simp only [List.length_append, List.length_singleton, length], here⟩
    · exact fun _ _ _ here => here.1
  · rintro b _ ⟨length, here, groups⟩
    rw [List.length_zipIdx] at length
    exact ⟨same b b.own resolved here, length.trans (congrArg List.length groups).symm⟩

/-- A block is created for each of the slots. -/
theorem createBytesBlocks_length (label : String) (groups : List GroupBinding) (slots all : List BytesSlot) :
    PartEffect.Ensures (fun bindings (_ : Session σ) => bindings.groups = groups ∧ bindings.bytes = all ∧
        bindings.bytesBuffers.length + slots.length = all.length)
      (slots.forM (createBytesBlock label))
      (fun _ bindings _ => bindings.groups = groups ∧ bindings.bytes = all ∧
        bindings.bytesBuffers.length = all.length)
      fun _ _ _ => True := by
  induction slots with
  | nil => exact .ofPure fun _ _ held => held
  | cons slot rest ih =>
    refine .bind (.bind ((PartEffect.Ensures.apart _).mono (fun _ _ _ => id) fun _ _ _ _ => trivial) fun buffer =>
      .ofModify fun bindings _ held => ?_) fun _ => ih
    refine ⟨held.1, held.2.1, ?_⟩
    rw [List.length_append, List.length_singleton, ← held.2.2, List.length_cons]
    omega

theorem setup_isSetUp (view : PassView) :
    PartEffect.Ensures (fun _ (_ : Session σ) => True) (setup view) (fun _ bindings _ => bindings.IsSetUp)
      fun _ _ _ => True := by
  let blocked (b : Bindings) : Prop :=
    b.bytesBuffers.length = b.bytes.length ∧ (b.wantsGrid → b.gridBuffer.isSome)
  have refreshed : PartEffect.Ensures (fun b (_ : Session σ) => blocked b) (refresh view)
      (fun _ b _ => b.IsSetUp) fun _ _ _ => True := by
    refine (refresh_resolves blocked (fun _ _ _ => id) view).mono (fun _ b _ done => ?_) fun _ _ _ _ => trivial
    exact ⟨done.1.1, done.1.2, done.2⟩
  refine .ofRead fun bindings _ => .bind (.ofSet fun _ _ _ => ?_) fun _ =>
    .bind (createBytesBlocks_length bindings.label bindings.groups bindings.bytes bindings.bytes) fun _ => ?_
  · exact ⟨rfl, rfl, Nat.zero_add _⟩
  · refine .ofIf (fun _ => ?_) fun unwanted => .pre (fun b _ here => ?_) refreshed
    · refine .bind ((PartEffect.Ensures.apart _).mono (fun _ _ _ => id) fun _ _ _ _ => trivial) fun grid => ?_
      refine .bind (.ofModify fun b _ here => ?_) fun _ => refreshed
      exact ⟨by rw [here.2.2, here.2.1], fun _ => rfl⟩
    · refine ⟨by rw [here.2.2, here.2.1], fun wanted => absurd ?_ unwanted⟩
      unfold wantsGrid at wanted ⊢
      rwa [here.1] at wanted

end Bindings

/-- The bindings inside a pass are set up with it. -/
theorem Bindings.setup_inPart {S : Type} {lens : Lens S Bindings} (view : PassView) (known : S → Prop)
    (same : ∀ pass bindings, known pass → known (lens.set bindings pass))
    (read : ∀ pass bindings, lens.get (lens.set bindings pass) = bindings) :
    PartEffect.Ensures (fun pass (_ : Session σ) => known pass) ((setup view).inPart lens)
      (fun _ pass _ => known pass ∧ (lens.get pass).IsSetUp) fun _ _ _ => True := by
  refine .inPart fun pass => .pre (fun _ _ held => ⟨held.2, trivial⟩ : ∀ b (_ : Session σ), _ → known pass ∧ True) ?_
  refine .given fun held => (setup_isSetUp view).mono (fun _ b _ done => ⟨same pass b held, ?_⟩) fun _ _ _ => id
  rwa [read]

theorem DispatchPass.setup_isSetUp (view : PassView) :
    PartEffect.Ensures (fun _ (_ : Session σ) => True) (setup view)
      (fun _ pass _ => pass.pipeline.isSome ∧ pass.bindings.IsSetUp) fun _ _ _ => True := by
  refine .ofRead fun pass _ => .ofLook fun _ _ _ => .ofNeed (fun module _ => ?_) fun _ _ _ _ => trivial
  refine .bind ((PartEffect.Ensures.apart _).mono (fun _ _ _ => id) fun _ _ _ _ => trivial) fun pipeline => ?_
  refine .bind (.ofModify fun p _ _ => ?_) fun _ =>
    Bindings.setup_inPart view (fun pass : DispatchPass => pass.pipeline.isSome) (fun _ _ => id) fun _ _ => rfl
  rfl

theorem DrawPass.setup_isSetUp (view : PassView) :
    PartEffect.Ensures (fun _ (_ : Session σ) => True) (setup view)
      (fun _ pass _ => pass.pipeline.isSome ∧ pass.bindings.IsSetUp) fun _ _ _ => True := by
  refine .ofRead fun pass _ => .ofExcept (fun formats _ => ?_) fun _ _ _ _ _ => trivial
  refine .bind (.pre ?_ (.mono (buildPipeline_isSome formats False) (fun _ _ _ => id) fun _ _ _ _ => trivial)) fun _ =>
    Bindings.setup_inPart view (fun pass : DrawPass => pass.pipeline.isSome) (fun _ _ => id) fun _ _ => rfl
  exact fun _ _ _ => False.elim

theorem FilterPass.setup_isSetUp (view : PassView) :
    PartEffect.Ensures (fun _ (_ : Session σ) => True) (setup view) (fun _ pass _ => pass.prepared.isSome)
      fun _ _ _ => True := by
  refine .ofRead fun pass _ => .ofExcept (fun destination _ => ?_) fun _ _ _ _ _ => trivial
  exact .bind ((PartEffect.Ensures.apart _).mono (fun _ _ _ => id) fun _ _ _ _ => trivial) fun _ => .ofSet fun _ _ _ => rfl

/-- A setup that succeeds has set up every leaf that is still in the tree. -/
theorem Pass.isSetUp_setsUp (view : PassView) :
    SetsUp (σ := σ) view (fun _ => True) (fun _ => True) IsSetUp fun _ => True where
  weaken _ _ := trivial
  dispatch _ _ := .pre (fun _ _ _ => trivial)
    ((DispatchPass.setup_isSetUp view).mono (fun _ _ _ done => ⟨done, trivial⟩) fun _ _ _ _ => ⟨trivial, trivial, trivial⟩)
  draw _ _ := .pre (fun _ _ _ => trivial)
    ((DrawPass.setup_isSetUp view).mono (fun _ _ _ done => ⟨done, trivial⟩) fun _ _ _ _ => ⟨trivial, trivial, trivial⟩)
  filter _ _ := .pre (fun _ _ _ => trivial)
    ((FilterPass.setup_isSetUp view).mono (fun _ _ _ done => ⟨done, trivial⟩) fun _ _ _ _ => ⟨trivial, trivial, trivial⟩)
  blit _ _ := trivial
  callback _ _ := trivial
  attach _ _ _ _ _ := trivial

end

/-! ## What coordinators are given -/

namespace OffFrame

/-- A coordinator that is given passes works on them from then on. -/
def Coordinator.given (coordinator : Coordinator) : Option (List Pass) → Coordinator
  | some passes => { coordinator with work := some { passes } }
  | none => coordinator

theorem Coordinator.given_given (coordinator : Coordinator) (first second : Option (List Pass)) :
    (coordinator.given first).given second = coordinator.given (second.or first) := by
  cases first <;> cases second <;> rfl

/-- A coordinator has no work when it had none and got none. -/
theorem Coordinator.given_work (coordinator : Coordinator) (attached : List (String × List Pass)) (name : String) :
    (coordinator.given (attached.reverse.lookup name)).work = none ↔
      coordinator.work = none ∧ name ∉ attached.map Prod.fst := by
  have absent : attached.reverse.lookup name = none ↔ name ∉ attached.map Prod.fst := by
    simp only [List.lookup_eq_none_iff, List.mem_reverse, List.mem_map, not_exists, not_and, bne_iff_ne, ne_comm]
  rw [← absent]
  cases attached.reverse.lookup name with
  | none => exact (and_iff_left rfl).symm
  | some passes => exact ⟨nofun, nofun⟩

end OffFrame

namespace Session

variable {σ : Type}

/-- Every coordinator was given the last passes that went to it, and is otherwise as it was. -/
def Hands (attached : List (String × List Pass)) (before after : Session σ) : Prop :=
  ∀ name, after.coordinator? name =
    (before.coordinator? name).map (·.given (attached.reverse.lookup name))

namespace Hands

variable {start middle session : Session σ} {one two : List (String × List Pass)}

theorem refl (same : session.coordinators = start.coordinators) : Hands [] start session := by
  intro name
  rw [coordinator?, same]
  exact Option.map_id'.symm

theorem trans (first : Hands one start middle) (second : Hands two middle session) :
    Hands (one ++ two) start session := by
  intro name
  rw [second, first, Option.map_map, List.reverse_append, List.lookup_append]
  exact congrArg (Option.map · _) (funext fun coordinator => coordinator.given_given _ _)

theorem attach (session : Session σ) (name : String) (passes : List Pass) :
    Hands [(name, passes)] session (session.attach name passes) := by
  intro other
  rw [Session.attach, coordinator?_modifyCoordinator]
  split
  · rename_i same
    subst same
    simp [OffFrame.Coordinator.given, Session.addLog, coordinator?]
  · rename_i different
    have absent : (other == name) = false := beq_false_of_ne different
    simp [OffFrame.Coordinator.given, Session.addLog, coordinator?, List.lookup_cons, absent]

end Hands

end Session

/-! ## Setup deals with every group once -/

section

variable (table : ResourceTable) (leaves : List (FlatLeaf × CompiledLeaf))

/-- What setup has done with an off-frame group: passes that were handed over are all of its children, set up. -/
structure Pass.DealtWith (group : OffFrameGroup) (handover : Pass.Handover) : Prop where
  name_eq : handover.name = group.1
  passes : ∀ passes, handover.passes = some passes →
    Component.BecomeAll table leaves group.2 passes ∧ Pass.Each Pass.IsSetUp passes

/-- Each handover is of a group that was pending and is so no more. A group that vanished without a handover was inside
one that was lost. -/
def Pass.Deals (before : List OffFrameGroup) (handed : List Pass.Handover) (after : List OffFrameGroup) : Prop :=
  ∃ dealt, List.Forall₂ (DealtWith table leaves) dealt handed ∧ (dealt ++ after).Sublist before ∧
    ((∀ handover ∈ handed, handover.passes.isSome) → dealt ++ after = before)

end

variable {table : ResourceTable} {leaves : List (FlatLeaf × CompiledLeaf)}

namespace Pass.Deals

variable {before middle after : List OffFrameGroup} {first second : List Handover}

theorem refl (groups : List OffFrameGroup) : Deals table leaves groups [] groups :=
  ⟨[], .nil, List.Sublist.refl _, fun _ => rfl⟩

theorem trans (one : Deals table leaves before first middle) (two : Deals table leaves middle second after) :
    Deals table leaves before (first ++ second) after := by
  obtain ⟨dealt, all, within, whole⟩ := one
  obtain ⟨more, others, inside, rest⟩ := two
  refine ⟨dealt ++ more, List.rel_append all others, ?_, fun kept => ?_⟩
  · rw [List.append_assoc]
    exact ((List.Sublist.refl dealt).append inside).trans within
  · rw [List.forall_mem_append] at kept
    rw [List.append_assoc, rest kept.2, whole kept.1]

/-- Groups that come later are let be. -/
theorem beside (deals : Deals table leaves before first after) (others : List OffFrameGroup) :
    Deals table leaves (before ++ others) first (after ++ others) := by
  obtain ⟨dealt, all, within, whole⟩ := deals
  refine ⟨dealt, all, ?_, fun kept => ?_⟩
  · rw [← List.append_assoc]
    exact within.append (List.Sublist.refl others)
  · rw [← List.append_assoc, whole kept]

/-- A group whose children were all set up is handed over. -/
theorem hand {name : String} {children : List Component} {passes : List Pass} (deals : Deals table leaves before first [])
    (all : Component.BecomeAll table leaves children passes) (done : Each IsSetUp passes) :
    Deals table leaves (before ++ [(name, children)]) (first ++ [⟨name, some passes⟩]) [] := by
  refine (deals.beside [(name, children)]).trans ⟨[(name, children)], .cons ⟨rfl, ?_⟩ .nil, List.Sublist.refl _, fun _ => rfl⟩
  rintro _ ⟨⟩
  exact ⟨all, done⟩

/-- A group is lost when one of its children fails, and so are the groups inside it that are still pending. -/
theorem lose {name : String} {children : List Component} (deals : Deals table leaves before first after) :
    Deals table leaves (before ++ [(name, children)]) (first ++ [⟨name, none⟩]) [] := by
  refine (deals.beside [(name, children)]).trans ⟨[(name, children)], .cons ⟨rfl, nofun⟩ .nil, ?_, fun kept => ?_⟩
  · exact List.sublist_append_right after [(name, children)]
  · cases kept _ (.head _)

end Pass.Deals

/-- The children of an off-frame group went to the coordinator of its name, all of them set up. -/
structure Pass.Attached (table : ResourceTable) (leaves : List (FlatLeaf × CompiledLeaf)) (group : OffFrameGroup)
    (entry : String × List Pass) : Prop where
  name_eq : entry.1 = group.1
  become : Component.BecomeAll table leaves group.2 entry.2
  setUp : Pass.Each Pass.IsSetUp entry.2

namespace Pass

theorem attached_of_dealtWith {groups : List OffFrameGroup} {handed : List Handover}
    (all : List.Forall₂ (DealtWith table leaves) groups handed) (kept : ∀ handover ∈ handed, handover.passes.isSome) :
    List.Forall₂ (Attached table leaves) groups (attachments handed) := by
  induction all with
  | nil => exact .nil
  | @cons group handover groups handed one _ ih =>
    rw [List.forall_mem_cons] at kept
    obtain ⟨passes, has⟩ := Option.isSome_iff_exists.mp kept.1
    obtain ⟨become, setUp⟩ := one.passes passes has
    have attached : attachments (handover :: handed) = (handover.name, passes) :: attachments handed := by
      rw [attachments, List.filterMap_cons, has]
      rfl
    rw [attached]
    exact .cons ⟨one.name_eq, become, setUp⟩ (ih kept.2)

/-- When every group was dealt with, each got to its coordinator exactly when none was lost. -/
theorem Deals.attached_iff {groups : List OffFrameGroup} {handed : List Handover}
    (deals : Deals table leaves groups handed []) :
    List.Forall₂ (Attached table leaves) groups (attachments handed) ↔ ∀ handover ∈ handed, handover.passes.isSome := by
  obtain ⟨dealt, all, within, whole⟩ := deals
  rw [List.append_nil] at within whole
  constructor
  · intro attached
    -- a group that was lost is one less that was attached
    have enough : handed.length ≤ (attachments handed).length := by
      rw [← attached.length_eq, ← all.length_eq]
      exact within.length_le
    have same := Nat.le_antisymm (List.length_filterMap_le _ handed) enough
    intro handover found
    have kept := List.filterMap_length_eq_length.mp same handover found
    rwa [Option.isSome_map] at kept
  · intro kept
    exact attached_of_dealtWith (whole kept ▸ all) kept

end Pass

variable {σ : Type}

/-- What a setup has done when it ends: these groups of the tree were pending before it and those still are. -/
structure Pass.Settles (table : ResourceTable) (leaves : List (FlatLeaf × CompiledLeaf)) (before : List OffFrameGroup)
    (handed : List Pass.Handover) (after : List OffFrameGroup) (start session : Session σ) : Prop where
  deals : Pass.Deals table leaves before handed after
  hands : start.Hands (Pass.attachments handed) session

namespace Pass.Settles

variable {before middle after : List OffFrameGroup} {first second : List Handover} {start now session : Session σ}

theorem refl (groups : List OffFrameGroup) (same : session.coordinators = start.coordinators) :
    Settles table leaves groups [] groups start session := ⟨.refl groups, .refl same⟩

theorem trans (one : Settles table leaves before first middle start now)
    (two : Settles table leaves middle second after now session) :
    Settles table leaves before (first ++ second) after start session where
  deals := one.deals.trans two.deals
  hands := by
    rw [attachments, List.filterMap_append]
    exact one.hands.trans two.hands

theorem beside (settles : Settles table leaves before first after start session) (others : List OffFrameGroup) :
    Settles table leaves (before ++ others) first (after ++ others) start session :=
  ⟨settles.deals.beside others, settles.hands⟩

/-- The coordinator of a group whose children were set up gets them. -/
theorem hand {name : String} {children : List Component} {passes : List Pass}
    (settles : Settles table leaves before first [] start session)
    (all : Component.BecomeAll table leaves children passes) (done : Each IsSetUp passes) :
    Settles table leaves (before ++ [(name, children)]) (first ++ [⟨name, some passes⟩]) [] start
      (session.attach name passes) where
  deals := settles.deals.hand all done
  hands := by
    rw [attachments, List.filterMap_append]
    exact settles.hands.trans (Session.Hands.attach session name passes)

/-- When one of them failed, it gets nothing. -/
theorem lose {name : String} {children : List Component}
    (settles : Settles table leaves before first after start session) :
    Settles table leaves (before ++ [(name, children)]) (first ++ [⟨name, none⟩]) [] start session where
  deals := settles.deals.lose
  hands := by
    rw [attachments, List.filterMap_append, List.filterMap_cons, List.filterMap_nil]
    exact (List.append_nil _).symm ▸ settles.hands

end Pass.Settles

section

variable [Device σ] {view : PassView} {start : Session σ}

/-- A setup of what a component became settles its off-frame groups; none is pending when it succeeds. -/
abbrev Component.Settled (table : ResourceTable) (leaves : List (FlatLeaf × CompiledLeaf)) (component : Component)
    (pass : Pass) (view : PassView) (start : Session σ) : Prop :=
  Step.Ensures (· = start) (Pass.setup view pass)
    (fun _ after session => component.Becomes table leaves after ∧ component.pending after = [] ∧
      Pass.Settles table leaves (component.pending pass) (Pass.handovers view pass start) [] start session)
    fun _ after session => component.Becomes table leaves after ∧
      Pass.Settles table leaves (component.pending pass) (Pass.handovers view pass start) (component.pending after) start
        session

/-- The same of what several components became. -/
abbrev Component.AllSettled (table : ResourceTable) (leaves : List (FlatLeaf × CompiledLeaf)) (components : List Component)
    (passes : List Pass) (view : PassView) (start : Session σ) : Prop :=
  Step.Ensures (· = start) (Pass.setupAll view passes)
    (fun _ after session => Component.BecomeAll table leaves components after ∧ Component.pendingAll components after = [] ∧
      Pass.Settles table leaves (Component.pendingAll components passes) (Pass.handoversAll view passes start) [] start
        session)
    fun _ after session => Component.BecomeAll table leaves components after ∧
      Pass.Settles table leaves (Component.pendingAll components passes) (Pass.handoversAll view passes start)
        (Component.pendingAll components after) start session

/-- A leaf has no off-frame groups. -/
theorem Pass.BuiltFrom.setup_settled {node : Leaf} {pass : Pass} (built : pass.BuiltFrom table leaves node) :
    Component.Settled table leaves (.leaf node) pass view start := by
  let inv (session : Session σ) : Prop :=
    session.compiled = start.compiled ∧ session.coordinators = start.coordinators
  have aloof : Session.Aloof start.compiled inv := ⟨fun _ => And.left, fun _ _ => id, fun _ _ => id⟩
  have none (other : Pass) : (Component.leaf node).pending other = [] := by
    rw [Component.pending] <;> exact nofun
  have silent : Pass.handovers view pass start = [] := by
    cases pass with
    | group _ _ _ => exact built.not_group.elim
    | offFrame _ _ _ => exact built.not_offFrame.elim
    | _ => rfl
  have stays : Component.Stays table leaves inv (fun _ => True) (.leaf node) (Pass.setup view pass) :=
    built.setup_stays aloof
  refine .pre (fun _ here => here ▸ ⟨rfl, rfl⟩) (stays.mono (fun _ after session done => ?_) fun _ after session failed => ?_)
  · rw [none, none, silent]
    exact ⟨done.1.1, rfl, .refl [] done.2.2⟩
  · rw [none, none, silent]
    exact ⟨failed.1, .refl [] failed.2.2⟩

mutual

theorem Component.setup_settled : ∀ (component : Component) (pass : Pass) (start : Session σ),
    component.Becomes table leaves pass → Settled table leaves component pass view start
  | .leaf node, pass, start, becomes => by
    cases becomes with
    | leaf built => exact built.setup_settled
  | .group options children, _, start, becomes => by
    cases becomes with
    | group all =>
      refine (setupAll_settled children _ start all).bind (fun _ passes => .ofReturn fun _ done => ?_)
        fun _ passes => .ofReturn fun _ failed => ⟨.group failed.1, failed.2⟩
      exact ⟨.group done.1, done.2⟩
  | .offFrame name children, _, start, becomes => by
    cases becomes with
    | @offFrame _ held _ passes all =>
      cases held with
      | false => exact .ofReturn fun _ here => ⟨.offFrame all, rfl, .refl [] (congrArg Session.coordinators here)⟩
      | true =>
        have setUp := Pass.setupAll_ensures (Pass.isSetUp_setsUp (σ := σ) view) passes (fun _ _ => trivial)
        have settled := (setupAll_settled children passes start (all rfl)).ran.and setUp
        refine .pre (fun _ here => ⟨here, trivial⟩) (settled.bind (fun _ passes session done => ?_)
          fun error passes => .ofReturn fun session failed => ?_)
        · obtain ⟨⟨⟨become, none, settles⟩, ran⟩, setUp, -⟩ := done
          rw [Pass.handovers, ran, Component.pending]
          exact ⟨.offFrame nofun, rfl, settles.hand become setUp⟩
        · obtain ⟨⟨⟨become, settles⟩, ran⟩, -⟩ := failed
          rw [Pass.handovers, ran, Component.pending]
          exact ⟨.offFrame nofun, settles.lose⟩

/-- A setup of several passes settles their off-frame groups; none is pending when it succeeds. -/
theorem Component.setupAll_settled : ∀ (components : List Component) (passes : List Pass) (start : Session σ),
    BecomeAll table leaves components passes → AllSettled table leaves components passes view start
  | [], _, start, become => by
    cases become
    refine .ofReturn fun _ here => ⟨.nil, rfl, .refl [] (congrArg Session.coordinators here)⟩
  | component :: rest, _, start, become => by
    cases become with
    | @cons _ pass _ passes first others =>
      have step : Step.Ensures (· = start) (Pass.setup view pass)
          (fun _ after session => _ ∧ (Pass.setup view pass).run start = ((Except.ok (), after), session)) _ :=
        (setup_settled component pass start first).ran
      refine Pass.cons_step step (fun after => .ofEach fun session done => ?_) fun error after session failed => ?_
      · obtain ⟨⟨becomes, none, settles⟩, ran⟩ := done
        have later := settles.beside (Component.pendingAll rest passes)
        refine (setupAll_settled rest passes session others).mono (fun _ more after done => ?_) fun _ more after failed => ?_
        · rw [Component.pendingAll, Pass.handoversAll, ran, Component.pendingAll, none]
          exact ⟨.cons becomes done.1, done.2.1, later.trans done.2.2⟩
        · rw [Component.pendingAll, Pass.handoversAll, ran, Component.pendingAll, none]
          exact ⟨.cons becomes failed.1, later.trans failed.2⟩
      · obtain ⟨⟨becomes, settles⟩, ran⟩ := failed
        rw [Component.pendingAll, Pass.handoversAll, ran, Component.pendingAll]
        exact ⟨.cons becomes others, (List.append_nil _).symm ▸ settles.beside _⟩

end

end

section

variable {compiled : List CompiledLeaf}

mutual

theorem Pass.ofComponent_pending : ∀ (component : Component) {place after : Nat} {pass : Pass},
    (ofComponent table compiled component).run place = .ok (pass, after) → component.pending pass = component.offFrames
  | .leaf node, place, after, pass, _ => by
    rw [Component.offFrames, Component.pending] <;> exact nofun
  | .group options children, place, after, pass, run => by
    rw [ofComponent] at run
    obtain ⟨passes, middle, done, run⟩ := Compile.bind_ok run
    cases run
    rw [Component.pending, Component.offFrames, ofComponents_pending children done]
  | .offFrame coordinator children, place, after, pass, run => by
    rw [ofComponent] at run
    obtain ⟨passes, middle, done, run⟩ := Compile.bind_ok run
    cases run
    rw [Component.pending, Component.offFrames, ofComponents_pending children done]

/-- Nothing has been handed over when the passes are made. -/
theorem Pass.ofComponents_pending : ∀ (components : List Component) {place after : Nat} {passes : List Pass},
    (ofComponents table compiled components).run place = .ok (passes, after) →
      Component.pendingAll components passes = Component.offFramesAll components
  | [], place, after, passes, run => by
    rw [ofComponents] at run
    cases run
    rfl
  | component :: rest, place, after, passes, run => by
    rw [ofComponents] at run
    obtain ⟨pass, middle, first, run⟩ := Compile.bind_ok run
    obtain ⟨others, last, more, run⟩ := Compile.bind_ok run
    cases run
    rw [Component.pendingAll, Component.offFramesAll, ofComponent_pending component first, ofComponents_pending rest more]

end

end

/-! ## Running what was attached -/

namespace Session

variable [Device σ]

open OffFrame (Work WorkError)

/-- Passes that are run fail for themselves. -/
theorem runPasses_attached (ask : Ask σ) (name : String) (work : Work) (surface : Surface) :
    Step.Ensures (fun _ => True) (runPasses ask name work surface) (fun _ _ _ => True)
      fun error _ _ => ∀ label, error ≠ .notAttached label := by
  have any {S : Type} (step : StateM (Session σ) (Except PassError Unit × S)) :
      Step.Ensures (fun _ => True) step (fun _ _ _ => True) fun _ _ _ => True := by
    intro session _
    split <;> trivial
  refine .ofGet fun session _ => .pre (fun _ _ => trivial) ?_
  refine (any _).bind (fun _ passes => ?_) fun _ _ => .ofReturn fun _ _ _ => nofun
  refine (any _).bind (fun _ stream => ?_) fun _ _ => .ofReturn fun _ _ _ => nofun
  exact (PartEffect.Ensures.any _ stream).bind (fun _ _ => .ofReturn fun _ _ => trivial)
    fun _ _ => .ofReturn fun _ _ _ => nofun

/-- A run fails for want of work exactly when the coordinator has none. -/
theorem runWork_notAttached (ask : Ask σ) (name : String) (session : Session σ) :
    ((runWork ask name).run session).1 = .error (.notAttached name) ↔
      (session.coordinator? name).bind (·.work) = none := by
  unfold runWork
  simp only [StateT.run_bind, StateT.run_get, pure_bind]
  split
  · rename_i absent
    simp only [absent, iff_true]
    rfl
  · rename_i present _
    simp only [present, reduceCtorEq, iff_false]
    exact nofun
  · rename_i work surface present _
    simp only [present, reduceCtorEq, iff_false]
    have ran := runPasses_attached ask name work surface session trivial
    rw [StateT.run_bind]
    split at ran
    · rename_i applied
      rw [applied]
      exact nofun
    · rename_i applied
      rw [applied]
      rintro ⟨⟩
      exact ran name rfl

end Session

end FrameGraph
