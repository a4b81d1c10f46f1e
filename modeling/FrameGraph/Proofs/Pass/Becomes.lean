import FrameGraph.Proofs.Flatten
import FrameGraph.Proofs.Pass.Conduct
import FrameGraph.Proofs.Pass.Denotation
import FrameGraph.Proofs.Pass.Setting

/-! # From components to outlines

The tree of passes has the shape of the component tree whatever is done with it, but for the children that an off-frame
group has handed over. After a preparation, what a pass does to the stream of a frame is what its component denotes.
-/

namespace FrameGraph

section

variable (table : ResourceTable) (leaves : List (FlatLeaf × CompiledLeaf))

mutual

/-- The pass is what the component became. -/
inductive Component.Becomes : Component → Pass → Prop where
  | leaf {node : Leaf} {pass : Pass} (built : pass.BuiltFrom table leaves node) : Becomes (.leaf node) pass
  | group {options : GroupOptions} {planned : Nat} {children : List Component} {passes : List Pass}
    (all : BecomeAll children passes) : Becomes (.group options children) (.group options planned passes)
  /-- The children are there until they are handed over. -/
  | offFrame {name : String} {held : Bool} {children : List Component} {passes : List Pass}
    (all : held → BecomeAll children passes) : Becomes (.offFrame name children) (.offFrame name held passes)

/-- The passes are what the components became, one for each. -/
inductive Component.BecomeAll : List Component → List Pass → Prop where
  | nil : BecomeAll [] []
  | cons {component : Component} {pass : Pass} {rest : List Component} {passes : List Pass}
    (first : Becomes component pass) (others : BecomeAll rest passes) : BecomeAll (component :: rest) (pass :: passes)

end

end

section

variable {table : ResourceTable} {leaves : List (FlatLeaf × CompiledLeaf)}

namespace Pass

section

variable {compiled : List CompiledLeaf}

mutual

theorem ofComponent_becomes : ∀ (component : Component) {place after : Nat} {pass : Pass},
    (ofComponent table compiled component).run place = .ok (pass, after) →
      (∀ node ∈ component.nodes.zipIdx place, ∀ pass, MadeAt table compiled node pass →
        pass.BuiltFrom table leaves node.1) → component.Becomes table leaves pass
  | .leaf node, place, after, pass, run, built => by
    rw [ofComponent] at run
    exact .leaf (built (node, place) (.head _) pass (takeLeaf_ok run).2)
  | .group options children, place, after, pass, run, built => by
    rw [ofComponent] at run
    obtain ⟨passes, middle, done, run⟩ := Compile.bind_ok run
    cases run
    exact .group (ofComponents_becomes children done built)
  | .offFrame coordinator children, place, after, pass, run, built => by
    rw [ofComponent] at run
    obtain ⟨passes, middle, done, run⟩ := Compile.bind_ok run
    cases run
    exact .offFrame fun _ => ofComponents_becomes children done built

/-- What is built has the shape of the components. -/
theorem ofComponents_becomes : ∀ (components : List Component) {place after : Nat} {passes : List Pass},
    (ofComponents table compiled components).run place = .ok (passes, after) →
      (∀ node ∈ (Component.nodesAll components).zipIdx place, ∀ pass, MadeAt table compiled node pass →
        pass.BuiltFrom table leaves node.1) → Component.BecomeAll table leaves components passes
  | [], place, after, passes, run, _ => by
    rw [ofComponents] at run
    cases run
    exact .nil
  | component :: rest, place, after, passes, run, built => by
    rw [ofComponents] at run
    obtain ⟨pass, middle, first, run⟩ := Compile.bind_ok run
    obtain ⟨others, last, more, run⟩ := Compile.bind_ok run
    cases run
    rw [Component.nodesAll, List.zipIdx_append, List.forall_mem_append] at built
    have made := ofComponent_becomes component first built.1
    rw [← (ofComponent_leaves component first).1] at built
    exact .cons made (ofComponents_becomes rest more built.2)

end

end

namespace BuiltFrom

variable {node : Leaf} {pass : Pass}

/-- What a leaf has created and decided does not matter to where it comes from. -/
theorem again {other : Pass} (built : pass.BuiltFrom table leaves node) (same : other.asBuilt = pass.asBuilt) :
    other.BuiltFrom table leaves node := by
  obtain ⟨leaf, listed, node_eq, first, made, first_eq⟩ := built
  exact ⟨leaf, listed, node_eq, first, made, same.trans first_eq⟩

/-- A leaf becomes no group. -/
theorem not_group {options : GroupOptions} {planned : Nat} {children : List Pass}
    (built : (Pass.group options planned children).BuiltFrom table leaves node) : False := by
  have same := built.same
  cases node <;> exact same

theorem not_offFrame {name : String} {held : Bool} {children : List Pass}
    (built : (Pass.offFrame name held children).BuiltFrom table leaves node) : False := by
  have same := built.same
  cases node <;> exact same

end BuiltFrom

end Pass

variable {σ : Type} {program : CompiledProgram} {inv : Session σ → Prop} {view : PassView} {shared : Shared}

/-- A step of what a component became leaves what it became; if it succeeds, the pass does `more`. -/
abbrev Component.Stays (table : ResourceTable) (leaves : List (FlatLeaf × CompiledLeaf)) (inv : Session σ → Prop)
    (more : Pass → Prop) (component : Component) (step : StateM (Session σ) (Pass.Outcome Pass)) : Prop :=
  Step.Ensures inv step (fun _ pass session => (component.Becomes table leaves pass ∧ more pass) ∧ inv session)
    fun _ pass session => component.Becomes table leaves pass ∧ inv session

/-- The same of a step of what several components became. -/
abbrev Component.AllStay (table : ResourceTable) (leaves : List (FlatLeaf × CompiledLeaf)) (inv : Session σ → Prop)
    (more : List Pass → Prop) (components : List Component) (step : StateM (Session σ) (Pass.Outcome (List Pass))) :
    Prop :=
  Step.Ensures inv step (fun _ passes session => (BecomeAll table leaves components passes ∧ more passes) ∧ inv session)
    fun _ passes session => BecomeAll table leaves components passes ∧ inv session

/-- What the pass does to the stream of a frame is what the component denotes. -/
def Component.Serves (table : ResourceTable) (leaves : List (FlatLeaf × CompiledLeaf)) (view : PassView) (shared : Shared)
    (component : Component) (pass : Pass) : Prop :=
  ∀ now : EncodeView, now.toPassView = view → ∀ all, pass.leaves ⊆ all → ∀ outline, pass.outline now = .ok outline →
    component.Denotes table leaves all now shared outline

/-- The same of several components. -/
def Component.ServeAll (table : ResourceTable) (leaves : List (FlatLeaf × CompiledLeaf)) (view : PassView)
    (shared : Shared) (components : List Component) (passes : List Pass) : Prop :=
  ∀ now : EncodeView, now.toPassView = view → ∀ all, Pass.leavesAll passes ⊆ all →
    ∀ outline, Pass.outlineAll now passes = .ok outline → DenoteAll table leaves all now shared components outline

namespace Component

/-- A group that was planned this frame does what its children do, as often as it is run. -/
theorem Serves.group {options : GroupOptions} {children : List Component} {passes : List Pass}
    (serve : options.iterations shared ≠ 0 → ServeAll table leaves view shared children passes) :
    Serves table leaves view shared (.group options children) (.group options (options.iterations shared) passes) := by
  rintro now same all inside outline run
  rw [Pass.outline] at run
  rw [Denotes]
  split at run
  · rename_i none
    rw [if_pos none]
    cases run
    rfl
  · rename_i some
    rw [if_neg some]
    obtain ⟨body, made, run⟩ := bind_eq_ok run
    cases run
    exact ⟨body, serve some now same all inside body made, rfl⟩

/-- An off-frame group does nothing to the stream. -/
theorem Serves.offFrame (name : String) (held : Bool) (children : List Component) (passes : List Pass) :
    Serves table leaves view shared (.offFrame name children) (.offFrame name held passes) := by
  rintro now same all inside outline run
  rw [Pass.outline] at run
  cases run
  rfl

theorem ServeAll.nil : ServeAll table leaves view shared [] [] := by
  rintro now same all inside outline run
  rw [Pass.outlineAll] at run
  cases run
  rfl

theorem ServeAll.cons {component : Component} {pass : Pass} {rest : List Component} {passes : List Pass}
    (first : Serves table leaves view shared component pass) (others : ServeAll table leaves view shared rest passes) :
    ServeAll table leaves view shared (component :: rest) (pass :: passes) := by
  rintro now same all inside outline run
  rw [Pass.outlineAll] at run
  obtain ⟨one, made, run⟩ := bind_eq_ok run
  obtain ⟨more, rest, run⟩ := bind_eq_ok run
  cases run
  obtain ⟨here, there⟩ := List.append_subset.mp inside
  exact ⟨one, more, first now same all here one made, others now same all there more rest, rfl⟩

end Component

namespace Pass.BuiltFrom

variable {node : Leaf}

/-- A pass that was built from a leaf does what the leaf denotes; a kernel pass has to have the grid of the frame. -/
theorem serves {pass : Pass} (built : pass.BuiltFrom table leaves node)
    (fits : ∀ kernel, pass = .dispatch kernel → kernel.Fits view shared) :
    Component.Serves table leaves view shared (.leaf node) pass := by
  rintro now rfl all inside outline run
  have same := built.same
  rw [Component.Denotes]
  cases pass with
  | dispatch pass =>
    cases node with
    | dispatch node =>
      refine ⟨pass, inside (.head _), built, fits pass rfl, ?_⟩
      rw [Pass.outline, DispatchPass.outline] at run
      split at run
      · rename_i empty
        rw [if_pos empty]
        cases run
        rfl
      · rename_i filled
        rw [if_neg filled]
        obtain ⟨command, made, run⟩ := bind_eq_ok run
        cases run
        exact ⟨command, made, by rw [same]⟩
    | _ => exact same.elim
  | draw pass =>
    cases node with
    | draw node =>
      rw [Pass.outline] at run
      obtain ⟨command, made, run⟩ := bind_eq_ok run
      cases run
      exact ⟨pass, inside (.head _), built, command, made, rfl⟩
    | _ => exact same.elim
  | blit other =>
    cases node with
    | blit node =>
      obtain rfl : other = node := same
      rw [Pass.outline] at run
      obtain ⟨command, made, run⟩ := bind_eq_ok run
      cases run
      exact ⟨command, made, rfl⟩
    | _ => exact same.elim
  | filter pass =>
    cases node with
    | filter node =>
      rw [Pass.outline] at run
      obtain ⟨command, made, run⟩ := bind_eq_ok run
      cases run
      exact ⟨pass, inside (.head _), same, command, made, rfl⟩
    | _ => exact same.elim
  | callback other =>
    cases node with
    | callback node =>
      obtain rfl : other = node := same
      rw [Pass.outline] at run
      cases run
      rfl
    | _ => exact same.elim
  | group _ _ _ => exact built.not_group.elim
  | offFrame _ _ _ => exact built.not_offFrame.elim

/-- A step that leaves a pass what it was built as leaves what the leaf became. -/
theorem stays {S B : Type} {wrap : S → Pass} {origin : S → B} {pass : S} {action : PassM S σ Unit}
    {fitted : S → Prop} {more : Pass → Prop} (built : (wrap pass).BuiltFrom table leaves node)
    (same : ∀ p, origin p = origin pass → (wrap p).asBuilt = (wrap pass).asBuilt)
    (step : PartEffect.Ensures (fun p session => origin p = origin pass ∧ inv session) action
      (fun _ p session => (origin p = origin pass ∧ inv session) ∧ fitted p)
      fun _ p session => origin p = origin pass ∧ inv session)
    (later : ∀ p, (wrap p).BuiltFrom table leaves node → fitted p → more (wrap p)) :
    Component.Stays table leaves inv more (.leaf node) (stepOf wrap pass action) := by
  refine stepOf_step (.pre (fun _ _ held => ⟨held.1 ▸ rfl, held.2⟩) (step.mono (fun _ p _ done => ?_)
    fun _ p _ failed => ⟨.leaf (built.again (same p failed.1)), failed.2⟩))
  have still := built.again (same p done.1.1)
  exact ⟨⟨.leaf still, later p still done.2⟩, done.1.2⟩

/-- So does a step that a pass is conducted through. -/
theorem conducted {S B : Type} {wrap : S → Pass} {origin : S → B} {pass : S} {action : PassM S σ Unit} {pool : Pool}
    {textures : List TextureHandle} {buffers : List BufferHandle} {more : Pass → Prop}
    (built : (wrap pass).BuiltFrom table leaves node)
    (same : ∀ p, origin p = origin pass → (wrap p).asBuilt = (wrap pass).asBuilt)
    (conducts : Session.Conducts inv origin (origin pass) pool textures buffers action)
    (later : ∀ p, (wrap p).BuiltFrom table leaves node → more (wrap p)) :
    Component.Stays table leaves inv more (.leaf node) (stepOf wrap pass action) := by
  have step : PartEffect.Ensures (fun p session => origin p = origin pass ∧ inv session) action
      (fun _ p session => (origin p = origin pass ∧ inv session) ∧ True)
      fun _ p session => origin p = origin pass ∧ inv session :=
    PartEffect.Ensures.mono conducts (fun _ _ _ done => ⟨done, trivial⟩) fun _ _ _ => And.right
  exact built.stays same step fun p still _ => later p still

theorem still {pass : Pass} {more : Pass → Prop} (built : pass.BuiltFrom table leaves node) (holds : more pass) :
    Component.Stays table leaves inv more (.leaf node) (Pass.still pass) :=
  .ofReturn fun _ held => ⟨⟨.leaf built, holds⟩, held⟩

end Pass.BuiltFrom

section

variable [Device σ]

open Component (BecomeAll Stays AllStay Serves ServeAll)

theorem Pass.BuiltFrom.setup_stays {node : Leaf} {pass : Pass} (aloof : Session.Aloof program inv)
    (built : pass.BuiltFrom table leaves node) :
    Stays table leaves inv (fun _ => True) (.leaf node) (Pass.setup view pass) := by
  cases pass with
  | dispatch pass =>
    exact built.conducted (fun p => congrArg Pass.dispatch) (DispatchPass.setup_conducts aloof view) fun _ _ => trivial
  | draw pass =>
    exact built.conducted (fun p => congrArg Pass.draw) (DrawPass.setup_conducts aloof view) fun _ _ => trivial
  | filter pass =>
    exact built.conducted (fun p => congrArg Pass.filter) (FilterPass.setup_conducts aloof view) fun _ _ => trivial
  | blit _ => exact built.still trivial
  | callback _ => exact built.still trivial
  | group _ _ _ => exact built.not_group.elim
  | offFrame _ _ _ => exact built.not_offFrame.elim

mutual

theorem Component.setup_stays (aloof : Session.Aloof program inv)
    (attach : ∀ session name passes, inv session → inv (session.attach name passes)) :
    ∀ (component : Component) (pass : Pass), component.Becomes table leaves pass →
      Stays table leaves inv (fun _ => True) component (Pass.setup view pass)
  | .leaf node, pass, becomes => by
    cases becomes with
    | leaf built => exact built.setup_stays aloof
  | .group options children, _, becomes => by
    cases becomes with
    | group all =>
      refine (setupAll_stays aloof attach children _ all).bind (fun _ passes => .ofReturn fun _ done => ?_)
        fun _ passes => .ofReturn fun _ failed => ⟨.group failed.1, failed.2⟩
      exact ⟨⟨.group done.1.1, trivial⟩, done.2⟩
  | .offFrame name children, _, becomes => by
    cases becomes with
    | @offFrame _ held _ passes all =>
      cases held with
      | false => exact .ofReturn fun _ held => ⟨⟨.offFrame all, trivial⟩, held⟩
      | true =>
        refine (setupAll_stays aloof attach children passes (all rfl)).bind (fun _ passes session done => ?_)
          fun _ passes => .ofReturn fun _ failed => ⟨.offFrame nofun, failed.2⟩
        exact ⟨⟨.offFrame nofun, trivial⟩, attach session name passes done.2⟩

/-- A setup leaves the shape of the tree. -/
theorem Component.setupAll_stays (aloof : Session.Aloof program inv)
    (attach : ∀ session name passes, inv session → inv (session.attach name passes)) :
    ∀ (components : List Component) (passes : List Pass), BecomeAll table leaves components passes →
      AllStay table leaves inv (fun _ => True) components (Pass.setupAll view passes)
  | [], _, become => by
    cases become
    exact .ofReturn fun _ held => ⟨⟨.nil, trivial⟩, held⟩
  | component :: rest, _, become => by
    cases become with
    | cons first others =>
      refine Pass.cons_step (setup_stays aloof attach component _ first) (fun pass => .given fun made => ?_)
        fun _ _ _ failed => ⟨.cons failed.1 others, failed.2⟩
      exact (setupAll_stays aloof attach rest _ others).mono
        (fun _ _ _ done => ⟨⟨.cons made.1 done.1.1, trivial⟩, done.2⟩)
        fun _ _ _ failed => ⟨.cons made.1 failed.1, failed.2⟩

end

/-- After a preparation, the grid of a kernel pass is that of the frame. -/
theorem DispatchPass.prepare_fits (aloof : Session.Aloof program inv)
    (known : ∀ session, inv session → session.shared = shared) (origin : DispatchPass) :
    PartEffect.Ensures (fun pass session => pass.asBuilt = origin ∧ inv session) (prepare (σ := σ) view)
      (fun _ pass session => (pass.asBuilt = origin ∧ inv session) ∧ pass.Fits view shared)
      fun _ pass session => pass.asBuilt = origin ∧ inv session := by
  have refreshed : Session.Conducts inv asBuilt origin view.pool _ _
      ((Bindings.refresh (σ := σ) view).inPart bindingsLens) :=
    bindings_conduct view.pool fun _ => Bindings.refresh_conducts aloof view
  have fits : PartEffect.Ensures (fun pass session => pass.asBuilt = origin ∧ inv session) (prepare (σ := σ) view)
      (fun _ pass _ => pass.Fits view shared) fun _ _ _ => True := by
    refine .bind (refreshed.mono (fun _ _ _ => id) fun _ _ _ _ => trivial) fun _ => .ofGet fun pass session held => ?_
    refine .ofLook fun _ now here => ?_
    rw [here.2, known session held.2]
    refine .ofExcept (fun extent sampled => ?_) fun _ _ _ _ _ => trivial
    have fitted : Fits view shared { pass with grid := pass.compiled.grid.extent extent } := ⟨extent, sampled, rfl⟩
    have uploaded (action : SessionM σ Unit) :
        PartEffect.Ensures (fun (p : DispatchPass) _ => p.Fits view shared) (PartEffect.around action)
          (fun _ p _ => p.Fits view shared) fun _ _ _ => True :=
      (PartEffect.Ensures.apart action).mono (fun _ _ _ => id) fun _ _ _ _ => trivial
    exact .bind (.ofSet fun _ _ _ => fitted) fun _ => (uploaded _).bind fun _ => uploaded _
  refine .pre (fun _ _ held => ⟨held, held⟩) (((prepare_conducts aloof view).and fits).mono ?_ ?_)
  · exact fun _ _ _ => id
  · exact fun _ _ _ failed => failed.1.2

theorem Pass.BuiltFrom.prepare_stays {node : Leaf} {pass : Pass} (aloof : Session.Aloof program inv)
    (known : ∀ session, inv session → session.shared = shared) (built : pass.BuiltFrom table leaves node) :
    Stays table leaves inv (Serves table leaves view shared (.leaf node)) (.leaf node) (Pass.prepare view pass) := by
  cases pass with
  | dispatch pass =>
    refine built.stays (fun p => congrArg Pass.dispatch) (DispatchPass.prepare_fits aloof known _)
      fun p still fits => still.serves ?_
    rintro _ ⟨⟩
    exact fits
  | draw pass =>
    exact built.conducted (fun p => congrArg Pass.draw) (DrawPass.prepare_conducts aloof view) fun p still =>
      still.serves fun _ => nofun
  | filter _ => exact built.still (built.serves fun _ => nofun)
  | blit _ => exact built.still (built.serves fun _ => nofun)
  | callback _ => exact built.still (built.serves fun _ => nofun)
  | group _ _ _ => exact built.not_group.elim
  | offFrame _ _ _ => exact built.not_offFrame.elim

mutual

theorem Component.prepare_stays (aloof : Session.Aloof program inv)
    (known : ∀ session, inv session → session.shared = shared) :
    ∀ (component : Component) (pass : Pass), component.Becomes table leaves pass →
      Stays table leaves inv (Serves table leaves view shared component) component (Pass.prepare view pass)
  | .leaf node, _, becomes => by
    cases becomes with
    | leaf built => exact built.prepare_stays aloof known
  | .group options children, _, becomes => by
    cases becomes with
    | group all =>
      refine .ofGet fun session held => ?_
      rw [known session held]
      refine .pre (fun _ here => here.2) (.ofIf (fun none => .ofReturn fun _ held => ?_) fun some => ?_)
      · exact ⟨⟨.group all, .group fun some => absurd none some⟩, held⟩
      · refine (prepareAll_stays aloof known children _ all).bind (fun _ passes => .ofReturn fun _ done => ?_)
          fun _ passes => .ofReturn fun _ failed => ⟨.group failed.1, failed.2⟩
        exact ⟨⟨.group done.1.1, .group fun _ => done.1.2⟩, done.2⟩
  | .offFrame _ _, _, becomes => by
    cases becomes with
    | offFrame all => exact .ofReturn fun _ held => ⟨⟨.offFrame all, .offFrame _ _ _ _⟩, held⟩

/-- A preparation leaves the shape of the tree, and what it plans is what the components denote. -/
theorem Component.prepareAll_stays (aloof : Session.Aloof program inv)
    (known : ∀ session, inv session → session.shared = shared) :
    ∀ (components : List Component) (passes : List Pass), BecomeAll table leaves components passes →
      AllStay table leaves inv (ServeAll table leaves view shared components) components (Pass.prepareAll view passes)
  | [], _, become => by
    cases become
    exact .ofReturn fun _ held => ⟨⟨.nil, .nil⟩, held⟩
  | component :: rest, _, become => by
    cases become with
    | cons first others =>
      refine Pass.cons_step (prepare_stays aloof known component _ first) (fun pass => .given fun made => ?_)
        fun _ _ _ failed => ⟨.cons failed.1 others, failed.2⟩
      exact (prepareAll_stays aloof known rest _ others).mono
        (fun _ _ _ done => ⟨⟨.cons made.1 done.1.1, .cons made.2 done.1.2⟩, done.2⟩)
        fun _ _ _ failed => ⟨.cons made.1 failed.1, failed.2⟩

end

end

end

end FrameGraph
