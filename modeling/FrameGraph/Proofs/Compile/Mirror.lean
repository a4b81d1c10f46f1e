import FrameGraph.Compile.Leaves
import FrameGraph.Proofs.Compile.Blocks

/-! # Two runs of a compile

One run of steps mirrors another when it succeeds wherever the other does, and what the two come to matches. This
compares a part of a program that is compiled alone with the same part inside a whole program, and a program with one
that only has other labels. What is between the states of two runs stays while arguments are bound and resources are used
if it stays when one resource is used and when one type is spelled.
-/

namespace FrameGraph.Compile

variable {α β γ δ ι : Type} {before middle : CompileState → CompileState → Prop}

/-- Where one step succeeds another does so too, and results and states match. -/
def Mirrors (before : CompileState → CompileState → Prop) (whole : Compile α) (part : Compile β)
    (after : α → β → CompileState → CompileState → Prop) : Prop :=
  ∀ w p, before w p → ∀ a w', whole.run w = .ok (a, w') → ∃ b p', part.run p = .ok (b, p') ∧ after a b w' p'

/-- The two steps give the same, and what is between their states stays. -/
abbrev Tracks (between : CompileState → CompileState → Prop) (whole part : Compile α) : Prop :=
  Mirrors between whole part fun a b w p => a = b ∧ between w p

namespace Mirrors

variable {whole : Compile α} {part : Compile β} {after : α → β → CompileState → CompileState → Prop}

theorem pre (mirrors : Mirrors middle whole part after) (weaken : ∀ w p, before w p → middle w p) :
    Mirrors before whole part after := fun w p holds => mirrors w p (weaken w p holds)

/-- What the states tell at the start is at hand. -/
theorem given {fact : Prop} (known : ∀ w p, before w p → fact) (rest : fact → Mirrors before whole part after) :
    Mirrors before whole part after := fun w p holds => rest (known w p holds) w p holds

theorem ofPure {a : α} {b : β} (holds : ∀ w p, before w p → after a b w p) : Mirrors before (pure a) (pure b) after := by
  intro w p start a w' run
  obtain ⟨rfl, rfl⟩ := pure_ok run
  exact ⟨b, p, rfl, holds w p start⟩

theorem ofFail {error : CompileError} : Mirrors before (fail error) part after :=
  fun _ _ _ _ _ run => (fail_ok run).elim

theorem bind {next : α → Compile γ} {next' : β → Compile δ} {last : γ → δ → CompileState → CompileState → Prop}
    (first : Mirrors before whole part after) (rest : ∀ a b, Mirrors (after a b) (next a) (next' b) last) :
    Mirrors before (whole >>= next) (part >>= next') last := by
  intro w p holds c w' run
  obtain ⟨a, w₁, ran, run⟩ := bind_ok run
  obtain ⟨b, p₁, ran', done⟩ := first w p holds a w₁ ran
  obtain ⟨d, p', run', done⟩ := rest a b w₁ p₁ done c w' run
  refine ⟨d, p', ?_, done⟩
  rw [StateT.run_bind, ran']
  exact run'

/-- A failure is mirrored whatever follows it. -/
theorem ofFailBind {error : CompileError} {next : γ → Compile α} : Mirrors before (fail error >>= next) part after := by
  intro w p _ a w' run
  obtain ⟨_, _, failed, -⟩ := bind_ok run
  exact (fail_ok failed).elim

theorem ofGet {next : CompileState → Compile α} {next' : CompileState → Compile β}
    (rest : ∀ w p, before w p → Mirrors (fun w' p' => w' = w ∧ p' = p) (next w) (next' p) after) :
    Mirrors before (get >>= next) (get >>= next') after :=
  fun w p holds a w' run => rest w p holds w p ⟨rfl, rfl⟩ a w' (get_bind_ok run)

theorem ofModify {f g : CompileState → CompileState} {after : PUnit → PUnit → CompileState → CompileState → Prop}
    (holds : ∀ w p, before w p → after ⟨⟩ ⟨⟩ (f w) (g p)) : Mirrors before (modify f) (modify g) after := by
  intro w p start a w' run
  rw [modify_ok run]
  exact ⟨⟨⟩, g p, rfl, holds w p start⟩

theorem ofSet {w' p' : CompileState} {after : PUnit → PUnit → CompileState → CompileState → Prop}
    (holds : ∀ w p, before w p → after ⟨⟩ ⟨⟩ w' p') : Mirrors before (set w') (set p') after := by
  intro w p start a last run
  rw [set_ok run]
  exact ⟨⟨⟩, p', rfl, holds w p start⟩

/-- Every turn of a loop is mirrored. -/
theorem foldlM {f : α → γ → Compile α} {g : β → γ → Compile β}
    (turn : ∀ x a b, Mirrors (after a b) (f a x) (g b x) after) (xs : List γ) (a : α) (b : β) :
    Mirrors (after a b) (xs.foldlM f a) (xs.foldlM g b) after := by
  induction xs generalizing a b with
  | nil => exact .ofPure fun _ _ => id
  | cons x rest ih =>
    rw [List.foldlM_cons, List.foldlM_cons]
    exact (turn x a b).bind ih

/-- The same over two lists that match. -/
theorem mapM {R : γ → δ → Prop} {f : γ → Compile α} {g : δ → Compile β} {xs : List γ} {ys : List δ}
    (all : List.Forall₂ R xs ys) (turn : ∀ x y, R x y → Mirrors before (f x) (g y) fun _ _ => before) :
    Mirrors before (xs.mapM f) (ys.mapM g) fun _ _ => before := by
  induction all with
  | nil =>
    rw [List.mapM_nil, List.mapM_nil]
    exact .ofPure fun _ _ => id
  | cons first _ ih =>
    rw [List.mapM_cons, List.mapM_cons]
    exact (turn _ _ first).bind fun _ _ => ih.bind fun _ _ => .ofPure fun _ _ => id

end Mirrors

namespace Tracks

variable {between : CompileState → CompileState → Prop} {whole part : Compile α}

/-- What follows goes on from the same result. -/
theorem bind {next : α → Compile γ} {next' : α → Compile δ} {last : γ → δ → CompileState → CompileState → Prop}
    (first : Tracks between whole part) (rest : ∀ a, Mirrors between (next a) (next' a) last) :
    Mirrors between (whole >>= next) (part >>= next') last := by
  refine Mirrors.bind first fun a b w p holds => ?_
  obtain ⟨rfl, holds⟩ := holds
  exact rest a w p holds

theorem ofPure (a : α) : Tracks between (pure a) (pure a) := Mirrors.ofPure fun _ _ holds => ⟨rfl, holds⟩

theorem ofFail {error : CompileError} : Tracks between (fail error) part := Mirrors.ofFail

theorem ofExcept (result : Except CompileError α) : Tracks between (Compile.ofExcept result) (Compile.ofExcept result) := by
  cases result with
  | ok value => exact .ofPure value
  | error error => exact .ofFail

theorem forM {f g : γ → Compile PUnit} (turn : ∀ x, Tracks between (f x) (g x)) (xs : List γ) :
    Tracks between (xs.forM f) (xs.forM g) := by
  induction xs with
  | nil => exact .ofPure _
  | cons x rest ih => exact (turn x).bind fun _ => ih

theorem foldlM {f g : α → γ → Compile α} (turn : ∀ a x, Tracks between (f a x) (g a x)) (xs : List γ) (a : α) :
    Tracks between (xs.foldlM f a) (xs.foldlM g a) := by
  induction xs generalizing a with
  | nil => exact .ofPure a
  | cons x rest ih =>
    rw [List.foldlM_cons, List.foldlM_cons]
    exact (turn a x).bind ih

theorem mapM {R : γ → δ → Prop} {f : γ → Compile α} {g : δ → Compile α} {xs : List γ} {ys : List δ}
    (all : List.Forall₂ R xs ys) (turn : ∀ x y, R x y → Tracks between (f x) (g y)) :
    Tracks between (xs.mapM f) (ys.mapM g) := by
  induction all with
  | nil =>
    rw [List.mapM_nil, List.mapM_nil]
    exact .ofPure []
  | cons first _ ih =>
    rw [List.mapM_cons, List.mapM_cons]
    exact (turn _ _ first).bind fun _ => ih.bind fun _ => Tracks.ofPure _

theorem textureDecl (table : ResourceTable) (function : String) {function' : String} (handle : TextureHandle) :
    Tracks between (textureDecl table function handle) (Compile.textureDecl table function' handle) := by
  unfold Compile.textureDecl
  split
  · exact .ofPure _
  · exact .ofFail

theorem bufferDecl (table : ResourceTable) (function : String) {function' : String} (handle : BufferHandle) :
    Tracks between (bufferDecl table function handle) (Compile.bufferDecl table function' handle) := by
  unfold Compile.bufferDecl
  split
  · exact .ofPure _
  · exact .ofFail

theorem patched (job : EntryJob) (patch : Patch) : Tracks between (patched job patch) (Compile.patched job patch) := by
  unfold Compile.patched
  split
  · exact .ofPure _
  · exact .ofFail

theorem textureBinding (table : ResourceTable) (function : String) (handle : TextureHandle) (access : TextureAccess) :
    Tracks between (textureBinding table function handle access)
      (Compile.textureBinding table function handle access) := by
  refine (textureDecl table function handle).bind fun decl => ?_
  split
  · exact Tracks.ofPure _
  · split
    · exact .ofFail
    · split
      · exact .ofFail
      · exact Tracks.ofPure _

end Tracks

/-! ## Steps that two runs have in common -/

section

variable {between : CompileState → CompileState → Prop} {table : ResourceTable} {unit unit' : Nat}

/-- Uses of resources keep what is between the states. -/
structure KeepsUses (between : CompileState → CompileState → Prop) : Prop where
  texture : ∀ handle use, Tracks between (useTexture handle use) (useTexture handle use)
  buffer : ∀ handle use, Tracks between (useBuffer handle use) (useBuffer handle use)

/-- A type has the same name in the unit of one run and in that of the other. -/
structure KeepsTypes (between : CompileState → CompileState → Prop) (unit unit' : Nat) : Prop
    extends KeepsUses between where
  typeName : ∀ type, Tracks between (typeName unit type) (typeName unit' type)

namespace KeepsTypes

variable (keeps : KeepsTypes between unit unit')

include keeps

/-- A type that the caller gives is not spelled. -/
theorem spelled {given : Option String} {type : ShaderType} {next : String → Compile α} {next' : String → Compile β}
    {after : α → β → CompileState → CompileState → Prop}
    (rest : ∀ element, Mirrors between (next element) (next' element) after) :
    Mirrors between
      (match given with
      | some _ => do
        let element ← pure ""
        next element
      | none => do
        let element ← Compile.typeName unit type
        next element)
      (match given with
      | some _ => do
        let element ← pure ""
        next' element
      | none => do
        let element ← Compile.typeName unit' type
        next' element) after := by
  cases given with
  | some _ => exact rest ""
  | none => exact (keeps.typeName type).bind rest

/-- An argument that is no block is bound to the same in both. -/
theorem bindPlain (function : String) (argument : Argument) (binding : Nat) (stage : Stage) (bytes : List BytesSlot) :
    Tracks between (bindPlain table unit function argument binding stage bytes)
      (Compile.bindPlain table unit' function argument binding stage bytes) := by
  unfold Compile.bindPlain
  cases argument.kind with
  | buffer handle space =>
    refine (Tracks.bufferDecl table function handle).bind fun decl => keeps.spelled fun element => ?_
    cases space with
    | uniform => exact (keeps.buffer _ _).bind fun _ => Tracks.ofPure _
    | storage readOnly => exact (keeps.buffer _ _).bind fun _ => Tracks.ofPure _
  | bytes source => exact keeps.spelled fun element => Tracks.ofPure _
  | texture handle access =>
    refine (Tracks.textureBinding table function handle access).bind fun texture => ?_
    exact (keeps.texture _ _).bind fun _ => Tracks.ofPure _
  | block name members => exact .ofFail

theorem bindMember (block : String) (stage : Stage) (member : Argument) (binding : Nat)
    {rest rest' : Compile (List BoundVariable)} (others : Tracks between rest rest') :
    Tracks between
      (do
        let (bound, _) ← Compile.bindPlain table unit block member binding stage []
        let others ← rest
        return bound :: others)
      (do
        let (bound, _) ← Compile.bindPlain table unit' block member binding stage []
        let others ← rest'
        return bound :: others) :=
  (keeps.bindPlain block member binding stage []).bind fun _ => others.bind fun _ => Tracks.ofPure _

theorem bindMembers (block : String) (stage : Stage) (members : List Argument) :
    ∀ pool : IndexPool, Tracks between (bindMembers table unit block stage pool members)
      (Compile.bindMembers table unit' block stage pool members) := by
  induction members with
  | nil => exact fun _ => Tracks.ofPure _
  | cons member rest ih =>
    intro pool
    unfold Compile.bindMembers
    cases member.kind with
    | bytes source => exact .ofFail
    | block name members => exact .ofFail
    | buffer handle space => exact keeps.bindMember block stage member _ (ih _)
    | texture handle access => exact keeps.bindMember block stage member _ (ih _)

end KeepsTypes

/-- The unit of one run has an equal in the unit of the other: the same records and entry names, whatever else. Changes that
keep them equal keep what is between the states. -/
structure KeepsUnit (between : CompileState → CompileState → Prop) (equal : UnitState → UnitState → Prop)
    (unit unit' : Nat) : Prop extends KeepsUses between where
  log : ∀ level source text text', Tracks between (log level source text) (log level source text')
  found : ∀ w p, between w p → Option.Rel equal w.units[unit]? p.units[unit']?
  change : ∀ w p f g, between w p →
    (∀ u v, w.units[unit]? = some u → p.units[unit']? = some v → equal u v → equal (f u) (g v)) →
    between { w with units := w.units.modify unit f } { p with units := p.units.modify unit' g }
  symbols : ∀ u v table, equal u v → u.symbols = v.symbols ∧ equal { u with symbols := table } { v with symbols := table }
  entries : ∀ u v names, equal u v → u.entries = v.entries ∧ equal { u with entries := names } { v with entries := names }

namespace KeepsUnit

variable {equal : UnitState → UnitState → Prop} (keeps : KeepsUnit between equal unit unit')

include keeps

/-- A type has the same name in both, and its records are declared in both. -/
theorem typeName (type : ShaderType) : Tracks between (typeName unit type) (Compile.typeName unit' type) := by
  refine .ofGet fun w p holds => ?_
  have symbols_eq : (w.units[unit]?.map (·.symbols)).getD .empty = (p.units[unit']?.map (·.symbols)).getD .empty := by
    have found := keeps.found w p holds
    generalize w.units[unit]? = u? at found ⊢
    generalize p.units[unit']? = v? at found ⊢
    cases found with
    | none => rfl
    | some same => exact (keeps.symbols _ _ .empty same).1
  rw [symbols_eq]
  generalize (p.units[unit']?.map (·.symbols)).getD .empty = symbols
  have declares : Mirrors (fun w' p' => w' = w ∧ p' = p)
      (modifyUnit unit fun u => { u with symbols := (symbols.declare type).1 })
      (modifyUnit unit' fun u => { u with symbols := (symbols.declare type).1 }) fun _ _ => between := by
    refine .ofModify ?_
    rintro _ _ ⟨rfl, rfl⟩
    exact keeps.change _ _ _ _ holds fun u v _ _ same => (keeps.symbols u v _ same).2
  refine declares.bind fun _ _ => (Tracks.forM (fun _ => keeps.log _ _ _ _) _).bind fun _ => ?_
  split
  · exact .ofFail
  · exact .ofFail
  · exact Tracks.ofPure _

theorem keepsTypes : KeepsTypes between unit unit' where
  toKeepsUses := keeps.toKeepsUses
  typeName := keeps.typeName

/-- An entry point gets the same name in both. -/
theorem giveEntry (name : String) : Tracks between (giveEntry unit name) (Compile.giveEntry unit' name) := by
  refine .ofGet fun w p holds => ?_
  have found := keeps.found w p holds
  generalize w.units[unit]? = u? at found ⊢
  generalize p.units[unit']? = v? at found ⊢
  cases found with
  | none =>
    refine Mirrors.ofPure ?_
    rintro _ _ ⟨rfl, rfl⟩
    exact ⟨rfl, holds⟩
  | @some u v same =>
    have given : (u.giveEntry name).1 = (v.giveEntry name).1 := by
      rw [UnitState.giveEntry, UnitState.giveEntry, (keeps.entries u v [] same).1]
    have changed : equal (u.giveEntry name).2 (v.giveEntry name).2 := by
      have entries := keeps.entries u v (v.giveEntry name).2.entries same
      rw [UnitState.giveEntry, entries.1]
      exact entries.2
    refine Mirrors.bind (.ofModify ?_) fun _ _ => .ofPure fun _ _ held => ⟨given, held⟩
    rintro _ _ ⟨rfl, rfl⟩
    exact keeps.change _ _ _ _ holds fun _ _ _ _ _ => changed

end KeepsUnit

/-- A line of the log that is only sometimes written. -/
theorem Mirrors.logged {c : Prop} [Decidable c] {level : LogLevel} {source : LogSource} {text : String}
    (noted : Tracks between (log level source text) (log level source text)) {next : Compile α} {next' : Compile β}
    {after : α → β → CompileState → CompileState → Prop} (rest : Mirrors between next next' after) :
    Mirrors between (if c then (do log level source text; next) else next)
      (if c then (do log level source text; next') else next') after := by
  split
  · exact noted.bind fun _ => rest
  · exact rest

namespace KeepsUses

variable (keeps : KeepsUses between) (label label' : String)

include keeps

theorem declaredTexture (handle : TextureHandle) (use : TextureUsage) :
    Tracks between
      (do
        let _ ← textureDecl table label handle
        useTexture handle use)
      (do
        let _ ← textureDecl table label' handle
        useTexture handle use) :=
  (Tracks.textureDecl table label handle).bind fun _ => keeps.texture handle use

omit keeps in
theorem vertices (vertices : VertexCount) {next next' : Compile PUnit} (rest : Tracks between next next') :
    Tracks between
      (match vertices with
        | .buffer handle => do
          let _ ← bufferDecl table label handle
          next
        | _ => next)
      (match vertices with
        | .buffer handle => do
          let _ ← bufferDecl table label' handle
          next'
        | _ => next') := by
  split
  · exact (Tracks.bufferDecl table label _).bind fun _ => rest
  · exact rest

theorem target (target : ColorTarget) :
    Tracks between
      (do
        if let .resource handle := target.texture then
          let _ ← textureDecl table label handle
          useTexture handle { renderTarget := true })
      (do
        if let .resource handle := target.texture then
          let _ ← textureDecl table label' handle
          useTexture handle { renderTarget := true }) := by
  split
  · exact keeps.declaredTexture label label' _ _
  · exact Tracks.ofPure _

theorem depth (depth : Option DepthTarget) :
    Tracks between
      (do
        if let some depth := depth then
          let _ ← textureDecl table label depth.texture
          useTexture depth.texture { renderTarget := true })
      (do
        if let some depth := depth then
          let _ ← textureDecl table label' depth.texture
          useTexture depth.texture { renderTarget := true }) := by
  split
  · exact keeps.declaredTexture label label' _ _
  · exact Tracks.ofPure _

theorem attachments (table : ResourceTable) (targets : List ColorTarget) (depth : Option DepthTarget) :
    Tracks between
      (do
        targets.forM fun target => do
          if let .resource handle := target.texture then
            let _ ← textureDecl table label handle
            useTexture handle { renderTarget := true }
        if let some depth := depth then
          let _ ← textureDecl table label depth.texture
          useTexture depth.texture { renderTarget := true })
      (do
        targets.forM fun target => do
          if let .resource handle := target.texture then
            let _ ← textureDecl table label' handle
            useTexture handle { renderTarget := true }
        if let some depth := depth then
          let _ ← textureDecl table label' depth.texture
          useTexture depth.texture { renderTarget := true }) :=
  (Tracks.forM (keeps.target label label') targets).bind fun _ => keeps.depth label label' depth

/-- A draw uses the same resources under another label. -/
theorem drawResources (node : Draw) :
    Tracks between (drawResources table node) (Compile.drawResources table { node with label }) := by
  unfold Compile.drawResources
  dsimp only
  have attachments := keeps.attachments node.label label table node.targets node.depth
  split
  · refine (Tracks.bufferDecl table node.label _).bind fun decl => ?_
    split
    · exact (keeps.buffer _ _).bind fun _ => vertices node.label label node.vertices attachments
    · exact .ofFailBind
  · exact vertices node.label label node.vertices attachments

theorem blit (node : Blit) : Tracks between (blit table node) (Compile.blit table { node with label }) := by
  unfold Compile.blit
  dsimp only
  split
  · refine (Tracks.textureDecl table node.label _).bind fun _ => (keeps.texture _ _).bind fun _ => ?_
    split
    · exact keeps.declaredTexture _ _ _ _
    · exact Tracks.ofPure _
  · refine (Tracks.bufferDecl table node.label _).bind fun _ => (Tracks.bufferDecl table node.label _).bind fun _ => ?_
    exact (keeps.buffer _ _).bind fun _ => keeps.buffer _ _
  · exact (Tracks.bufferDecl table node.label _).bind fun _ => keeps.buffer _ _

theorem filter (node : FilterNode) :
    Tracks between (filter table node) (Compile.filter table { node with label }) := by
  unfold Compile.filter
  refine (Tracks.textureDecl table node.label _).bind fun _ => (Tracks.textureDecl table node.label _).bind fun _ => ?_
  dsimp only
  split
  · exact .ofFailBind
  · exact (keeps.texture _ _).bind fun _ => keeps.texture _ _

end KeepsUses

end

end FrameGraph.Compile
