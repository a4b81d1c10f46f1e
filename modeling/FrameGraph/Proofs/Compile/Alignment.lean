import FrameGraph.Proofs.Compile.Leaves
import FrameGraph.Proofs.Compile.Matching

/-! # Leaves of a part

A leaf that compiles in the whole program compiles in the part, too, and its unit gets the same text. Blocks have other
places there, so that the bindings of the two runs agree up to the names of the blocks.
-/

namespace FrameGraph

namespace CompileState

variable {w p w' p' : CompileState} {x y x' y' : Nat}

/-- The places of a block in two states. -/
def Paired (whole part : CompileState) (x y : Nat) : Prop :=
  ∃ name, name ∈ whole.blocks.map (·.name) ∧ name ∈ part.blocks.map (·.name) ∧ whole.place name = x ∧ part.place name = y

theorem Paired.mono (paired : Paired w p x y) (evolves : Evolves w w') (evolves' : Evolves p p') : Paired w' p' x y := by
  obtain ⟨name, known, known', rfl, rfl⟩ := paired
  exact ⟨name, evolves.names_prefix.subset known, evolves'.names_prefix.subset known', evolves.place_eq known,
    evolves'.place_eq known'⟩

/-- Blocks are the same in one state when they are in the other. -/
theorem Paired.eq_iff (one : Paired w p x y) (two : Paired w p x' y') : x = x' ↔ y = y' := by
  obtain ⟨name, known, known', rfl, rfl⟩ := one
  obtain ⟨name', -, -, rfl, rfl⟩ := two
  rw [place, place, place, place, List.idxOf_inj known, List.idxOf_inj known']

theorem Paired.idxOf?_eq {xs ys : List Nat} (all : List.Forall₂ (Paired w p) xs ys) (pair : Paired w p x y) :
    xs.idxOf? x = ys.idxOf? y := by
  induction all with
  | nil => rfl
  | cons first _ ih =>
    rw [List.idxOf?_cons, List.idxOf?_cons, ih]
    simp only [beq_iff_eq, first.eq_iff pair]

theorem Paired.contains_eq {xs ys : List Nat} (all : List.Forall₂ (Paired w p) xs ys) (pair : Paired w p x y) :
    xs.contains x = ys.contains y := by
  induction all with
  | nil => rfl
  | cons first _ ih =>
    rw [List.contains_cons, List.contains_cons, ih]
    refine congrArg (· || _) (Bool.eq_iff_iff.mpr ?_)
    rw [beq_iff_eq, beq_iff_eq, pair.eq_iff first]

end CompileState

open CompileState (Paired Evolves)

/-- Members of the same block that are bound to the same. -/
structure SharedVariable.Agree (w p : CompileState) (a b : SharedVariable) : Prop where
  entry_eq : a.entry = b.entry
  paired : Paired w p a.block b.block
  use_eq : a.bound.use = b.bound.use

/-- Bindings that are the same but for the places of blocks. -/
structure LeafBindings.Agree (w p : CompileState) (a b : LeafBindings) : Prop where
  buffers_eq : a.buffers = b.buffers
  textures_eq : a.textures = b.textures
  bytes_eq : a.bytes = b.bytes
  shared : List.Forall₂ (Paired w p) a.shared b.shared
  members : List.Forall₂ (SharedVariable.Agree w p) a.members b.members

namespace LeafBindings.Agree

variable {w p w' p' : CompileState} {a b : LeafBindings}

theorem mono (agree : Agree w p a b) (evolves : Evolves w w') (evolves' : Evolves p p') : Agree w' p' a b where
  buffers_eq := agree.buffers_eq
  textures_eq := agree.textures_eq
  bytes_eq := agree.bytes_eq
  shared := agree.shared.imp fun _ _ paired => paired.mono evolves evolves'
  members := agree.members.imp fun _ _ same => ⟨same.entry_eq, same.paired.mono evolves evolves', same.use_eq⟩

/-- An entry point declares the same. -/
theorem declarations_eq (agree : Agree w p a b) (entry : String) : a.declarations entry = b.declarations entry := by
  have spaces : a.ownSpaces = b.ownSpaces := by rw [ownSpaces, ownSpaces, agree.buffers_eq, agree.textures_eq]
  have own : List.Forall₂ (SharedVariable.Agree w p) (a.members.filter (·.entry == entry))
      (b.members.filter (·.entry == entry)) := by
    refine List.rel_filter (fun x y same => ?_) agree.members
    simp only [same.entry_eq]
  rw [declarations, declarations, spaces]
  refine congrArg (_ ++ ·) ?_
  rw [← List.forall₂_eq_eq_eq, List.forall₂_map_left_iff, List.forall₂_map_right_iff]
  refine own.imp fun x y same => ?_
  rw [Paired.idxOf?_eq agree.shared same.paired]
  exact BoundVariable.declaration_eq same.use_eq _

end LeafBindings.Agree

/-- Arguments of an entry point that are bound so far. -/
structure ArgumentScan.Agree (w p : CompileState) (a b : ArgumentScan) : Prop where
  pool_eq : a.pool = b.pool
  patch_eq : a.patch = b.patch
  bindings : a.bindings.Agree w p b.bindings

namespace Compile

open CompileState (Matches)

variable {α β : Type} {first count place : Nat} {start : CompileState} {table : ResourceTable}

/-- What the two runs of a leaf keep: the states match and are sane. -/
structure Aligned (first count : Nat) (start whole part : CompileState) : Prop
    extends Matches first count start whole part where
  sane : whole.Sane
  sane' : part.Sane

/-! ### What grows with the states -/

/-- A relation that growing states do not lose. -/
def Stable (kept : CompileState → CompileState → Prop) : Prop :=
  ∀ w w' p p', Evolves w w' → Evolves p p' → kept w p → kept w' p'

/-- A step only lets the state grow. -/
def Growing (step : Compile α) : Prop := ∀ s a s', step.run s = .ok (a, s') → Evolves s s'

theorem Tracks.keep {between kept : CompileState → CompileState → Prop} {whole part : Compile α}
    (tracks : Tracks between whole part) (grows : Growing whole) (grows' : Growing part) (stable : Stable kept) :
    Tracks (fun w p => between w p ∧ kept w p) whole part := by
  rintro w p ⟨holds, held⟩ a w' run
  obtain ⟨b, p', ran, same, done⟩ := tracks w p holds a w' run
  exact ⟨b, p', ran, same, done, stable w w' p p' (grows w a w' run) (grows' p b p' ran) held⟩

/-- States stay sane while they grow. -/
theorem Tracks.aligned {whole part : Compile α} (tracks : Tracks (Matches first count start) whole part)
    (grows : Growing whole) (grows' : Growing part) : Tracks (Aligned first count start) whole part := by
  have stable : Stable fun w p => w.Sane ∧ p.Sane := fun _ _ _ _ evolves evolves' sane =>
    ⟨evolves.sane sane.1, evolves'.sane sane.2⟩
  intro w p aligned a w' run
  obtain ⟨b, p', ran, same, matching, sane, sane'⟩ :=
    tracks.keep grows grows' stable w p ⟨aligned.toMatches, aligned.sane, aligned.sane'⟩ a w' run
  exact ⟨b, p', ran, same, matching, sane, sane'⟩

/-! ### Blocks -/

/-- A use of a block fits in the part when it fits in the whole program. -/
theorem bindBlock_matches (inside : place < count) (function block : String) (members : List Argument) (stage : Stage) :
    Mirrors (Matches first count start) (bindBlock table (first + place) function block members stage)
      (bindBlock table place function block members stage)
      fun a b w p => Matches first count start w p ∧ a.2.map (·.use) = b.2.map (·.use) := by
  unfold bindBlock
  dsimp only
  split
  case h_2 => exact .ofFailBind
  rename_i pool _
  refine (Tracks.ofPure pool).bind fun pool => ?_
  refine ((matches_keepsUnit inside).keepsTypes.bindMembers block stage members pool).bind fun bound => .ofGet fun w p matching => ?_
  have whole := w.lookup_listing block
  have part := p.lookup_listing block
  have known := matching.blocks block
  cases found : w.blocks.findIdx? (·.name == block) with
  | some x =>
    rw [found, Option.map_some] at whole
    dsimp only
    split
    case isFalse => exact .ofFail
    rename_i fits
    rw [fits_iff] at fits
    cases found' : p.blocks.findIdx? (·.name == block) with
    | some y =>
      rw [found', Option.map_some] at part
      have fits' := Option.some.inj (whole.symm.trans (known _ part))
      dsimp only
      rw [if_pos ((fits_iff _ _).mpr (fits'.symm.trans fits))]
      refine Mirrors.bind (.ofSet fun _ _ _ => ?_) fun _ _ => .ofPure fun _ _ held => ⟨held, ?_⟩
      · refine matching.onBlocks rfl rfl ?_
        rw [CompileState.listing_again, CompileState.listing_again]
        exact matching.blocks
      · simpa [BoundVariable.use, addStage, Function.comp_def] using fits'
    | none =>
      -- the whole program has the block from another unit; the part registers it now
      rintro _ _ ⟨rfl, rfl⟩ a w' run
      obtain ⟨_, _, changed, run⟩ := bind_ok run
      cases set_ok changed
      obtain ⟨rfl, rfl⟩ := pure_ok run
      refine ⟨_, _, rfl, matching.register rfl rfl rfl ?_ ?_, ?_⟩
      · rw [CompileState.listing_again, whole]
        exact congrArg some fits
      · intro name uses listed
        rw [CompileState.listing_again, listed]
      · simpa [BoundVariable.use, addStage, Function.comp_def] using fits
  | none =>
    rw [found, Option.map_none] at whole
    cases found' : p.blocks.findIdx? (·.name == block) with
    | some y =>
      rw [found', Option.map_some] at part
      cases whole.symm.trans (known _ part)
    | none =>
      rintro _ _ ⟨rfl, rfl⟩ a w' run
      obtain ⟨_, _, noted, run⟩ := bind_ok run
      cases modify_ok noted
      obtain ⟨_, _, changed, run⟩ := bind_ok run
      cases modify_ok changed
      obtain ⟨rfl, rfl⟩ := pure_ok run
      refine ⟨_, _, rfl, matching.register rfl rfl rfl ?_ ?_, rfl⟩
      · rw [CompileState.lookup_register rfl]
        exact .inr ⟨whole, rfl, rfl⟩
      · intro name uses listed
        rw [CompileState.lookup_register rfl]
        exact .inl listed

/-- The block of a use has one place in the whole program and one in the part. -/
theorem bindBlock_mirrors {kept : CompileState → CompileState → Prop} (stable : Stable kept) (inside : place < count)
    (function block : String) (members : List Argument) (stage : Stage) :
    Mirrors (fun w p => Aligned first count start w p ∧ kept w p)
      (bindBlock table (first + place) function block members stage) (bindBlock table place function block members stage)
      fun a b w p => a.2.map (·.use) = b.2.map (·.use) ∧ Paired w p a.1 b.1 ∧ Aligned first count start w p ∧ kept w p := by
  rintro w p ⟨aligned, held⟩ ⟨x, seen⟩ w' run
  obtain ⟨⟨y, seen'⟩, p', ran, matching, same⟩ :=
    bindBlock_matches inside function block members stage w p aligned.toMatches _ w' run
  obtain ⟨grown, registered, -⟩ := bindBlock_ok run
  obtain ⟨grown', registered', -⟩ := bindBlock_ok ran
  have sane := grown.sane aligned.sane
  have sane' := grown'.sane aligned.sane'
  exact ⟨_, p', ran, same,
    ⟨block, registered.mem_names, registered'.mem_names, registered.place_eq sane, registered'.place_eq sane'⟩,
    ⟨matching, sane, sane'⟩, stable w w' p p' grown.toEvolves grown'.toEvolves held⟩

/-! ### Arguments -/

theorem agree_stable (a b : LeafBindings) : Stable fun w p => a.Agree w p b :=
  fun _ _ _ _ evolves evolves' agree => agree.mono evolves evolves'

theorem scan_stable (a b : ArgumentScan) : Stable fun w p => a.Agree w p b :=
  fun _ _ _ _ evolves evolves' agree => ⟨agree.pool_eq, agree.patch_eq, agree.bindings.mono evolves evolves'⟩

/-- A block is noted when an entry point first shares it. -/
theorem shareBlock_agree {w p : CompileState} {x y : Nat} (paired : Paired w p x y) {a b : ArgumentScan}
    (agree : a.Agree w p b) :
    ArgumentScan.Agree w p
      { a with bindings := { a.bindings with
          shared := if a.bindings.shared.contains x then a.bindings.shared else a.bindings.shared ++ [x] } }
      { b with bindings := { b.bindings with
          shared := if b.bindings.shared.contains y then b.bindings.shared else b.bindings.shared ++ [y] } } := by
  obtain ⟨pool_eq, patch_eq, buffers, textures, bytes, shared, members⟩ := agree
  refine ⟨pool_eq, patch_eq, buffers, textures, bytes, ?_, members⟩
  rw [Paired.contains_eq shared paired]
  split
  · exact shared
  · exact List.rel_append shared (.cons paired .nil)

/-- An entry point that shares a block shares the same members. -/
theorem shareMember_agree {w p : CompileState} {x y : Nat} {seen seen' : List BoundVariable} (paired : Paired w p x y)
    (same : seen.map (·.use) = seen'.map (·.use)) (entry : String) {a b : ArgumentScan} (agree : a.Agree w p b) :
    (seen.foldl (shareMember entry x) a).Agree w p (seen'.foldl (shareMember entry y) b) := by
  rw [← List.forall₂_eq_eq_eq, List.forall₂_map_left_iff, List.forall₂_map_right_iff] at same
  induction same generalizing a b with
  | nil => exact agree
  | @cons one other _ _ same _ ih =>
    have name_eq : one.spec.name = other.spec.name := congrArg MemberUse.name same
    refine ih ⟨agree.pool_eq, ?_, ?_⟩
    · simp only [shareMember, agree.patch_eq, name_eq]
    · obtain ⟨buffers, textures, bytes, shared, members⟩ := agree.bindings
      refine ⟨buffers, textures, bytes, shared, List.rel_append members (.cons ⟨rfl, paired, ?_⟩ .nil)⟩
      simp only [BoundVariable.use, MemberUse.mk.injEq] at same ⊢
      simp [same]

theorem bindPlain_aligned {kept : CompileState → CompileState → Prop} (stable : Stable kept) (inside : place < count)
    (function : String) (argument : Argument) (binding : Nat) (stage : Stage) (bytes : List BytesSlot) :
    Tracks (fun w p => Aligned first count start w p ∧ kept w p)
      (bindPlain table (first + place) function argument binding stage bytes)
      (bindPlain table place function argument binding stage bytes) := by
  have grows (unit : Nat) : Growing (bindPlain table unit function argument binding stage bytes) :=
    fun _ _ _ run => (bindPlain_ok run).1.toEvolves
  refine Tracks.keep (.aligned ?_ (grows _) (grows _)) (grows _) (grows _) stable
  exact (matches_keepsUnit inside).keepsTypes.bindPlain function argument binding stage bytes

/-- An argument is bound to the same in both. -/
theorem bindArgument_mirrors (inside : place < count) (job : EntryJob) (entry : String) (argument : Argument)
    (a b : ArgumentScan) :
    Mirrors (fun w p => Aligned first count start w p ∧ a.Agree w p b)
      (bindArgument table (first + place) job entry a argument) (bindArgument table place job entry b argument)
      fun a b w p => Aligned first count start w p ∧ a.Agree w p b := by
  refine .given (fun w p held => held.2.pool_eq) fun pool_eq => ?_
  refine .given (fun w p held => held.2.bindings.bytes_eq) fun bytes_eq => ?_
  unfold bindArgument
  dsimp only
  split
  · rename_i name members _
    refine (bindBlock_mirrors (scan_stable a b) inside job.name name members job.stage).bind fun _ _ => .ofPure ?_
    rintro w p ⟨same, paired, aligned, agree⟩
    exact ⟨aligned, shareMember_agree paired same entry (shareBlock_agree paired agree)⟩
  · rw [pool_eq, bytes_eq]
    refine (bindPlain_aligned (scan_stable a b) inside job.name argument _ job.stage _).bind fun made => .ofPure ?_
    rintro w p ⟨aligned, -, patch_eq, buffers, textures, -, shared, members⟩
    refine ⟨aligned, rfl, congrArg (fun patch : Patch => patch.rename _ _) patch_eq, ?_⟩
    dsimp only
    split
    · exact ⟨congrArg (· ++ _) buffers, textures, rfl, shared, members⟩
    · exact ⟨buffers, congrArg (· ++ _) textures, rfl, shared, members⟩

/-- The arguments of an entry point are bound to the same in both. -/
theorem bindArguments_mirrors (start : CompileState) (inside : place < count) (job : EntryJob) (entry : String)
    (a b : ArgumentScan) :
    Mirrors (fun w p => Aligned first count start w p ∧ a.Agree w p b)
      (bindArguments table (first + place) job entry a) (bindArguments table place job entry b)
      fun a b w p => Aligned first count start w p ∧ a.Agree w p b :=
  Mirrors.foldlM (bindArgument_mirrors inside job entry) job.arguments a b

theorem bindGrid_agree {w p : CompileState} (job : EntryJob) (entry : String) (plan : GridPlan) {a b : ArgumentScan}
    (agree : a.Agree w p b) : (bindGrid job entry plan a).1 = (bindGrid job entry plan b).1 ∧
      (bindGrid job entry plan a).2.Agree w p (bindGrid job entry plan b).2 := by
  unfold bindGrid
  dsimp only
  split
  · exact ⟨rfl, agree⟩
  · split
    · obtain ⟨pool_eq, patch_eq, buffers, textures, bytes, shared, members⟩ := agree
      rw [pool_eq, patch_eq, buffers]
      exact ⟨rfl, rfl, rfl, rfl, textures, bytes, shared, members⟩
    · exact ⟨rfl, agree⟩

end Compile

end FrameGraph
