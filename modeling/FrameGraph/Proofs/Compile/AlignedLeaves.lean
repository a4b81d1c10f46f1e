import FrameGraph.Compile.Program
import FrameGraph.Proofs.Compile.Alignment

/-! # Leaves of a part

A leaf that compiles in the whole program compiles in the part, too, and its unit gets the same text. No leaf changes
another unit than its own.
-/

namespace FrameGraph.Compile

open CompileState (Matches Evolves)

variable {α β : Type} {first count place : Nat} {start : CompileState} {table : ResourceTable} {caps : DeviceCaps}

/-! ### Kernels -/

theorem giveEntry_aligned (inside : place < count) (name : String) :
    Tracks (Aligned first count start) (giveEntry (first + place) name) (giveEntry place name) :=
  ((matches_keepsUnit inside).giveEntry name).aligned (fun _ _ _ run => (giveEntry_ok run).1.toEvolves)
    fun _ _ _ run => (giveEntry_ok run).1.toEvolves

theorem log_aligned (level level' : LogLevel) (source source' : LogSource) (text text' : String) :
    Tracks (Aligned first count start) (log level source text) (log level' source' text') :=
  (log_tracks level level' source source' text text').aligned (fun _ _ _ run => (log_ok run).toEvolves)
    fun _ _ _ run => (log_ok run).toEvolves

theorem addText_aligned (inside : place < count) (label : String) {bindings bindings' : LeafBindings}
    {entries : List (String × String)} (same : ∀ entry, bindings.declarations entry = bindings'.declarations entry) :
    Tracks (Aligned first count start) (addText (first + place) label bindings entries)
      (addText place label bindings' entries) := by
  have grows (unit : Nat) (bindings : LeafBindings) : Growing (addText unit label bindings entries) := by
    intro s _ s' run
    rw [modify_ok run]
    exact evolves_withText s unit (leafText label bindings entries)
  exact (addText_tracks inside label same).aligned (grows _ _) (grows _ _)

theorem dispatch_mirrors (inside : place < count) (node : Dispatch) :
    Mirrors (Aligned first count start) (dispatch table caps (first + place) node) (dispatch table caps place node)
      fun _ _ => Aligned first count start := by
  unfold dispatch
  refine (Tracks.ofExcept _).bind fun job => ?_
  dsimp only
  split
  case h_2 => exact .ofFailBind
  rename_i resolved _
  refine (Tracks.ofPure resolved).bind fun resolved => (Tracks.ofExcept _).bind fun fixed => ?_
  refine (giveEntry_aligned inside job.name).bind fun entry => .logged (log_aligned _ _ _ _ _ _) ?_
  refine (Tracks.ofExcept _).bind fun pool => ?_
  refine Mirrors.bind (.pre (bindArguments_mirrors start inside job entry _ _) ?_) fun a b => ?_
  · exact fun w p aligned => ⟨aligned, rfl, rfl, rfl, rfl, rfl, .nil, .nil⟩
  obtain ⟨planned, attr⟩ := fixed
  have granted (w p : CompileState) (held : Aligned first count start w p ∧ a.Agree w p b) :
      (bindGrid job entry planned a).1 = (bindGrid job entry planned b).1 ∧
        (bindGrid job entry planned a).2.patch = (bindGrid job entry planned b).2.patch ∧
        ∀ function, (bindGrid job entry planned a).2.bindings.declarations function =
          (bindGrid job entry planned b).2.bindings.declarations function :=
    have ⟨plan_eq, agree⟩ := bindGrid_agree job entry planned held.2
    ⟨plan_eq, agree.patch_eq, agree.bindings.declarations_eq⟩
  refine .given granted fun ⟨plan_eq, patch_eq, declarations_eq⟩ => ?_
  dsimp only
  rw [plan_eq, patch_eq]
  refine .pre ?_ fun w p held => held.1
  refine (Tracks.patched _ _).bind fun code => ?_
  exact (addText_aligned inside node.label declarations_eq).bind fun _ => .ofPure fun _ _ => id

/-! ### Draws -/

/-- Entry points of a draw that are the same but for the places of blocks. -/
structure DrawnAgree (w p : CompileState) (x y : String × String × IndexPool × LeafBindings) : Prop where
  entry_eq : x.1 = y.1
  code_eq : x.2.1 = y.2.1
  pool_eq : x.2.2.1 = y.2.2.1
  bindings : x.2.2.2.Agree w p y.2.2.2

theorem drawEntry_mirrors (start : CompileState) (inside : place < count) (job : EntryJob) (pool : IndexPool)
    (a b : LeafBindings) :
    Mirrors (fun w p => Aligned first count start w p ∧ a.Agree w p b) (drawEntry table (first + place) job pool a)
      (drawEntry table place job pool b) fun x y w p => Aligned first count start w p ∧ DrawnAgree w p x y := by
  have grows (unit : Nat) : Growing (giveEntry unit job.name) := fun _ _ _ run => (giveEntry_ok run).1.toEvolves
  refine ((giveEntry_aligned inside job.name).keep (grows _) (grows _) (agree_stable a b)).bind fun entry => ?_
  refine Mirrors.bind (.pre (bindArguments_mirrors start inside job entry ⟨pool, a, _⟩ ⟨pool, b, _⟩) ?_)
    fun x y => .given (fun _ _ held => held.2.patch_eq) fun patch_eq => ?_
  · exact fun w p held => ⟨held.1, rfl, rfl, held.2⟩
  · dsimp only
    rw [patch_eq]
    refine (Tracks.patched _ _).bind fun code => .ofPure fun w p held => ?_
    exact ⟨held.1, rfl, rfl, held.2.pool_eq, held.2.bindings⟩

theorem draw_mirrors (inside : place < count) (node : Draw) :
    Mirrors (Aligned first count start) (draw table (first + place) node) (draw table place node)
      fun _ _ => Aligned first count start := by
  unfold draw
  dsimp only
  split
  · exact .ofFailBind
  refine (Tracks.ofExcept _).bind fun vertex => (Tracks.ofExcept _).bind fun fragment => ?_
  refine (Tracks.ofExcept _).bind fun pool => ?_
  refine Mirrors.bind (.pre (drawEntry_mirrors start inside vertex pool {} {}) ?_) fun x y => ?_
  · exact fun w p aligned => ⟨aligned, rfl, rfl, rfl, .nil, .nil⟩
  have first_eq (w p : CompileState) (held : Aligned first count start w p ∧ DrawnAgree w p x y) :
      x.1 = y.1 ∧ x.2.1 = y.2.1 ∧ x.2.2.1 = y.2.2.1 := ⟨held.2.entry_eq, held.2.code_eq, held.2.pool_eq⟩
  refine .given first_eq fun ⟨entry_eq, code_eq, pool_eq⟩ => ?_
  rw [entry_eq, code_eq, pool_eq]
  refine Mirrors.bind (.pre (drawEntry_mirrors start inside fragment _ _ _) ?_) fun x' y' => ?_
  · exact fun w p held => ⟨held.1, held.2.bindings⟩
  have second_eq (w p : CompileState) (held : Aligned first count start w p ∧ DrawnAgree w p x' y') :
      x'.1 = y'.1 ∧ x'.2.1 = y'.2.1 ∧ ∀ function, x'.2.2.2.declarations function = y'.2.2.2.declarations function :=
    ⟨held.2.entry_eq, held.2.code_eq, held.2.bindings.declarations_eq⟩
  refine .given second_eq fun ⟨entry_eq, code_eq, declarations_eq⟩ => ?_
  rw [entry_eq, code_eq]
  have grows : Growing (drawResources table node) := fun _ _ _ run => (drawResources_ok .host run).1.toEvolves
  refine .pre ?_ fun w p held => held.1
  refine ((matches_keepsUses.drawResources node.label node).aligned grows grows).bind fun _ => ?_
  exact (addText_aligned inside node.label declarations_eq).bind fun _ => .ofPure fun _ _ => id

/-! ### Leaves -/

/-- A leaf compiles alone when it compiles in the whole program, and its unit goes on matching. -/
theorem leaf_mirrors (inside : place < count) (node : Leaf) :
    Mirrors (Aligned first count start) (leaf table caps (first + place) node) (leaf table caps place node)
      fun _ _ => Aligned first count start := by
  cases node with
  | dispatch node => exact (dispatch_mirrors inside node).bind fun _ _ => .ofPure fun _ _ => id
  | draw node => exact (draw_mirrors inside node).bind fun _ _ => .ofPure fun _ _ => id
  | blit node =>
    have grows : Growing (blit table node) := fun _ _ _ run => (blit_ok run).1.toEvolves
    exact ((matches_keepsUses.blit node.label node).aligned grows grows).bind fun _ => .ofPure fun _ _ => id
  | filter node =>
    have grows : Growing (filter table node) := fun _ _ _ run => (filter_ok run).1.toEvolves
    exact ((matches_keepsUses.filter node.label node).aligned grows grows).bind fun _ => .ofPure fun _ _ => id
  | callback node => exact .ofPure fun _ _ => id

theorem flatLeaf_mirrors {flat flat' : FlatLeaf} (node : flat.node = flat'.node) (unit : flat.unit = first + flat'.unit)
    (inside : flat'.unit < count) :
    Mirrors (Aligned first count start) (flatLeaf table caps flat) (flatLeaf table caps flat')
      fun _ _ => Aligned first count start := by
  unfold flatLeaf
  rw [node, unit]
  refine (leaf_mirrors inside flat'.node).bind fun _ _ => ?_
  exact (log_aligned _ _ _ _ _ _).bind fun _ => .ofPure fun _ _ => id

/-! ### Runs -/

theorem leaves_mirrors {flats flats' : List FlatLeaf}
    (same : List.Forall₂ (fun flat flat' => flat.node = flat'.node ∧ flat.unit = first + flat'.unit) flats flats')
    (inside : ∀ flat ∈ flats', flat.unit < count) :
    Mirrors (Aligned first count start) (flats.mapM (flatLeaf table caps)) (flats'.mapM (flatLeaf table caps))
      fun _ _ => Aligned first count start := by
  obtain ⟨length_eq, each⟩ := List.forall₂_iff_zip.mp same
  have all := List.forall₂_iff_zip.mpr ⟨length_eq, fun {flat flat'} found =>
    And.intro (each found) (inside flat' (List.of_mem_zip found).2)⟩
  exact .mapM all fun _ _ ⟨⟨node, unit⟩, inside⟩ => flatLeaf_mirrors node unit inside

variable {state after : CompileState}

/-- A leaf changes no unit but its own. -/
theorem flatLeaf_apart {flat : FlatLeaf} {compiled : CompiledLeaf} (sane : state.Sane)
    (inside : flat.unit < state.units.length) (run : (flatLeaf table caps flat).run state = .ok (compiled, after)) :
    Evolves state after ∧ ∀ other ≠ flat.unit, after.units[other]? = state.units[other]? := by
  refine ⟨?_, fun other elsewhere => ?_⟩
  · obtain ⟨made, middle, leafed, run⟩ := bind_ok run
    obtain ⟨_, _, traced, run⟩ := bind_ok run
    obtain ⟨rfl, rfl⟩ := pure_ok run
    exact (leaf_ok sane inside leafed).toEvolves.trans (log_ok traced).toEvolves
  · -- its unit is a part of its own, which leaves everything else outside
    have found := List.getElem?_eq_getElem inside
    have aligned : Aligned flat.unit 1 state state { state with units := [state.units[flat.unit]] } := {
      length_eq := rfl
      units := fun place within => by
        obtain rfl : place = 0 := by omega
        rw [Nat.add_zero, found]
        rfl
      outside := fun _ _ => rfl
      blocks := fun _ _ => id
      sane := sane
      sane' := ⟨sane.names, sane.group_eq, sane.members, sane.unfed⟩ }
    have mirrors : Mirrors (Aligned flat.unit 1 state) (flatLeaf table caps flat)
        (flatLeaf table caps { flat with unit := 0 }) fun _ _ => Aligned flat.unit 1 state :=
      flatLeaf_mirrors rfl rfl Nat.one_pos
    obtain ⟨_, _, -, done⟩ := mirrors _ _ aligned _ _ run
    exact done.outside other (by omega)

/-- A run changes no units but those of its leaves. -/
theorem leaves_apart {flats : List FlatLeaf} {compiled : List CompiledLeaf} (sane : state.Sane)
    (inside : ∀ flat ∈ flats, flat.unit < state.units.length)
    (run : (flats.mapM (flatLeaf table caps)).run state = .ok (compiled, after)) :
    Evolves state after ∧ ∀ other, (∀ flat ∈ flats, flat.unit ≠ other) → after.units[other]? = state.units[other]? := by
  induction flats generalizing state compiled with
  | nil =>
    rw [List.mapM_nil] at run
    obtain ⟨-, rfl⟩ := pure_ok run
    exact ⟨.refl state, fun _ _ => rfl⟩
  | cons flat rest ih =>
    rw [List.mapM_cons] at run
    obtain ⟨first, next, one, run⟩ := bind_ok run
    obtain ⟨others, last, more, run⟩ := bind_ok run
    obtain ⟨-, rfl⟩ := pure_ok run
    rw [List.forall_mem_cons] at inside
    obtain ⟨evolves, kept⟩ := flatLeaf_apart sane inside.1 one
    obtain ⟨evolves', kept'⟩ := ih (evolves.sane sane) (evolves.units ▸ inside.2) more
    refine ⟨evolves.trans evolves', fun other elsewhere => ?_⟩
    rw [List.forall_mem_cons] at elsewhere
    rw [kept' other elsewhere.2, kept other (Ne.symm elsewhere.1)]

end FrameGraph.Compile
