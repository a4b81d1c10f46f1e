import FrameGraph.Proofs.Pass.Blocks

/-! # Uploads of passes

Preparation uploads the values of a pass to the blocks that it has. With what its groups bind, this tells which bindings
of a launch or a draw get what the frame has sampled.
-/

namespace FrameGraph

open Session (Counts)

variable {since : Nat} {start : Session Recorder} {view : PassView}

/-- What was uploaded since a session was this one. -/
def Session.written (first session : Session Recorder) : List BufferWrite :=
  session.host.device.writes.drop first.host.device.writes.length

/-- Uploads stay on record. -/
theorem Session.written_mono {first session later : Session Recorder}
    (advances : session.host.device.Advances later.host.device) {write : BufferWrite}
    (found : write ∈ first.written session) : write ∈ first.written later := by
  obtain ⟨more, same⟩ := advances.writes
  rw [Session.written, ← same, List.drop_append]
  exact List.mem_append_left _ found

/-- An upload goes on record. -/
theorem Session.upload_written {first : Session Recorder} {done : List BufferWrite} (buffer : Buffer) (bytes : List UInt8) :
    Effect.Ensures (fun session => (∀ write ∈ done, write ∈ first.written session) ∧ Counts since first session)
      (Session.upload buffer bytes)
      (fun _ session => (∀ write ∈ done ++ [⟨buffer, 0, bytes⟩], write ∈ first.written session) ∧ Counts since first session)
      fun (_ : PassError) => Counts since first := by
  refine .ofModify fun session held => ?_
  obtain ⟨before, counts⟩ := held
  have step : Counts since session { session with host :=
      { session.host with device := Device.writeBuffer buffer 0 bytes session.host.device } } :=
    ⟨rfl, ⟨Nat.le_refl _, List.prefix_append _ _⟩, Nat.le_trans counts.since counts.device.nextId⟩
  refine ⟨?_, counts.trans step⟩
  rw [List.forall_mem_append, List.forall_mem_singleton]
  refine ⟨fun write found => Session.written_mono step.device (before write found), ?_⟩
  have short := counts.device.writes.length_le
  simp only [Session.written, Device.writeBuffer, Recorder.writeBuffer]
  rw [List.drop_append_of_le_length short]
  exact List.mem_append_right _ (List.mem_singleton_self _)

namespace Bindings

/-- What the pass uploads to the block behind a binding. -/
def value? (bindings : Bindings) (shared : Shared) (grid : Option Axes) : BindingSource → Option (List UInt8)
  | .bytes slot => bindings.bytes[slot]?.map (blockBytes shared)
  | .gridExtent => grid.map GridPlan.extentBytes
  | .buffer _ | .texture _ => none

/-- What the pass feeds has been uploaded since `first`. -/
def Uploaded (first session : Session Recorder) (grid : Option Axes) (bindings : Bindings) : Prop :=
  ∀ source block bytes, bindings.block? source = some block → bindings.value? first.shared grid source = some bytes →
    ⟨block, 0, bytes⟩ ∈ first.written session

variable {first : Session Recorder}

theorem Uploaded.mono {session later : Session Recorder} {grid : Option Axes} {bindings : Bindings}
    (uploaded : bindings.Uploaded first session grid) (advances : session.host.device.Advances later.host.device) :
    bindings.Uploaded first later grid :=
  fun source block bytes has value => Session.written_mono advances (uploaded source block bytes has value)

/-- Uploads of several slots go on record one after the other. -/
theorem uploads_written (entries : List (BytesSlot × Buffer)) : ∀ done : List BufferWrite,
    Effect.Ensures (fun session => (∀ write ∈ done, write ∈ first.written session) ∧ Counts since first session)
      (entries.forM fun (slot, buffer) => Session.upload buffer (blockBytes first.shared slot))
      (fun _ session => (∀ write ∈ done ++ entries.map fun (slot, buffer) => ⟨buffer, 0, blockBytes first.shared slot⟩,
        write ∈ first.written session) ∧ Counts since first session)
      fun (_ : PassError) => Counts since first := by
  induction entries with
  | nil =>
    intro done
    refine .ofPure fun session held => ?_
    rwa [List.map_nil, List.append_nil]
  | cons entry rest ih =>
    intro done
    refine (Session.upload_written _ _).bind fun _ => (ih _).mono (fun _ session held => ?_) fun _ _ => id
    rw [List.map_cons, List.append_cons]
    exact held

theorem uploadBytes_uploaded (bindings : Bindings) :
    Effect.Ensures (Counts since first) (bindings.uploadBytes (σ := Recorder))
      (fun _ session => bindings.Uploaded first session none ∧ Counts since first session)
      fun _ => Counts since first := by
  refine .ofGet fun session counts => ?_
  rw [counts.shared_eq]
  refine .pre ?_ ((uploads_written (bindings.bytes.zip bindings.bytesBuffers) []).mono ?_ fun _ _ => id)
  · rintro _ rfl
    exact ⟨List.forall_mem_nil _, counts⟩
  · rintro _ later ⟨all, counts⟩
    refine ⟨fun source block bytes has value => ?_, counts⟩
    cases source with
    | bytes slot =>
      obtain ⟨listed, found, rfl⟩ := Option.map_eq_some_iff.mp value
      apply all
      rw [List.nil_append, List.mem_map]
      exact ⟨(listed, block), List.mem_of_getElem? (List.getElem?_zip_eq_some.mpr ⟨found, has⟩), rfl⟩
    | gridExtent => cases value
    | buffer handle => cases value
    | texture handle => cases value

theorem uploadGrid_uploaded (bindings : Bindings) (grid : Axes) :
    Effect.Ensures (fun session => bindings.Uploaded first session none ∧ Counts since first session)
      (bindings.uploadGrid (σ := Recorder) grid)
      (fun _ session => bindings.Uploaded first session (some grid) ∧ Counts since first session)
      fun _ => Counts since first := by
  have joins {session : Session Recorder} (uploaded : bindings.Uploaded first session none)
      (block : ∀ block, bindings.gridBuffer = some block →
        ⟨block, 0, GridPlan.extentBytes grid⟩ ∈ first.written session) : bindings.Uploaded first session (some grid) := by
    intro source found bytes has value
    cases source with
    | bytes slot => exact uploaded (.bytes slot) found bytes has value
    | gridExtent =>
      cases value
      exact block found has
    | buffer handle => cases value
    | texture handle => cases value
  unfold uploadGrid
  cases is : bindings.gridBuffer with
  | none =>
    refine .ofPure fun session held => ⟨joins held.1 fun block has => ?_, held.2⟩
    rw [is] at has
    cases has
  | some block =>
    refine .ofEach fun session held => ?_
    have uploads : Effect.Ensures (fun later => (∀ write ∈ [], write ∈ first.written later) ∧ Counts since first later)
        (Session.upload block (GridPlan.extentBytes grid)) _ fun (_ : PassError) => Counts since first :=
      Session.upload_written block (GridPlan.extentBytes grid)
    have steps : Effect.Keeps (Counts since session) (Session.upload (σ := Recorder) block (GridPlan.extentBytes grid)) :=
      (Counts.accepting since session).upload block _
    refine .pre ?_ ((uploads.and steps).mono ?_ fun _ _ => And.left)
    · rintro _ rfl
      exact ⟨⟨List.forall_mem_nil _, held.2⟩, held.2.again⟩
    · rintro _ later ⟨⟨written, counts⟩, step⟩
      refine ⟨joins (held.1.mono step.device) fun other has => ?_, counts⟩
      rw [is] at has
      cases has
      exact written _ (List.mem_singleton_self _)

end Bindings

/-! ### Setup and preparation of passes -/

section

variable {before failed : Bindings → Session Recorder → Prop} {ok : Bindings → Session Recorder → Prop}

/-- A kernel pass sets its bindings up after its pipeline. -/
theorem DispatchPass.setup_bound (accepting : ∀ bindings, Session.Accepting (fun _ => True) (before bindings))
    (sooner : ∀ bindings session, before bindings session → failed bindings session)
    (bound : PartEffect.Ensures before (Bindings.setup (σ := Recorder) view) (fun _ => ok) fun _ => failed) :
    PartEffect.Ensures (fun pass session => before pass.bindings session) (setup (σ := Recorder) view)
      (fun _ pass session => ok pass.bindings session) fun _ pass session => failed pass.bindings session := by
  refine .ofGet fun pass session held => .ofLook fun _ now here => ?_
  refine .pre (fun _ _ here => here.1 ▸ here.2 ▸ held :
    ∀ (p : DispatchPass) s, p = pass ∧ s = session → before p.bindings s) ?_
  refine .ofNeed (fun module _ => ?_) fun _ p s here => sooner p.bindings s here
  have created (spec : ComputePipelineSpec) : PartEffect.Ensures
      (fun (p : DispatchPass) s => before p.bindings s)
      (PartEffect.around (Session.perform pass.label (Device.createComputePipeline spec)))
      (fun _ p s => before p.bindings s) fun _ p s => failed p.bindings s :=
    .around fun p => ((accepting p.bindings).perform pass.label (.createComputePipeline spec)
      (LawfulDevice.createComputePipeline spec)).mono (fun _ _ => And.right) fun _ => sooner p.bindings
  have piped (pipeline : ComputePipeline) : PartEffect.Ensures (fun (p : DispatchPass) s => before p.bindings s)
      (modify fun pass => { pass with pipeline := some pipeline } : PassM DispatchPass Recorder Unit)
      (fun _ p s => before p.bindings s) fun _ p s => failed p.bindings s := .ofModify fun _ _ => id
  refine (created _).bind fun pipeline => (piped pipeline).bind fun _ => .inPart fun p => ?_
  refine .pre ?_ bound
  rintro _ s ⟨rfl, here⟩
  exact here

/-- So does a draw. -/
theorem DrawPass.setup_bound (accepting : ∀ bindings, Session.Accepting (fun _ => True) (before bindings))
    (sooner : ∀ bindings session, before bindings session → failed bindings session)
    (bound : PartEffect.Ensures before (Bindings.setup (σ := Recorder) view) (fun _ => ok) fun _ => failed) :
    PartEffect.Ensures (fun pass session => before pass.bindings session) (setup (σ := Recorder) view)
      (fun _ pass session => ok pass.bindings session) fun _ pass session => failed pass.bindings session := by
  refine .ofGet fun pass session held => ?_
  refine .pre (fun _ _ here => here.1 ▸ here.2 ▸ held :
    ∀ (p : DrawPass) s, p = pass ∧ s = session → before p.bindings s) ?_
  refine .ofExcept (fun formats _ => ?_) fun _ _ p s here => sooner p.bindings s here
  have built : PartEffect.Keeps (fun (p : DrawPass) s => before p.bindings s) (buildPipeline (σ := Recorder) formats) :=
    buildPipeline_keeps formats (fun p => accepting p.bindings) fun _ _ _ held _ _ _ => held
  refine .bind (built.mono (fun _ _ _ => id) fun _ p => sooner p.bindings) fun _ => .inPart fun p => ?_
  refine .pre ?_ bound
  rintro _ s ⟨rfl, here⟩
  exact here

end

/-- What a pass has created is older than the next number. -/
def Pass.Former (next : Nat) : Pass → Prop
  | .dispatch pass => pass.bindings.Former next
  | .draw pass => pass.bindings.Former next
  | _ => True

/-- A pass has what a setup that began at `since` gives it. -/
def Pass.Supplied (since : Nat) : Pass → Prop
  | .dispatch pass => pass.bindings.Supplied since
  | .draw pass => pass.bindings.Supplied since
  | _ => True

theorem Bindings.Former.mono {next later : Nat} {bindings : Bindings} (former : bindings.Former next)
    (more : next ≤ later) : bindings.Former later :=
  ⟨former.toFed.renew (former.toBelow.mono more) more, former.toBelow.mono more⟩

theorem Pass.Former.mono {next later : Nat} {leaf : Pass} (former : leaf.Former next) (more : next ≤ later) :
    leaf.Former later := by
  cases leaf with
  | dispatch pass => exact Bindings.Former.mono former more
  | draw pass => exact Bindings.Former.mono former more
  | _ => trivial

/-- A setup supplies all passes, and what it has created when it fails is older than what the next attempt creates. -/
theorem Pass.supplied_establishes (since : Nat) (view : PassView) :
    Establishes (σ := Recorder) view (Counts since) (Former since)
      (fun session leaf => leaf.Supplied since ∧ leaf.Former session.host.device.nextId)
      (fun session leaf => leaf.Former session.host.device.nextId) fun _ => True := by
  have accepting (start : Session Recorder) (bindings : Bindings) : Session.Accepting (fun _ => True)
      fun session => bindings.Former since ∧ Counts since start session :=
    (Counts.accepting since start).beside fun _ _ => id
  have sooner (start : Session Recorder) (bindings : Bindings) (session : Session Recorder)
      (held : bindings.Former since ∧ Counts since start session) :
      bindings.Former session.host.device.nextId ∧ Counts since start session :=
    ⟨held.1.mono (Nat.le_trans held.2.since held.2.device.nextId), held.2⟩
  exact {
    refl := fun _ _ => Counts.again
    trans := fun _ _ _ => Counts.trans
    lasts := fun session later leaf counts held => ⟨held.1, held.2.mono counts.device.nextId⟩
    weaken := fun _ _ => And.right
    untouched := fun _ session leaf counts former => former.mono (Nat.le_trans counts.since counts.device.nextId)
    dispatch := fun start pass former => by
      refine .pre ?_ ((DispatchPass.setup_bound (accepting start) (sooner start) Bindings.setup_supplied).mono ?_ ?_)
      · rintro _ _ ⟨rfl, counts⟩
        exact ⟨former, counts⟩
      · exact fun _ _ _ done => done
      · exact fun _ _ _ failed => ⟨trivial, failed⟩
    draw := fun start pass former => by
      refine .pre ?_ ((DrawPass.setup_bound (accepting start) (sooner start) Bindings.setup_supplied).mono ?_ ?_)
      · rintro _ _ ⟨rfl, counts⟩
        exact ⟨former, counts⟩
      · exact fun _ _ _ done => done
      · exact fun _ _ _ failed => ⟨trivial, failed⟩
    filter := fun start pass _ => by
      refine .pre (fun _ _ => And.right) ((FilterPass.setup_keeps (Counts.accepting since start) view).mono ?_ ?_)
      · exact fun _ _ _ counts => ⟨⟨trivial, trivial⟩, counts⟩
      · exact fun _ _ _ counts => ⟨trivial, trivial, counts⟩
    blit := fun _ _ _ => ⟨trivial, trivial⟩
    callback := fun _ _ _ => ⟨trivial, trivial⟩
    attach := fun start session name passes counts _ => by
      unfold Session.attach Session.modifyCoordinator
      split <;> exact ⟨counts.shared_eq, counts.device, counts.since⟩ }

/-- What a prepared pass binds and what it has uploaded since `first`. -/
def Pass.Uploads (since : Nat) (view : PassView) (first session : Session Recorder) : Pass → Prop
  | .dispatch pass => pass.bindings.Resolved since ∧ pass.Fits view first.shared ∧
      pass.bindings.Uploaded first session (some pass.grid)
  | .draw pass => pass.bindings.Resolved since ∧ pass.bindings.Uploaded first session none
  | _ => True

variable {first : Session Recorder}

theorem Pass.Uploads.mono {session later : Session Recorder} {leaf : Pass}
    (uploads : leaf.Uploads since view first session) (advances : session.host.device.Advances later.host.device) :
    leaf.Uploads since view first later := by
  cases leaf with
  | dispatch pass => exact ⟨uploads.1, uploads.2.1, uploads.2.2.mono advances⟩
  | draw pass => exact ⟨uploads.1, uploads.2.mono advances⟩
  | _ => trivial

/-- A refresh resolves all groups of a pass that is supplied. -/
theorem Bindings.refresh_supplied :
    PartEffect.Ensures (fun bindings session => bindings.Supplied since ∧ Counts since first session)
      (refresh (σ := Recorder) view)
      (fun _ bindings session => (bindings.Supplied since ∧ bindings.Resolved since) ∧ Counts since first session)
      fun _ bindings session => bindings.Supplied since ∧ Counts since first session := by
  have resolved : PartEffect.Ensures (fun b s => (b.Stocked since ∧ b.Fed since) ∧ Counts since first s)
      (refresh (σ := Recorder) view) _ _ :=
    refresh_resolved (Stocked since) fun _ own resolved stocked => stocked.regroup own resolved
  refine .pre ?_ (resolved.mono ?_ ?_)
  · exact fun _ _ held => ⟨⟨held.1.toStocked, held.1.toFed⟩, held.2⟩
  · exact fun _ _ _ done => ⟨⟨⟨done.1.1, done.1.2.1⟩, done.1.2.2⟩, done.2⟩
  · exact fun _ _ _ failed => ⟨⟨failed.1.1, failed.1.2⟩, failed.2⟩

theorem DispatchPass.prepare_uploads :
    PartEffect.Ensures (fun pass session => pass.bindings.Supplied since ∧ Counts since first session)
      (prepare (σ := Recorder) view)
      (fun _ pass session => (pass.bindings.Supplied since ∧ (Pass.dispatch pass).Uploads since view first session) ∧
        Counts since first session)
      fun _ pass session => pass.bindings.Supplied since ∧ Counts since first session := by
  have refreshed : PartEffect.Ensures (fun (p : DispatchPass) s => p.bindings.Supplied since ∧ Counts since first s)
      ((Bindings.refresh (σ := Recorder) view).inPart bindingsLens)
      (fun _ p s => (p.bindings.Supplied since ∧ p.bindings.Resolved since) ∧ Counts since first s)
      fun _ p s => p.bindings.Supplied since ∧ Counts since first s := by
    refine .inPart fun p => .pre ?_ Bindings.refresh_supplied
    rintro _ s ⟨rfl, held⟩
    exact held
  refine refreshed.bind fun _ => .ofGet fun pass session held => .ofLook fun _ now here => ?_
  obtain ⟨-, rfl⟩ := here
  obtain ⟨⟨supplied, resolved⟩, counts⟩ := held
  refine .pre (fun _ _ here => ⟨here.1, here.2 ▸ counts⟩ : ∀ p s, p = pass ∧ s = now → p = pass ∧ Counts since first s) ?_
  refine .ofExcept (fun extent sampled => ?_) fun _ _ p s here => here.1 ▸ ⟨supplied, here.2⟩
  rw [counts.shared_eq] at sampled
  have fits : Fits view first.shared { pass with grid := pass.compiled.grid.extent extent } := ⟨extent, sampled, rfl⟩
  generalize pass.compiled.grid.extent extent = grid at fits
  have set : PartEffect.Ensures (fun (p : DispatchPass) s => p = pass ∧ Counts since first s)
      (set { pass with grid } : PassM DispatchPass Recorder Unit)
      (fun _ p s => p = { pass with grid } ∧ Counts since first s)
      fun _ p s => p.bindings.Supplied since ∧ Counts since first s := .ofSet fun _ _ here => ⟨rfl, here.2⟩
  have bytes : PartEffect.Ensures (fun (p : DispatchPass) s => p = { pass with grid } ∧ Counts since first s)
      (PartEffect.around pass.bindings.uploadBytes)
      (fun _ p s => p = { pass with grid } ∧ pass.bindings.Uploaded first s none ∧ Counts since first s)
      fun _ p s => p.bindings.Supplied since ∧ Counts since first s := by
    refine .around fun p => .given fun here => pass.bindings.uploadBytes_uploaded.mono ?_ ?_
    · exact fun _ _ done => ⟨here, done⟩
    · exact fun _ _ failed => ⟨here ▸ supplied, failed⟩
  refine set.bind fun _ => bytes.bind fun _ => .around fun p => .given fun here => ?_
  subst here
  refine (pass.bindings.uploadGrid_uploaded grid).mono ?_ ?_
  · exact fun _ _ done => ⟨⟨supplied, resolved, fits, done.1⟩, done.2⟩
  · exact fun _ _ failed => ⟨supplied, failed⟩

theorem DrawPass.prepare_uploads :
    PartEffect.Ensures (fun pass session => pass.bindings.Supplied since ∧ Counts since first session)
      (prepare (σ := Recorder) view)
      (fun _ pass session => (pass.bindings.Supplied since ∧ (Pass.draw pass).Uploads since view first session) ∧
        Counts since first session)
      fun _ pass session => pass.bindings.Supplied since ∧ Counts since first session := by
  let inv (p : DrawPass) (s : Session Recorder) : Prop := p.bindings.Supplied since ∧ Counts since first s
  have accepting (p : DrawPass) : Session.Accepting (fun _ => True) (inv p) :=
    (Counts.accepting since first).beside fun _ _ => id
  have finished : PartEffect.Ensures inv
      (do
        (Bindings.refresh view).inPart bindingsLens
        PartEffect.around (← get).bindings.uploadBytes)
      (fun _ p s => (p.bindings.Supplied since ∧ (Pass.draw p).Uploads since view first s) ∧ Counts since first s)
      fun _ => inv := by
    have refreshed : PartEffect.Ensures inv ((Bindings.refresh (σ := Recorder) view).inPart bindingsLens)
        (fun _ p s => (p.bindings.Supplied since ∧ p.bindings.Resolved since) ∧ Counts since first s) fun _ => inv := by
      refine .inPart fun p => .pre ?_ Bindings.refresh_supplied
      rintro _ s ⟨rfl, held⟩
      exact held
    refine refreshed.bind fun _ => .ofGet fun pass session held => .around fun p => ?_
    obtain ⟨⟨supplied, resolved⟩, counts⟩ := held
    refine .given fun here => ?_
    subst here
    refine .pre (fun _ here => here ▸ counts) (p.bindings.uploadBytes_uploaded.mono ?_ ?_)
    · exact fun _ _ done => ⟨⟨supplied, resolved, done.1⟩, done.2⟩
    · exact fun _ _ failed => ⟨supplied, failed⟩
  refine .ofGet fun pass session held => .pre (fun _ _ here => here.1 ▸ here.2 ▸ held) ?_
  refine .ofExcept (fun formats _ => .ofIf (fun _ => ?_) fun _ => finished) fun _ _ _ _ => id
  have noted (text : String) : PartEffect.Keeps inv (PartEffect.around (Session.note .debug .draw text)) :=
    .around fun p => (accepting p).note _ _ _
  have rebuilt : PartEffect.Keeps inv (buildPipeline (σ := Recorder) formats) :=
    buildPipeline_keeps formats accepting fun _ _ _ held _ _ _ => held
  exact (noted _).bind fun _ => rebuilt.bind fun _ => finished

/-- Preparation keeps passes supplied, and those that a frame encodes have uploaded what they feed. -/
theorem Pass.uploads_readies (since : Nat) (view : PassView) (first : Session Recorder) :
    Readies (σ := Recorder) view (fun start session => Counts since first start ∧ Counts since start session)
      (Supplied since) (Uploads since view first) fun _ => True := by
  have steps : Readies (σ := Recorder) view (Counts since) (fun _ => True) (fun _ _ => True) fun _ => True :=
    .ofAccepting view (Counts.accepting since) (fun _ => Counts.stored) (fun _ _ => Counts.again)
      fun _ _ _ => Counts.trans
  exact {
    refl := fun _ _ held => ⟨held.1.trans held.2, held.2.again⟩
    trans := fun _ _ _ one two => ⟨one.1, one.2.trans two.2⟩
    lasts := fun _ _ _ held uploads => uploads.mono held.2.device
    dispatch := fun start pass supplied => by
      have uploads : PartEffect.Ensures (fun (p : DispatchPass) s => p.bindings.Supplied since ∧ Counts since first s)
          (DispatchPass.prepare (σ := Recorder) view) _ _ := DispatchPass.prepare_uploads
      intro p session held
      obtain ⟨rfl, counts, more⟩ := held
      refine (uploads.and (steps.dispatch start p trivial)).mono ?_ ?_ p session
        ⟨⟨supplied, counts.trans more⟩, rfl, more⟩
      · exact fun _ _ _ done => ⟨done.1.1, counts, done.2.2⟩
      · exact fun _ _ _ failed => ⟨trivial, failed.1.1, counts, failed.2.2.2⟩
    draw := fun start pass supplied => by
      have uploads : PartEffect.Ensures (fun (p : DrawPass) s => p.bindings.Supplied since ∧ Counts since first s)
          (DrawPass.prepare (σ := Recorder) view) _ _ := DrawPass.prepare_uploads
      intro p session held
      obtain ⟨rfl, counts, more⟩ := held
      refine (uploads.and (steps.draw start p trivial)).mono ?_ ?_ p session
        ⟨⟨supplied, counts.trans more⟩, rfl, more⟩
      · exact fun _ _ _ done => ⟨done.1.1, counts, done.2.2⟩
      · exact fun _ _ _ failed => ⟨trivial, failed.1.1, counts, failed.2.2.2⟩
    blit := fun _ _ _ => trivial
    filter := fun _ _ _ => trivial
    callback := fun _ _ _ => trivial }

/-! ### What launches and draws bind -/

/-- For every binding that the pass feeds, its value has been uploaded to a block of the pass, and these groups bind
this block as long as they are `bound`. -/
def Bindings.Delivers (bound : BindGroup → Prop) (writes : List BufferWrite) (shared : Shared) (grid : Option Axes)
    (bindings : Bindings) (groups : List BindGroup) : Prop :=
  List.Forall₂ (fun binding group => ∀ spec, binding = .own spec →
    List.Forall₂ (fun fed resource => fed.source.isFed → ∃ bytes block,
      bindings.value? shared grid fed.source = some bytes ∧ bindings.block? fed.source = some block ∧
        ⟨block, 0, bytes⟩ ∈ writes ∧ (resource = .buffer block ↔ bound group))
      spec group.resources) bindings.groups groups

/-- The same of the launch or the draw of a leaf, whose grid is that of the frame. -/
def Pass.Delivers (bound : BindGroup → Prop) (writes : List BufferWrite) (shared : Shared) (view : EncodeView) :
    Pass → Command → Prop
  | .dispatch pass, .dispatch command => pass.command = .ok command ∧ pass.Fits view.toPassView shared ∧
      pass.bindings.Delivers bound writes shared (some pass.grid) command.groups
  | .draw pass, .draw command => pass.command view = .ok command ∧
      pass.bindings.Delivers bound writes shared none command.groups
  | .callback node, command => node.MayRecord view command
  | _, _ => False

/-- A block of the pass is bound by the groups from `since` on, as older groups bind older blocks. -/
theorem Bindings.Supplied.delivers {bindings : Bindings} (supplied : bindings.Supplied since)
    (resolved : bindings.Resolved since) {session : Session Recorder} {grid : Option Axes}
    (uploaded : bindings.Uploaded first session grid) (granted : bindings.wantsGrid → grid.isSome) :
    bindings.Delivers (fun group => since ≤ group.id) (first.written session) first.shared grid bindings.resolved := by
  refine (List.forall₂_iff_zip.mpr ⟨resolved.length_eq, fun {binding group} found spec same => ?_⟩)
  subst same
  have binds := (List.forall₂_iff_zip.mp resolved).2 found spec rfl
  have wants (binding : BindingSpec) (listed : binding ∈ spec) (source : binding.source = .gridExtent) :
      bindings.wantsGrid := by
    rw [wantsGrid, List.any_eq_true]
    refine ⟨.own spec, (List.of_mem_zip found).1, List.any_eq_true.mpr ⟨binding, listed, ?_⟩⟩
    rw [source, beq_self_eq_true]
  refine (List.forall₂_iff_zip.mpr ⟨binds.length_eq, fun {binding resource} pair isFed => ?_⟩)
  obtain ⟨bound, is, fedBy⟩ := (List.forall₂_iff_zip.mp binds).2 pair isFed
  have listed := (List.of_mem_zip pair).1
  -- the pass has a value and a block for the binding
  obtain ⟨bytes, block, value, has⟩ : ∃ bytes block, bindings.value? first.shared grid binding.source = some bytes ∧
      bindings.block? binding.source = some block := by
    cases source : binding.source with
    | bytes slot =>
      have inside := fedBy.listed slot source
      have there : slot < bindings.bytesBuffers.length := supplied.bytes ▸ inside
      refine ⟨blockBytes first.shared bindings.bytes[slot], bindings.bytesBuffers[slot], ?_,
        List.getElem?_eq_getElem there⟩
      rw [value?, List.getElem?_eq_getElem inside, Option.map_some]
    | gridExtent =>
      have wanted := wants binding listed source
      obtain ⟨axes, rfl⟩ := Option.isSome_iff_exists.mp (granted wanted)
      obtain ⟨block, is⟩ := Option.isSome_iff_exists.mp (supplied.grid wanted)
      exact ⟨_, block, rfl, is⟩
    | buffer handle => simp [source, BindingSource.isFed] at isFed
    | texture handle => simp [source, BindingSource.isFed] at isFed
  refine ⟨bytes, block, value, has, uploaded _ block bytes has value, fun same => ?_, fun recent => ?_⟩
  · by_contra older
    have former := fedBy.former (Nat.not_le.mp older)
    have recent := supplied.recent binding.source block (wants binding listed) has
    rw [is] at same
    cases same
    omega
  · have current := fedBy.current recent
    rw [has] at current
    cases current
    exact is

/-- What a pass binds is what it resolved. -/
theorem Bindings.bound_eq_ok {bindings : Bindings} {groups : List BindGroup} (bound : bindings.bound = .ok groups) :
    groups = bindings.resolved := by
  unfold Bindings.bound at bound
  split at bound <;> cases bound
  rfl

/-- The launch or the draw of a prepared leaf is delivered what the leaf has uploaded. -/
theorem Pass.Supplied.delivers {leaf : Pass} (supplied : leaf.Supplied since) {view : EncodeView}
    {session : Session Recorder} (uploads : leaf.Uploads since view.toPassView first session)
    (gridless : ∀ pass, leaf = .draw pass → ¬pass.bindings.wantsGrid) {command : Command}
    (records : leaf.Records view command) :
    leaf.Delivers (fun group => since ≤ group.id) (first.written session) first.shared view command := by
  cases leaf with
  | dispatch pass =>
    cases command with
    | dispatch command =>
      obtain ⟨resolved, fits, uploaded⟩ := uploads
      obtain ⟨pipeline, -, made⟩ := bind_eq_ok records
      obtain ⟨groups, bound, made⟩ := bind_eq_ok made
      cases made
      obtain rfl := Bindings.bound_eq_ok bound
      exact ⟨records, fits, Bindings.Supplied.delivers supplied resolved uploaded fun _ => rfl⟩
    | _ => exact records.elim
  | draw pass =>
    cases command with
    | draw command =>
      obtain ⟨resolved, uploaded⟩ := uploads
      obtain ⟨pipeline, -, made⟩ := bind_eq_ok records
      obtain ⟨colors, -, made⟩ := bind_eq_ok made
      obtain ⟨depth, -, made⟩ := bind_eq_ok made
      obtain ⟨index, -, made⟩ := bind_eq_ok made
      obtain ⟨vertices, -, made⟩ := bind_eq_ok made
      obtain ⟨groups, bound, made⟩ := bind_eq_ok made
      cases made
      obtain rfl := Bindings.bound_eq_ok bound
      exact ⟨records, Bindings.Supplied.delivers supplied resolved uploaded fun wanted =>
        absurd wanted (gridless pass rfl)⟩
    | _ => exact records.elim
  | callback node => exact records
  | _ => exact records.elim

end FrameGraph
