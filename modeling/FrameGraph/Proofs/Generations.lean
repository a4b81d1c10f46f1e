import FrameGraph.Proofs.Renewal
import Mathlib.Logic.Relation

/-! # Generations

Whatever is called on a pool, and whichever creations fail, two reads of a resource show the same generation exactly
when they show the same allocation. Allocations are told apart by the numbers that the device gives them: both devices
number the objects that they create upwards, whether creations fail in between or not.
-/

namespace FrameGraph

/-! ## Numbers of objects -/

/-- A texture or a buffer that is created gets a number that is not below the next one, and the next one is above it
then. A creation that fails does not lower the next number. -/
class NumberedDevice (σ : Type) [Device σ] where
  next : σ → Nat
  createTexture : ∀ first spec, Effect.Ensures (fun device => first ≤ next device)
    (Device.createTexture spec : DeviceM σ Texture)
    (fun texture device => first ≤ texture.id ∧ texture.id < next device) fun _ device => first ≤ next device
  createBuffer : ∀ first spec, Effect.Ensures (fun device => first ≤ next device)
    (Device.createBuffer spec : DeviceM σ Buffer)
    (fun buffer device => first ≤ buffer.id ∧ buffer.id < next device) fun _ device => first ≤ next device

open Effect.Ensures

namespace Recorder

theorem takeId_numbers (first : Nat) : Effect.Ensures (fun recorder : Recorder => first ≤ recorder.nextId) takeId
    (fun id recorder => first ≤ id ∧ id < recorder.nextId) fun _ recorder => first ≤ recorder.nextId :=
  ofGet fun recorder held => .bind (ofSet fun _ _ => ⟨held, Nat.lt_succ_self recorder.nextId⟩) fun _ =>
    ofPure fun _ => id

theorem createTexture_numbers (first : Nat) (spec : TextureSpec) :
    Effect.Ensures (fun recorder : Recorder => first ≤ recorder.nextId) (createTexture spec)
      (fun texture recorder => first ≤ texture.id ∧ texture.id < recorder.nextId)
      fun _ recorder => first ≤ recorder.nextId := by
  refine ofGuard (fun _ _ => id) fun _ => ofGet fun recorder held => ofIf (fun _ => ?_) fun _ => ?_
  · exact .bind (ofSet fun _ _ => held) fun _ => ofThrow fun _ => id
  · refine .pre (fun _ here => here ▸ held) ((takeId_numbers first).bind fun _ => ?_)
    exact .bind (ofModify fun _ => id) fun _ => ofPure fun _ => id

theorem createBuffer_numbers (first : Nat) (spec : BufferSpec) :
    Effect.Ensures (fun recorder : Recorder => first ≤ recorder.nextId) (createBuffer spec)
      (fun buffer recorder => first ≤ buffer.id ∧ buffer.id < recorder.nextId)
      fun _ recorder => first ≤ recorder.nextId :=
  (takeId_numbers first).bind fun _ => .bind (ofModify fun _ => id) fun _ => ofPure fun _ => id

instance : NumberedDevice Recorder where
  next := Recorder.nextId
  createTexture := createTexture_numbers
  createBuffer := createBuffer_numbers

end Recorder

namespace WebGpu

theorem takeId_numbers (first : Nat) : Effect.Ensures (fun device : WebGpu => first ≤ device.nextId) takeId
    (fun id device => first ≤ id ∧ id < device.nextId) fun _ device => first ≤ device.nextId :=
  ofGet fun device held => .bind (ofSet fun _ _ => ⟨held, Nat.lt_succ_self device.nextId⟩) fun _ =>
    ofPure fun _ => id

theorem createTexture_numbers (first : Nat) (spec : TextureSpec) :
    Effect.Ensures (fun device : WebGpu => first ≤ device.nextId) (createTexture spec)
      (fun texture device => first ≤ texture.id ∧ texture.id < device.nextId)
      fun _ device => first ≤ device.nextId :=
  ofGuard (fun _ _ => id) fun _ => .bind (ofModify fun _ => id) fun _ => .bind (ofModify fun _ => id) fun _ =>
    (takeId_numbers first).bind fun _ => ofPure fun _ => id

theorem createBuffer_numbers (first : Nat) (spec : BufferSpec) :
    Effect.Ensures (fun device : WebGpu => first ≤ device.nextId) (createBuffer spec)
      (fun buffer device => first ≤ buffer.id ∧ buffer.id < device.nextId)
      fun _ device => first ≤ device.nextId :=
  ofGuard (fun _ _ => id) fun _ => .bind (ofModify fun _ => id) fun _ =>
    (takeId_numbers first).bind fun _ => ofPure fun _ => id

instance : NumberedDevice WebGpu where
  next := WebGpu.nextId
  createTexture := createTexture_numbers
  createBuffer := createBuffer_numbers

end WebGpu

/-- What an operation of a device ensures, it ensures of the device of a host. -/
theorem Host.perform_ensures_device {σ α : Type} {operation : DeviceM σ α} {before : σ → Prop} {ok : α → σ → Prop}
    (ensured : Effect.Ensures before operation ok fun _ => before) :
    Effect.Ensures (fun host : Host σ => before host.device) (Host.perform operation)
      (fun a host => ok a host.device) fun _ host => before host.device :=
  .inside fun _ held => .pre (fun _ here => here ▸ held) ensured

/-- Creations give numbers that are not below the next one. -/
theorem Pool.Creates.ofNumbered {σ : Type} [Device σ] [LawfulDevice σ] [NumberedDevice σ] (first : Nat) :
    Pool.Creates (fun host : Host σ => first ≤ NumberedDevice.next host.device)
      fun id host => first ≤ id ∧ id < NumberedDevice.next host.device where
  log _ _ _ := id
  texture spec := Host.perform_ensures_device <|
    ((LawfulDevice.createTexture spec).and (NumberedDevice.createTexture first spec)).mono (fun _ _ => id)
      (fun _ _ => And.right) |>.pre fun _ => .intro trivial
  buffer spec := Host.perform_ensures_device <|
    ((LawfulDevice.createBuffer spec).and (NumberedDevice.createBuffer first spec)).mono (fun _ _ => id)
      (fun _ _ => And.right) |>.pre fun _ => .intro trivial

namespace Pool

/-! ## Turns of a pool -/

open NumberedDevice (next)

variable {σ : Type} [Device σ]

/-- The numbers in the pool are below this one. -/
def Below (pool : Pool) (bound : Nat) : Prop :=
  ∀ handle (slot : Allocation), pool.allocation? handle = some slot → slot.number < bound

theorem Below.mono {pool : Pool} {bound more : Nat} (below : pool.Below bound) (le : bound ≤ more) : pool.Below more :=
  fun handle slot filled => Nat.lt_of_lt_of_le (below handle slot filled) le

theorem Below.put {pool : Pool} {bound : Nat} (below : pool.Below bound) (handle : ResourceHandle) {made : Allocation}
    (number : made.number < bound) : (pool.put handle made).Below bound := by
  intro other slot filled
  rcases allocation?_put pool handle other made with same | ⟨-, put⟩
  · exact below other slot (same.symm.trans filled)
  · cases put.symm.trans filled
    exact number

omit [Device σ] in
/-- The pool and the host that an action leaves, whether it succeeds or not. -/
def left {α : Type} (action : PoolM σ α) (state : Pool × Host σ) : Pool × Host σ :=
  ((action.apply state.1 state.2).1.2, (action.apply state.1 state.2).2)

variable [NumberedDevice σ]

/-- One thing that happens to a pool or to the host around it: a call, which may fail, or anything else that does not
take numbers back. -/
inductive Turn : Pool × Host σ → Pool × Host σ → Prop where
  | materialize (state : Pool × Host σ) (surface : Surface) : Turn state (left (materialize surface) state)
  | resize (state : Pool × Host σ) (surface : Surface) : Turn state (left (resize surface) state)
  | elsewhere {pool : Pool} {host last : Host σ} (kept : next host.device ≤ next last.device) :
    Turn (pool, host) (pool, last)

/-- What one turn or many make of a pool: what depends on a surface may have been replaced, and whatever was made has
a number that was not given before. -/
structure Onward (past now : Pool × Host σ) : Prop where
  renews : Renews (fun handle _ => past.1.table.Follows handle) (fun _ made => next past.2.device ≤ made.number)
    past.1 now.1
  next_le : next past.2.device ≤ next now.2.device
  below : past.1.Below (next past.2.device) → now.1.Below (next now.2.device)

namespace Onward

variable {first middle last : Pool × Host σ}

theorem refl (state : Pool × Host σ) : Onward state state := ⟨.refl state.1, Nat.le_refl _, id⟩

theorem trans (one : Onward first middle) (two : Onward middle last) : Onward first last where
  renews := one.renews.trans <| two.renews.mono (fun _ _ follows => one.renews.table_eq ▸ follows)
    fun _ _ fresh => Nat.le_trans one.next_le fresh
  next_le := Nat.le_trans one.next_le two.next_le
  below held := two.below (one.below held)

/-- Whatever happens to a pool, an allocation that is there stays or is replaced by one of a later generation and of
another number. -/
theorem read (onward : Onward first last) (below : first.1.Below (next first.2.device)) {handle : ResourceHandle}
    {old : Allocation} (there : first.1.allocation? handle = some old) :
    last.1.allocation? handle = some old ∨ first.1.table.Follows handle ∧ ∃ slot : Allocation,
      last.1.allocation? handle = some slot ∧ old.generation < slot.generation ∧ old.number < slot.number := by
  rcases onward.renews.allocation handle with same | ⟨made, filled, renewed⟩
  · exact .inl (same.trans there)
  · obtain ⟨follows, newer⟩ := renewed.replaces old there
    exact .inr ⟨follows, made, filled, newer, Nat.lt_of_lt_of_le (below handle old there) renewed.new⟩

/-- So a generation tells the allocation. -/
theorem identifies (onward : Onward first last) (below : first.1.Below (next first.2.device)) {handle : ResourceHandle}
    {old : Allocation} (there : first.1.allocation? handle = some old) :
    ∃ slot : Allocation, last.1.allocation? handle = some slot ∧ old.generation ≤ slot.generation ∧
      (slot.generation = old.generation ↔ slot.number = old.number) ∧ (slot.number = old.number ↔ slot = old) ∧
      (¬first.1.table.Follows handle → slot = old) := by
  rcases onward.read below there with same | ⟨follows, slot, filled, newer, number⟩
  · exact ⟨old, same, Nat.le_refl _, ⟨fun _ => rfl, fun _ => rfl⟩, ⟨fun _ => rfl, fun _ => rfl⟩, fun _ => rfl⟩
  · have slot_ne : slot ≠ old := by
      rintro rfl
      exact Nat.lt_irrefl _ newer
    refine ⟨slot, filled, Nat.le_of_lt newer, ?_, ?_, fun unfollowing => absurd follows unfollowing⟩
    · constructor <;> intro <;> omega
    · exact ⟨fun same => absurd same (Nat.ne_of_gt number), fun same => absurd same slot_ne⟩

end Onward

variable [LawfulDevice σ] {table : ResourceTable} {usage : ResourceUsage}

/-- A call at a surface replaces what is outdated there, by allocations with new numbers. -/
theorem lasts_onward (pool : Pool) (host : Host σ) (surface : Surface) : Lasts pool.usage surface
    fun p h => Renews (pool.table.Outdated surface) (fun _ made => next host.device ≤ made.number) pool p ∧
      Onward (pool, host) (p, h) where
  usage_eq _ _ held := held.1.usage_eq
  log _ _ _ held := ⟨held.1, held.2.renews, held.2.next_le, held.2.below⟩
  record _ _ held := ⟨held.1.record surface, held.2.renews.record surface, held.2.next_le, held.2.below⟩
  create p h held := by
    obtain ⟨renews, onward⟩ := held
    refine ⟨_, _, .ofNumbered (next h.device), Nat.le_refl _, fun after le => ⟨renews, ?_⟩, ?_⟩
    · exact onward.trans ⟨.refl p, le, fun below => below.mono le⟩
    · rintro after handle made gives due - ⟨fresh, given⟩
      have puts := renews.create gives.uses due (Nat.le_trans onward.next_le fresh)
      have next_le : next h.device ≤ next after.device := by omega
      refine ⟨puts, puts.mono (fun _ _ outdated => outdated.follows) fun _ _ => id,
        Nat.le_trans onward.next_le next_le, fun below => ?_⟩
      exact ((onward.below below).mono next_le).put handle given

theorem Turn.onward {past now : Pool × Host σ} (turn : Turn past now) : Onward past now := by
  cases turn with
  | materialize _ surface =>
    exact ((lasts_onward past.1 past.2 surface).materialize.after ⟨.refl past.1, .refl past⟩).2
  | resize _ surface => exact ((lasts_onward past.1 past.2 surface).resize.after ⟨.refl past.1, .refl past⟩).2
  | elsewhere kept => exact ⟨.refl _, kept, fun below => below.mono kept⟩

/-- Many turns make of a pool what one turn may. -/
theorem onward_of_turns {past now : Pool × Host σ} (turns : Relation.ReflTransGen Turn past now) : Onward past now := by
  induction turns with
  | refl => exact .refl past
  | tail _ turn ih => exact ih.trans turn.onward

/-- A pool that has only been called on from the start: its numbers were given by the device. -/
theorem below_of_turns {host : Host σ} {past : Pool × Host σ}
    (begun : Relation.ReflTransGen Turn (empty table usage, host) past) : past.1.Below (next past.2.device) := by
  refine (onward_of_turns begun).below fun handle slot filled => ?_
  cases (allocation?_empty table usage handle).symm.trans filled

/-- What is allocated is used, and of the first generation unless it depends on a surface. -/
theorem allocated_of_turns {host : Host σ} {past : Pool × Host σ}
    (begun : Relation.ReflTransGen Turn (empty table usage, host) past) {handle : ResourceHandle} {slot : Allocation}
    (filled : past.1.allocation? handle = some slot) :
    usage.Uses handle ∧ (¬table.Follows handle → slot.generation = 0) := by
  rcases (onward_of_turns begun).renews.allocation handle with same | ⟨made, there, renewed⟩
  · cases filled.symm.trans (same.trans (allocation?_empty table usage handle))
  · cases filled.symm.trans there
    exact ⟨renewed.used, renewed.first⟩

/-- A resize that succeeds at another surface than the recorded one replaces what is outdated there, by allocations
with other numbers, and keeps the rest. -/
theorem resize_replaces {pool after : Pool} {host last : Host σ} {surface : Surface} {count : Nat}
    (sized : pool.Sized) (below : pool.Below (next host.device)) (tight : pool.Tight)
    (other : pool.surface ≠ some surface) (run : (resize surface).apply pool host = ((.ok count, after), last))
    {handle : ResourceHandle} {old : Allocation} (there : pool.allocation? handle = some old) :
    (pool.table.Outdated surface handle old →
        ∃ slot : Allocation, after.allocation? handle = some slot ∧ slot.number ≠ old.number) ∧
      (¬pool.table.Outdated surface handle old → after.allocation? handle = some old) := by
  have kept := (lasts_onward pool host surface).resize.after ⟨.refl pool, .refl (pool, host)⟩
  rw [run] at kept
  obtain ⟨renews, onward⟩ := kept
  constructor
  · intro outdated
    obtain ⟨recorded, -⟩ | ⟨-, changed, coherent, -⟩ := ((resize_follows pool sized surface) pool).result rfl run
    · exact absurd recorded other
    · have used : pool.usage.Uses handle := tight handle (there ▸ Option.some_ne_none old)
      have fits := coherent_iff.mp coherent handle (changed.usage_eq ▸ used)
      rcases onward.read below there with same | ⟨-, slot, filled, -, number⟩
      · exact absurd (changed.table_eq ▸ outdated) (fits.not_outdated same)
      · exact ⟨slot, filled, Nat.ne_of_gt number⟩
  · intro fits
    rcases renews.allocation handle with same | ⟨made, filled, renewed⟩
    · exact same.trans there
    · exact absurd (renewed.replaces old there).1 fits

/-- Through all calls on a pool and all failures, a resource that is allocated stays so; its generation never goes
down, and tells the allocation. What does not depend on a surface keeps the first one, and nothing is allocated that
is not used. A resize that succeeds at another surface replaces exactly what is outdated there. -/
theorem generations_identify {host : Host σ} {past now : Pool × Host σ}
    (begun : Relation.ReflTransGen Turn (empty table usage, host) past)
    (later : Relation.ReflTransGen Turn past now) :
    (∀ handle (old : Allocation), past.1.allocation? handle = some old → ∃ slot : Allocation,
      now.1.allocation? handle = some slot ∧ old.generation ≤ slot.generation ∧
        (slot.generation = old.generation ↔ slot.number = old.number) ∧ (slot.number = old.number ↔ slot = old) ∧
        (¬table.Follows handle → slot = old)) ∧
    (∀ handle (slot : Allocation), now.1.allocation? handle = some slot →
      usage.Uses handle ∧ (¬table.Follows handle → slot.generation = 0)) ∧
    ∀ surface count pool last, now.1.surface ≠ some surface →
      (resize surface).apply now.1 now.2 = ((.ok count, pool), last) →
        ∀ handle (old : Allocation), now.1.allocation? handle = some old →
          (table.Outdated surface handle old →
              ∃ slot : Allocation, pool.allocation? handle = some slot ∧ slot.number ≠ old.number) ∧
            (¬table.Outdated surface handle old → pool.allocation? handle = some old) := by
  have at_past : past.1.table = table := (onward_of_turns begun).renews.table_eq
  have whole := onward_of_turns (begun.trans later)
  have at_now : now.1.table = table := whole.renews.table_eq
  have tight : now.1.Tight := by
    intro handle allocated
    obtain ⟨slot, filled⟩ := Option.ne_none_iff_exists'.mp allocated
    rw [show now.1.usage = usage from whole.renews.usage_eq]
    exact (allocated_of_turns (begun.trans later) filled).1
  refine ⟨fun handle old there => ?_, fun handle slot => allocated_of_turns (begun.trans later), ?_⟩
  · rw [← at_past]
    exact (onward_of_turns later).identifies (below_of_turns begun) there
  · intro surface count pool last other run handle old there
    rw [← at_now]
    exact resize_replaces (whole.renews.sized (sized_empty table usage)) (below_of_turns (begun.trans later)) tight
      other run there

/-- A texture that follows the surface and a buffer that does not; the first creation of the texture fails. -/
def mirror : Pool × Host Recorder :=
  (empty { textures := [⟨"mirror", .viewport, .surface, .d2, 1⟩], buffers := [.ofHost "x" (.scalar .u32) (.fixed 4)] }
    { textures := [(⟨0⟩, {})], buffers := [(⟨0⟩, {})] }, ⟨{ failing := ["mirror"] }, []⟩)

/-- After two materializations, of which the second one succeeds. -/
def mirrored : Pool × Host Recorder :=
  left (materialize ⟨⟨1, 1, 1⟩, .bgra8UnormSrgb⟩) (left (materialize ⟨⟨1, 1, 1⟩, .bgra8UnormSrgb⟩) mirror)

/-- A resize replaces the texture by the next generation of it, with another number, and leaves the buffer. -/
theorem generations_identify_mirror : ∃ (now : Pool × Host Recorder) (old slot : Allocation),
    Relation.ReflTransGen Turn mirror mirrored ∧ Relation.ReflTransGen Turn mirrored now ∧
      mirrored.1.allocation? (.texture ⟨0⟩) = some old ∧ now.1.allocation? (.texture ⟨0⟩) = some slot ∧
      slot.generation = 1 ∧ slot.number ≠ old.number ∧
      now.1.allocation? (.buffer ⟨0⟩) = mirrored.1.allocation? (.buffer ⟨0⟩) := by
  have begun : Relation.ReflTransGen Turn mirror mirrored := .tail (.single (.materialize _ _)) (.materialize _ _)
  have later : Relation.ReflTransGen Turn mirrored (left (resize ⟨⟨2, 2, 1⟩, .bgra8UnormSrgb⟩) mirrored) :=
    .single (.resize _ _)
  have first : (mirrored.1.allocation? (.texture ⟨0⟩)).map Allocation.generation = some 0 := by decide +kernel
  have second : ((left (resize ⟨⟨2, 2, 1⟩, .bgra8UnormSrgb⟩) mirrored).1.allocation? (.texture ⟨0⟩)).map
      Allocation.generation = some 1 := by decide +kernel
  have buffer : (mirrored.1.allocation? (.buffer ⟨0⟩)).isSome = true := by decide +kernel
  obtain ⟨reads, -⟩ := generations_identify begun later
  obtain ⟨old, there, zero⟩ := Option.map_eq_some_iff.mp first
  obtain ⟨slot, filled, -, same, -⟩ := reads (.texture ⟨0⟩) old there
  obtain ⟨kept, listed⟩ := Option.isSome_iff_exists.mp buffer
  obtain ⟨again, found, -, -, -, stays⟩ := reads (.buffer ⟨0⟩) kept listed
  rw [filled] at second
  have one : slot.generation = 1 := Option.some_inj.mp second
  refine ⟨_, old, slot, begun, later, there, filled, one, fun number => ?_, ?_⟩
  · have equal := same.mpr number
    omega
  · have fixed : again = kept := by
      apply stays
      rintro ⟨decl, ⟨⟩, follows⟩
      cases follows
    rw [found, listed, fixed]

end Pool

end FrameGraph
