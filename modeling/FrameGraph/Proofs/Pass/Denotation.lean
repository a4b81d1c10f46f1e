import FrameGraph.Flatten
import FrameGraph.Proofs.Pass.Reads
import FrameGraph.Proofs.Script

/-! # What a tree denotes

A component tree denotes an outline for each frame. A kernel is launched once unless its grid is empty, and may ask for
the frame so far to be submitted. Draws, copies and filters are one command each. A group is what its children are, as
often as it runs them. Callbacks are left open: each run of one fills its place with what its code may do there, for
what it finds of the stream then.
-/

namespace FrameGraph

/-- A stream on which the script was carried out looks like this. -/
structure CallbackSight.Shows (script : Script) (sight : CallbackSight) : Prop where
  pending : sight.pending = script.progress.pending.isSome
  submissions : sight.submissions.length = script.progress.submitted.length

/-- What code may do to a stream on which a script was carried out, until it ends well. -/
inductive CallbackCode.Does : Script → CallbackCode → Script → Prop
  | finish (before : Script) : Does before (.finish (.ok ())) []
  | look {before more : Script} {next : CallbackSight → CallbackCode} {sight : CallbackSight}
      (shows : sight.Shows before) (rest : Does before (next sight) more) : Does before (.look next) more
  | openEncoder {before more : Script} {next : CallbackCode} (rest : Does (before ++ [.start]) next more) :
      Does before (.openEncoder next) (.start :: more)
  | record {before more : Script} {command : Command} {next : Except DeviceError Unit → CallbackCode}
      (rest : Does (before ++ [.record command]) (next (.ok ())) more) :
      Does before (.record command next) (.record command :: more)
  | commit {before more : Script} {next : Except DeviceError (Option Nat) → CallbackCode} {submission : Option Nat}
      (opened : submission.isSome = before.progress.pending.isSome)
      (rest : Does (before ++ [.cut]) (next (.ok submission)) more) : Does before (.commit next) (.cut :: more)
  | commitAndWait {before more : Script} {next : Except DeviceError Unit → CallbackCode}
      (rest : Does (before ++ [.cut]) (next (.ok ())) more) : Does before (.commitAndWait next) (.cut :: more)
  | share {before more : Script} {change : Shared → Shared} {next : CallbackCode} (rest : Does before next more) :
      Does before (.share change next) more
  | ask {before more : Script} {group : String} {request : OffFrame.Request} {next : CallbackCode}
      (rest : Does before next more) : Does before (.ask group request next) more
  | writeDown {before more : Script} {entry : CallbackRecord} {next : CallbackCode} (rest : Does before next more) :
      Does before (.writeDown entry next) more

/-- What is recorded by code, it may record. -/
theorem CallbackCode.Does.reaches {before script : Script} {code : CallbackCode} (does : code.Does before script)
    {command : Command} (found : .record command ∈ script) : ∃ next, code.Reaches (.record command next) := by
  have onward {first next : CallbackCode} (step : first.Next next)
      (reaches : ∃ after, next.Reaches (.record command after)) : ∃ after, first.Reaches (.record command after) := by
    obtain ⟨after, reaches⟩ := reaches
    exact ⟨after, .head step reaches⟩
  induction does with
  | finish before => cases found
  | look shows rest ih => exact onward (.look _ _) (ih found)
  | openEncoder rest ih =>
    cases found with
    | tail _ found => exact onward (.openEncoder _) (ih found)
  | record rest ih =>
    cases found with
    | head => exact ⟨_, .refl⟩
    | tail _ found => exact onward (.record _ _ _) (ih found)
  | commit opened rest ih =>
    cases found with
    | tail _ found => exact onward (.commit _ _) (ih found)
  | commitAndWait rest ih =>
    cases found with
    | tail _ found => exact onward (.commitAndWait _ _) (ih found)
  | share rest ih => exact onward (.share _ _) (ih found)
  | ask rest ih => exact onward (.ask _ _ _) (ih found)
  | writeDown rest ih => exact onward (.writeDown _ _) (ih found)

/-- A part of a frame: something is done to the stream, or a callback is run. -/
inductive OutlinePart where
  | op (op : ScriptOp)
  | call (node : Callback)

/-- What a tree says of a frame before its callbacks are run. -/
abbrev Outline := List OutlinePart

namespace Outline

/-- The script fills the outline in, after what was done before: callbacks do there what their code may do. -/
inductive Fills (view : EncodeView) : Script → Outline → Script → Prop
  | nil (before : Script) : Fills view before [] []
  | op {before more : Script} {outline : Outline} (op : ScriptOp) (rest : Fills view (before ++ [op]) outline more) :
      Fills view before (.op op :: outline) (op :: more)
  | call {before some more : Script} {outline : Outline} {node : Callback}
      (does : (node.code view).Does before some) (rest : Fills view (before ++ some) outline more) :
      Fills view before (.call node :: outline) (some ++ more)

variable {view : EncodeView} {before script more : Script} {first outline : Outline}

/-- One outline after the other is filled in by one script after the other. -/
theorem Fills.append (fills : Fills view before first script) (rest : Fills view (before ++ script) outline more) :
    Fills view before (first ++ outline) (script ++ more) := by
  induction fills with
  | nil before =>
    rw [List.append_nil] at rest
    exact rest
  | op op _ ih =>
    refine .op op (ih ?_)
    rw [List.append_assoc, List.singleton_append]
    exact rest
  | call does _ ih =>
    rw [List.append_assoc]
    refine .call does (ih ?_)
    rw [List.append_assoc]
    exact rest

/-- Where only known things are done, the script is these. -/
theorem Fills.ops (view : EncodeView) (before : Script) (ops : Script) : Fills view before (ops.map .op) ops := by
  induction ops generalizing before with
  | nil => exact .nil before
  | cons op ops ih => exact .op op (ih _)

end Outline

namespace Pass

/-- The pass is what a leaf of the program became, but for what it has created and decided since. -/
def BuiltFrom (table : ResourceTable) (leaves : List (FlatLeaf × CompiledLeaf)) (node : Leaf) (pass : Pass) : Prop :=
  ∃ leaf ∈ leaves, leaf.1.node = node ∧
    ∃ built, ofLeaf? table node leaf.2 = some built ∧ pass.asBuilt = built.asBuilt

/-- A pass that was built from a leaf is of its kind and does what the leaf says. -/
theorem BuiltFrom.same {table : ResourceTable} {leaves : List (FlatLeaf × CompiledLeaf)} {node : Leaf} {pass : Pass}
    (built : pass.BuiltFrom table leaves node) :
    match node, pass with
    | .dispatch node, .dispatch pass => pass.waitUntilCompleted = node.waitUntilCompleted
    | .draw _, .draw _ => True
    | .blit node, .blit other => other = node
    | .filter node, .filter pass => pass.node = node
    | .callback node, .callback other => other = node
    | _, _ => False := by
  obtain ⟨leaf, -, -, built, made, same⟩ := built
  unfold ofLeaf? at made
  split at made <;> cases made
  · cases pass with
    | dispatch pass => exact congrArg DispatchPass.waitUntilCompleted (Pass.dispatch.inj same)
    | _ => cases same
  · cases pass with
    | draw pass => trivial
    | _ => cases same
  · cases pass with
    | blit other => exact Pass.blit.inj same
    | _ => cases same
  · cases pass with
    | filter pass => exact congrArg FilterPass.node (Pass.filter.inj same)
    | _ => cases same
  · cases pass with
    | callback other => exact Pass.callback.inj same
    | _ => cases same

end Pass

/-- The grid is that of the frame. -/
def DispatchPass.Fits (view : PassView) (shared : Shared) (pass : DispatchPass) : Prop :=
  ∃ extent, pass.sourceExtent view shared = .ok extent ∧ pass.grid = pass.compiled.grid.extent extent

section

variable (table : ResourceTable) (leaves : List (FlatLeaf × CompiledLeaf)) (passes : List Pass) (view : EncodeView)
  (shared : Shared)

/-- What a leaf contributes to a frame; its pass is one of those of the frame. -/
def Leaf.Denotes : Leaf → Outline → Prop
  | .dispatch node, outline => ∃ pass : DispatchPass, .dispatch pass ∈ passes ∧
      Pass.BuiltFrom table leaves (.dispatch node) (.dispatch pass) ∧ pass.Fits view.toPassView shared ∧
        if pass.grid.hasZero then outline = []
        else ∃ command, pass.command = .ok command ∧
          outline = .op (.record (.dispatch command)) :: if node.waitUntilCompleted then [.op .cut] else []
  | .draw node, outline => ∃ pass : DrawPass, .draw pass ∈ passes ∧
      Pass.BuiltFrom table leaves (.draw node) (.draw pass) ∧
        ∃ command, pass.command view = .ok command ∧ outline = [.op (.record (.draw command))]
  | .blit node, outline => ∃ command, node.command view = .ok command ∧ outline = [.op (.record command)]
  | .filter node, outline => ∃ pass : FilterPass, .filter pass ∈ passes ∧ pass.node = node ∧
      ∃ command, pass.command view = .ok command ∧ outline = [.op (.record command)]
  | .callback node, outline => outline = [.call node]

mutual

/-- What a component contributes to a frame: an off-frame group nothing, and other groups what their children do, as
often as they are run. -/
def Component.Denotes : Component → Outline → Prop
  | .leaf node, outline => node.Denotes table leaves passes view shared outline
  | .group options children, outline =>
    if options.iterations shared = 0 then outline = []
    else ∃ body, DenoteAll children body ∧ outline = (List.replicate (options.iterations shared) body).flatten
  | .offFrame _ _, outline => outline = []

/-- What components contribute, in order. -/
def Component.DenoteAll : List Component → Outline → Prop
  | [], outline => outline = []
  | component :: rest, outline => ∃ first others,
      component.Denotes first ∧ DenoteAll rest others ∧ outline = first ++ others

end

end

/-- What a kernel pass does to the stream of a frame. -/
def DispatchPass.outline (pass : DispatchPass) : Except PassError Outline :=
  if pass.grid.hasZero then return []
  else do
    let command ← pass.command
    return .op (.record (.dispatch command)) :: if pass.waitUntilCompleted then [.op .cut] else []

mutual

/-- What a pass does to the stream of a frame as it was prepared. -/
def Pass.outline (view : EncodeView) : Pass → Except PassError Outline
  | .dispatch pass => pass.outline
  | .draw pass => do return [.op (.record (.draw (← pass.command view)))]
  | .filter pass => do return [.op (.record (← pass.command view))]
  | .blit node => do return [.op (.record (← node.command view))]
  | .callback node => return [.call node]
  | .group _ planned children =>
    if planned = 0 then return [] else do return (List.replicate planned (← outlineAll view children)).flatten
  | .offFrame _ _ _ => return []

/-- What passes do to it, in order. -/
def Pass.outlineAll (view : EncodeView) : List Pass → Except PassError Outline
  | [] => return []
  | pass :: rest => do return (← outline view pass) ++ (← outlineAll view rest)

end

/-- The command is the launch or the draw of the leaf, or one that the callback may record. -/
def Pass.Records (view : EncodeView) : Pass → Command → Prop
  | .dispatch pass, .dispatch command => pass.command = .ok command
  | .draw pass, .draw command => pass.command view = .ok command
  | .callback node, command => node.MayRecord view command
  | _, _ => False

/-- An outline records launches and draws of these leaves only, and runs their callbacks only. -/
def Outline.RecordsOnly (view : EncodeView) (leaves : List Pass) (outline : Outline) : Prop :=
  ∀ part ∈ outline, match part with
    | .op (.record command) => command.Groupless ∨ ∃ leaf ∈ leaves, leaf.Records view command
    | .op _ => True
    | .call node => .callback node ∈ leaves

namespace Outline.RecordsOnly

variable {view : EncodeView} {leaves more : List Pass} {outline : Outline}

theorem nil : RecordsOnly view leaves [] := List.forall_mem_nil _

theorem groupless {command : Command} (groupless : command.Groupless) :
    RecordsOnly view leaves [.op (.record command)] := List.forall_mem_singleton.mpr (.inl groupless)

theorem mono (only : outline.RecordsOnly view leaves) (subset : leaves ⊆ more) : outline.RecordsOnly view more := by
  intro part found
  have one := only part found
  split at one
  · obtain groupless | ⟨leaf, listed, records⟩ := one
    · exact .inl groupless
    · exact .inr ⟨leaf, subset listed, records⟩
  · trivial
  · exact subset one

theorem flatten {outlines : List Outline} (all : ∀ outline ∈ outlines, outline.RecordsOnly view leaves) :
    RecordsOnly view leaves outlines.flatten := by
  intro part found
  obtain ⟨outline, listed, found⟩ := List.mem_flatten.mp found
  exact all outline listed part found

/-- So does every script that fills it in, what callbacks record included. -/
theorem commands (only : outline.RecordsOnly view leaves) {before script : Script}
    (fills : outline.Fills view before script) :
    ∀ command ∈ script.commands, command.Groupless ∨ ∃ leaf ∈ leaves, leaf.Records view command := by
  intro command found
  rw [Script.mem_commands] at found
  induction fills with
  | nil => cases found
  | op op _ ih =>
    obtain ⟨one, rest⟩ := List.forall_mem_cons.mp only
    cases found with
    | head => exact one
    | tail _ found => exact ih rest found
  | call does _ ih =>
    obtain ⟨one, rest⟩ := List.forall_mem_cons.mp only
    obtain here | there := List.mem_append.mp found
    · exact .inr ⟨_, one, does.reaches here⟩
    · exact ih rest there

end Outline.RecordsOnly

namespace Pass

mutual

theorem outline_records (view : EncodeView) :
    ∀ pass, Comes (Outline.RecordsOnly view (planned pass)) (fun _ => True) (outline view pass)
  | .dispatch pass => by
    rw [outline, DispatchPass.outline]
    split
    · exact .nil
    · refine (Comes.itself pass.command).bind fun command made => ?_
      refine List.forall_mem_cons.mpr ⟨.inr ⟨.dispatch pass, .head _, made⟩, ?_⟩
      split
      · exact List.forall_mem_singleton.mpr trivial
      · exact List.forall_mem_nil _
  | .draw pass => by
    rw [outline]
    refine (Comes.itself (pass.command view)).bind fun command made => ?_
    exact List.forall_mem_singleton.mpr (.inr ⟨.draw pass, .head _, made⟩)
  | .filter pass => by
    rw [outline]
    exact (pass.command_groupless view).bind fun command groupless => .groupless groupless
  | .blit node => by
    rw [outline]
    exact (node.command_groupless view).bind fun command groupless => .groupless groupless
  | .callback node => by
    rw [outline]
    exact List.forall_mem_singleton.mpr (.head _)
  | .group options times children => by
    rw [outline, planned]
    split
    · exact .nil
    · exact (outlineAll_records view children).bind fun body only =>
        .flatten fun outline found => List.eq_of_mem_replicate found ▸ only
  | .offFrame _ _ _ => by
    rw [outline]
    exact .nil

/-- The launches and draws that passes record are those of leaves that the frame encodes, callbacks apart. -/
theorem outlineAll_records (view : EncodeView) :
    ∀ passes, Comes (Outline.RecordsOnly view (plannedAll passes)) (fun _ => True) (outlineAll view passes)
  | [] => by
    rw [outlineAll]
    exact .nil
  | pass :: rest => by
    rw [outlineAll, plannedAll]
    refine (outline_records view pass).bind fun first one => (outlineAll_records view rest).bind fun others more => ?_
    intro part found
    obtain here | there := List.mem_append.mp found
    · exact one.mono (List.subset_append_left _ _) part here
    · exact more.mono (List.subset_append_right _ _) part there

end

end Pass

end FrameGraph
