import FrameGraph.Grid.Plan
import FrameGraph.Text.Bracket

/-! # Compile errors

Every mistake in a component tree that compiling finds. Any of them ends the compile.
-/

namespace FrameGraph

inductive CompileError where
  | patch (function : String) (cause : PatchError)
  | layout (cause : LayoutError)
  | grid (cause : GridError)
  | duplicateName (function name : String)
  | duplicateIndex (function : String) (space : IndexSpace) (index : Nat)
  | unknownTexture (function : String) (handle : TextureHandle)
  | unknownBuffer (function : String) (handle : BufferHandle)
  | badIndexType (function : String)
  | notStorageFormat (function texture : String) (format : FormatPolicy)
  | cubeStorage (function texture : String)
  | badArgumentBufferMember (block member : String)
  | argumentBufferRedefined (function block : String)
  | workgroupSize (function : String)
  | noTargets (function : String)
  /-- The entry point cannot be edited; the program stops here, without a report. -/
  | markMeetsName (function : String)
deriving Repr

namespace CompileError

def message : CompileError → String
  | .patch function cause => s!"`{function}`: {cause.message}"
  | .layout cause => cause.message
  | .grid cause => cause.message
  | .duplicateName function name => s!"`{function}` declares argument `{name}` twice"
  | .duplicateIndex function space index =>
    s!"`{function}` pins {space.text} index {index} twice"
  | .unknownTexture function handle => s!"`{function}` references unknown {handle.text}"
  | .unknownBuffer function handle => s!"`{function}` references unknown {handle.text}"
  | .badIndexType function => s!"index buffer of `{function}` must hold u16 or u32 elements"
  | .notStorageFormat function texture format =>
    s!"`{function}` writes texture `{texture}` whose format {format.describe} is not storage-capable"
  | .cubeStorage function texture =>
    s!"`{function}` binds cube texture `{texture}` as a storage texture"
  | .badArgumentBufferMember block member =>
    s!"argument buffer `{block}` may only hold buffers and textures, `{member}` is neither"
  | .argumentBufferRedefined function block =>
    s!"`{function}` redefines argument buffer `{block}` with different members"
  | .workgroupSize function =>
    s!"`{function}` has a @workgroup_size that is not a list of integer literals"
  | .noTargets function => s!"`{function}` has no colour target"
  | .markMeetsName function => s!"the stage mark of `{function}` runs into its name"

end CompileError

end FrameGraph
