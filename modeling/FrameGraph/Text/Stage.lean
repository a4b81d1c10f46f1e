/-! # Pipeline stages and their builtin values

Each stage marks its entry points with an attribute of its own and offers builtin values under
reserved identifiers.
-/

namespace FrameGraph

/-- The stage an entry point runs in. -/
inductive Stage where
  | compute | vertex | fragment
deriving DecidableEq, Repr, Inhabited

/-- A reserved identifier, the builtin value it stands for and that value's type. -/
structure Builtin where
  ident : String
  value : String
  type : String
deriving DecidableEq, Repr

/-- The parameter that declares the identifier. -/
def Builtin.parameter (builtin : Builtin) : String :=
  s!"@builtin({builtin.value}) {builtin.ident}: {builtin.type}"

namespace Stage

def word : Stage → String
  | .compute => "compute"
  | .vertex => "vertex"
  | .fragment => "fragment"

/-- The attribute that marks an entry point of the stage. -/
def mark (stage : Stage) : String := "@" ++ stage.word

def builtins : Stage → List Builtin
  | .compute => [⟨"gid", "global_invocation_id", "vec3<u32>"⟩,
      ⟨"lid", "local_invocation_id", "vec3<u32>"⟩, ⟨"lindex", "local_invocation_index", "u32"⟩,
      ⟨"group_id", "workgroup_id", "vec3<u32>"⟩, ⟨"group_count", "num_workgroups", "vec3<u32>"⟩]
  | .vertex => [⟨"vertex_id", "vertex_index", "u32"⟩, ⟨"instance_id", "instance_index", "u32"⟩]
  | .fragment => [⟨"frag_coord", "position", "vec4<f32>"⟩, ⟨"front_facing", "front_facing", "bool"⟩,
      ⟨"sample_id", "sample_index", "u32"⟩]

end Stage

end FrameGraph
