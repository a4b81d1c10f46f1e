/-! # Access to files

The program reaches files through these operations only, so that it runs on the files of a system as
well as on files in memory.
-/

namespace FrameGraph

structure FileAccess (m : Type → Type) where
  /-- The directory that relative paths start from. -/
  workingDirectory : m String
  /-- There is a file or directory at a path. -/
  pathExists : String → m Bool
  /-- The text of a file, or the system's words for why there is none. -/
  read : String → m (Except String String)

end FrameGraph
