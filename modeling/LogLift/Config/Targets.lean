import LogLift.Config.Basic
import LogLift.Storage.FileSystem

/-! The files that a configuration names: its own list first, then the sources below its
directories. -/

namespace LogLift

open LogLift.Storage

/-- A file whose calls are lifted, with the name that reports call it by. -/
structure Target where
  name : String
  path : Path
  deriving Repr, DecidableEq

namespace Config

/-- The directory that relative targets count from. -/
def base (c : Config) (workspace cwd : Path) : Path :=
  if c.about.workspaceRelative then workspace else cwd

/-- The target of an entry in the list of files, whether it exists or not. -/
def fileTarget (base : Path) (entry : String) : Target := ⟨entry, base.join ⟨entry⟩⟩

def isSource (p : Path) : Bool := p.extension? == some "rs"

/-- The sources below a directory, in order. -/
def dirTargets (fs : FileSystem) (base : Path) (entry : String) : List Target :=
  let found := ((fs.walk (base.join ⟨entry⟩)).filter isSource).mergeSort Path.le
  found.map fun p => ⟨p.nameBelow base, p⟩

/-- The targets whose paths are neither in `seen` nor that of an earlier one. -/
def firstOfEach (seen : List (List Component)) : List Target → List Target
  | [] => []
  | target :: rest =>
    let key := target.path.components
    if key ∈ seen then firstOfEach seen rest else target :: firstOfEach (key :: seen) rest

/-- All targets, each once. -/
def allTargets (c : Config) (fs : FileSystem) (workspace cwd : Path) : List Target :=
  let base := c.base workspace cwd
  firstOfEach [] (c.targets.files.map (fileTarget base) ++
    c.targets.dirs.flatMap (dirTargets fs base))

end Config

end LogLift
