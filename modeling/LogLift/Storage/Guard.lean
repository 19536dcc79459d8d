import LogLift.Storage.FileSystem

/-! The guard that keeps changes inside a workspace, and there out of build output, version
control and installed dependencies. -/

namespace LogLift.Storage

/-- A workspace and the directories that are not to be touched, all without links. -/
structure Guard where
  root : Location
  forbidden : List Location
  deriving Repr, DecidableEq

inductive GuardError where
  | missingSource (path : Path)
  | outside (file root : Location)
  | forbidden (file dir : Location)
  | unresolved (path : Path) (error : AccessError)
  deriving Repr, DecidableEq

def GuardError.message : GuardError → String
  | missingSource path => s!"source file not found: {path.text}"
  | outside file root => s!"{file.path.text} is outside workspace {root.path.text}"
  | forbidden file dir => s!"{file.path.text} is inside protected directory {dir.path.text}"
  | unresolved path error => s!"failed to canonicalize {path.text}: {error.message}"

namespace Guard

/-- The directories that are not to be touched, whether they exist or not.  A relative `home` counts
from the current directory. -/
def candidates (root : Location) (home : Option Path) : List Path :=
  [⟨"target"⟩, ⟨".git"⟩].map root.path.join ++
    match home with
    | none => []
    | some home => [⟨".cargo/registry"⟩, ⟨".cargo/git"⟩, ⟨".rustup"⟩].map home.join

/-- The guard of the workspace that `root` leads to from the current directory.  Only directories
that exist are forbidden. -/
def of (fs : FileSystem) (cwd : Location) (home : Option Path) (root : Path) :
    Except GuardError Guard :=
  match fs.resolve (cwd.path.join root) with
  | .error error => .error (.unresolved root error)
  | .ok root =>
    .ok ⟨root, (candidates root home).filterMap fun dir =>
      (fs.resolve (cwd.path.join dir)).toOption⟩

/-- A file may be changed: it is in the workspace, and in no forbidden directory. -/
def check (g : Guard) (file : Location) : Except GuardError Unit :=
  if g.root.isPrefixOf file then
    match g.forbidden.find? (·.isPrefixOf file) with
    | some dir => .error (.forbidden file dir)
    | none => .ok ()
  else .error (.outside file g.root)

/-- The file that a path leads to, if it may be changed.  A relative path counts from the
workspace. -/
def resolve (g : Guard) (fs : FileSystem) (p : Path) : Except GuardError Location :=
  let absolute := g.root.path.join p
  if fs.isFile absolute then
    match fs.resolve absolute with
    | .error error => .error (.unresolved absolute error)
    | .ok file =>
      match g.check file with
      | .error error => .error error
      | .ok () => .ok file
  else .error (.missingSource absolute)

end Guard

end LogLift.Storage
