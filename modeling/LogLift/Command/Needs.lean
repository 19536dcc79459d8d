import LogLift.Command.Run

/-! The part of a file system that a command looks at.  What it needs next depends on what is known
already: the configuration is read in the workspace, and the targets are named in the
configuration. -/

namespace LogLift.Command

open LogLift.Storage

/-- A path that a command looks at. -/
inductive Need where
  | node (path : Path)
  | tree (path : Path)
  deriving Repr, DecidableEq

/-- The result of a part of a command, as far as its surroundings are known. -/
def known? {α : Type} (session : Session α) : Option α := (session.run {}).1.toOption

/-- The targets of a configuration and where they are looked for. -/
def targetNeeds (s : Surroundings) (workspace : Location) (config : Config) : List Need :=
  let base := config.base workspace.path s.cwd.path
  config.targets.files.map (fun file => .node (base.join ⟨file⟩)) ++
    config.targets.dirs.map fun dir => .tree (base.join ⟨dir⟩)

/-- What a command looks at once its workspace is known. -/
def workspaceNeeds (s : Surroundings) (g : Given) (workspace : Location) : List Need :=
  (Config.candidates workspace.path (some s.cwd.path) ++
    (Guard.candidates workspace s.home).map s.cwd.path.join).map .node ++
    ((known? (loadConfig s workspace g)).map (targetNeeds s workspace)).getD []

/-- What a command looks at, as far as its surroundings are known. -/
def needs (s : Surroundings) (g : Given) : List Need :=
  let named := g.workspace.toList ++ s.workspaceVariable.toList ++ g.config.toList
  .node s.cwd.path :: named.map (fun text => .node (s.cwd.path.join ⟨text⟩)) ++
    s.ancestors.map (fun dir => .node (dir.path.join ⟨"Cargo.toml"⟩)) ++
    ((known? (findWorkspace s g.workspace)).map (workspaceNeeds s g)).getD []

end LogLift.Command
