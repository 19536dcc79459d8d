import LogLift.Batch.Process
import LogLift.Command.Arguments
import LogLift.Command.Report
import LogLift.Config.Load

/-! Running a command: finding the workspace and the configuration, lifting the targets or
listing them, and reporting. -/

namespace LogLift.Command

open LogLift.Batch LogLift.Storage

structure Surroundings where
  fs : FileSystem
  /-- The host as it is for each target in turn. -/
  hosts : Nat → Host
  cwd : Location
  home : Option Path
  /-- The workspace that the surroundings name. -/
  workspaceVariable : Option String
  colour : Bool
  /-- A log is kept. -/
  logging : Bool

def workspaceVariableName : String := "LOG_REWRITER_WORKSPACE"

structure Problem where
  message : String
  cause : Option String := none
  deriving Repr, DecidableEq

def Problem.text (p : Problem) : String :=
  match p.cause with
  | none => s!"Error: {p.message}\n"
  | some cause => s!"Error: {p.message}\n\nCaused by:\n    {cause}\n"

def Problem.ofConfig (error : ConfigError) : Problem := ⟨error.message, error.cause?⟩

/-- A part of a command: it prints, and may end in a problem. -/
abbrev Session := ExceptT Problem (StateM Transcript)

def printLine (line : String) : Session Unit := modify (·.printLine line)

def warnLine (line : String) : Session Unit := modify (·.warnLine line)

def failWith {α : Type} (problem : Problem) : Session α := throw problem

namespace Surroundings

/-- The node that a path leads to from the current directory.  The empty path leads nowhere. -/
def resolve (s : Surroundings) (p : Path) : Except AccessError Location :=
  if p.text.isEmpty then .error .missing else s.fs.resolve (s.cwd.path.join p)

/-- The text of the file that a path leads to from the current directory. -/
def readText (s : Surroundings) (p : Path) : Except AccessError String :=
  if p.text.isEmpty then .error .missing else s.fs.readText (s.cwd.path.join p)

/-- The directories from the current one up to the root. -/
def ancestors (s : Surroundings) : List Location :=
  (List.range (s.cwd.length + 1)).map fun n => s.cwd.take (s.cwd.length - n)

/-- The nearest directory above the current one that holds a manifest. -/
def detected? (s : Surroundings) : Option Location :=
  s.ancestors.find? fun dir => s.fs.isFile (dir.path.join ⟨"Cargo.toml"⟩)

end Surroundings

def noWorkspace (colour : Bool) : Problem where
  message := paint colour .red "Could not find a workspace." ++ "\n" ++
    paint colour .bold "Try one of:" ++
    "\n  1. Specify explicitly: log-rewriter apply --workspace /path/to/project" ++
    s!"\n  2. Set environment variable: export {workspaceVariableName}=/path/to/project"

/-- The workspace that is detected from the current directory. -/
def detectWorkspace (s : Surroundings) : Session Location :=
  match s.detected? with
  | some dir => do
    warnLine (paint s.colour .dimmed s!"Auto-detected workspace: {dir.path.text}")
    return dir
  | none => failWith (noWorkspace s.colour)

/-- The workspace: the one given, else the one that the surroundings name, else the one
detected. -/
def findWorkspace (s : Surroundings) (given : Option String) : Session Location :=
  match given with
  | some text =>
    match s.resolve ⟨text⟩ with
    | .ok dir => return dir
    | .error error => failWith ⟨s!"workspace {text} does not exist", some error.message⟩
  | none =>
    match s.workspaceVariable with
    | none => detectWorkspace s
    | some text =>
      match s.resolve ⟨text⟩ with
      | .ok dir => return dir
      | .error _ => do
        warnLine (paint s.colour .yellow
          s!"Warning: {workspaceVariableName} is set but path doesn't exist: {text}")
        detectWorkspace s

/-- The configuration file: the one given, or the one found.  With files given there need not be
one. -/
def findConfig (s : Surroundings) (workspace : Location) (g : Given) : Session (Option Path) :=
  match g.config with
  | some text => return some ⟨text⟩
  | none =>
    match Config.discover s.fs workspace.path (some s.cwd.path) with
    | .ok file => return some file
    | .error error => if g.files.isEmpty then failWith (.ofConfig error) else return none

/-- The configuration in a file, checked by `issues`. -/
def loadFile (s : Surroundings) (issues : Config → List Config.Issue) (file : Path) :
    Session Config :=
  match Config.ofFile issues file (s.readText file) with
  | .ok config => return config
  | .error error => failWith (.ofConfig error)

/-- The configuration of a command.  Files that were given take the place of the configured
targets, and the file then only serves for its rules and words. -/
def loadConfig (s : Surroundings) (workspace : Location) (g : Given) : Session Config := do
  match ← findConfig s workspace g with
  | some file =>
    if g.files.isEmpty then
      warnLine (paint s.colour .dimmed s!"Config: {file.text}")
      loadFile s Config.issues file
    else
      let loaded ← loadFile s Config.ruleIssues file
      checked { Config.forFiles g.files with rules := loaded.rules, keywords := loaded.keywords }
  | none => checked (Config.forFiles g.files)
where
  checked (config : Config) : Session Config :=
    if config.issues.isEmpty then return config
    else failWith ⟨Config.issuesMessage config.issues, none⟩

def rulesOf (config : Config) : Session Rules :=
  match config.rules.rules with
  | .ok rules => return rules
  | .error error => failWith ⟨error.message, none⟩

def guardOf (s : Surroundings) (workspace : Location) : Session Guard :=
  match Guard.of s.fs s.cwd s.home workspace.path with
  | .ok guard => return guard
  | .error error => failWith ⟨error.message, none⟩

def leastWeight (verbosity : Nat) : Weight :=
  if verbosity = 0 then .warn else if verbosity = 1 then .debug else .trace

/-- The lines above a report. -/
def announce (s : Surroundings) (i : Invocation) (mode : Mode) (workspace : Location) :
    Session Unit := do
  unless i.given.json do
    printLine s!"Workspace: {workspace.path.text}"
    if mode = .check then
      printLine (paint s.colour .cyan "[CHECK - no files will be written]")
    printLine ""

/-- Tells of a batch: its log where one is kept, and its report. -/
def tell (s : Surroundings) (i : Invocation) (run : Run) : Session Unit := do
  if s.logging then
    (log (leastWeight i.verbosity) run.events).forM warnLine
  if i.given.json then printLine ((reportJson run.report).render 0)
  else modify (printReport s.colour run.report)

/-- The exit code after a report: a failure counts as one, and so do pending changes when `gate`
holds. -/
def exitCode (gate : Bool) (report : Report) : Nat :=
  let pending := gate && report.total != 0
  if report.failures != 0 || pending then 1 else 0

/-- A batch as it is prepared by a command. -/
structure Plan where
  workspace : Location
  guard : Guard
  /-- The options of the batch when it only looks. -/
  options : Options
  targets : List Target

/-- Finds the workspace, and reads there what is to be done. -/
def prepare (s : Surroundings) (g : Given) : Session Plan := do
  let workspace ← findWorkspace s g.workspace
  let config ← loadConfig s workspace g
  let rules ← rulesOf config
  let guard ← guardOf s workspace
  return {
    workspace := workspace
    guard := guard
    options := ⟨rules, config.keywords.keywords, .check, g.diff && !g.json⟩
    targets := config.allTargets s.fs guard.root.path s.cwd.path }

/-- The batch of a plan. -/
def Plan.run (plan : Plan) (s : Surroundings) (mode : Mode) : Run :=
  process (plan.options.inMode mode) plan.guard s.hosts s.fs plan.targets

/-- Lifts the targets, or only looks at them, and reports.  Gives the file system after it and
the exit code. -/
def liftTargets (s : Surroundings) (i : Invocation) (mode : Mode) (gate : Bool) :
    Session (FileSystem × Nat) := do
  let plan ← prepare s i.given
  announce s i mode plan.workspace
  let run := plan.run s mode
  tell s i run
  return (run.fs, exitCode gate run.report)

/-- Lists the targets and tells which of them exist. -/
def listTargets (s : Surroundings) (i : Invocation) : Session Unit := do
  let workspace ← findWorkspace s i.given.workspace
  let config ← loadConfig s workspace i.given
  let rules ← rulesOf config
  unless config.about.name.isEmpty do
    printLine (paint s.colour .bold config.about.name)
  if let some description := config.about.description then
    printLine (paint s.colour .dimmed description)
  printLine s!"Rewrites {rules.macroName}!(...) into {rules.logPath}::<level>!(...)"
  printLine ""
  for target in config.allTargets s.fs workspace.path s.cwd.path do
    if s.fs.isFile target.path then
      printLine (paint s.colour .green "✓" ++ " " ++ target.name)
    else
      printLine (paint s.colour .cyan "⊘" ++ s!" {target.name} " ++
        paint s.colour .dimmed "(not found)")

def perform (s : Surroundings) (i : Invocation) : Session (FileSystem × Nat) :=
  match i.verb with
  | .apply => liftTargets s i (if i.given.dryRun then .check else .apply) false
  | .check => liftTargets s i .check true
  | .list => do
    listTargets s i
    return (s.fs, 0)

structure Result where
  fs : FileSystem
  exitCode : Nat
  transcript : Transcript

def versionText : String := "log-rewriter 0.1.0\n"

def usageText : String := "Usage: log-rewriter [-v]... <apply|check|list> [OPTIONS] [FILES]...\n"

def run (s : Surroundings) (args : List String) : Result :=
  match readInvocation 0 args with
  | .error .usage => ⟨s.fs, 2, { err := usageText }⟩
  | .error .help => ⟨s.fs, 0, { out := usageText }⟩
  | .error .version => ⟨s.fs, 0, { out := versionText }⟩
  | .ok invocation =>
    match (perform s invocation).run {} with
    | (.ok (fs, exitCode), transcript) => ⟨fs, exitCode, transcript⟩
    | (.error problem, transcript) =>
      ⟨s.fs, 1, { transcript with err := transcript.err ++ problem.text }⟩

end LogLift.Command
