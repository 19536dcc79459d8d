import LogLift.Config.Decode
import LogLift.Config.Issue
import LogLift.Storage.FileSystem

/-! Loading a configuration, and finding its file. -/

namespace LogLift

open LogLift.Storage

/-- Why there is no configuration.  An error may name the file that it came from. -/
inductive ConfigError where
  | unreadable (file : Path) (error : AccessError)
  | notToml (file : Option Path)
  | rejected (file : Option Path) (issues : List Config.Issue)
  | noFile (tried : List Path)
  deriving Repr, DecidableEq

namespace ConfigError

/-- The start of a message about a file. -/
def about : Option Path → String
  | none => ""
  | some file => s!"{file.text}: "

def message : ConfigError → String
  | unreadable file error => s!"cannot read {file.text}: {error.message}"
  | notToml file => s!"{about file}not valid TOML"
  | rejected file issues => s!"{about file}config rejected: {Config.issuesMessage issues}"
  | noFile tried => "no config file; tried " ++ ", ".intercalate (tried.map Path.text)

def cause? : ConfigError → Option String
  | unreadable _ error => some error.message
  | notToml _ => none
  | rejected _ issues => some (Config.issuesMessage issues)
  | noFile _ => none

end ConfigError

namespace Config

def fileName : String := "log-rewriter.toml"

/-- The configuration in a text, checked by `issues`. -/
def ofText (issues : Config → List Issue) (file : Option Path) (text : String) :
    Except ConfigError Config :=
  match ofToml? text.toList with
  | none => .error (.notToml file)
  | some config =>
    if (issues config).isEmpty then .ok config else .error (.rejected file (issues config))

def load (text : String) : Except ConfigError Config := ofText issues none text

/-- The configuration in a file whose content was read.  Only what `issues` finds is checked. -/
def ofFile (issues : Config → List Issue) (file : Path) :
    (content : Except AccessError String) → Except ConfigError Config
  | .error error => .error (.unreadable file error)
  | .ok text => ofText issues (some file) text

/-- The files that a configuration is looked for in: in the workspace, then in the current
directory. -/
def candidates (workspace : Path) (cwd : Option Path) : List Path :=
  let first := workspace.join ⟨fileName⟩
  match cwd with
  | none => [first]
  | some cwd =>
    let second := cwd.join ⟨fileName⟩
    if second.same first then [first] else [first, second]

/-- The configuration file of a workspace. -/
def discover (fs : FileSystem) (workspace : Path) (cwd : Option Path) : Except ConfigError Path :=
  match (candidates workspace cwd).find? fs.isFile with
  | some file => .ok file
  | none => .error (.noFile (candidates workspace cwd))

end Config

end LogLift
