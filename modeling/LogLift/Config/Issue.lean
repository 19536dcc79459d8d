import LogLift.Config.Basic
import LogLift.Text.Blank

/-! What can be wrong with a configuration.  All issues are found, in a fixed order: targets, then
rules, then words. -/

namespace LogLift.Config

inductive Setting where
  | files
  | dirs
  | macroName
  | logPath
  | errorWords
  | warnWords
  | infoWords
  deriving Repr, DecidableEq

def Setting.name : Setting → String
  | files => "targets.files"
  | dirs => "targets.dirs"
  | macroName => "rules.macro_name"
  | logPath => "rules.log_path"
  | errorWords => "keywords.error"
  | warnWords => "keywords.warn"
  | infoWords => "keywords.info"

inductive Issue where
  | noTargets
  | blankEntry (setting : Setting) (index : Nat)
  /-- A name is not an identifier, or not a path of identifiers. -/
  | invalidRule (setting : Setting) (value : String)
  /-- A list of words is given and has none. -/
  | noWords (setting : Setting)
  deriving Repr, DecidableEq

def Issue.message : Issue → String
  | noTargets => "no targets: set targets.files or targets.dirs"
  | blankEntry setting index => s!"{setting.name}[{index}] is blank"
  | invalidRule setting value =>
    s!"{setting.name} is not a valid identifier path: " ++ Text.quoted value
  | noWords setting => s!"{setting.name} is empty; omit it to use the defaults"

def issuesMessage (issues : List Issue) : String := "; ".intercalate (issues.map Issue.message)

/-- An issue for each blank entry of a list of targets. -/
def blankEntries (setting : Setting) (entries : List String) : List Issue :=
  (entries.zipIdx.filter fun entry => Text.allBlank entry.1.toList).map fun entry =>
    .blankEntry setting entry.2

def TargetLists.issues (t : TargetLists) : List Issue :=
  (if t.files.isEmpty && t.dirs.isEmpty then [.noTargets] else []) ++
    blankEntries .files t.files ++ blankEntries .dirs t.dirs

def RuleNames.issues (r : RuleNames) : List Issue :=
  (if isIdentifier r.macroName.toList then [] else [.invalidRule .macroName r.macroName]) ++
    (if isIdentifierPath r.logPath.toList then [] else [.invalidRule .logPath r.logPath])

/-- The issues of a list of words, of which only the first empty word is one. -/
def wordIssues (setting : Setting) : Option (List String) → List Issue
  | none => []
  | some [] => [.noWords setting]
  | some words =>
    match words.findIdx? (·.isEmpty) with
    | none => []
    | some index => [.blankEntry setting index]

def KeywordLists.issues (k : KeywordLists) : List Issue :=
  wordIssues .errorWords k.error ++ wordIssues .warnWords k.warn ++ wordIssues .infoWords k.info

/-- The issues of a configuration whose targets do not matter. -/
def ruleIssues (c : Config) : List Issue := c.rules.issues ++ c.keywords.issues

def issues (c : Config) : List Issue := c.targets.issues ++ c.ruleIssues

end LogLift.Config
