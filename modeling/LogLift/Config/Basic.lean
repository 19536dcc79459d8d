import LogLift.Rules

/-! The configuration of a run: which files have their calls lifted, by which rules,
with which words. -/

namespace LogLift

namespace Config

/-- What a configuration says about itself, and the directory that it counts from. -/
structure About where
  name : String := ""
  description : Option String := none
  /-- Relative targets are read from the workspace, and from the current directory otherwise. -/
  workspaceRelative : Bool := false
  deriving Repr, DecidableEq

/-- The files whose calls are lifted, and the directories whose sources are added to them. -/
structure TargetLists where
  files : List String := []
  dirs : List String := []
  deriving Repr, DecidableEq

/-- The names that rules are made of, before they are checked. -/
structure RuleNames where
  macroName : String := Rules.defaultMacroName
  logPath : String := Rules.defaultLogPath
  deriving Repr, DecidableEq

/-- The words of each level.  A missing list stands for the built-in words. -/
structure KeywordLists where
  error : Option (List String) := none
  warn : Option (List String) := none
  info : Option (List String) := none
  deriving Repr, DecidableEq

end Config

structure Config where
  about : Config.About := {}
  targets : Config.TargetLists := {}
  rules : Config.RuleNames := {}
  keywords : Config.KeywordLists := {}
  deriving Repr, DecidableEq

namespace Config

/-- The configuration of a list of files and nothing else, read from the workspace. -/
def forFiles (files : List String) : Config where
  about := { workspaceRelative := true }
  targets := { files := files }

def KeywordLists.keywords (k : KeywordLists) : Keywords where
  error := k.error.getD Keywords.defaultError
  warn := k.warn.getD Keywords.defaultWarn
  info := k.info.getD Keywords.defaultInfo

def RuleNames.rules (r : RuleNames) : Except RuleError Rules := Rules.of r.macroName r.logPath

end Config

end LogLift
