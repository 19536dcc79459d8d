import LogLift.Severity
import LogLift.Text.Quoted

/-! The rules of lifting: which printing call is replaced, and the path of the logging calls that
replace it. -/

namespace LogLift

def isIdentifierStart (c : Char) : Bool := c == '_' || c.isAlpha

def isIdentifierRest (c : Char) : Bool := c == '_' || c.isAlphanum

/-- An ASCII letter or an underscore, then letters, digits and underscores. -/
def isIdentifier : List Char → Bool
  | [] => false
  | c :: cs => isIdentifierStart c && cs.all isIdentifierRest

/-- The segments of a path, the parts between its `::`. -/
def pathSegments : List Char → List (List Char)
  | [] => [[]]
  | ':' :: ':' :: cs => [] :: pathSegments cs
  | c :: cs =>
    match pathSegments cs with
    | [] => [[c]]
    | segment :: segments => (c :: segment) :: segments

/-- One or more identifiers joined by `::`. -/
def isIdentifierPath (cs : List Char) : Bool := (pathSegments cs).all isIdentifier

inductive RuleField where
  | macroName
  | logPath
  deriving Repr, DecidableEq

def RuleField.name : RuleField → String
  | macroName => "macro_name"
  | logPath => "log_path"

/-- A name that is not an identifier, or not a path of identifiers. -/
structure RuleError where
  field : RuleField
  value : String
  deriving Repr, DecidableEq

def RuleError.message (e : RuleError) : String :=
  "invalid " ++ e.field.name ++ ": " ++ Text.quoted e.value

/-- A printing call `macroName!(…)` and the path of the logging calls that replace it. -/
structure Rules where
  macroName : String
  logPath : String
  isIdentifier_macroName : isIdentifier macroName.toList = true
  isIdentifierPath_logPath : isIdentifierPath logPath.toList = true

namespace Rules

/-- The rules for two names.  The name of the printing call is checked first. -/
def of (macroName logPath : String) : Except RuleError Rules :=
  if h : isIdentifier macroName.toList then
    if h' : isIdentifierPath logPath.toList then .ok ⟨macroName, logPath, h, h'⟩
    else .error ⟨.logPath, logPath⟩
  else .error ⟨.macroName, macroName⟩

def defaultMacroName : String := "println"

def defaultLogPath : String := "log"

def default : Rules :=
  ⟨defaultMacroName, defaultLogPath, by decide +kernel, by decide +kernel⟩

instance : Inhabited Rules := ⟨default⟩

/-- The logging call of a level, such as `log::info!`. -/
def replacement (r : Rules) (level : Level) : String :=
  r.logPath ++ "::" ++ level.name ++ "!"

end Rules

end LogLift
