import LogLift.Config.Basic
import LogLift.Toml.Document

/-! A configuration read from a TOML document.  Keys that it does not know are passed over, and
missing ones have their defaults; a value of the wrong kind spoils the whole. -/

namespace LogLift.Config

open LogLift.Toml

/-- The fields of a record: named, as in a table, or listed in their order. -/
inductive Fields where
  | named (entries : Entries)
  | listed (items : List Value)

/-- A value as a record.  A repeated header is a list of tables.  A date has no fields. -/
def fields? : Value → Option Fields
  | .table _ entries => some (.named entries)
  | .array items => some (.listed items)
  | .tables rows => some (.listed (rows.map (.table .header)))
  | .moment _ => some (.named [])
  | _ => none

namespace Fields

/-- The field called `key`, which is number `index` in a list. -/
def get? (index : Nat) (key : String) : Fields → Option Value
  | named entries => entries.lookup key
  | listed items => items[index]?

/-- The field called `key`, decoded, or `missing` where there is none. -/
def read? {α : Type} (fields : Fields) (index : Nat) (key : String)
    (decode? : Value → Option α) (missing : α) : Option α :=
  match fields.get? index key with
  | none => some missing
  | some value => decode? value

end Fields

def string? : Value → Option String
  | .string text => some text
  | _ => none

def boolean? : Value → Option Bool
  | .boolean value => some value
  | _ => none

def strings? : Value → Option (List String)
  | .array items => items.mapM string?
  | _ => none

def about? (value : Value) : Option About := do
  let fields ← fields? value
  return {
    name := ← fields.read? 0 "name" string? ""
    description := ← fields.read? 1 "description" (fun v => (string? v).map some) none
    workspaceRelative := ← fields.read? 2 "workspace_relative" boolean? false }

def targetLists? (value : Value) : Option TargetLists := do
  let fields ← fields? value
  return {
    files := ← fields.read? 0 "files" strings? []
    dirs := ← fields.read? 1 "dirs" strings? [] }

def ruleNames? (value : Value) : Option RuleNames := do
  let fields ← fields? value
  return {
    macroName := ← fields.read? 0 "macro_name" string? Rules.defaultMacroName
    logPath := ← fields.read? 1 "log_path" string? Rules.defaultLogPath }

def keywordLists? (value : Value) : Option KeywordLists := do
  let fields ← fields? value
  let words? (v : Value) : Option (Option (List String)) := (strings? v).map some
  return {
    error := ← fields.read? 0 "error" words? none
    warn := ← fields.read? 1 "warn" words? none
    info := ← fields.read? 2 "info" words? none }

/-- The configuration that a TOML text holds, not yet checked for issues. -/
def ofToml? (text : List Char) : Option Config := do
  let fields := Fields.named (← document? text)
  return {
    about := ← fields.read? 0 "meta" about? {}
    targets := ← fields.read? 1 "targets" targetLists? {}
    rules := ← fields.read? 2 "rules" ruleNames? {}
    keywords := ← fields.read? 3 "keywords" keywordLists? {} }

end LogLift.Config
