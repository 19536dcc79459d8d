/-! The arguments of the command line: a command, its files, and the switches of the command. -/

namespace LogLift.Command

inductive Verb where
  | apply
  | check
  | list
  deriving Repr, DecidableEq

/-- A switch that takes no value. -/
inductive Flag where
  | verbose
  | help
  | dryRun
  | diff
  | json
  deriving Repr, DecidableEq

/-- A switch that takes a value. -/
inductive Setting where
  | workspace
  | config
  deriving Repr, DecidableEq

inductive Switch where
  | flag (flag : Flag)
  | setting (setting : Setting)
  deriving Repr, DecidableEq

def Verb.flags : Verb → List Flag
  | apply => [.verbose, .help, .dryRun, .diff, .json]
  | check => [.verbose, .help, .json]
  | list => [.verbose, .help]

def Flag.long : Flag → String
  | verbose => "verbose"
  | help => "help"
  | dryRun => "dry-run"
  | diff => "diff"
  | json => "json"

def Flag.short? : Flag → Option Char
  | verbose => some 'v'
  | help => some 'h'
  | dryRun => some 'n'
  | diff => some 'd'
  | json => none

def Setting.long : Setting → String
  | workspace => "workspace"
  | config => "config"

def Setting.short : Setting → Char
  | workspace => 'w'
  | config => 'c'

def Verb.long? (verb : Verb) (name : String) : Option Switch :=
  match verb.flags.find? (·.long == name) with
  | some flag => some (.flag flag)
  | none => ([Setting.workspace, .config].find? (·.long == name)).map .setting

def Verb.short? (verb : Verb) (letter : Char) : Option Switch :=
  match verb.flags.find? (·.short? == some letter) with
  | some flag => some (.flag flag)
  | none => ([Setting.workspace, .config].find? (·.short == letter)).map .setting

/-- Why no command is run. -/
inductive Stop where
  /-- The arguments make no sense. -/
  | usage
  | help
  | version
  deriving Repr, DecidableEq

structure Given where
  files : List String := []
  workspace : Option String := none
  config : Option String := none
  verbosity : Nat := 0
  dryRun : Bool := false
  diff : Bool := false
  json : Bool := false
  deriving Repr, DecidableEq

namespace Given

/-- A flag that is given only once. -/
def once (given : Bool) : Except Stop Bool := if given then .error .usage else .ok true

/-- The arguments with one more flag.  Only the verbosity may be raised again. -/
def raise (g : Given) : Flag → Except Stop Given
  | .verbose => .ok { g with verbosity := g.verbosity + 1 }
  | .help => .error .help
  | .dryRun => (once g.dryRun).map fun b => { g with dryRun := b }
  | .diff => (once g.diff).map fun b => { g with diff := b }
  | .json => (once g.json).map fun b => { g with json := b }

/-- The arguments with one more setting.  No setting is given twice, and none is empty. -/
def assign (g : Given) (setting : Setting) (value : List Char) : Except Stop Given :=
  if value.isEmpty then .error .usage
  else
    match setting with
    | .workspace =>
      if g.workspace.isSome then .error .usage
      else .ok { g with workspace := some (String.ofList value) }
    | .config =>
      if g.config.isSome then .error .usage
      else .ok { g with config := some (String.ofList value) }

end Given

/-- The text after the equals sign that it may start with. -/
def dropEquals : List Char → List Char
  | '=' :: cs => cs
  | cs => cs

/-- A bundle of letters after a single dash.  A setting takes the rest of the bundle as its value;
when nothing is left, it waits for the next argument. -/
def readLetters (verb : Verb) (g : Given) : List Char → Except Stop (Given × Option Setting)
  | [] => .ok (g, none)
  | letter :: rest =>
    match verb.short? letter with
    | none => .error .usage
    | some (.flag flag) =>
      match g.raise flag with
      | .error stop => .error stop
      | .ok g => readLetters verb g rest
    | some (.setting setting) =>
      if rest.isEmpty then .ok (g, some setting)
      else (g.assign setting (dropEquals rest)).map (·, none)

def nameAndValue (cs : List Char) : String × Option (List Char) :=
  let name := cs.takeWhile (· != '=')
  (String.ofList name, (cs.drop name.length).tail?)

/-- A long switch.  A setting without an equals sign waits for the next argument. -/
def readLong (verb : Verb) (g : Given) (cs : List Char) : Except Stop (Given × Option Setting) :=
  let (name, value) := nameAndValue cs
  match verb.long? name, value with
  | none, _ => .error .usage
  | some (.flag flag), none => (g.raise flag).map (·, none)
  | some (.flag _), some _ => .error .usage
  | some (.setting setting), none => .ok (g, some setting)
  | some (.setting setting), some value => (g.assign setting value).map (·, none)

/-- An argument is read as a switch: it starts with a dash and is more than that. -/
def isSwitch : List Char → Bool
  | '-' :: _ :: _ => true
  | _ => false

/-- The arguments after a command.  `waiting` is a setting whose value comes next.  After two dashes
all arguments are files. -/
def readArguments (verb : Verb) (g : Given) (waiting : Option Setting) :
    List String → Except Stop Given
  | [] => if waiting.isSome then .error .usage else .ok g
  | arg :: args =>
    match waiting with
    | some setting =>
      if isSwitch arg.toList then .error .usage
      else
        match g.assign setting arg.toList with
        | .error stop => .error stop
        | .ok g => readArguments verb g none args
    | none =>
      let switch : Except Stop (Given × Option Setting) :=
        match arg.toList with
        | '-' :: '-' :: cs => readLong verb g cs
        | '-' :: c :: cs => readLetters verb g (c :: cs)
        | _ => .ok ({ g with files := g.files ++ [arg] }, none)
      if arg = "--" then .ok { g with files := g.files ++ args }
      else
        match switch with
        | .error stop => .error stop
        | .ok (g, waiting) => readArguments verb g waiting args

structure Invocation where
  verb : Verb
  given : Given
  /-- How often a more detailed log was asked for. -/
  verbosity : Nat
  deriving Repr, DecidableEq

def verb? : String → Option Verb
  | "apply" => some .apply
  | "check" => some .check
  | "list" => some .list
  | _ => none

/-- The letters before a command, after which `verbosity` was asked for. -/
def leadingLetters (verbosity : Nat) : List Char → Except Stop Nat
  | [] => .ok verbosity
  | 'v' :: rest => leadingLetters (verbosity + 1) rest
  | 'V' :: _ => .error .version
  | 'h' :: _ => .error .help
  | _ => .error .usage

def leadingSwitch (verbosity : Nat) : List Char → Except Stop Nat
  | '-' :: '-' :: cs =>
    match String.ofList cs with
    | "verbose" => .ok (verbosity + 1)
    | "version" => .error .version
    | "help" => .error .help
    | _ => .error .usage
  | '-' :: cs => leadingLetters verbosity cs
  | _ => .error .usage

/-- The whole command line.  A verbosity given after the command stands for the one before it. -/
def readInvocation (verbosity : Nat) : List String → Except Stop Invocation
  | [] => .error .usage
  | arg :: args =>
    if isSwitch arg.toList then
      match leadingSwitch verbosity arg.toList with
      | .error stop => .error stop
      | .ok verbosity => readInvocation verbosity args
    else if arg = "help" then .error .help
    else
      match verb? arg with
      | none => .error .usage
      | some verb =>
        match readArguments verb {} none args with
        | .error stop => .error stop
        | .ok given =>
          .ok ⟨verb, given, if given.verbosity = 0 then verbosity else given.verbosity⟩

end LogLift.Command
