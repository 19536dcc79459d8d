import LogLift.Batch.Event
import LogLift.Config.Targets

/-! Lifting the calls of all targets.  Each file is read, lifted and written back on its own; one
that fails does not stop the others. -/

namespace LogLift.Batch

open LogLift.Document LogLift.Storage

/-- Whether files are written back. -/
inductive Mode where
  | apply
  | check
  deriving Repr, DecidableEq

/-- What holds for every file of a batch. -/
structure Options where
  rules : Rules
  keywords : Keywords
  mode : Mode
  /-- The texts before and after are kept in the report. -/
  keepTexts : Bool

/-- The same options in another mode. -/
def Options.inMode (options : Options) (mode : Mode) : Options := { options with mode := mode }

structure Step where
  fs : FileSystem
  outcome : Outcome
  events : List Event

/-- Writes a new text, where texts are to be written. -/
def commit (mode : Mode) (host : Host) (snapshot : Snapshot) (text : String) : Work Unit :=
  match mode with
  | .apply => snapshot.commit host text
  | .check => pure ()

def processFile (options : Options) (host : Host) (fs : FileSystem) (file : Location) : Step :=
  match Snapshot.read host fs file.path with
  | .error error => ⟨fs, .failed (.notCommitted error), []⟩
  | .ok snapshot =>
    let source := snapshot.text.toList
    let scanned := (events options.rules options.keywords source).map Event.scanned
    match lift options.rules options.keywords source with
    | .error error => ⟨fs, .failed (.unreadable file error), scanned⟩
    | .ok lifting =>
      if lifting.unchanged then
        ⟨fs, .unchanged file, scanned ++ [.nothingToLift file]⟩
      else
        let text := String.ofList lifting.text
        let scanned := scanned ++ [.lifted file snapshot.hash lifting]
        match (commit options.mode host snapshot text).run fs with
        | .error error fs => ⟨fs, .failed (.notCommitted error), scanned⟩
        | .ok () fs =>
          let texts := if options.keepTexts then some (snapshot.text, text) else none
          ⟨fs, .lifted file lifting.calls texts, scanned⟩

/-- The outcome of a target.  A file that does not exist is skipped. -/
def processTarget (options : Options) (guard : Guard) (host : Host) (fs : FileSystem)
    (target : Target) : Step :=
  match guard.resolve fs target.path with
  | .error (.missingSource path) => ⟨fs, .skipped path, []⟩
  | .error error => ⟨fs, .failed (.refused error), []⟩
  | .ok file => processFile options host fs file

structure Run where
  fs : FileSystem
  entries : List Entry
  events : List Event

def Run.report (r : Run) : Report := ⟨r.entries⟩

/-- All targets, one after the other.  `hosts` are the host as it is for the first target, for the
second, and so on. -/
def process (options : Options) (guard : Guard) (hosts : Nat → Host) (fs : FileSystem) :
    List Target → Run
  | [] => ⟨fs, [], []⟩
  | target :: targets =>
    let step := processTarget options guard (hosts 0) fs target
    let entry : Entry := ⟨target.name, step.outcome⟩
    let rest := process options guard (fun i => hosts (i + 1)) step.fs targets
    ⟨rest.fs, entry :: rest.entries, step.events ++ .finished entry :: rest.events⟩

end LogLift.Batch
