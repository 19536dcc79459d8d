import LogLift.Document.Lift
import LogLift.Storage.Guard
import LogLift.Storage.Snapshot

/-! What becomes of a target, and the report on all of them. -/

namespace LogLift.Batch

open LogLift.Document LogLift.Source LogLift.Storage

/-- Why a target failed. -/
inductive Failure where
  | refused (error : GuardError)
  /-- A call in the file never closes. -/
  | unreadable (file : Location) (error : SpanError)
  | notCommitted (error : CommitError)
  deriving Repr, DecidableEq

def Failure.message : Failure → String
  | refused error => error.message
  | unreadable file error => s!"{file.path.text}: {error.message}"
  | notCommitted error => error.message

inductive Outcome where
  /-- Calls were lifted.  `texts` are the text before and after, where they were asked for. -/
  | lifted (file : Location) (calls : List LiftedCall) (texts : Option (String × String))
  | unchanged (file : Location)
  /-- There is no such file. -/
  | skipped (path : Path)
  | failed (failure : Failure)
  deriving Repr, DecidableEq

namespace Outcome

def calls : Outcome → List LiftedCall
  | lifted _ calls _ => calls
  | _ => []

def replacements (o : Outcome) : Nat := o.calls.length

def isFailure : Outcome → Bool
  | failed _ => true
  | _ => false

def isSkipped : Outcome → Bool
  | skipped _ => true
  | _ => false

def error? : Outcome → Option String
  | failed failure => some failure.message
  | _ => none

def status : Outcome → String
  | lifted _ _ _ => "rewritten"
  | unchanged _ => "unchanged"
  | skipped _ => "skipped"
  | failed _ => "failed"

def message : Outcome → String
  | lifted _ calls _ => s!"{calls.length} replacements"
  | unchanged _ => "0 replacements"
  | skipped _ => "skipped (not found)"
  | failed failure => s!"failed: {failure.message}"

end Outcome

structure Entry where
  name : String
  outcome : Outcome
  deriving Repr, DecidableEq

/-- The entries of all targets, in the order of the targets. -/
structure Report where
  entries : List Entry
  deriving Repr, DecidableEq

namespace Report

def total (r : Report) : Nat := r.entries.foldr (fun entry n => entry.outcome.replacements + n) 0

def failures (r : Report) : Nat := r.entries.countP (·.outcome.isFailure)

def skipped (r : Report) : Nat := r.entries.countP (·.outcome.isSkipped)

end Report

end LogLift.Batch
