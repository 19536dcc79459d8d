import LogLift.Batch.Outcome
import LogLift.Command.Json
import LogLift.Command.Paint
import LogLift.Diff.Hunk

/-! The report on a batch, as text with its diffs and as JSON. -/

namespace LogLift.Command

open LogLift.Batch LogLift.Document

structure Transcript where
  out : String := ""
  err : String := ""
  deriving Repr, DecidableEq

namespace Transcript

def print (text : String) (t : Transcript) : Transcript := { t with out := t.out ++ text }

def printLine (line : String) (t : Transcript) : Transcript := t.print (line ++ "\n")

def warnLine (line : String) (t : Transcript) : Transcript :=
  { t with err := t.err ++ line ++ "\n" }

end Transcript

def diffLine (colour : Bool) (kind : Diff.Kind) (line : List Char) : String :=
  let text := String.ofList (Diff.withEnding line)
  match kind with
  | .keep => " " ++ text
  | .delete => paint colour .red ("-" ++ text)
  | .insert => paint colour .green ("+" ++ text)

def diffText (colour : Bool) (name before after : String) : String :=
  let old : Diff.Lines := (Diff.lines before.toList).toArray
  let new : Diff.Lines := (Diff.lines after.toList).toArray
  let hunkText (h : Diff.Hunk) : String :=
    paint colour .cyan h.header ++ "\n" ++
      String.join ((h.lines old new).map fun line => diffLine colour line.1 line.2)
  "\n" ++ paint colour .dimmed s!"--- {name} (original)" ++ "\n" ++
    paint colour .dimmed s!"+++ {name} (rewritten)" ++ "\n" ++
    String.join ((Diff.hunks old new).map hunkText)

def paintNumber (colour : Bool) (ink : Ink) (n : Nat) : String := paint colour ink (toString n)

/-- The report on one target.  Failures go to the second output. -/
def printEntry (colour : Bool) (entry : Entry) (t : Transcript) : Transcript :=
  match entry.outcome with
  | .lifted _ calls texts =>
    let t := t.printLine (paint colour .green "✓" ++ s!" {entry.name}: " ++
      paintNumber colour .green calls.length ++ " replacements")
    match texts with
    | none => t
    | some (before, after) => t.print (diffText colour entry.name before after)
  | .unchanged _ => t.printLine (paint colour .yellow "⊙" ++ s!" {entry.name}: 0 replacements")
  | .skipped _ => t.printLine (paint colour .cyan "⊘" ++ s!" SKIP (not found): {entry.name}")
  | .failed failure =>
    (t.warnLine (paint colour .red "✗" ++ s!" FAIL {entry.name}: {failure.message}")).warnLine
      "  File left unchanged"

/-- The report on a batch: its targets in order, then the totals. -/
def printReport (colour : Bool) (report : Report) (t : Transcript) : Transcript :=
  let t := report.entries.foldl (fun t entry => printEntry colour entry t) t
  let t := (t.printLine "").printLine (paint colour .bold "Total:" ++ " " ++
    paintNumber colour .green report.total ++ " replacements")
  let t := if report.skipped = 0 then t
    else t.printLine ("  " ++ paintNumber colour .cyan report.skipped ++ " skipped")
  if report.failures = 0 then t
  else t.printLine ("  " ++ paintNumber colour .red report.failures ++ " failed")

def callJson (call : LiftedCall) : Json :=
  .object [("offset", .number call.offset), ("line", .number call.line),
    ("level", .string call.level.name), ("prefix_stripped", .boolean call.tagStripped)]

/-- A target as JSON.  It has an error only when it failed, and calls only when there are some. -/
def entryJson (entry : Entry) : Json :=
  .object ([("file", .string entry.name), ("status", .string entry.outcome.status),
    ("replacements", .number entry.outcome.replacements)] ++
    (entry.outcome.error?.toList.map fun error => ("error", .string error)) ++
    if entry.outcome.calls.isEmpty then []
    else [("calls", .array (entry.outcome.calls.map callJson))])

def reportJson (report : Report) : Json :=
  .object [("files", .array (report.entries.map entryJson)), ("total", .number report.total),
    ("failed", .number report.failures), ("skipped", .number report.skipped)]

end LogLift.Command
