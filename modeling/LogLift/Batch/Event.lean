import LogLift.Batch.Outcome

/-! The events of a batch, and the lines of a log that tell of them. -/

namespace LogLift.Batch

open LogLift.Document LogLift.Storage

/-- How much an event matters, the least first. -/
inductive Weight where
  | trace
  | debug
  | info
  | warn
  deriving Repr, DecidableEq

/-- The name of a weight, in five columns. -/
def Weight.column : Weight → String
  | trace => "TRACE"
  | debug => "DEBUG"
  | info => " INFO"
  | warn => " WARN"

def Weight.rank : Weight → Nat
  | trace => 0
  | debug => 1
  | info => 2
  | warn => 3

inductive Event where
  | scanned (event : Document.Event)
  /-- A file has no calls to lift. -/
  | nothingToLift (file : Location)
  | lifted (file : Location) (hash : UInt64) (lifting : Lifting)
  | finished (entry : Entry)
  deriving DecidableEq

namespace Event

def weight : Event → Weight
  | scanned (.lifted _ _ _) => .debug
  | scanned _ => .trace
  | nothingToLift _ => .debug
  | lifted _ _ _ => .debug
  | finished ⟨_, .skipped _⟩ => .warn
  | finished ⟨_, .failed _⟩ => .warn
  | finished _ => .info

def message : Event → String
  | scanned (.commented offset) => s!"skipping commented invocation offset={offset}"
  | scanned (.exempt offset boundary) =>
    s!"invocation inside test region offset={offset} boundary={boundary}"
  | scanned (.lifted line level tagStripped) =>
    s!"rewrote invocation line={line} level={level.name} prefix_stripped={tagStripped}"
  | nothingToLift file => s!"no invocations to rewrite path={file.path.text}"
  | lifted file hash lifting =>
    s!"rewrote invocations path={file.path.text} source_hash={hash.toNat}" ++
      s!" errors={lifting.countAt .error} warnings={lifting.countAt .warn}" ++
      s!" infos={lifting.countAt .info} debugs={lifting.countAt .debug}"
  | finished ⟨name, .skipped path⟩ =>
    s!"source not found, skipping file={name} path={path.text}"
  | finished ⟨name, .failed failure⟩ =>
    s!"file left unchanged file={name} error={failure.message}"
  | finished ⟨name, outcome⟩ => s!"processed file={name} replacements={outcome.replacements}"

/-- The line of a log that tells of an event. -/
def line (e : Event) : String := e.weight.column ++ " " ++ e.message

end Event

/-- The log of the events that weigh at least `least`. -/
def log (least : Weight) (events : List Event) : List String :=
  (events.filter fun e => least.rank ≤ e.weight.rank).map Event.line

end LogLift.Batch
