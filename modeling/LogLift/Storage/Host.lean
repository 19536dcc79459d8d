import LogLift.Storage.Path

/-! The host of a commit.  A commit asks it for one thing after the other, and it may refuse each:
for want of rights or of room, or because a device fails. -/

namespace LogLift.Storage

/-- What reading a file and writing it back asks for, in this order. -/
inductive Request where
  | read (path : Path)
  /-- The file is read once more, before it is written. -/
  | compare (path : Path)
  /-- A new file is made in a directory. -/
  | create (dir : Path)
  /-- The text goes into the new file, which is to stand at the path. -/
  | fill (path : Path) (text : String)
  | sync (path : Path)
  /-- The mode of the old file is looked up. -/
  | stat (path : Path)
  | setMode (path : Path) (mode : Nat)
  | rename (path : Path)
  /-- The time of the last change is set. -/
  | touch (path : Path)
  deriving Repr, DecidableEq

structure Host where
  /-- Why a request is refused, if it is. -/
  refusal? : Request → Option String

namespace Host

/-- A host that refuses nothing. -/
def willing : Host := ⟨fun _ => none⟩

/-- The requests around the writing itself are granted: a file that could be read can be looked at,
and one that was just put in its place can be touched. -/
structure Settles (host : Host) : Prop where
  stat : ∀ path, host.refusal? (.stat path) = none
  touch : ∀ path, host.refusal? (.touch path) = none

/-- Nothing is refused but the first reading of files. -/
def GrantsWrites (host : Host) : Prop :=
  ∀ request, (∀ path, request ≠ .read path) → host.refusal? request = none

end Host

end LogLift.Storage
