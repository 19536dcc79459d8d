import LogLift.Storage.Digest
import LogLift.Storage.FileSystem
import LogLift.Storage.Host

/-! Snapshots.  A new text takes the place of a file's content only while the file still holds the
content that was read.  It is written to a new file beside the old one, which is then renamed. -/

namespace LogLift.Storage

/-- A file as it was read. -/
structure Snapshot where
  path : Path
  text : String
  deriving Repr, DecidableEq

inductive CommitError where
  | changed (path : Path)
  | noParent (path : Path)
  | access (path : Path) (error : AccessError)
  deriving Repr, DecidableEq

def CommitError.message : CommitError → String
  | changed path => s!"{path.text} changed on disk after it was scanned"
  | noParent path => s!"{path.text} has no parent directory"
  | access path error => s!"I/O error on {path.text}: {error.message}"

/-- Work on a file system.  When it fails, what it did before stays done. -/
abbrev Work := EStateM CommitError FileSystem

namespace Work

/-- Asks the host for something that is needed for the file at `path`. -/
def ask (host : Host) (path : Path) (request : Request) : Work Unit :=
  match host.refusal? request with
  | none => pure ()
  | some reason => throw (.access path (.refused reason))

/-- The result of looking something up for the file at `path`. -/
def look {α : Type} (path : Path) (f : FileSystem → Except AccessError α) : Work α := do
  match f (← get) with
  | .ok a => return a
  | .error error => throw (.access path error)

/-- The mode of a file that was just made. -/
def privateMode : Nat := 0o600

/-- Makes an empty file in the directory `dir`, and gives its location. -/
def create (host : Host) (path dir : Path) : Work Location := do
  ask host path (.create dir)
  let here ← look path (·.resolve dir)
  let temporary := (← get).unused here
  modify (·.set temporary (.file .empty privateMode))
  return temporary

/-- Writes the text to the new file, for good. -/
def fill (host : Host) (path : Path) (text : String) (temporary : Location) : Work Unit := do
  ask host path (.fill path text)
  modify (·.set temporary (.file text.toUTF8 privateMode))
  ask host path (.sync path)

/-- Gives the new file the mode of the old one, if that can be looked up. -/
def copyMode (host : Host) (path : Path) (text : String) (temporary : Location) : Work Unit := do
  match host.refusal? (.stat path), (← get).mode path with
  | none, .ok mode =>
    ask host path (.setMode path mode)
    modify (·.set temporary (.file text.toUTF8 mode))
  | _, _ => pure ()

/-- Moves the new file to `path` itself: if a link stands there, the link is replaced. -/
def putInPlace (host : Host) (path : Path) (temporary : Location) : Work Unit := do
  ask host path (.rename path)
  let place ← look path (·.locate path)
  modify (·.move temporary place)

/-- Writes `text` to the file that was made at `temporary`, and moves it to `path`. -/
def write (host : Host) (path : Path) (text : String) (temporary : Location) : Work Unit := do
  fill host path text temporary
  copyMode host path text temporary
  putInPlace host path temporary

/-- Puts a file that holds `text` at `path`.  When that fails, the new file is removed. -/
def replace (host : Host) (path : Path) (text : String) : Work Unit :=
  match path.parent? with
  | none => throw (.noParent path)
  | some dir => do
    let temporary ← create host path dir
    try write host path text temporary
    catch error =>
      modify (·.unlink temporary)
      throw error

end Work

namespace Snapshot

def read (host : Host) (fs : FileSystem) (p : Path) : Except CommitError Snapshot :=
  match host.refusal? (.read p) with
  | some reason => .error (.access p (.refused reason))
  | none =>
    match fs.readText p with
    | .ok text => .ok ⟨p, text⟩
    | .error error => .error (.access p error)

def hash (s : Snapshot) : UInt64 := digest s.text.toUTF8

/-- Puts `text` in place of the content that was read, and touches the file. -/
def commit (s : Snapshot) (host : Host) (text : String) : Work Unit := do
  Work.ask host s.path (.compare s.path)
  let content ← Work.look s.path (·.read s.path)
  if digest content = s.hash then
    Work.replace host s.path text
    Work.ask host s.path (.touch s.path)
  else throw (.changed s.path)

end Snapshot

end LogLift.Storage
