import LogLift.Diff.Edit

/-! A shortest list of edits, found by divide and conquer.  The lines that two blocks share at
their ends are kept; what lies between is split where a path from the start and a path from the
end meet. -/

namespace LogLift.Diff

/-- A range of lines of the first text and one of the second. -/
structure Block where
  oldStart : Nat
  oldStop : Nat
  newStart : Nat
  newStop : Nat
  deriving Repr, DecidableEq

namespace Block

def oldLength (b : Block) : Nat := b.oldStop - b.oldStart

def newLength (b : Block) : Nat := b.newStop - b.newStart

def size (b : Block) : Nat := b.oldLength + b.newLength

def dropStart (n : Nat) (b : Block) : Block :=
  { b with oldStart := b.oldStart + n, newStart := b.newStart + n }

def dropStop (n : Nat) (b : Block) : Block :=
  { b with oldStop := b.oldStop - n, newStop := b.newStop - n }

end Block

/-- How far paths have come: on each diagonal, the number of lines of the first text that they have
used.  The diagonals are numbered from `-offset` on. -/
structure Frontier where
  offset : Nat
  reached : Array Nat

namespace Frontier

/-- No path has used a line. -/
def start (bound : Nat) : Frontier := ⟨bound + 1, Array.replicate (2 * bound + 3) 0⟩

def get (f : Frontier) (diagonal : Int) : Nat := f.reached.getD (diagonal + f.offset).toNat 0

def set (f : Frontier) (diagonal : Int) (value : Nat) : Frontier :=
  { f with reached := f.reached.setIfInBounds (diagonal + f.offset).toNat value }

/-- Where a path with `edits` edits comes to a diagonal: from the one below, or with one more line
of the first text from the one above. -/
def entry (f : Frontier) (edits : Nat) (diagonal : Int) : Nat :=
  let below := f.get (diagonal - 1)
  let above := f.get (diagonal + 1)
  if diagonal = -edits ∨ (diagonal ≠ edits ∧ below < above) then above else below + 1

end Frontier

/-- The diagonals that paths with `edits` edits come to, the highest first. -/
def diagonals (edits : Nat) : List Int :=
  (List.range (edits + 1)).map fun (i : Nat) => (edits : Int) - 2 * i

/-- The paths from the start of a block with one more edit, or the point where one of them meets a
path from the end. -/
def forward (old new : Lines) (b : Block) (edits : Nat) (ends : Frontier) :
    (rows : List Int) → (starts : Frontier) → Except (Nat × Nat) Frontier
  | [], starts => .ok starts
  | k :: rows, starts =>
    let delta : Int := (b.oldLength : Int) - b.newLength
    let x := starts.entry edits k
    let y := ((x : Int) - k).toNat
    let run := commonAfter old new (b.oldStart + x) (b.newStart + y)
      (min (b.oldLength - x) (b.newLength - y))
    let starts := starts.set k (x + run)
    if delta % 2 ≠ 0 ∧ (k - delta).natAbs + 1 ≤ edits ∧
        b.oldLength ≤ x + run + ends.get (delta - k) then
      .error (b.oldStart + x, b.newStart + y)
    else forward old new b edits ends rows starts

/-- The paths from the end of a block with one more edit, or the point where one of them meets a
path from the start. -/
def backward (old new : Lines) (b : Block) (edits : Nat) (starts : Frontier) :
    (rows : List Int) → (ends : Frontier) → Except (Nat × Nat) Frontier
  | [], ends => .ok ends
  | k :: rows, ends =>
    let delta : Int := (b.oldLength : Int) - b.newLength
    let x := ends.entry edits k
    let y := ((x : Int) - k).toNat
    let run := commonBefore old new (b.oldStart + b.oldLength - x) (b.newStart + b.newLength - y)
      (min (b.oldLength - x) (b.newLength - y))
    let ends := ends.set k (x + run)
    if delta % 2 = 0 ∧ (k - delta).natAbs ≤ edits ∧
        b.oldLength ≤ x + run + starts.get (delta - k) then
      .error (b.oldStart + b.oldLength - (x + run), b.newStart + b.newLength - (y + run))
    else backward old new b edits starts rows ends

/-- The point where paths from both ends of a block meet, searched with `edits` edits and more,
`rounds` times. -/
def meeting? (old new : Lines) (b : Block) :
    (rounds edits : Nat) → (starts ends : Frontier) → Option (Nat × Nat)
  | 0, _, _, _ => none
  | rounds + 1, edits, starts, ends =>
    match forward old new b edits ends (diagonals edits) starts with
    | .error point => some point
    | .ok starts =>
      match backward old new b edits starts (diagonals edits) ends with
      | .error point => some point
      | .ok ends => meeting? old new b rounds (edits + 1) starts ends

/-- The point at which a block is split. -/
def split? (old new : Lines) (b : Block) : Option (Nat × Nat) :=
  let rounds := (b.size + 1) / 2 + 1
  meeting? old new b rounds 0 (.start rounds) (.start rounds)

/-- An edit, unless it has no lines. -/
def edit? (kind : Kind) (old new length : Nat) : List Edit :=
  if length = 0 then [] else [⟨kind, old, new, length⟩]

def script (old new : Lines) (b : Block) : List Edit :=
  let start := commonAfter old new b.oldStart b.newStart (min b.oldLength b.newLength)
  let rest := b.dropStart start
  let stop := commonBefore old new rest.oldStop rest.newStop (min rest.oldLength rest.newLength)
  let rest := rest.dropStop stop
  let replaced := edit? .delete rest.oldStart rest.newStart rest.oldLength ++
    edit? .insert rest.oldStart rest.newStart rest.newLength
  let middle :=
    if rest.oldLength = 0 ∨ rest.newLength = 0 then replaced
    else
      match split? old new rest with
      | none => replaced
      | some (x, y) =>
        let first : Block := { rest with oldStop := x, newStop := y }
        let second : Block := { rest with oldStart := x, newStart := y }
        if _h : first.size < b.size ∧ second.size < b.size then
          script old new first ++ script old new second
        else replaced
  edit? .keep b.oldStart b.newStart start ++ middle ++
    edit? .keep rest.oldStop rest.newStop stop
termination_by b.size
decreasing_by
  · exact _h.1
  · exact _h.2

end LogLift.Diff
