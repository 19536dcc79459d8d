import LogLift.Diff.Lines
import LogLift.Diff.Script
import LogLift.Diff.Tidy

/-! Hunks: the changes between two texts, each with the two lines before and after it.  Changes with
at most four lines between them share a hunk. -/

namespace LogLift.Diff

/-- A run of kept lines, or the lines that take the place of others. -/
structure Section where
  kept : Bool
  oldStart : Nat
  oldLength : Nat
  newStart : Nat
  newLength : Nat
  deriving Repr, DecidableEq

def Section.ofEdit (e : Edit) : Section :=
  ⟨e.kind == .keep, e.old, e.oldLength, e.new, e.newLength⟩

/-- Two neighbouring sections as one.  Each text is counted from the first section that has lines
of it. -/
def Section.merge (a b : Section) : Section where
  kept := a.kept
  oldStart := if a.oldLength = 0 ∧ b.oldLength ≠ 0 then b.oldStart else a.oldStart
  oldLength := a.oldLength + b.oldLength
  newStart := if a.newLength = 0 ∧ b.newLength ≠ 0 then b.newStart else a.newStart
  newLength := a.newLength + b.newLength

/-- The sections of a list of edits: kept runs and changes in turn. -/
def sections : List Edit → List Section
  | [] => []
  | edit :: edits =>
    let first := Section.ofEdit edit
    match sections edits with
    | [] => [first]
    | next :: rest =>
      if first.kept = next.kept then first.merge next :: rest else first :: next :: rest

/-- The number of kept lines around a change. -/
def context : Nat := 2

def Section.last (n : Nat) (s : Section) : Section :=
  let offset := s.oldLength - n
  ⟨s.kept, s.oldStart + offset, s.oldLength - offset, s.newStart + offset, s.newLength - offset⟩

def Section.first (n : Nat) (s : Section) : Section :=
  { s with oldLength := min n s.oldLength, newLength := min n s.newLength }

/-- The sections with the kept run at the start cut to its last lines. -/
def trimStart : List Section → List Section
  | [] => []
  | s :: rest => (if s.kept then s.last context else s) :: rest

/-- The sections with the kept run at the end cut to its first lines. -/
def trimStop (sections : List Section) : List Section :=
  match sections.getLast? with
  | none => []
  | some s => sections.dropLast ++ [if s.kept then s.first context else s]

/-- The sections that are shown together. -/
structure Hunk where
  sections : List Section
  deriving Repr, DecidableEq

/-- The hunks of a list of sections; `pending` is the hunk that is being filled.  A long kept run
ends it and starts the next. -/
def hunksFrom (pending : List Section) : List Section → List Hunk
  | [] => if pending.any (!·.kept) || 1 < pending.length then [⟨pending⟩] else []
  | s :: rest =>
    if s.kept ∧ 2 * context < s.oldLength then
      ⟨pending ++ [s.first context]⟩ :: hunksFrom [s.last context] rest
    else hunksFrom (pending ++ [s]) rest

/-- A range of lines in a header: where it starts and how many lines it has.  One line needs no
number, and an empty range is named by the line before it. -/
def rangeText (start stop : Nat) : String :=
  let length := stop - start
  if length = 1 then s!"{start + 1}"
  else if length = 0 then s!"{start},0"
  else s!"{start + 1},{length}"

/-- The header of a hunk: its range in each text. -/
def Hunk.header (h : Hunk) : String :=
  match h.sections.head?, h.sections.getLast? with
  | some first, some last =>
    s!"@@ -{rangeText first.oldStart (last.oldStart + last.oldLength)} " ++
      s!"+{rangeText first.newStart (last.newStart + last.newLength)} @@"
  | _, _ => ""

def Section.lines (old new : Lines) (s : Section) : List (Kind × List Char) :=
  let slice (kind : Kind) (text : Lines) (start length : Nat) : List (Kind × List Char) :=
    (text.toList.drop start |>.take length).map (kind, ·)
  if s.kept then slice .keep old s.oldStart s.oldLength
  else slice .delete old s.oldStart s.oldLength ++ slice .insert new s.newStart s.newLength

def Hunk.lines (old new : Lines) (h : Hunk) : List (Kind × List Char) :=
  h.sections.flatMap (·.lines old new)

def hunks (old new : Lines) : List Hunk :=
  let edits := tidy old new (script old new ⟨0, old.size, 0, new.size⟩)
  hunksFrom [] (trimStop (trimStart (sections edits)))

end LogLift.Diff
