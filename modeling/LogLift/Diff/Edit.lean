/-! Edits: how the lines of one text become the lines of another.  An edit knows its place in both
texts. -/

namespace LogLift.Diff

/-- What an edit does with its lines. -/
inductive Kind where
  | keep
  | delete
  | insert
  deriving Repr, DecidableEq

/-- An edit of `length` lines, at line `old` of the first text and line `new` of the second. -/
structure Edit where
  kind : Kind
  old : Nat
  new : Nat
  length : Nat
  deriving Repr, DecidableEq

namespace Edit

/-- The number of lines of the first text that an edit covers. -/
def oldLength (e : Edit) : Nat := if e.kind = .insert then 0 else e.length

/-- The number of lines of the second text that an edit covers. -/
def newLength (e : Edit) : Nat := if e.kind = .delete then 0 else e.length

def up (n : Nat) (e : Edit) : Edit := { e with old := e.old - n, new := e.new - n }

def down (n : Nat) (e : Edit) : Edit := { e with old := e.old + n, new := e.new + n }

def longer (n : Nat) (e : Edit) : Edit := { e with length := e.length + n }

def shorter (n : Nat) (e : Edit) : Edit := { e with length := e.length - n }

end Edit

/-- The lines of a text, by their numbers. -/
abbrev Lines := Array (List Char)

/-- The number of lines, at most `bound`, that are the same in both texts from `i` and `j` on. -/
def commonAfter (old new : Lines) (i j : Nat) : (bound : Nat) → Nat
  | 0 => 0
  | bound + 1 => if old[i]? = new[j]? then commonAfter old new (i + 1) (j + 1) bound + 1 else 0

/-- The number of lines, at most `bound`, that are the same in both texts before `i` and `j`. -/
def commonBefore (old new : Lines) (i j : Nat) : (bound : Nat) → Nat
  | 0 => 0
  | bound + 1 =>
    if old[i - 1]? = new[j - 1]? then commonBefore old new (i - 1) (j - 1) bound + 1 else 0

/-- The number of lines, and of edits, in a list of edits. -/
def weight : List Edit → Nat
  | [] => 0
  | e :: edits => e.length + 1 + weight edits

@[simp] theorem weight_nil : weight [] = 0 := rfl

@[simp] theorem weight_cons (e : Edit) (edits : List Edit) :
    weight (e :: edits) = e.length + 1 + weight edits := rfl

end LogLift.Diff
