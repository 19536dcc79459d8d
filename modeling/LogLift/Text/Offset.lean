/-! Offsets.  Every offset counts bytes of UTF-8, every line counts from one. -/

namespace LogLift.Text

/-- The number of bytes of `cs` in UTF-8. -/
def byteLength : List Char → Nat
  | [] => 0
  | c :: cs => c.utf8Size + byteLength cs

def lineFeeds (cs : List Char) : Nat := cs.count '\n'

/-- The text before byte `offset` and the text from it on.  There is none when the offset is past
the end or inside a character. -/
def splitAtByte? : (offset : Nat) → List Char → Option (List Char × List Char)
  | 0, cs => some ([], cs)
  | _ + 1, [] => none
  | n + 1, c :: cs =>
    if c.utf8Size ≤ n + 1 then
      (splitAtByte? (n + 1 - c.utf8Size) cs).map fun p => (c :: p.1, p.2)
    else none

@[simp] theorem byteLength_nil : byteLength [] = 0 := rfl

@[simp] theorem byteLength_cons (c : Char) (cs : List Char) :
    byteLength (c :: cs) = c.utf8Size + byteLength cs := rfl

@[simp] theorem byteLength_append (a b : List Char) :
    byteLength (a ++ b) = byteLength a + byteLength b := by
  induction a with
  | nil => simp
  | cons c cs ih => simp [ih, Nat.add_assoc]

@[simp] theorem byteLength_reverse (a : List Char) : byteLength a.reverse = byteLength a := by
  induction a with
  | nil => rfl
  | cons c cs ih => simp [ih, Nat.add_comm]

@[simp] theorem lineFeeds_append (a b : List Char) :
    lineFeeds (a ++ b) = lineFeeds a + lineFeeds b := by
  simp [lineFeeds]

/-- A place in a text: a byte offset and the line it is on. -/
structure Place where
  offset : Nat
  line : Nat
  deriving Repr, DecidableEq

def Place.start : Place := ⟨0, 1⟩

/-- The place after `cs`, read from `p` on. -/
def Place.after (p : Place) (cs : List Char) : Place :=
  ⟨p.offset + byteLength cs, p.line + lineFeeds cs⟩

theorem Place.after_append (p : Place) (a b : List Char) :
    p.after (a ++ b) = (p.after a).after b := by
  simp [Place.after, Nat.add_assoc]

end LogLift.Text
