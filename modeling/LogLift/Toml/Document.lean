import LogLift.Toml.DateTime
import LogLift.Toml.Numeral
import LogLift.Toml.Strings
import LogLift.Toml.Value

/-! Reading a TOML document into one table. -/

namespace LogLift.Toml

/-- A character of a key without quotes. -/
def isBare (c : Char) : Bool := c.isAlphanum || c == '_' || c == '-'

def keyPart? : Reader String := fun cs =>
  match lineString? cs with
  | some read => some read
  | none =>
    let bare := cs.takeWhile isBare
    if bare.isEmpty then none else some (String.ofList bare, cs.dropWhile isBare)

/-- The parts of a key, with a dot between each two. -/
def keyParts? (cs : List Char) : Option (List String × List Char) :=
  match keyPart? (dropSpaces cs) with
  | none => none
  | some (part, rest) =>
    match dropSpaces rest with
    | '.' :: more =>
      if more.length < cs.length then (keyParts? more).map fun p => (part :: p.1, p.2) else none
    | rest => some ([part], rest)
termination_by cs.length

/-- The deepest nesting of a key, and of arrays and inline tables in each other. -/
def maxDepth : Nat := 80

/-- A key: its parents and its last part. -/
def key? : Reader (List String × String) := fun cs => do
  let (parts, rest) ← keyParts? cs
  if parts.length ≤ maxDepth then return ((parts.dropLast, ← parts.getLast?), rest) else none

/-- A character of a number, a date or a boolean. -/
def isAtom (c : Char) : Bool :=
  c.isAlphanum || c == '_' || c == '+' || c == '-' || c == '.' || c == ':'

/-- The value that an atom writes. -/
def atom? (cs : List Char) : Option Value :=
  if cs = "true".toList then some (.boolean true)
  else if cs = "false".toList then some (.boolean false)
  else
    match integer? cs with
    | some n => some (.integer n)
    | none =>
      if isFloat cs then some (.float (String.ofList cs))
      else if isMoment cs then some (.moment (String.ofList cs))
      else none

/-- A value that holds no others.  A space may part a date from its time. -/
def scalar? : Reader Value := fun cs =>
  match string? cs with
  | some (text, rest) => some (.string text, rest)
  | none =>
    let atom := cs.takeWhile isAtom
    match cs.dropWhile isAtom with
    | ' ' :: d :: rest =>
      if d.isDigit then
        (atom? (atom ++ ' ' :: (d :: rest).takeWhile isAtom)).map (·, (d :: rest).dropWhile isAtom)
      else (atom? atom).map (·, ' ' :: d :: rest)
    | rest => (atom? atom).map (·, rest)

/-- Items parted by commas, up to `close`.  A comma may follow the last one. -/
def items? {α : Type} (item : Reader α) (close : Char) (cs : List Char) :
    Option (List α × List Char) :=
  match dropTrivia false cs with
  | [] => none
  | c :: rest =>
    if c = close then some ([], rest)
    else
      match item (c :: rest) with
      | none => none
      | some (a, rest) =>
        match dropTrivia false rest with
        | [] => none
        | d :: rest =>
          if d = close then some ([a], rest)
          else if d = ',' ∧ rest.length < cs.length then
            (items? item close rest).map fun p => (a :: p.1, p.2)
          else none
termination_by cs.length

/-- A key, an equals sign and a value.  `blanks` drops what may stand around the sign. -/
def definition? (blanks : List Char → List Char) (value : Reader Value) :
    Reader ((List String × String) × Value) := fun cs => do
  let (key, rest) ← key? cs
  let (v, rest) ← value (blanks (← after? '=' (blanks rest)))
  return ((key, v), rest)

/-- The table that a list of definitions makes. -/
def defineAll? (t : Table) (definitions : List ((List String × String) × Value)) : Option Table :=
  definitions.foldlM (fun t d => t.define? d.1.1 d.1.2 d.2) t

/-- A value in which arrays and inline tables are nested at most `depth` deep. -/
def value? : (depth : Nat) → Reader Value
  | 0, cs => scalar? cs
  | depth + 1, '[' :: cs => (items? (value? depth) ']' cs).map fun p => (.array p.1, p.2)
  | depth + 1, '\x7b' :: cs => do
    let (definitions, rest) ← items? (definition? (dropTrivia false) (value? depth)) '\x7d' cs
    let t ← defineAll? ⟨.inline, []⟩ definitions
    return (.table .inline t.entries, rest)
  | _ + 1, cs => scalar? cs

/-- A document while it is read: the root table, and the header that new keys are under. -/
structure Draft where
  root : Table
  header : List String

/-- The draft after one line, or one definition that takes several, and the text after it. -/
def line? (draft : Draft) : Reader Draft := fun cs =>
  match dropSpaces cs with
  | '[' :: '[' :: rest => do
    let ((parents, key), rest) ← key? rest
    let rest ← afterLine? (← after? ']' (← after? ']' rest))
    return (⟨← draft.root.openRow? parents key, parents ++ [key]⟩, rest)
  | '[' :: rest => do
    let ((parents, key), rest) ← key? rest
    let rest ← afterLine? (← after? ']' rest)
    return (⟨← draft.root.openHeader? parents key, parents ++ [key]⟩, rest)
  | cs =>
    match afterLine? cs with
    | some rest => some (draft, rest)
    | none => do
      let (((parents, key), value), rest) ← definition? dropSpaces (value? maxDepth) cs
      let root ← draft.root.change? .implied (·.define? parents key value) draft.header
      return (⟨root, draft.header⟩, ← afterLine? rest)

/-- The draft after all lines of a text. -/
def lines? (draft : Draft) (cs : List Char) : Option Draft :=
  if cs.isEmpty then some draft
  else
    match line? draft cs with
    | none => none
    | some (draft, rest) => if rest.length < cs.length then lines? draft rest else none
termination_by cs.length

/-- The root table of a document.  A byte order mark in front is passed over. -/
def document? (text : List Char) : Option Entries :=
  let text :=
    match text with
    | '\ufeff' :: rest => rest
    | _ => text
  (lines? ⟨⟨.header, []⟩, []⟩ text).map (·.root.entries)

end LogLift.Toml
