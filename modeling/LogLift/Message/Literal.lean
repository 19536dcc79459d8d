import LogLift.Text.Offset

/-! The first string literal of a call: its inner text, and what stands before and after it. -/

namespace LogLift.Message

/-- A text cut at a literal: `before`, a quote, `inner`, a quote, `after`.  The escapes of `inner`
are left as written. -/
structure Literal where
  before : List Char
  inner : List Char
  after : List Char
  deriving Repr, DecidableEq

def Literal.source (l : Literal) : List Char :=
  l.before ++ '"' :: (l.inner ++ '"' :: l.after)

/-- The offset of the inner text. -/
def Literal.start (l : Literal) : Nat := Text.byteLength l.before + 1

/-- The offset of the closing quote. -/
def Literal.stop (l : Literal) : Nat := l.start + Text.byteLength l.inner

/-- The body of a literal whose opening quote was just read, and what follows its closing quote.
A backslash takes the next character with it, whatever it is. -/
def literalBody? : List Char → Option (List Char × List Char)
  | [] => none
  | '"' :: rest => some ([], rest)
  | '\\' :: c :: rest => (literalBody? rest).map fun p => ('\\' :: c :: p.1, p.2)
  | c :: rest =>
    if c = '\\' then none else (literalBody? rest).map fun p => (c :: p.1, p.2)

/-- The literal that opens at the first quote from which a closed literal runs. -/
def firstLiteral? : List Char → Option Literal
  | [] => none
  | c :: rest =>
    match if c = '"' then literalBody? rest else none with
    | some (inner, after) => some ⟨[], inner, after⟩
    | none => (firstLiteral? rest).map fun l => { l with before := c :: l.before }

end LogLift.Message
