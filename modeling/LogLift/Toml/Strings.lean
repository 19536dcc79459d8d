import LogLift.Toml.Lexis

/-! The four kinds of TOML strings: basic ones with escapes and literal ones without, each on one
line or on several. -/

namespace LogLift.Toml

def hexDigit? (c : Char) : Option Nat :=
  if c.isDigit then some (c.toNat - '0'.toNat)
  else if 'a' ≤ c ∧ c ≤ 'f' then some (c.toNat - 'a'.toNat + 10)
  else if 'A' ≤ c ∧ c ≤ 'F' then some (c.toNat - 'A'.toNat + 10)
  else none

/-- The number that `digits` write in base sixteen. -/
def hexNumber? (digits : List Char) : Option Nat :=
  digits.foldlM (fun n c => (hexDigit? c).map (16 * n + ·)) 0

/-- The character whose code point `digits` write.  Surrogates are not characters. -/
def hexChar? (digits : List Char) : Option Char := do
  let n ← hexNumber? digits
  if n.isValidChar then some (Char.ofNat n) else none

/-- The character that a backslash and `c` stand for. -/
def escaped? : (c : Char) → Option Char
  | 'b' => some '\x08'
  | 't' => some '\t'
  | 'n' => some '\n'
  | 'f' => some '\x0c'
  | 'r' => some '\r'
  | 'e' => some '\x1b'
  | '"' => some '"'
  | '\\' => some '\\'
  | _ => none

/-- The text that the body of a basic string stands for.  A backslash at the end of a line takes
away the line break and all spaces and line breaks after it; `skipping` tells whether these are
being taken away. -/
def unescape? (skipping : Bool) (body : List Char) : Option (List Char) :=
  match body with
  | [] => some []
  | '\\' :: 'x' :: a :: b :: cs => do
    return (← hexChar? [a, b]) :: (← unescape? false cs)
  | '\\' :: 'u' :: a :: b :: c :: d :: cs => do
    return (← hexChar? [a, b, c, d]) :: (← unescape? false cs)
  | '\\' :: 'U' :: a :: b :: c :: d :: e :: f :: g :: h :: cs => do
    return (← hexChar? [a, b, c, d, e, f, g, h]) :: (← unescape? false cs)
  | '\\' :: c :: cs =>
    match escaped? c with
    | some x => (unescape? false cs).map (x :: ·)
    | none =>
      if (afterBreak? (dropSpaces (c :: cs))).isSome then unescape? true (c :: cs) else none
  | '\r' :: '\n' :: cs =>
    if skipping then unescape? true cs
    else (unescape? false cs).map ('\r' :: '\n' :: ·)
  | c :: cs =>
    if skipping && (isSpace c || c == '\n') then unescape? true cs
    else if c != '\\' && (isPlain c || c == '\n') then (unescape? false cs).map (c :: ·)
    else none
termination_by body.length

/-- The body of a basic string on one line, whose opening quote was just read. -/
def basicBody? : Reader (List Char)
  | [] => none
  | '"' :: rest => some ([], rest)
  | '\n' :: _ => none
  | '\\' :: c :: rest => (basicBody? rest).map fun p => ('\\' :: c :: p.1, p.2)
  | c :: rest => (basicBody? rest).map fun p => (c :: p.1, p.2)

/-- The end of a string on several lines, after its last three quotes.  One or two more quotes
belong to the string. -/
def extraQuotes (quote : Char) : List Char → List Char × List Char
  | a :: b :: rest =>
    if a = quote then if b = quote then ([a, b], rest) else ([a], b :: rest)
    else ([], a :: b :: rest)
  | [a] => if a = quote then ([a], []) else ([], [a])
  | [] => ([], [])

/-- The body of a basic string on several lines, whose three opening quotes were just read. -/
def basicLinesBody? : Reader (List Char)
  | [] => none
  | '"' :: '"' :: '"' :: rest => some (extraQuotes '"' rest)
  | '\\' :: c :: rest => (basicLinesBody? rest).map fun p => ('\\' :: c :: p.1, p.2)
  | c :: rest => (basicLinesBody? rest).map fun p => (c :: p.1, p.2)

/-- The body of a literal string on several lines, whose three opening quotes were just read. -/
def literalLinesBody? : Reader (List Char)
  | [] => none
  | '\'' :: '\'' :: '\'' :: rest => some (extraQuotes '\'' rest)
  | '\r' :: '\n' :: rest => (literalLinesBody? rest).map fun p => ('\r' :: '\n' :: p.1, p.2)
  | c :: rest =>
    if isPlain c || c == '\n' then (literalLinesBody? rest).map fun p => (c :: p.1, p.2)
    else none

/-- A string on several lines loses the line break right after its opening quotes. -/
def dropFirstBreak (cs : List Char) : List Char := (afterBreak? cs).getD cs

/-- A literal string on one line, whose opening quote was just read. -/
def literalBody? (cs : List Char) : Option (List Char × List Char) :=
  match cs.dropWhile fun c => isPlain c && c != '\'' with
  | '\'' :: rest => some (cs.takeWhile fun c => isPlain c && c != '\'', rest)
  | _ => none

def lineString? : Reader String
  | '"' :: cs => do
    let (body, rest) ← basicBody? cs
    return (String.ofList (← unescape? false body), rest)
  | '\'' :: cs => do
    let (body, rest) ← literalBody? cs
    return (String.ofList body, rest)
  | _ => none

def string? : Reader String
  | '"' :: '"' :: '"' :: cs => do
    let (body, rest) ← basicLinesBody? (dropFirstBreak cs)
    return (String.ofList (← unescape? false body), rest)
  | '\'' :: '\'' :: '\'' :: cs => do
    let (body, rest) ← literalLinesBody? (dropFirstBreak cs)
    return (String.ofList body, rest)
  | cs => lineString? cs

end LogLift.Toml
