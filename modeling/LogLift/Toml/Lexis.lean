/-! The blank parts of a TOML text: spaces, comments and line breaks. -/

namespace LogLift.Toml

/-- A reader takes a value off the start of a text and gives the rest.  A text that it cannot read
is not TOML. -/
abbrev Reader (α : Type) := List Char → Option (α × List Char)

def isSpace (c : Char) : Bool := c == ' ' || c == '\t'

/-- A character that may stand in a comment or a string: any but the controls, tab excepted. -/
def isPlain (c : Char) : Bool := c == '\t' || (' ' ≤ c && c != '\x7f')

def dropSpaces (cs : List Char) : List Char := cs.dropWhile isSpace

/-- The text after the line break that it starts with. -/
def afterBreak? : List Char → Option (List Char)
  | '\n' :: cs => some cs
  | '\r' :: '\n' :: cs => some cs
  | _ => none

/-- The text after the rest of a line that holds nothing but spaces and a comment. -/
def afterLine? (cs : List Char) : Option (List Char) :=
  let rest :=
    match dropSpaces cs with
    | '#' :: comment => comment.dropWhile isPlain
    | rest => rest
  if rest.isEmpty then some [] else afterBreak? rest

/-- The text after the spaces, comments and line breaks that it starts with.  `inComment` tells
whether it starts inside a comment. -/
def dropTrivia : (inComment : Bool) → List Char → List Char
  | _, [] => []
  | _, '\n' :: cs => dropTrivia false cs
  | _, '\r' :: '\n' :: cs => dropTrivia false cs
  | true, c :: cs => if isPlain c then dropTrivia true cs else c :: cs
  | false, c :: cs =>
    if isSpace c then dropTrivia false cs
    else if c = '#' then dropTrivia true cs
    else c :: cs

end LogLift.Toml
