import LogLift.Text.Blank
import LogLift.Text.Offset

/-! Line comments.  Whether a place is inside one depends only on the text of its line that stands
before it. -/

namespace LogLift.Source

open LogLift.Text

/-- `//` occurs in `cs` outside string literals.  `inString` tells whether `cs` starts inside a
literal.  A backslash in a literal takes the next character with it; outside, the two character
literals of a quote, `'"'` and `'\"'`, are passed over. -/
def hasComment : (inString : Bool) → List Char → Bool
  | _, [] => false
  | true, '\\' :: _ :: cs => hasComment true cs
  | true, '"' :: cs => hasComment false cs
  | true, _ :: cs => hasComment true cs
  | false, '"' :: cs => hasComment true cs
  | false, '\'' :: '"' :: '\'' :: cs => hasComment false cs
  | false, '\'' :: '\\' :: '"' :: '\'' :: cs => hasComment false cs
  | false, '/' :: '/' :: _ => true
  | false, _ :: cs => hasComment false cs

/-- `cs` starts with `//`, blanks aside. -/
def leadsWithComment (cs : List Char) : Bool := ['/', '/'].isPrefixOf (trim cs)

/-- The end of the line start `cs` is inside a line comment. -/
def endsInComment (cs : List Char) : Bool := leadsWithComment cs || hasComment false cs

/-- The text of the last line, given what was read so far, the last character first. -/
def lastLine (before : List Char) : List Char := (before.takeWhile (· != '\n')).reverse

/-- The place after `before`, the last character first, is inside a line comment. -/
def commented (before : List Char) : Bool := endsInComment (lastLine before)

/-- Byte `offset` of `source` is inside a line comment.  There is no answer when the offset is
past the end or inside a character. -/
def onComment? (source : List Char) (offset : Nat) : Option Bool :=
  (splitAtByte? offset source).map fun p => commented p.1.reverse

end LogLift.Source
