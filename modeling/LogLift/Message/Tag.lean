import LogLift.Text.Word
import LogLift.Text.Blank

/-! The bracketed tag that a message may start with, such as `[Init]` in `[Init] done`. -/

namespace LogLift.Message

open LogLift.Text

def isTagChar (c : Char) : Bool :=
  isWord c || isBlank c || c == '_' || c == '-' || c == ':' || c == '.'

/-- The message without its tag and the blanks after the tag.  A tag is a bracketed run of at
least one tag character at the very start; a message without one is left as it is. -/
def stripTag : List Char → List Char
  | '[' :: cs =>
    match cs.takeWhile isTagChar, cs.dropWhile isTagChar with
    | _ :: _, ']' :: rest => trimLeft rest
    | _, _ => '[' :: cs
  | cs => cs

end LogLift.Message
