/-! Coloured text for a terminal. -/

namespace LogLift.Command

inductive Ink where
  | red
  | green
  | yellow
  | cyan
  | bold
  | dimmed
  deriving Repr, DecidableEq

/-- The number of an ink in a control sequence. -/
def Ink.code : Ink → String
  | red => "31"
  | green => "32"
  | yellow => "33"
  | cyan => "36"
  | bold => "1"
  | dimmed => "2"

def Ink.sequence (ink : Ink) : String := "\x1b[" ++ ink.code ++ "m"

/-- The control sequence that ends every ink. -/
def reset : String := "\x1b[0m"

/-- The text with `start` after every reset in it. -/
def restart (start : List Char) : List Char → List Char
  | [] => []
  | '\x1b' :: '[' :: '0' :: 'm' :: cs => reset.toList ++ start ++ restart start cs
  | c :: cs => c :: restart start cs

/-- The text in an ink.  A reset inside the text does not end it.  Without colour the text is as it
was. -/
def paint (colour : Bool) (ink : Ink) (text : String) : String :=
  if colour then
    ink.sequence ++ String.ofList (restart ink.sequence.toList text.toList) ++ reset
  else text

end LogLift.Command
