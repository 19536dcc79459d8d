/-! The lines of a text, each with its ending.  A line feed, a carriage return, and the two together
end a line. -/

namespace LogLift.Diff

/-- The lines of a text.  They concatenate to the text. -/
def lines : List Char → List (List Char)
  | [] => []
  | '\r' :: '\n' :: cs => ['\r', '\n'] :: lines cs
  | '\r' :: cs => ['\r'] :: lines cs
  | '\n' :: cs => ['\n'] :: lines cs
  | c :: cs =>
    match lines cs with
    | [] => [[c]]
    | line :: rest => (c :: line) :: rest

theorem flatten_lines (cs : List Char) : (lines cs).flatten = cs := by
  fun_induction lines cs <;> simp_all

/-- A line with an ending: a line feed is added to one that has none. -/
def withEnding (line : List Char) : List Char :=
  match line.getLast? with
  | some '\n' => line
  | some '\r' => line
  | _ => line ++ ['\n']

end LogLift.Diff
