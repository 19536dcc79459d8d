import LogLift.Text.Blank
import LogLift.Text.Offset
import LogLift.Text.Start
import LogLift.Text.Word

/-! The test region of a source text.  It starts at the first test marker, wherever that stands,
and reaches to the end of the text. -/

namespace LogLift.Source

open LogLift.Text

def testAttribute : List Char := "#[cfg(test)]".toList

/-- `cs` starts with the head of a module named `tests`: `mod`, blanks, `tests`, and an opening
brace after any blanks. -/
def startsTestsModule (cs : List Char) : Bool :=
  match afterStart? "mod".toList cs with
  | none => false
  | some afterMod =>
    match afterMod with
    | [] => false
    | c :: _ =>
      isBlank c &&
        match afterStart? "tests".toList (trimLeft afterMod) with
        | none => false
        | some afterName => (trimLeft afterName).head? == some '\x7b'

/-- A test marker starts at `cs`, which stands after the character `previous`. -/
def startsTestMarker (previous : Option Char) (cs : List Char) : Bool :=
  testAttribute.isPrefixOf cs || (wordMayStart previous && startsTestsModule cs)

/-- The number of bytes of `cs` before its first test marker; all of them when there is none. -/
def testOffsetFrom : (previous : Option Char) → List Char → Nat
  | _, [] => 0
  | previous, c :: cs =>
    if startsTestMarker previous (c :: cs) then 0
    else c.utf8Size + testOffsetFrom (some c) cs

def testOffset (source : List Char) : Nat := testOffsetFrom none source

end LogLift.Source
