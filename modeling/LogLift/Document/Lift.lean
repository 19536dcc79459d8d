import LogLift.Document.Piece

/-! Lifting a document: a printing call is lifted when it becomes a logging call.  The level comes
from the first literal of the call, which loses its tag.  All other text is copied. -/

namespace LogLift.Document

open LogLift.Text LogLift.Source LogLift.Message

/-- The message of a call: the inner text of its first literal, or nothing. -/
def message (body : List Char) : List Char :=
  match firstLiteral? body with
  | none => []
  | some literal => literal.inner

def callLevel (keywords : Keywords) (body : List Char) : Level := keywords.classify (message body)

/-- The call's message starts with a tag. -/
def callTagged (body : List Char) : Bool := stripTag (message body) != message body

/-- The body of a call with the tag of its message removed. -/
def untagged (body : List Char) : List Char :=
  match firstLiteral? body with
  | none => body
  | some literal => { literal with inner := stripTag literal.inner }.source

/-- The text that replaces a piece. -/
def Piece.image (rules : Rules) (keywords : Keywords) : Piece → List Char
  | .call body => (rules.replacement (callLevel keywords body)).toList ++ untagged body
  | piece => piece.source rules

structure LiftedCall where
  offset : Nat
  line : Nat
  level : Level
  tagStripped : Bool
  deriving Repr, DecidableEq

/-- The calls among `pieces`, the first of which is at `place`. -/
def liftedCalls (rules : Rules) (keywords : Keywords) (place : Place) :
    List Piece → List LiftedCall
  | [] => []
  | piece :: pieces =>
    let later := liftedCalls rules keywords (place.after (piece.source rules)) pieces
    match piece with
    | .call body =>
      ⟨place.offset, place.line, callLevel keywords body, callTagged body⟩ :: later
    | _ => later

structure Lifting where
  text : List Char
  calls : List LiftedCall
  deriving Repr, DecidableEq

namespace Lifting

def replacements (r : Lifting) : Nat := r.calls.length

def unchanged (r : Lifting) : Bool := r.calls.isEmpty

def countAt (r : Lifting) (level : Level) : Nat := r.calls.countP (·.level == level)

end Lifting

def liftPieces (rules : Rules) (keywords : Keywords) (pieces : List Piece) : Lifting where
  text := pieces.flatMap (·.image rules keywords)
  calls := liftedCalls rules keywords .start pieces

/-- `source` with its calls lifted.  A call whose parenthesis never closes fails the whole
document. -/
def lift (rules : Rules) (keywords : Keywords) (source : List Char) :
    Except SpanError Lifting :=
  let cut := cut rules source
  match cut.failure with
  | some error => .error error
  | none => .ok (liftPieces rules keywords cut.pieces)

/-- What a reader of a document comes across. -/
inductive Event where
  | commented (offset : Nat)
  /-- A call in the test region, which starts at `boundary`. -/
  | exempt (offset boundary : Nat)
  | lifted (line : Nat) (level : Level) (tagStripped : Bool)
  deriving Repr, DecidableEq

/-- The events of `pieces`, the first of which is at `place`. -/
def eventsFrom (rules : Rules) (keywords : Keywords) (boundary : Nat) (place : Place) :
    List Piece → List Event
  | [] => []
  | piece :: pieces =>
    let later :=
      eventsFrom rules keywords boundary (place.after (piece.source rules)) pieces
    match piece with
    | .char _ => later
    | .commented _ => .commented place.offset :: later
    | .exempt _ => .exempt place.offset boundary :: later
    | .call body =>
      .lifted place.line (callLevel keywords body) (callTagged body) :: later

/-- The events of `source`, up to the call that fails it, if one does. -/
def events (rules : Rules) (keywords : Keywords) (source : List Char) : List Event :=
  eventsFrom rules keywords (testOffset source) .start (cut rules source).pieces

end LogLift.Document
