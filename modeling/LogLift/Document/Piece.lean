import LogLift.Message.Literal
import LogLift.Message.Tag
import LogLift.Rules
import LogLift.Source.Comment
import LogLift.Source.Span
import LogLift.Source.TestRegion
import LogLift.Text.Start

/-! A source text cut into pieces: characters that are copied, and printing calls.  The pieces of a
text concatenate to the text itself. -/

namespace LogLift.Document

open LogLift.Text LogLift.Source LogLift.Message

inductive Piece where
  /-- A character that belongs to no call. -/
  | char (c : Char)
  /-- The head of a call inside a line comment: the call's name, `!`, `blanks`, and `(`. -/
  | commented (blanks : List Char)
  /-- A call in the test region: the call's name, `!`, and `body`. -/
  | exempt (body : List Char)
  /-- A call to lift: the call's name, `!`, and `body`. -/
  | call (body : List Char)
  deriving Repr, DecidableEq

def callHead (rules : Rules) : List Char := rules.macroName.toList ++ ['!']

def Piece.source (rules : Rules) : Piece → List Char
  | char c => [c]
  | commented blanks => callHead rules ++ blanks ++ ['(']
  | exempt body => callHead rules ++ body
  | call body => callHead rules ++ body

/-- The head of a call at the start of `cs`, which stands after the character `previous`: the
blanks between `!` and `(`, and the text after `(`. -/
def token? (rules : Rules) (previous : Option Char) (cs : List Char) :
    Option (List Char × List Char) :=
  if wordMayStart previous then
    match afterStart? (callHead rules) cs with
    | none => none
    | some rest =>
      match rest.dropWhile isBlank with
      | '(' :: afterOpen => some (rest.takeWhile isBlank, afterOpen)
      | _ => none
  else none

/-- A token stands at the start of its text. -/
theorem token?_append {rules : Rules} {previous : Option Char} {cs blanks rest : List Char}
    (h : token? rules previous cs = some (blanks, rest)) :
    cs = callHead rules ++ (blanks ++ '(' :: rest) := by
  unfold token? at h
  split at h
  · split at h
    · simp at h
    · rename_i rest' hp
      split at h
      · rename_i afterOpen hd
        simp only [Option.some.injEq, Prod.mk.injEq] at h
        obtain ⟨rfl, rfl⟩ := h
        rw [afterStart?_eq_some_iff.1 hp, ← hd, List.takeWhile_append_dropWhile]
      · simp at h
  · simp at h

theorem length_lt_of_token? {rules : Rules} {previous : Option Char}
    {cs blanks rest : List Char} (h : token? rules previous cs = some (blanks, rest)) :
    rest.length < cs.length := by
  rw [token?_append h]
  simp only [List.length_append, List.length_cons]
  omega

/-- The pieces of a text, up to the first call whose parenthesis never closes. -/
structure Cut where
  pieces : List Piece
  failure : Option SpanError
  deriving Repr, DecidableEq

def Cut.cons (piece : Piece) (cut : Cut) : Cut := { cut with pieces := piece :: cut.pieces }

/-- The pieces of `after`.  `before` is the text read so far, the last character first, and
`boundary` the offset of the test region.  A token in a line comment is copied and the text after
its parenthesis is read on; every other token is read together with its span. -/
def cutFrom (rules : Rules) (boundary : Nat) (before after : List Char) : Cut :=
  match after with
  | [] => ⟨[], none⟩
  | c :: cs =>
    match _h : token? rules before.head? (c :: cs) with
    | none => (cutFrom rules boundary (c :: before) cs).cons (.char c)
    | some (blanks, rest) =>
      if commented before then
        let piece := Piece.commented blanks
        (cutFrom rules boundary ((piece.source rules).reverse ++ before) rest).cons piece
      else
        let start := byteLength before
        match _hs : span? ('(' :: rest) with
        | none =>
          ⟨[], some (.unterminated start (start + byteLength (callHead rules ++ blanks)))⟩
        | some (span, afterSpan) =>
          let body := blanks ++ span
          let piece := if boundary ≤ start then Piece.exempt body else Piece.call body
          (cutFrom rules boundary ((piece.source rules).reverse ++ before) afterSpan).cons piece
termination_by after.length
decreasing_by
  · simp
  · exact length_lt_of_token? _h
  · have h1 := length_lt_of_token? _h
    have h2 := length_lt_of_span? _hs
    rw [List.length_cons] at h2
    omega

def cut (rules : Rules) (source : List Char) : Cut :=
  cutFrom rules (testOffset source) [] source

end LogLift.Document
