import Mathlib.Logic.Relation
import LogLift.Proofs.Document.Splice
import LogLift.Proofs.Source.Bytes

/-! Lifting by offsets.  A loop goes from token to token with a cursor, cuts what it needs out of the
text by byte offsets, and adds bytes to its output.  A cut that is out of order, past the end or
inside a character has no result, and then the turn of the loop has none.  A call can always be cut
as the loop does it, and the parts make what the call is lifted to. -/

namespace LogLift.Document

open LogLift.Text LogLift.Source LogLift.Message

/-! ### Cutting a call -/

/-- The offset past the tag of a message and the blanks after the tag. -/
def tagStop? : (text : List Char) → Option Nat
  | '[' :: cs =>
    match cs.takeWhile isTagChar, cs.dropWhile isTagChar with
    | c :: tag, ']' :: rest =>
      some (byteLength ('[' :: ((c :: tag) ++ ']' :: rest.takeWhile isBlank)))
    | _, _ => none
  | _ => none

/-- The message from the end of its tag on. -/
def cutTag? (text : List Char) : Option (List Char) :=
  match tagStop? text with
  | none => some text
  | some stop => slice? text stop (byteLength text)

theorem cutTag?_eq (text : List Char) : cutTag? text = some (stripTag text) := by
  fun_cases stripTag text with
  | case1 cs c tag rest hdrop htake =>
    have hsplit : cs = (c :: tag) ++ ']' :: (rest.takeWhile isBlank ++ trimLeft rest) := by
      rw [trimLeft, List.takeWhile_append_dropWhile, ← hdrop, ← htake,
        List.takeWhile_append_dropWhile]
    have hstop : tagStop? ('[' :: cs) =
        some (byteLength ('[' :: ((c :: tag) ++ ']' :: rest.takeWhile isBlank))) := by
      simp only [tagStop?, hdrop, htake]
    rw [cutTag?, hstop]
    refine slice?_eq_some_iff.2
      ⟨'[' :: ((c :: tag) ++ ']' :: rest.takeWhile isBlank), [], ?_, rfl, ?_⟩
    · rw [hsplit]
      simp
    · rw [hsplit]
      simp
      omega
  | case2 cs h =>
    have hstop : tagStop? ('[' :: cs) = none := by
      rw [tagStop?]
      split
      · rename_i c tag rest htake hdrop
        exact absurd hdrop (h c tag rest htake)
      · rfl
    rw [cutTag?, hstop]
  | case3 text h =>
    have hstop : tagStop? text = none := by
      unfold tagStop?
      split
      · rename_i cs
        exact absurd rfl (h cs)
      · rfl
    rw [cutTag?, hstop]

/-- What a call is lifted to, with its level and whether a tag was stripped.  The call's name and
`!` give way to the logging call, and the first literal is cut out and put back without its tag. -/
def cutCall? (rules : Rules) (keywords : Keywords) (call : List Char) :
    Option (List UInt8 × Level × Bool) :=
  let nameStop := byteLength rules.macroName.toList + 1
  match firstLiteral? call with
  | none => do
    let level := keywords.classify []
    let rest ← copy? call nameStop (byteLength call)
    return (utf8 (rules.replacement level).toList ++ rest, level, false)
  | some l => do
    let level := keywords.classify l.inner
    let cleaned ← cutTag? l.inner
    let front ← copy? call nameStop l.start
    let back ← copy? call l.stop (byteLength call)
    return (utf8 (rules.replacement level).toList ++ front ++ utf8 cleaned ++ back, level,
      byteLength cleaned != byteLength l.inner)

theorem byteLength_callHead (rules : Rules) :
    byteLength (callHead rules) = byteLength rules.macroName.toList + 1 := by
  rw [callHead, byteLength_append]
  rfl

theorem byteLength_stripTag_ne_iff (text : List Char) :
    byteLength (stripTag text) ≠ byteLength text ↔ stripTag text ≠ text := by
  refine not_congr ⟨fun h => ?_, congrArg byteLength⟩
  have hcut := congrArg byteLength (tagOf_append_stripTag text)
  rw [byteLength_append] at hcut
  exact tagOf_eq_nil_iff.1 (byteLength_eq_zero.1 (by omega))

section Call

variable (rules : Rules) {body : List Char}

theorem slice_body : Slice (callHead rules ++ body) (byteLength rules.macroName.toList + 1)
    (byteLength (callHead rules ++ body)) body := by
  refine ⟨callHead rules, [], by simp, byteLength_callHead rules, ?_⟩
  rw [byteLength_append, byteLength_callHead]

/-- The literal of a call, and what stands before and after its inner text. -/
theorem slices_of_firstLiteral? {l : Literal} (h : firstLiteral? body = some l) :
    ∃ l', firstLiteral? (callHead rules ++ body) = some l' ∧ l'.inner = l.inner ∧
      Slice (callHead rules ++ body) (byteLength rules.macroName.toList + 1) l'.start
        (l.before ++ ['"']) ∧
      Slice (callHead rules ++ body) l'.start l'.stop l.inner ∧
      Slice (callHead rules ++ body) l'.stop (byteLength (callHead rules ++ body))
        ('"' :: l.after) := by
  have hfirst := firstLiteral?_append (quote_not_mem_callHead rules) body
  rw [h, Option.map_some] at hfirst
  have hquote : '"'.utf8Size = 1 := by decide
  have hhead := byteLength_callHead rules
  obtain rfl := eq_of_firstLiteral? h
  refine ⟨_, hfirst, rfl, ?_, ?_, ?_⟩
  · refine ⟨callHead rules, l.inner ++ '"' :: l.after, by simp, hhead, ?_⟩
    simp only [Literal.start, byteLength_append, byteLength_cons, byteLength_nil, hquote]
    omega
  · refine ⟨callHead rules ++ l.before ++ ['"'], '"' :: l.after, by simp, ?_, rfl⟩
    simp only [Literal.start, byteLength_append, byteLength_cons, byteLength_nil, hquote]
  · refine ⟨callHead rules ++ l.before ++ ['"'] ++ l.inner, [], by simp, ?_, ?_⟩ <;>
      simp only [Literal.start, Literal.stop, byteLength_append, byteLength_cons, byteLength_nil,
        hquote]
    omega

/-- A call can be cut wherever it has to be, and the parts make what it is lifted to. -/
theorem cutCall?_eq (keywords : Keywords) (body : List Char) :
    cutCall? rules keywords (callHead rules ++ body) =
      some (utf8 ((Piece.call body).image rules keywords), callLevel keywords body,
        callTagged body) := by
  cases hl : firstLiteral? body with
  | none =>
    have hfirst := firstLiteral?_append (quote_not_mem_callHead rules) body
    rw [hl, Option.map_none] at hfirst
    have hmessage : message body = [] := by simp [message, hl]
    have htagged : callTagged body = false := by simp [callTagged, hmessage, stripTag]
    simp only [cutCall?, hfirst, copy?_of_slice (slice_body rules), Option.bind_eq_bind,
      Option.bind_some, Option.pure_def, Piece.image_call, untagged_of_none hl, utf8_append,
      callLevel, hmessage, htagged]
  | some l =>
    obtain ⟨l', hfirst, hinner, hfront, _, hback⟩ := slices_of_firstLiteral? rules hl
    have hmessage : message body = l.inner := by simp [message, hl]
    have htagged : callTagged body = (byteLength (stripTag l.inner) != byteLength l.inner) := by
      rw [Bool.eq_iff_iff, callTagged, hmessage, bne_iff_ne, bne_iff_ne,
        byteLength_stripTag_ne_iff]
    simp only [cutCall?, hfirst, hinner, cutTag?_eq, copy?_of_slice hfront, copy?_of_slice hback,
      Option.bind_eq_bind, Option.bind_some, Option.pure_def, Piece.image_call,
      untagged_of_some hl, utf8_append, callLevel, hmessage, htagged, List.append_assoc]

end Call

/-! ### The loop -/

/-- The first token of a text that stands after `previous` and has its first byte at `here`: its
offset, and the offset past its parenthesis. -/
def tokenFrom? (rules : Rules) (previous : Option Char) (here : Nat) :
    List Char → Option (Nat × Nat)
  | [] => none
  | c :: cs =>
    match token? rules previous (c :: cs) with
    | some (blanks, _) => some (here, here + byteLength (tokenText rules blanks))
    | none => tokenFrom? rules (some c) (here + c.utf8Size) cs

/-- The first token from byte `cursor` on, if there is one.  There is no answer when the text cannot
be cut at the cursor. -/
def findToken? (rules : Rules) (source : List Char) (cursor : Nat) :
    Option (Option (Nat × Nat)) :=
  (splitAtByte? cursor source).map fun p => tokenFrom? rules p.1.getLast? cursor p.2

/-- How far the loop is: the text before `cursor` is dealt with, `line` is the line of byte
`linePos`, and `out` are the bytes of the new text. -/
structure Progress where
  cursor : Nat
  line : Nat
  linePos : Nat
  out : List UInt8
  calls : List LiftedCall

def Progress.start : Progress := ⟨0, 1, 0, [], []⟩

/-- What a turn of the loop comes to. -/
inductive Turn where
  | onward (next : Progress)
  | finished (out : List UInt8) (calls : List LiftedCall)
  | failed (error : SpanError)

/-- The turn for a call from byte `start` up to byte `stop`. -/
def callTurn? (rules : Rules) (keywords : Keywords) (source : List Char) (p : Progress)
    (start stop : Nat) : Option Turn := do
  let call ← slice? source start stop
  let copied ← copy? source p.cursor start
  if testOffset source ≤ start then
    return .onward { p with cursor := stop, out := p.out ++ copied ++ utf8 call }
  else
    let between ← copy? source p.linePos start
    let line := p.line + between.count '\n'.toUInt8
    let (image, level, tagStripped) ← cutCall? rules keywords call
    return .onward ⟨stop, line, start, p.out ++ copied ++ image,
      p.calls ++ [⟨start, line, level, tagStripped⟩]⟩

/-- One turn of the loop.  It has no result when the text cannot be cut where the turn cuts it. -/
def turn? (rules : Rules) (keywords : Keywords) (source : List Char) (p : Progress) :
    Option Turn := do
  match ← findToken? rules source p.cursor with
  | none =>
    let rest ← copy? source p.cursor (byteLength source)
    return .finished (p.out ++ rest) p.calls
  | some (start, tokenStop) =>
    if ← searchLine? source start then
      let copied ← copy? source p.cursor tokenStop
      return .onward { p with cursor := tokenStop, out := p.out ++ copied }
    else
      match scanEnd (utf8 source) start (tokenStop - 1) with
      | .error error => return .failed error
      | .ok stop => callTurn? rules keywords source p start stop

/-- The states that the loop comes to. -/
def Reached (rules : Rules) (keywords : Keywords) (source : List Char) (p : Progress) : Prop :=
  Relation.ReflTransGen (fun p q => turn? rules keywords source p = some (.onward q)) .start p

end LogLift.Document
