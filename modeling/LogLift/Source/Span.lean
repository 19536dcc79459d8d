import LogLift.Text.Offset

/-! Spans: the text from an opening parenthesis to the one that closes it.  Parentheses inside
string literals do not count, and a backslash inside a literal takes the next character with
it. -/

namespace LogLift.Source

open LogLift.Text

inductive SpanError where
  /-- The call at `start` opens at `opening` and never closes. -/
  | unterminated (start opening : Nat)
  /-- There is no opening parenthesis at `offset`. -/
  | notAnOpening (offset : Nat)
  deriving Repr, DecidableEq

def SpanError.message : SpanError → String
  | unterminated start opening =>
    s!"unterminated invocation at byte {start}: delimiter opened at byte {opening} never closes"
  | notAnOpening offset => s!"expected opening delimiter at byte {offset}"

/-- What the next character of a span belongs to. -/
inductive SpanMode where
  /-- Text outside literals. -/
  | code
  /-- The body of a literal. -/
  | string
  /-- The character after a backslash in a literal. -/
  | escaped
  deriving Repr, DecidableEq

/-- The state of a scan: how many parentheses are open, and the mode. -/
structure SpanState where
  depth : Nat
  mode : SpanMode
  deriving Repr, DecidableEq

namespace SpanState

def initial : SpanState := ⟨0, .code⟩

def step (s : SpanState) (c : Char) : SpanState :=
  match s.mode with
  | .escaped => { s with mode := .string }
  | .string =>
    if c = '\\' then { s with mode := .escaped }
    else if c = '"' then { s with mode := .code }
    else s
  | .code =>
    if c = '"' then { s with mode := .string }
    else if c = '(' then { s with depth := s.depth + 1 }
    else if c = ')' then { s with depth := s.depth - 1 }
    else s

/-- `c`, read in state `s`, closes the last open parenthesis. -/
def closes (s : SpanState) (c : Char) : Bool :=
  s.mode == .code && c == ')' && (s.step c).depth == 0

end SpanState

/-- The rest of a span, read from state `s` up to the character that closes it, and the text after
it. -/
def spanFrom? (s : SpanState) : List Char → Option (List Char × List Char)
  | [] => none
  | c :: cs =>
    if s.closes c then some ([c], cs)
    else (spanFrom? (s.step c) cs).map fun p => (c :: p.1, p.2)

/-- The span that starts a text, and the text after it.  The text starts with `(`. -/
def span? (cs : List Char) : Option (List Char × List Char) := spanFrom? .initial cs

theorem spanFrom?_append {s : SpanState} {cs span rest : List Char}
    (h : spanFrom? s cs = some (span, rest)) : cs = span ++ rest := by
  induction cs generalizing s span rest with
  | nil => simp [spanFrom?] at h
  | cons c cs ih =>
    rw [spanFrom?] at h
    split at h
    · simp only [Option.some.injEq, Prod.mk.injEq] at h
      obtain ⟨rfl, rfl⟩ := h
      rfl
    · obtain ⟨p, hp, hq⟩ := Option.map_eq_some_iff.1 h
      simp only [Prod.mk.injEq] at hq
      obtain ⟨rfl, rfl⟩ := hq
      simp [← ih hp]

theorem span?_append {cs span rest : List Char} (h : span? cs = some (span, rest)) :
    cs = span ++ rest :=
  spanFrom?_append h

theorem spanFrom?_ne_nil {s : SpanState} {cs span rest : List Char}
    (h : spanFrom? s cs = some (span, rest)) : span ≠ [] := by
  cases cs with
  | nil => simp [spanFrom?] at h
  | cons c cs =>
    rw [spanFrom?] at h
    split at h
    · simp only [Option.some.injEq, Prod.mk.injEq] at h
      simp [← h.1]
    · obtain ⟨p, _, hq⟩ := Option.map_eq_some_iff.1 h
      simp only [Prod.mk.injEq] at hq
      simp [← hq.1]

theorem length_lt_of_span? {cs span rest : List Char} (h : span? cs = some (span, rest)) :
    rest.length < cs.length := by
  rw [span?_append h, List.length_append]
  have := List.length_pos_iff.2 (spanFrom?_ne_nil h)
  omega

/-- The offset just past the parenthesis that closes the one at byte `opening`.  The call's own
offset `start` only serves the error. -/
def spanEnd (source : List Char) (start opening : Nat) : Except SpanError Nat :=
  match splitAtByte? opening source with
  | some (_, '(' :: cs) =>
    match span? ('(' :: cs) with
    | some (span, _) => .ok (opening + byteLength span)
    | none => .error (.unterminated start opening)
  | _ => .error (.notAnOpening opening)

end LogLift.Source
