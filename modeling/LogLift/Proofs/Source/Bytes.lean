import LogLift.Proofs.Source.Comments
import LogLift.Proofs.Source.Grammar

/-! Readers that go from byte to byte.  The scan for the end of a span and the search for a comment
may come to stand inside a longer character, but what they answer is what reading by characters
answers. -/

namespace LogLift.Source

open LogLift.Text

/-! ### The end of a span -/

/-- `b`, read in state `s`, closes the last open parenthesis. -/
def SpanState.closesByte (s : SpanState) (b : UInt8) : Bool :=
  s.mode == .code && b == ')'.toUInt8 && (s.byteStep b).depth == 0

/-- The offset past the byte that ends a span, for bytes the first of which is at `here`. -/
def scanFrom? (s : SpanState) (here : Nat) : List UInt8 → Option Nat
  | [] => none
  | b :: bs => if s.closesByte b then some (here + 1) else scanFrom? (s.byteStep b) (here + 1) bs

/-- The offset past the byte that closes the parenthesis at `opening`. -/
def scanEnd (bytes : List UInt8) (start opening : Nat) : Except SpanError Nat :=
  if bytes[opening]? = some '('.toUInt8 then
    match scanFrom? .initial opening (bytes.drop opening) with
    | some stop => .ok stop
    | none => .error (.unterminated start opening)
  else .error (.notAnOpening opening)

section Spans

variable {s : SpanState} {here : Nat}

theorem closesByte_of_le (s : SpanState) {b : UInt8} (h : 128 ≤ b.toNat) :
    s.closesByte b = false := by
  have hne : b ≠ ')'.toUInt8 := ne_toUInt8_of_le h (by decide)
  simp [SpanState.closesByte, hne]

theorem closesByte_toUInt8 (s : SpanState) {c : Char} (h : c.toNat < 128) :
    s.closesByte c.toUInt8 = s.closes c := by
  have hparen : (c.toUInt8 == ')'.toUInt8) = (c == ')') := by
    rw [Bool.eq_iff_iff, beq_iff_eq, beq_iff_eq, toUInt8_eq_iff h (by decide)]
  rw [SpanState.closesByte, SpanState.closes, hparen, SpanState.byteStep_toUInt8 s h]

/-- The bytes of a longer character are passed over. -/
theorem scanFrom?_append_of_le {front : List UInt8} (hne : front ≠ [])
    (hle : ∀ b ∈ front, 128 ≤ b.toNat) (bs : List UInt8) :
    scanFrom? s here (front ++ bs) = scanFrom? s.settled (here + front.length) bs := by
  induction front generalizing s here with
  | nil => exact absurd rfl hne
  | cons b front ih =>
    obtain ⟨hb, hfront⟩ := List.forall_mem_cons.1 hle
    rw [List.cons_append, scanFrom?, closesByte_of_le s hb, SpanState.byteStep_of_le s hb]
    by_cases hnil : front = []
    · subst hnil
      rfl
    · rw [if_neg Bool.false_ne_true, ih hnil hfront, SpanState.settled_settled, List.length_cons]
      congr 1
      omega

theorem scanFrom?_utf8 (s : SpanState) (here : Nat) (cs : List Char) :
    scanFrom? s here (utf8 cs) = (spanFrom? s cs).map fun p => here + byteLength p.1 := by
  induction cs generalizing s here with
  | nil => rfl
  | cons c cs ih =>
    have hsize := String.length_utf8EncodeChar c
    rw [utf8_cons, spanFrom?]
    by_cases hc : c.toNat < 128
    · rw [utf8EncodeChar_of_lt hc] at hsize ⊢
      rw [List.singleton_append, scanFrom?, closesByte_toUInt8 s hc, SpanState.byteStep_toUInt8 s hc,
        ih]
      split
      · simp [← hsize]
      · simp [Function.comp_def, ← hsize, Nat.add_assoc]
    · have hle := Nat.le_of_not_lt hc
      have hcloses : s.closes c = false := by
        have hparen : c ≠ ')' := by
          rintro rfl
          exact absurd hle (by decide)
        simp [SpanState.closes, hparen]
      rw [scanFrom?_append_of_le String.utf8EncodeChar_ne_nil
        fun b hb => le_of_mem_utf8EncodeChar hle hb, ih, hcloses, SpanState.step_of_le s hle, hsize]
      simp [Function.comp_def, Nat.add_assoc]

theorem scanEnd_utf8 (source : List Char) (start opening : Nat) :
    scanEnd (utf8 source) start opening = spanEnd source start opening := by
  rw [scanEnd]
  split
  · rename_i hparen
    obtain ⟨front, rest, rfl, rfl⟩ := exists_append_of_getElem? (by decide) hparen
    rw [drop_utf8_append, scanFrom?_utf8, spanEnd_append, span?]
    rcases spanFrom? .initial ('(' :: rest) with _ | ⟨span, after⟩ <;> rfl
  · rename_i hparen
    exact (spanEnd_eq_notAnOpening_iff.2 hparen).symm

end Spans

/-! ### Comments -/

/-- The bytes from `i` on.  There are none when `i` is past the end. -/
def bytesFrom? (bytes : List UInt8) (i : Nat) : Option (List UInt8) :=
  if i ≤ bytes.length then some (bytes.drop i) else none

theorem byteLength_quoteLiteral_pos {text : List Char} (h : text ∈ quoteLiterals) :
    0 < byteLength text := by
  obtain ⟨rest, hrest⟩ := utf8_quoteLiteral h
  rw [← length_utf8, hrest, List.length_cons]
  exact Nat.succ_pos _

/-- The literal of a quote that `bytes` start with. -/
def quoteLiteral? (bytes : List UInt8) : Option (List Char) :=
  quoteLiterals.find? fun text => (utf8 text).isPrefixOf bytes

/-- Whether `//` comes up outside of strings from byte `i` on.  There is no answer when a byte past
the end is asked for. -/
def searchFrom? (bytes : List UInt8) (inString : Bool) (i : Nat) : Option Bool :=
  if i < bytes.length then
    match bytesFrom? bytes i with
    | none | some [] => none
    | some (b :: rest) =>
      if inString then
        if b = '\\'.toUInt8 then searchFrom? bytes true (i + 2)
        else searchFrom? bytes (b != '"'.toUInt8) (i + 1)
      else if b = '"'.toUInt8 then searchFrom? bytes true (i + 1)
      else
        match _h : quoteLiteral? (b :: rest) with
        | some text => searchFrom? bytes false (i + byteLength text)
        | none =>
          if b = '/'.toUInt8 ∧ rest.head? = some '/'.toUInt8 then some true
          else searchFrom? bytes false (i + 1)
  else some false
termination_by bytes.length - i
decreasing_by
  all_goals try omega
  have := byteLength_quoteLiteral_pos (List.mem_of_find?_eq_some _h)
  omega

section Comments

variable {bytes tail : List UInt8} {i : Nat}

theorem drop_of_bytesFrom? (h : bytesFrom? bytes i = some tail) : bytes.drop i = tail := by
  rw [bytesFrom?] at h
  split at h
  · exact Option.some.inj h
  · simp at h

theorem exists_bytesFrom?_of_lt (h : i < bytes.length) :
    ∃ b rest, bytesFrom? bytes i = some (b :: rest) := by
  refine ⟨bytes[i], bytes.drop (i + 1), ?_⟩
  rw [bytesFrom?, if_pos (Nat.le_of_lt h), List.drop_eq_getElem_cons h]

theorem quoteLiteral?_eq_some {text : List Char} (h : quoteLiteral? bytes = some text) :
    text ∈ quoteLiterals ∧ ∃ rest, bytes = utf8 text ++ rest := by
  refine ⟨List.mem_of_find?_eq_some h, ?_⟩
  have hpre := List.find?_some h
  obtain ⟨rest, hrest⟩ := List.isPrefixOf_iff_prefix.1 hpre
  exact ⟨rest, hrest.symm⟩

theorem quoteLiteral?_eq_none (h : quoteLiteral? bytes = none) :
    ∀ text ∈ quoteLiterals, ¬utf8 text <+: bytes := by
  intro text htext hpre
  have hnone := List.find?_eq_none.1 h text htext
  exact hnone (List.isPrefixOf_iff_prefix.2 hpre)

/-- The search never asks for a byte past the end, and it finds what lexing meets. -/
theorem searchFrom?_answers (bytes : List UInt8) (inString : Bool) (i : Nat) :
    ∃ answer, searchFrom? bytes inString i = some answer ∧
      (answer = true ↔ MeetsComment (inString, bytes.drop i)) := by
  fun_induction searchFrom? bytes inString i with
  | case1 inString i hlt hnone | case2 inString i hlt hnone =>
    obtain ⟨b, rest, hsome⟩ := exists_bytesFrom?_of_lt hlt
    simp [hsome] at hnone
  | case3 i hlt rest hfrom ih =>
    have hhere := drop_of_bytesFrom? hfrom
    obtain ⟨answer, hanswer, hiff⟩ := ih
    rw [← List.drop_drop, hhere] at hiff
    rw [hhere]
    refine ⟨answer, hanswer, hiff.trans ?_⟩
    cases rest with
    | nil => exact iff_of_false meetsComment_nil not_meetsComment_backslash
    | cons b rest => exact meetsComment_escape.symm
  | case4 i hlt b rest hfrom hslash ih =>
    have hhere := drop_of_bytesFrom? hfrom
    obtain ⟨answer, hanswer, hiff⟩ := ih
    rw [← List.drop_drop, hhere] at hiff
    rw [hhere]
    refine ⟨answer, hanswer, hiff.trans ?_⟩
    by_cases hquote : b = '"'.toUInt8
    · subst hquote
      exact meetsComment_quote.symm
    · rw [bne_iff_ne.2 hquote]
      exact (meetsComment_string hquote hslash).symm
  | case5 inString i hlt rest hcode hfrom ih =>
    have hhere := drop_of_bytesFrom? hfrom
    obtain ⟨answer, hanswer, hiff⟩ := ih
    rw [← List.drop_drop, hhere] at hiff
    rw [hhere, eq_false_of_ne_true hcode]
    have hquote : MeetsComment (false, '"'.toUInt8 :: rest) ↔ MeetsComment (true, rest) :=
      meetsComment_quote
    exact ⟨answer, hanswer, hiff.trans hquote.symm⟩
  | case6 inString i hlt b rest hfrom hcode hquote text htext ih =>
    have hhere := drop_of_bytesFrom? hfrom
    obtain ⟨hmem, after, hafter⟩ := quoteLiteral?_eq_some htext
    obtain ⟨answer, hanswer, hiff⟩ := ih
    rw [← List.drop_drop, hhere, hafter, ← length_utf8, List.drop_left] at hiff
    rw [hhere, eq_false_of_ne_true hcode, hafter]
    exact ⟨answer, hanswer, hiff.trans (meetsComment_literal hmem).symm⟩
  | case7 inString i hlt b rest hfrom hcode hquote htext hcomment =>
    have hhere := drop_of_bytesFrom? hfrom
    obtain ⟨rfl, hslash⟩ := hcomment
    obtain ⟨after, rfl⟩ := List.head?_eq_some_iff.1 hslash
    rw [hhere, eq_false_of_ne_true hcode]
    exact ⟨true, rfl, iff_of_true rfl (AtComment.meetsComment ⟨after, rfl⟩)⟩
  | case8 inString i hlt b rest hfrom hcode hquote htext hcomment ih =>
    have hhere := drop_of_bytesFrom? hfrom
    obtain ⟨answer, hanswer, hiff⟩ := ih
    have hslash : ¬AtComment (false, b :: rest) := by
      rintro ⟨after, heq⟩
      obtain ⟨rfl, rfl⟩ := List.cons.inj (Prod.mk.inj heq).2
      exact hcomment ⟨rfl, rfl⟩
    rw [← List.drop_drop, hhere] at hiff
    rw [hhere, eq_false_of_ne_true hcode]
    exact ⟨answer, hanswer,
      hiff.trans (meetsComment_code hquote (quoteLiteral?_eq_none htext) hslash).symm⟩
  | case9 inString i hend =>
    rw [List.drop_eq_nil_of_le (Nat.le_of_not_lt hend)]
    exact ⟨false, rfl, iff_of_false Bool.false_ne_true meetsComment_nil⟩

end Comments

/-- The offset past the last line feed of `bytes`, or that of their first byte. -/
def lineStart (bytes : List UInt8) : Nat :=
  bytes.length - (bytes.reverse.takeWhile (· != '\n'.toUInt8)).length

/-- Whether byte `offset` is inside a line comment.  The line up to there is cut out of the text,
and searched byte by byte unless it starts with a comment.  There is no answer when the text cannot
be cut so. -/
def searchLine? (source : List Char) (offset : Nat) : Option Bool := do
  let front ← copy? source 0 offset
  let line ← slice? source (lineStart front) offset
  if leadsWithComment line then some true else searchFrom? (utf8 line) false 0

theorem lineStart_utf8 (before : List Char) :
    lineStart (utf8 before.reverse) = byteLength before - byteLength (lastLine before) := by
  have hline := utf8_lastLine before.reverse
  rw [List.reverse_reverse] at hline
  rw [lineStart, length_utf8, byteLength_reverse, ← length_utf8 (lastLine before), hline,
    List.length_reverse]

theorem slice_lastLine (before after : List Char) :
    Slice (before.reverse ++ after) (lineStart (utf8 before.reverse)) (byteLength before)
      (lastLine before) := by
  have hcut : before.reverse = (before.dropWhile (· != '\n')).reverse ++ lastLine before := by
    rw [lastLine, ← List.reverse_append, List.takeWhile_append_dropWhile]
  have hlength := congrArg byteLength hcut
  rw [byteLength_reverse, byteLength_append] at hlength
  rw [lineStart_utf8]
  refine ⟨(before.dropWhile (· != '\n')).reverse, after, ?_, by omega, by omega⟩
  rw [← List.append_assoc, ← hcut]

theorem searchLine?_eq (before after : List Char) :
    searchLine? (before.reverse ++ after) (byteLength before) = some (commented before) := by
  have hfront : copy? (before.reverse ++ after) 0 (byteLength before) =
      some (utf8 before.reverse) :=
    copy?_of_slice ⟨[], after, rfl, rfl, by simp⟩
  have hline := slice?_eq_some_iff.2 (slice_lastLine before after)
  obtain ⟨answer, hanswer, hiff⟩ := searchFrom?_answers (utf8 (lastLine before)) false 0
  rw [List.drop_zero, ← hasComment_iff_meetsComment] at hiff
  rw [Bool.eq_iff_iff.2 hiff] at hanswer
  simp only [searchLine?, hfront, Option.bind_eq_bind, Option.bind_some, hline, hanswer, commented,
    endsInComment]
  cases leadsWithComment (lastLine before) <;> rfl

end LogLift.Source
