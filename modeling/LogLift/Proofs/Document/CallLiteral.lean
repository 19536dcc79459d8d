import Mathlib.Data.List.Induction
import LogLift.Proofs.Document.CallImage
import LogLift.Proofs.Message.Quotes

/-! The search for a literal and the scan of a call agree on what a string is.  The first literal of
a call is what the scan reads from where it first comes into a string up to where it first leaves
it, and a call without a literal has no quote at all. -/

namespace LogLift.Source

open LogLift.Text LogLift.Message

/-! ### The way of a scan -/

/-- The scan of `source` from byte `opening` on comes to byte `here` in state `s`. -/
def ScanAt (source : List Char) (opening here : Nat) (s : SpanState) : Prop :=
  ∃ cs, Slice source opening here cs ∧ SpanState.initial.after cs = s

/-- The first string of the scan of `source` from byte `opening` on: the scan comes into it at byte
`enter` and leaves it with the quote at byte `leave`. -/
structure FirstString (source : List Char) (opening enter leave : Nat) : Prop where
  outside : ∀ here s, here < enter → ScanAt source opening here s → s.mode = .code
  enters : ∃ s, ScanAt source opening enter s ∧ s.mode = .string
  inside : ∀ here s, enter ≤ here → here ≤ leave → ScanAt source opening here s → s.mode ≠ .code
  leaves : ∃ s, ScanAt source opening (leave + 1) s ∧ s.mode = .code

namespace SpanState

theorem after_append (s : SpanState) (a b : List Char) : s.after (a ++ b) = (s.after a).after b :=
  List.foldl_append

theorem mode_after_of_not_mem {s : SpanState} {cs : List Char} (hcode : s.mode = .code)
    (h : '"' ∉ cs) : (s.after cs).mode = .code := by
  induction cs generalizing s with
  | nil => exact hcode
  | cons c cs ih =>
    obtain ⟨depth, mode⟩ := s
    obtain rfl : mode = .code := hcode
    obtain ⟨hc, hcs⟩ := not_or.1 (fun hmem => h (List.mem_cons.2 hmem))
    obtain ⟨depth', hstep⟩ := exists_step_code depth (Ne.symm hc)
    show (SpanState.after (step ⟨depth, .code⟩ c) cs).mode = .code
    rw [hstep]
    exact ih rfl hcs

/-- A scan stays in a string as long as every quote is taken by a backslash. -/
theorem after_string (depth : Nat) {cs : List Char} (h : AllEscaped cs) :
    SpanState.after ⟨depth, .string⟩ cs =
      ⟨depth, if endsEscaped cs then .escaped else .string⟩ := by
  induction cs using List.reverseRecOn with
  | nil => rfl
  | append_singleton cs c ih =>
    have hquote : c = '"' → endsEscaped cs = true := by
      rintro rfl
      exact h cs [] rfl
    rw [after_append, ih (h.of_prefix (List.prefix_append cs [c])), endsEscaped_concat]
    cases hend : endsEscaped cs with
    | true => rfl
    | false =>
      have hc : c ≠ '"' := fun hc => absurd ((hquote hc).symm.trans hend) (by decide)
      by_cases hslash : c = '\\'
      · subst hslash
        rfl
      · simp [SpanState.after, step, hc, hslash]

end SpanState

theorem scanAt_append_iff {front rest : List Char} {here : Nat} {s : SpanState} :
    ScanAt (front ++ rest) (byteLength front) here s ↔
      ∃ cs, cs <+: rest ∧ byteLength front + byteLength cs = here ∧
        SpanState.initial.after cs = s := by
  constructor
  · rintro ⟨cs, ⟨before, after, heq, hlen, hhere⟩, hs⟩
    obtain ⟨rfl, rfl⟩ := append_inj_of_byteLength heq hlen.symm
    exact ⟨cs, List.prefix_append cs after, hhere, hs⟩
  · rintro ⟨cs, ⟨after, rfl⟩, hhere, hs⟩
    exact ⟨cs, ⟨front, after, rfl, rfl, hhere⟩, hs⟩

/-- The first literal of a text is the first string of its scan. -/
theorem firstString_of_literal {before inner : List Char} (front after : List Char)
    (hbefore : '"' ∉ before) (hall : AllEscaped inner)
    (hend : endsEscaped inner = false) :
    FirstString (front ++ (before ++ '"' :: (inner ++ '"' :: after))) (byteLength front)
      (byteLength front + byteLength before + 1)
      (byteLength front + byteLength before + 1 + byteLength inner) := by
  obtain ⟨depth, hcode⟩ : ∃ depth, SpanState.initial.after before = ⟨depth, .code⟩ :=
    ⟨_, congrArg (SpanState.mk _) (SpanState.mode_after_of_not_mem rfl hbefore)⟩
  have hstring : ∀ cs, AllEscaped cs → SpanState.initial.after (before ++ '"' :: cs) =
      ⟨depth, if endsEscaped cs then .escaped else .string⟩ := by
    intro cs hcs
    rw [SpanState.after_append, hcode]
    exact SpanState.after_string depth hcs
  have hquote : byteLength ['"'] = 1 := rfl
  constructor
  · intro here s hlt hscan
    obtain ⟨cs, ⟨more, hcs⟩, rfl, rfl⟩ := scanAt_append_iff.1 hscan
    obtain ⟨m, rfl, _⟩ := exists_eq_append_of_byteLength_le hcs (by omega)
    exact SpanState.mode_after_of_not_mem rfl fun hmem => hbefore (List.mem_append_left m hmem)
  · refine ⟨_, scanAt_append_iff.2 ⟨before ++ ['"'], ?_, ?_, hstring [] allEscaped_nil⟩, rfl⟩
    · simp
    · rw [byteLength_append, hquote, Nat.add_assoc]
  · intro here s hle hge hscan
    obtain ⟨cs, ⟨more, hcs⟩, rfl, rfl⟩ := scanAt_append_iff.1 hscan
    have hcut : (before ++ ['"']) ++ (inner ++ '"' :: after) = cs ++ more := by
      rw [hcs]
      simp
    obtain ⟨m, rfl, hrest⟩ := exists_eq_append_of_byteLength_le hcut
      (by rw [byteLength_append, hquote]; omega)
    obtain ⟨k, rfl, _⟩ := exists_eq_append_of_byteLength_le hrest.symm
      (by simp only [byteLength_append, hquote] at hge; omega)
    rw [List.append_assoc, List.singleton_append,
      hstring m (hall.of_prefix (List.prefix_append m k))]
    split <;> simp
  · refine ⟨⟨depth, .code⟩,
      scanAt_append_iff.2 ⟨(before ++ '"' :: inner) ++ ['"'], ?_, ?_, ?_⟩, rfl⟩
    · exact ⟨after, by simp⟩
    · rw [byteLength_append, byteLength_append, byteLength_cons, hquote]
      have hsize : '"'.utf8Size = 1 := rfl
      omega
    · rw [SpanState.after_append, hstring inner hall, hend]
      rfl

/-- A span without a literal has no quote: what opens in a span closes in it. -/
theorem firstLiteral?_eq_none_iff_of_span? {cs span rest : List Char}
    (h : span? cs = some (span, rest)) : firstLiteral? span = none ↔ '"' ∉ span := by
  constructor
  · intro hnone hmem
    obtain ⟨before, tail, rfl, hbefore⟩ := List.eq_append_cons_of_mem hmem
    have hspan : spanFrom? .initial (before ++ '"' :: tail) = some (before ++ '"' :: tail, []) := by
      simpa using spanFrom?_append_of_some h []
    obtain ⟨depth, hquote⟩ := exists_spanFrom?_quote hbefore hspan
    have hstring : (spanFrom? ⟨depth, .string⟩ tail).isSome = true := by
      rw [SpanState.initial, hquote] at hspan
      rw [← Option.isSome_map, hspan]
      rfl
    have hbody := literalBody?_isSome_of_spanFrom? hstring
    rw [firstLiteral?_quote hbefore, Option.map_eq_none_iff] at hnone
    simp [hnone] at hbody
  · exact firstLiteral?_eq_none_of_not_mem

/-- The first literal of a text that ends with a span is the first string of the span's scan. -/
theorem firstString_of_span? {head cs span after : List Char} {l : Literal} (front : List Char)
    (hhead : '"' ∉ head) (hspan : span? cs = some (span, after))
    (h : firstLiteral? (head ++ span) = some l) :
    FirstString (front ++ (head ++ cs)) (byteLength (front ++ head)) (byteLength front + l.start)
      (byteLength front + l.stop) := by
  rw [firstLiteral?_append hhead] at h
  obtain ⟨l, hl, rfl⟩ := Option.map_eq_some_iff.1 h
  obtain ⟨hbefore, hall, hend⟩ := parts_of_firstLiteral? hl
  have hfirst := firstString_of_literal (front ++ head) (l.after ++ after) hbefore hall hend
  have hcs : cs = l.before ++ '"' :: (l.inner ++ '"' :: (l.after ++ after)) := by
    rw [span?_append hspan]
    nth_rewrite 1 [eq_of_firstLiteral? hl]
    simp
  rw [hcs, ← List.append_assoc]
  simpa only [Literal.stop, Literal.start, byteLength_append, Nat.add_assoc] using hfirst

end LogLift.Source

namespace LogLift.Document

open LogLift.Text LogLift.Source LogLift.Message

/-- The literal of a call, and the scan from the parenthesis of its token on. -/
theorem literal_of_call {rules : Rules} {source call : List Char} {start opening stop : Nat}
    (htoken : TokenAt rules source start opening) (hend : spanEnd source start opening = .ok stop)
    (hcall : Slice source start stop call) :
    (firstLiteral? call = none ↔ '"' ∉ call) ∧
      ∀ l, firstLiteral? call = some l →
        FirstString source opening (start + l.start) (start + l.stop) := by
  obtain ⟨before, blanks, rest, rfl, _, hblank, rfl, rfl⟩ := htoken
  obtain ⟨front, rest', span, after, heq, hlen, hspan, rfl⟩ := spanEnd_eq_ok_iff.1 hend
  have hcut : (before ++ (callHead rules ++ blanks)) ++ '(' :: rest = front ++ '(' :: rest' := by
    simpa using heq
  obtain ⟨_, hrest⟩ := append_inj_of_byteLength hcut (by rw [byteLength_append, hlen])
  rw [← hrest] at hspan
  obtain rfl : call = (callHead rules ++ blanks) ++ span := by
    refine hcall.unique ⟨before, after, ?_, rfl, ?_⟩
    · rw [List.append_assoc, List.append_assoc, ← span?_append hspan]
    · rw [byteLength_append, Nat.add_assoc]
  have hhead : '"' ∉ callHead rules ++ blanks := by
    intro hmem
    rcases List.mem_append.1 hmem with hmem | hmem
    · exact quote_not_mem_callHead rules hmem
    · exact quote_not_mem_of_isBlank hblank hmem
  constructor
  · rw [firstLiteral?_append hhead, Option.map_eq_none_iff,
      firstLiteral?_eq_none_iff_of_span? hspan, List.mem_append, not_or]
    exact ⟨fun h => ⟨hhead, h⟩, fun h => h.2⟩
  · intro l hl
    have hfirst := firstString_of_span? before hhead hspan hl
    rwa [List.append_assoc, byteLength_append] at hfirst

/-- A text has no literal exactly when it has no quote or its first quote is never closed, and its
literal opens at the first quote and closes at the first one that no backslash takes.  In a call,
there is no literal exactly when there is no quote, and the literal is the first string of the scan
that finds the call's end. -/
theorem literals_agree_with_scans :
    (∀ text, firstLiteral? text = none ↔
      (∀ offset, ¬QuoteAt text offset) ∨
        ∃ opening, FirstQuote text opening ∧ ∀ closing, ¬UnescapedAt text opening closing) ∧
    (∀ text l, firstLiteral? text = some l →
      ∃ opening, FirstQuote text opening ∧ l.start = opening + 1 ∧ UnescapedAt text opening l.stop ∧
        (∀ closing, UnescapedAt text opening closing → l.stop ≤ closing) ∧
        Slice text l.start l.stop l.inner) ∧
    ∀ rules source start opening stop call, TokenAt rules source start opening →
      spanEnd source start opening = .ok stop → Slice source start stop call →
      (firstLiteral? call = none ↔ '"' ∉ call) ∧
        ∀ l, firstLiteral? call = some l →
          FirstString source opening (start + l.start) (start + l.stop) :=
  ⟨fun _ => firstLiteral?_eq_none_iff, fun _ _ => bounds_of_firstLiteral?,
    fun _ _ _ _ _ _ htoken hend hcall => literal_of_call htoken hend hcall⟩

/-- A text whose later quotes are all taken by backslashes, and a call whose literal holds an
escaped quote and ends with an escaped backslash. -/
theorem literals_agree_with_scans_escaped :
    let source := "f(); println! (1, \"\\\"é\\\\\", \"b\");".toList
    (firstLiteral? "a \"b\\\"c\\\"".toList = none ∧
      ∃ opening, FirstQuote "a \"b\\\"c\\\"".toList opening ∧
        ∀ closing, ¬UnescapedAt "a \"b\\\"c\\\"".toList opening closing) ∧
    TokenAt .default source 5 14 ∧ spanEnd source 5 14 = .ok 32 ∧ FirstString source 14 19 25 := by
  intro source
  obtain ⟨hnone, _, hcalls⟩ := literals_agree_with_scans
  have htext : firstLiteral? "a \"b\\\"c\\\"".toList = none := by decide +kernel
  have hquote : QuoteAt "a \"b\\\"c\\\"".toList 2 := ⟨"a ".toList, _, rfl, rfl⟩
  have htoken : TokenAt .default source 5 14 :=
    ⟨"f(); ".toList, [' '], "1, \"\\\"é\\\\\", \"b\");".toList, by decide +kernel,
      by decide +kernel, List.forall_mem_singleton.2 (by decide), by decide, by decide⟩
  have hend : spanEnd source 5 14 = .ok 32 := by decide +kernel
  have hcall : Slice source 5 32 "println! (1, \"\\\"é\\\\\", \"b\")".toList :=
    ⟨"f(); ".toList, [';'], by decide +kernel, by decide, by decide⟩
  refine ⟨⟨htext, ((hnone _).1 htext).resolve_left fun h => h 2 hquote⟩, htoken, hend, ?_⟩
  exact (hcalls .default source 5 14 32 _ htoken hend hcall).2
    ⟨"println! (1, ".toList, "\\\"é\\\\".toList, ", \"b\")".toList⟩ (by decide +kernel)

end LogLift.Document
