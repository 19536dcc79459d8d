import LogLift.Proofs.Message.Parts
import LogLift.Proofs.Text.Position
import LogLift.Source.Span

/-! Spans by what they hold.  A span never closes exactly when no part of the text from its opening
parenthesis on has as many closing parentheses as opening ones, those in literals aside.  What
follows a span does not show to its scan, the first literal of a span opens at its first quote, and
text without quotes and backslashes may come or go at the start of a literal. -/

namespace LogLift.Source

open LogLift.Text LogLift.Message

/-! ### Where a span ends -/

theorem spanEnd_append (front rest : List Char) (start : Nat) :
    spanEnd (front ++ '(' :: rest) start (byteLength front) =
      match span? ('(' :: rest) with
      | some (span, _) => .ok (byteLength front + byteLength span)
      | none => .error (.unterminated start (byteLength front)) := by
  have hsplit : splitAtByte? (byteLength front) (front ++ '(' :: rest) =
      some (front, '(' :: rest) :=
    splitAtByte?_eq_some_iff.2 ⟨rfl, rfl⟩
  cases hspan : span? ('(' :: rest) <;> simp [spanEnd, hsplit, hspan]

theorem spanEnd_eq_ok_iff {source : List Char} {start opening stop : Nat} :
    spanEnd source start opening = .ok stop ↔
      ∃ front rest span afterSpan, source = front ++ '(' :: rest ∧ byteLength front = opening ∧
        span? ('(' :: rest) = some (span, afterSpan) ∧ opening + byteLength span = stop := by
  constructor
  · intro h
    unfold spanEnd at h
    split at h
    · rename_i front rest hsplit
      split at h
      · rename_i span afterSpan hspan
        obtain ⟨rfl, hlen⟩ := splitAtByte?_eq_some_iff.1 hsplit
        simp only [Except.ok.injEq] at h
        exact ⟨front, rest, span, afterSpan, rfl, hlen, hspan, h⟩
      · simp at h
    · simp at h
  · rintro ⟨front, rest, span, afterSpan, rfl, rfl, hspan, rfl⟩
    rw [spanEnd_append, hspan]

/-! ### Balance -/

/-- The characters of `cs` outside its literals.  `mode` tells what its first character belongs
to. -/
def outside : (mode : SpanMode) → List Char → List Char
  | _, [] => []
  | .code, c :: cs => if c = '"' then outside .string cs else c :: outside .code cs
  | .string, c :: cs =>
    if c = '\\' then outside .escaped cs
    else if c = '"' then outside .code cs
    else outside .string cs
  | .escaped, _ :: cs => outside .string cs

/-- As many parentheses open in `cs` as close, those in literals aside. -/
def Balanced (cs : List Char) : Prop :=
  (outside .code cs).count '(' = (outside .code cs).count ')'

instance : DecidablePred Balanced := fun _ => inferInstanceAs (Decidable (_ = _))

/-- No text of `source` from byte `opening` on is balanced. -/
def NeverBalances (source : List Char) (opening : Nat) : Prop :=
  ∀ stop cs, opening < stop → Slice source opening stop cs → ¬Balanced cs

/-- Read in state `s`, `cs` closes as many parentheses as are open in `s` or open in `cs`. -/
def SpanState.Balances (s : SpanState) (cs : List Char) : Prop :=
  s.depth + (outside s.mode cs).count '(' = (outside s.mode cs).count ')'

namespace SpanState

variable {s : SpanState} {c : Char}

theorem balances_nil : s.Balances [] ↔ s.depth = 0 := by
  simp [Balances, outside]

theorem balances_cons (hopen : 0 < s.depth) (cs : List Char) :
    s.Balances (c :: cs) ↔ (s.step c).Balances cs := by
  obtain ⟨depth, mode⟩ := s
  unfold Balances
  cases mode with
  | code =>
    -- a parenthesis counts in the depth on one side and in the text on the other
    by_cases hquote : c = '"'
    · simp [step, outside, hquote]
    by_cases hparen : c = '('
    · subst hparen
      have hstep : step ⟨depth, .code⟩ '(' = ⟨depth + 1, .code⟩ := rfl
      have houtside : outside .code ('(' :: cs) = '(' :: outside .code cs := rfl
      rw [hstep, houtside, List.count_cons_self, List.count_cons_of_ne (by decide)]
      dsimp only
      omega
    by_cases hclose : c = ')'
    · subst hclose
      have hstep : step ⟨depth, .code⟩ ')' = ⟨depth - 1, .code⟩ := rfl
      have houtside : outside .code (')' :: cs) = ')' :: outside .code cs := rfl
      rw [hstep, houtside, List.count_cons_self, List.count_cons_of_ne (by decide)]
      dsimp only at hopen ⊢
      omega
    · simp [step, outside, hquote, hparen, hclose]
  | string =>
    simp only [step, outside]
    split_ifs <;> rfl
  | escaped => rfl

theorem depth_step_pos (hopen : 0 < s.depth) (hcloses : s.closes c = false) :
    0 < (s.step c).depth := by
  obtain ⟨depth, mode⟩ := s
  cases mode with
  | code =>
    by_cases hclose : c = ')'
    · subst hclose
      have hne : (step ⟨depth, .code⟩ ')').depth ≠ 0 := by
        simpa [closes] using hcloses
      omega
    · simp only [step]
      split_ifs
      · exact hopen
      · exact Nat.succ_pos depth
      · exact hopen
  | string =>
    simp only [step]
    split_ifs <;> exact hopen
  | escaped => exact hopen

end SpanState

theorem spanFrom?_eq_none_iff {s : SpanState} {cs : List Char} (hopen : 0 < s.depth) :
    spanFrom? s cs = none ↔ ∀ front, front <+: cs → ¬s.Balances front := by
  induction cs generalizing s with
  | nil =>
    simp only [spanFrom?, true_iff]
    intro front hfront
    rw [List.prefix_nil.1 hfront, SpanState.balances_nil]
    omega
  | cons c cs ih =>
    rw [spanFrom?]
    cases hcloses : s.closes c with
    | true =>
      simp only [if_true, reduceCtorEq, false_iff]
      intro hall
      apply hall [c] (by simp)
      simp only [SpanState.closes, Bool.and_eq_true, beq_iff_eq] at hcloses
      rw [SpanState.balances_cons hopen, SpanState.balances_nil]
      exact hcloses.2
    | false =>
      simp only [Bool.false_eq_true, if_false, Option.map_eq_none_iff,
        ih (SpanState.depth_step_pos hopen hcloses)]
      constructor
      · intro hall front hfront
        cases front with
        | nil =>
          rw [SpanState.balances_nil]
          omega
        | cons d front =>
          obtain ⟨rfl, hrest⟩ := List.cons_prefix_cons.1 hfront
          rw [SpanState.balances_cons hopen]
          exact hall front hrest
      · intro hall front hfront
        rw [← SpanState.balances_cons hopen]
        exact hall (c :: front) (List.cons_prefix_cons.2 ⟨rfl, hfront⟩)

/-- A span never closes exactly when the parentheses from its opening one on never balance. -/
theorem span?_eq_none_iff {front rest : List Char} :
    span? ('(' :: rest) = none ↔ NeverBalances (front ++ '(' :: rest) (byteLength front) := by
  have hfirst : span? ('(' :: rest) = (spanFrom? ⟨1, .code⟩ rest).map fun p => ('(' :: p.1, p.2) :=
    rfl
  have hcount : ∀ cs, Balanced ('(' :: cs) ↔ SpanState.Balances ⟨1, .code⟩ cs := by
    intro cs
    have houtside : outside .code ('(' :: cs) = '(' :: outside .code cs := rfl
    rw [Balanced, SpanState.Balances, houtside, List.count_cons_self,
      List.count_cons_of_ne (by decide), Nat.add_comm]
  rw [hfirst, Option.map_eq_none_iff, spanFrom?_eq_none_iff (by decide)]
  constructor
  · rintro hall stop cs hlt ⟨before, after, heq, hlen, hstop⟩ hbalanced
    obtain ⟨rfl, hcut⟩ := append_inj_of_byteLength heq hlen.symm
    obtain ⟨c, cs, rfl⟩ : ∃ c ds, cs = c :: ds := by
      apply List.exists_cons_of_ne_nil
      rintro rfl
      rw [byteLength_nil] at hstop
      omega
    obtain ⟨rfl, rfl⟩ := List.cons.inj hcut
    exact hall cs (List.prefix_append cs after) ((hcount cs).1 hbalanced)
  · rintro hall cs ⟨after, rfl⟩ hbalances
    refine hall _ ('(' :: cs) ?_ ⟨front, after, by simp, rfl, rfl⟩ ((hcount cs).2 hbalances)
    have := byteLength_pos (List.cons_ne_nil '(' cs)
    omega

/-! ### What a scan sees -/

/-- The scan of a span looks at nothing after it. -/
theorem spanFrom?_append_of_some {s : SpanState} {cs span rest : List Char}
    (h : spanFrom? s cs = some (span, rest)) (after : List Char) :
    spanFrom? s (span ++ after) = some (span, after) := by
  induction cs generalizing s span rest with
  | nil => simp [spanFrom?] at h
  | cons c cs ih =>
    rw [spanFrom?] at h
    split at h
    · rename_i hcloses
      simp only [Option.some.injEq, Prod.mk.injEq] at h
      obtain ⟨rfl, rfl⟩ := h
      simp [spanFrom?, hcloses]
    · rename_i hcloses
      obtain ⟨p, hp, hq⟩ := Option.map_eq_some_iff.1 h
      simp only [Prod.mk.injEq] at hq
      obtain ⟨rfl, rfl⟩ := hq
      rw [List.cons_append, spanFrom?, if_neg hcloses, ih hp, Option.map_some]

/-- The state after `cs`. -/
def SpanState.after (s : SpanState) (cs : List Char) : SpanState := cs.foldl SpanState.step s

/-- As long as a scan has not come to its end, a parenthesis is open. -/
theorem depth_after_pos {s : SpanState} {cs : List Char} (hopen : 0 < s.depth)
    (h : spanFrom? s cs = none) : 0 < (s.after cs).depth := by
  induction cs generalizing s with
  | nil => exact hopen
  | cons c cs ih =>
    rw [spanFrom?] at h
    split at h
    · simp at h
    · rename_i hcloses
      have hpos := SpanState.depth_step_pos hopen (by simpa using hcloses)
      exact ih hpos (Option.map_eq_none_iff.1 h)

theorem spanFrom?_string_append (depth : Nat) {plain : List Char}
    (hplain : ∀ c ∈ plain, c ≠ '"' ∧ c ≠ '\\') (cs : List Char) :
    spanFrom? ⟨depth, .string⟩ (plain ++ cs) =
      (spanFrom? ⟨depth, .string⟩ cs).map fun p => (plain ++ p.1, p.2) := by
  induction plain with
  | nil => simp
  | cons c plain ih =>
    obtain ⟨hquote, hslash⟩ := hplain c (by simp)
    have hstep : SpanState.step ⟨depth, .string⟩ c = ⟨depth, .string⟩ := by
      simp [SpanState.step, hquote, hslash]
    rw [List.cons_append, spanFrom?, if_neg (by simp [SpanState.closes]), hstep,
      ih fun d hd => hplain d (List.mem_cons_of_mem c hd), Option.map_map]
    rfl

theorem literalBody?_isSome_of_spanFrom? {depth : Nat} {cs : List Char}
    (h : (spanFrom? ⟨depth, .string⟩ cs).isSome = true) : (literalBody? cs).isSome = true := by
  fun_induction literalBody? cs with
  | case1 => simp [spanFrom?] at h
  | case2 after => rfl
  | case3 c tail ih =>
    simp only [spanFrom?, SpanState.closes, SpanState.step] at h
    rw [Option.isSome_map]
    exact ih (by simpa using h)
  | case4 tail _ hlast =>
    -- a backslash at the very end leaves the scan without an end
    cases tail with
    | nil => simp [spanFrom?, SpanState.closes] at h
    | cons c tail => exact absurd rfl (hlast c tail rfl)
  | case5 c tail hquote _ hslash ih =>
    have hplain : ∀ d ∈ [c], d ≠ '"' ∧ d ≠ '\\' := by
      simpa using ⟨hquote, hslash⟩
    rw [← List.singleton_append, spanFrom?_string_append depth hplain, Option.isSome_map] at h
    rw [Option.isSome_map]
    exact ih h

theorem SpanState.exists_step_code (depth : Nat) {c : Char} (h : c ≠ '"') :
    ∃ depth', SpanState.step ⟨depth, .code⟩ c = ⟨depth', .code⟩ := by
  simp only [SpanState.step, if_neg h]
  split_ifs <;> exact ⟨_, rfl⟩

theorem exists_spanFrom?_quote {depth : Nat} {front cs span rest : List Char}
    (hfront : '"' ∉ front)
    (h : spanFrom? ⟨depth, .code⟩ (front ++ '"' :: cs) = some (front ++ '"' :: span, rest)) :
    ∃ depth', ∀ ds, spanFrom? ⟨depth, .code⟩ (front ++ '"' :: ds) =
      (spanFrom? ⟨depth', .string⟩ ds).map fun p => (front ++ '"' :: p.1, p.2) := by
  induction front generalizing depth with
  | nil => exact ⟨depth, fun ds => rfl⟩
  | cons c front ih =>
    have hquote : c ≠ '"' := fun hc => hfront (by simp [hc])
    obtain ⟨depth', hstep⟩ := SpanState.exists_step_code depth hquote
    rw [List.cons_append, spanFrom?] at h
    split at h
    · simp at h
    · rename_i hcloses
      obtain ⟨⟨head, tail⟩, hp, hq⟩ := Option.map_eq_some_iff.1 h
      simp only [List.cons_append, Prod.mk.injEq, List.cons.injEq, true_and] at hq
      obtain ⟨rfl, rfl⟩ := hq
      rw [hstep] at hp
      obtain ⟨inner, hinner⟩ := ih (fun hc => hfront (List.mem_cons_of_mem c hc)) hp
      refine ⟨inner, fun ds => ?_⟩
      rw [List.cons_append, spanFrom?, if_neg hcloses, hstep, hinner, Option.map_map]
      rfl

/-- Text without quotes and backslashes may go from the start of a span's first literal. -/
theorem span?_without {cs front plain body rest : List Char} (hfront : '"' ∉ front)
    (hplain : ∀ c ∈ plain, c ≠ '"' ∧ c ≠ '\\')
    (h : span? cs = some (front ++ '"' :: (plain ++ body), rest)) (after : List Char) :
    span? (front ++ '"' :: (body ++ after)) = some (front ++ '"' :: body, after) := by
  have hspan : spanFrom? .initial (front ++ '"' :: (plain ++ (body ++ after))) =
      some (front ++ '"' :: (plain ++ body), after) := by
    simpa using spanFrom?_append_of_some h after
  obtain ⟨depth, hquote⟩ := exists_spanFrom?_quote hfront hspan
  have hbody : spanFrom? ⟨depth, .string⟩ (body ++ after) = some (body, after) := by
    rw [SpanState.initial, hquote, spanFrom?_string_append depth hplain] at hspan
    simp only [Option.map_map, Option.map_eq_some_iff, Function.comp_apply, Prod.mk.injEq] at hspan
    obtain ⟨⟨body', after'⟩, hp, hfirst, rfl⟩ := hspan
    rw [hp]
    simpa using hfirst
  rw [span?, SpanState.initial, hquote, hbody, Option.map_some]

end LogLift.Source
