import LogLift.Proofs.Document.Splice
import LogLift.Proofs.Source.Comments

/-! Which calls are lifted.  A token is scanned when it is in no line comment and in no call that
an earlier scanned token starts.  A reader never stands inside the call of a scanned token, so it
comes to the scanned tokens one by one; those before the test region are the lifted calls, and the
document fails at the first one whose parenthesis never closes. -/

namespace LogLift.Document

open LogLift.Text LogLift.Source LogLift.Message

/-- The token at byte `start` is scanned: it is not in a line comment, nor in the call of a scanned
token before it. -/
def Scanned (rules : Rules) (source : List Char) (start : Nat) : Prop :=
  IsToken rules source start ∧ onComment? source start = some false ∧
    ∀ earlier, (_ : earlier < start) → Scanned rules source earlier →
      ∀ stop, CallSpan rules source earlier stop → stop ≤ start
termination_by start

/-- The call of the token at byte `start` has a closing parenthesis. -/
def Closes (rules : Rules) (source : List Char) (start : Nat) : Prop :=
  ∃ stop, CallSpan rules source start stop

theorem IsToken.lt_byteLength {rules : Rules} {source : List Char} {start : Nat}
    (h : IsToken rules source start) : start < byteLength source := by
  obtain ⟨_, before, blanks, rest, rfl, _, _, rfl, _⟩ := h
  have hpos : 0 < byteLength (callHead rules) := byteLength_pos (by simp [callHead])
  simp only [byteLength_append]
  omega

section

variable {rules : Rules} {source before after : List Char}

/-- No token is scanned from byte `start` up to byte `stop`. -/
def Quiet (rules : Rules) (source : List Char) (start stop : Nat) : Prop :=
  ∀ p, start ≤ p → p < stop → ¬Scanned rules source p

/-- A reader of `source` has read `before`, the last character first, `after` is left, and no call
of a scanned token reaches over where it stands. -/
structure Stands (rules : Rules) (source before after : List Char) : Prop where
  text : before.reverse ++ after = source
  clear : ∀ p < byteLength before, Scanned rules source p →
    ∀ stop, CallSpan rules source p stop → stop ≤ byteLength before

namespace Stands

theorem start (rules : Rules) (source : List Char) : Stands rules source [] source :=
  ⟨rfl, fun p hp => absurd hp (Nat.not_lt_zero p)⟩

theorem scanned_iff (h : Stands rules source before after) :
    Scanned rules source (byteLength before) ↔
      IsToken rules source (byteLength before) ∧ commented before = false := by
  have hcomment := onComment?_eq before after
  rw [h.text] at hcomment
  rw [Scanned, hcomment, Option.some.injEq]
  exact ⟨fun hs => ⟨hs.1, hs.2.1⟩, fun hs => ⟨hs.1, hs.2, h.clear⟩⟩

theorem skip {piece rest : List Char} (h : Stands rules source before (piece ++ rest))
    (hquiet : Quiet rules source (byteLength before) (byteLength before + byteLength piece)) :
    Stands rules source (piece.reverse ++ before) rest := by
  refine ⟨by simpa using h.text, fun p hp hscanned stop hstop => ?_⟩
  rw [byteLength_reverse_append] at hp ⊢
  by_cases hlt : p < byteLength before
  · have := h.clear p hlt hscanned stop hstop
    omega
  · exact absurd hscanned (hquiet p (by omega) hp)

theorem quiet_char {c : Char} {cs : List Char} (h : Stands rules source before (c :: cs))
    (htoken : token? rules before.head? (c :: cs) = none) :
    Quiet rules source (byteLength before) (byteLength before + byteLength [c]) := by
  intro p hle hlt hscanned
  rw [Scanned] at hscanned
  have htok := hscanned.1
  rcases Nat.eq_or_lt_of_le hle with rfl | hgt
  · rw [← h.text] at htok
    obtain ⟨blanks, rest, hsome⟩ := isToken_iff.1 htok
    simp [htoken] at hsome
  · -- a token does not start inside a character
    obtain ⟨_, front, blanks, rest, heq, _, _, rfl, _⟩ := htok
    rw [← h.text] at heq
    obtain ⟨m, rfl, hm⟩ := exists_eq_append_of_byteLength_le heq (by simpa using hle)
    cases m with
    | nil => simp at hgt
    | cons d m =>
      obtain ⟨rfl, _⟩ := List.cons.inj hm
      rw [byteLength_append, byteLength_reverse, byteLength_cons, byteLength_cons,
        byteLength_nil] at hlt
      omega

theorem quiet_commented {blanks rest : List Char} (h : Stands rules source before after)
    (htoken : token? rules before.head? after = some (blanks, rest))
    (hcomment : Source.commented before = true) :
    Quiet rules source (byteLength before)
      (byteLength before + byteLength (tokenText rules blanks)) := by
  intro p hle hlt hscanned
  rcases Nat.eq_or_lt_of_le hle with rfl | hgt
  · rw [h.scanned_iff, hcomment] at hscanned
    exact absurd hscanned.2 (by decide)
  · rw [Scanned] at hscanned
    obtain ⟨opening, hat⟩ := hscanned.1
    rw [← h.text] at hat
    have hopening := (tokenAt_iff.2 ⟨blanks, rest, htoken, rfl⟩).opening_lt_of_lt hat hgt
    have hparen : byteLength ['('] = 1 := by decide
    simp only [tokenText, byteLength_append, hparen] at hlt hopening
    omega

theorem char {c : Char} {cs : List Char} (h : Stands rules source before (c :: cs))
    (htoken : token? rules before.head? (c :: cs) = none) :
    Stands rules source (c :: before) cs := by
  have hskip : Stands rules source ([c].reverse ++ before) cs := h.skip (h.quiet_char htoken)
  simpa using hskip

theorem commented {blanks rest : List Char} (h : Stands rules source before after)
    (htoken : token? rules before.head? after = some (blanks, rest))
    (hcomment : Source.commented before = true) :
    Stands rules source ((tokenText rules blanks).reverse ++ before) rest := by
  have hquiet := h.quiet_commented htoken hcomment
  rw [eq_append_of_token? htoken] at h
  exact h.skip hquiet

theorem scanned (h : Stands rules source before after) {blanks rest : List Char}
    (htoken : token? rules before.head? after = some (blanks, rest))
    (hcomment : Source.commented before = false) : Scanned rules source (byteLength before) := by
  rw [h.scanned_iff, ← h.text]
  exact ⟨isToken_iff.2 ⟨blanks, rest, htoken⟩, hcomment⟩

theorem callSpan (h : Stands rules source before after) {blanks rest span afterSpan : List Char}
    (htoken : token? rules before.head? after = some (blanks, rest))
    (hspan : span? ('(' :: rest) = some (span, afterSpan)) :
    CallSpan rules source (byteLength before)
      (byteLength before + byteLength (callHead rules ++ (blanks ++ span))) := by
  rw [← h.text]
  exact callSpan_iff.2 ⟨blanks, rest, span, afterSpan, htoken, hspan, rfl⟩

/-- Inside the call of a scanned token nothing is scanned. -/
theorem quiet_call {p stop : Nat} (hscanned : Scanned rules source p)
    (hspan : CallSpan rules source p stop) : Quiet rules source (p + 1) stop := by
  intro q hle hlt hq
  rw [Scanned] at hq
  have := hq.2.2 p (by omega) hscanned stop hspan
  omega

theorem call (h : Stands rules source before after) {blanks rest span afterSpan : List Char}
    (htoken : token? rules before.head? after = some (blanks, rest))
    (hcomment : Source.commented before = false)
    (hspan : span? ('(' :: rest) = some (span, afterSpan)) :
    Stands rules source ((callHead rules ++ (blanks ++ span)).reverse ++ before) afterSpan := by
  have hscanned := h.scanned htoken hcomment
  have hcall := h.callSpan htoken hspan
  refine ⟨?_, fun p hp hp' stop hstop => ?_⟩
  · rw [← h.text, eq_append_of_token?_of_span? htoken hspan]
    simp
  · rw [byteLength_reverse_append] at hp ⊢
    rcases Nat.lt_trichotomy p (byteLength before) with hlt | rfl | hgt
    · have := h.clear p hlt hp' stop hstop
      omega
    · rw [hstop.unique hcall]
    · exact absurd hp' (quiet_call hscanned hcall p hgt hp)

theorem quiet_done (h : Stands rules source before []) {p : Nat} (hle : byteLength before ≤ p) :
    ¬Scanned rules source p := by
  intro hscanned
  rw [Scanned] at hscanned
  have hlt := hscanned.1.lt_byteLength
  rw [← h.text] at hlt
  simp at hlt
  omega

end Stands

theorem Quiet.ahead_iff {start stop p : Nat} (h : Quiet rules source start stop)
    (hle : start ≤ stop) :
    start ≤ p ∧ Scanned rules source p ↔ stop ≤ p ∧ Scanned rules source p := by
  constructor
  · rintro ⟨hstart, hp⟩
    refine ⟨?_, hp⟩
    by_contra hlt
    exact h p hstart (by omega) hp
  · rintro ⟨hstop, hp⟩
    exact ⟨by omega, hp⟩

namespace Stands

variable {blanks rest span afterSpan : List Char} {p : Nat}

theorem ahead_char {c : Char} {cs : List Char} (h : Stands rules source before (c :: cs))
    (htoken : token? rules before.head? (c :: cs) = none) :
    byteLength before ≤ p ∧ Scanned rules source p ↔
      byteLength (c :: before) ≤ p ∧ Scanned rules source p := by
  rw [(h.quiet_char htoken).ahead_iff (by omega), byteLength_cons, byteLength_cons, byteLength_nil,
    Nat.add_zero, Nat.add_comm]

theorem ahead_commented (h : Stands rules source before after)
    (htoken : token? rules before.head? after = some (blanks, rest))
    (hcomment : Source.commented before = true) :
    byteLength before ≤ p ∧ Scanned rules source p ↔
      byteLength ((tokenText rules blanks).reverse ++ before) ≤ p ∧ Scanned rules source p := by
  rw [(h.quiet_commented htoken hcomment).ahead_iff (by omega), byteLength_reverse_append]

theorem ahead_call (h : Stands rules source before after)
    (htoken : token? rules before.head? after = some (blanks, rest))
    (hcomment : Source.commented before = false)
    (hspan : span? ('(' :: rest) = some (span, afterSpan)) :
    byteLength before ≤ p ∧ Scanned rules source p ↔
      p = byteLength before ∨
        byteLength ((callHead rules ++ (blanks ++ span)).reverse ++ before) ≤ p ∧
          Scanned rules source p := by
  have hscanned := h.scanned htoken hcomment
  have hcall := h.callSpan htoken hspan
  have hlt := hcall.start_lt_stop
  rw [byteLength_reverse_append, ← (quiet_call hscanned hcall).ahead_iff (p := p) hlt]
  constructor
  · rintro ⟨hle, hp⟩
    rcases Nat.eq_or_lt_of_le hle with heq | hgt
    · exact .inl heq.symm
    · exact .inr ⟨hgt, hp⟩
  · rintro (rfl | ⟨hle, hp⟩)
    · exact ⟨Nat.le_refl _, hscanned⟩
    · exact ⟨by omega, hp⟩

end Stands

namespace Reads

variable {boundary : Nat} {cut : Cut}

/-- The offsets of the lifted calls that a reader comes to are the scanned tokens ahead of it, up
to the test region. -/
theorem mem_offsets_iff (h : Reads rules boundary before after cut) (hok : cut.failure = none)
    (hstands : Stands rules source before after) (keywords : Keywords) (place : Place)
    (hplace : place.offset = byteLength before) (p : Nat) :
    p ∈ (liftedCalls rules keywords place cut.pieces).map (·.offset) ↔
      (byteLength before ≤ p ∧ Scanned rules source p) ∧ p < boundary := by
  induction h generalizing place with
  | done =>
    simp only [liftedCalls, List.map_nil, List.not_mem_nil, false_iff]
    rintro ⟨⟨hle, hscanned⟩, _⟩
    exact hstands.quiet_done hle hscanned
  | @char before cs c cut htoken _ ih =>
    rw [Cut.cons_pieces, liftedCalls_char, hstands.ahead_char htoken]
    exact ih hok (hstands.char htoken) _ (offset_after hplace [c])
  | @commented before after blanks rest cut htoken hcomment _ ih =>
    rw [Cut.cons_pieces, liftedCalls_commented, hstands.ahead_commented htoken hcomment]
    exact ih hok (hstands.commented htoken hcomment) _ (offset_after hplace _)
  | unterminated => simp at hok
  | @exempt before after blanks rest span afterSpan cut htoken hcomment hspan hle _ ih =>
    rw [Cut.cons_pieces, liftedCalls_exempt, hstands.ahead_call htoken hcomment hspan,
      ih hok (hstands.call htoken hcomment hspan) _ (offset_after hplace _)]
    constructor
    · rintro ⟨hahead, hp⟩
      exact ⟨.inr hahead, hp⟩
    · rintro ⟨rfl | hahead, hp⟩
      · omega
      · exact ⟨hahead, hp⟩
  | @call before after blanks rest span afterSpan cut htoken hcomment hspan hlt _ ih =>
    rw [Cut.cons_pieces, liftedCalls_call, List.map_cons, List.mem_cons,
      hstands.ahead_call htoken hcomment hspan,
      ih hok (hstands.call htoken hcomment hspan) _ (offset_after hplace _)]
    constructor
    · rintro (rfl | ⟨hahead, hp⟩)
      · exact ⟨.inl hplace, by rwa [hplace]⟩
      · exact ⟨.inr hahead, hp⟩
    · rintro ⟨rfl | hahead, hp⟩
      · exact .inl hplace.symm
      · exact .inr ⟨hahead, hp⟩

theorem closes (h : Reads rules boundary before after cut) (hok : cut.failure = none)
    (hstands : Stands rules source before after) {p : Nat}
    (hp : byteLength before ≤ p ∧ Scanned rules source p) : Closes rules source p := by
  induction h with
  | done => exact absurd hp.2 (hstands.quiet_done hp.1)
  | char htoken _ ih =>
    rw [hstands.ahead_char htoken] at hp
    exact ih hok (hstands.char htoken) hp
  | commented htoken hcomment _ ih =>
    rw [hstands.ahead_commented htoken hcomment] at hp
    exact ih hok (hstands.commented htoken hcomment) hp
  | unterminated => simp at hok
  | exempt htoken hcomment hspan _ _ ih | call htoken hcomment hspan _ _ ih =>
    rw [hstands.ahead_call htoken hcomment hspan] at hp
    rcases hp with rfl | hp
    · exact ⟨_, hstands.callSpan htoken hspan⟩
    · exact ih hok (hstands.call htoken hcomment hspan) hp

/-- A reader fails at the first scanned token ahead whose parenthesis never closes. -/
theorem exists_unclosed (h : Reads rules boundary before after cut) {error : SpanError}
    (hfail : cut.failure = some error) (hstands : Stands rules source before after) :
    ∃ start opening, error = .unterminated start opening ∧ TokenAt rules source start opening ∧
      Scanned rules source start ∧ ¬Closes rules source start ∧
      ∀ p < start, byteLength before ≤ p ∧ Scanned rules source p → Closes rules source p := by
  induction h with
  | done => simp at hfail
  | char htoken _ ih =>
    simp only [hstands.ahead_char htoken]
    exact ih hfail (hstands.char htoken)
  | commented htoken hcomment _ ih =>
    simp only [hstands.ahead_commented htoken hcomment]
    exact ih hfail (hstands.commented htoken hcomment)
  | @unterminated before after blanks rest htoken hcomment hspan =>
    refine ⟨_, _, (Option.some.inj hfail).symm, ?_, hstands.scanned htoken hcomment, ?_, ?_⟩
    · rw [← hstands.text]
      exact tokenAt_iff.2 ⟨blanks, rest, htoken, rfl⟩
    · rintro ⟨stop, hstop⟩
      rw [← hstands.text] at hstop
      obtain ⟨blanks', rest', span, afterSpan, htoken', hspan', _⟩ := callSpan_iff.1 hstop
      rw [htoken] at htoken'
      obtain ⟨rfl, rfl⟩ := Prod.mk.inj (Option.some.inj htoken')
      simp [hspan] at hspan'
    · intro p hlt hp
      omega
  | exempt htoken hcomment hspan _ _ ih | call htoken hcomment hspan _ _ ih =>
    obtain ⟨start, opening, herror, htok, hscanned, hopen, hfirst⟩ :=
      ih hfail (hstands.call htoken hcomment hspan)
    refine ⟨start, opening, herror, htok, hscanned, hopen, fun p hlt hp => ?_⟩
    rw [hstands.ahead_call htoken hcomment hspan] at hp
    rcases hp with rfl | hp
    · exact ⟨_, hstands.callSpan htoken hspan⟩
    · exact hfirst p hlt hp

end Reads

/-- A text is read to its end when every scanned token's call closes. -/
theorem cut_failure_eq_none_iff :
    (cut rules source).failure = none ↔
      ∀ p, Scanned rules source p → Closes rules source p := by
  have hreads := reads_cut rules source
  constructor
  · intro hok p hp
    exact hreads.closes hok (.start rules source) ⟨Nat.zero_le p, hp⟩
  · intro hcloses
    cases hfail : (cut rules source).failure with
    | none => rfl
    | some error =>
      obtain ⟨start, _, _, _, hscanned, hopen, _⟩ :=
        hreads.exists_unclosed hfail (.start rules source)
      exact absurd (hcloses start hscanned) hopen

/-- The lifted calls are the scanned tokens before the test region, in order and each once. -/
theorem mem_lifted_offsets_iff {keywords : Keywords} {r : Lifting}
    (h : lift rules keywords source = .ok r) :
    (r.calls.map (·.offset)).Pairwise (· < ·) ∧
      ∀ p, p ∈ r.calls.map (·.offset) ↔ Scanned rules source p ∧ p < testOffset source := by
  obtain ⟨hok, rfl⟩ := lift_eq_ok_iff.1 h
  have hreads := reads_cut rules source
  constructor
  · obtain ⟨patches, hcalls, htext⟩ := hreads.patched hok keywords .start rfl
    exact pairwise_offset hcalls (ordered_of_patched? htext).2
  · intro p
    have hmem := hreads.mem_offsets_iff hok (.start rules source) keywords .start rfl p
    simpa [liftPieces] using hmem

end

/-- A call inside another call, a commented one and one in the test region: none of them is
lifted. -/
theorem mem_lifted_offsets_iff_nested :
    lift .default .default
        "println!(println!(1)); // println!(2)\n#[cfg(test)] println!(3)".toList =
      .ok ⟨"log::debug!(println!(1)); // println!(2)\n#[cfg(test)] println!(3)".toList,
        [⟨0, 1, .debug, false⟩]⟩ ∧
    [0].Pairwise (· < ·) ∧
    ∀ p, p ∈ [0] ↔
      Scanned .default "println!(println!(1)); // println!(2)\n#[cfg(test)] println!(3)".toList p ∧
        p < testOffset
          "println!(println!(1)); // println!(2)\n#[cfg(test)] println!(3)".toList := by
  have h : lift .default .default
      "println!(println!(1)); // println!(2)\n#[cfg(test)] println!(3)".toList =
      .ok ⟨"log::debug!(println!(1)); // println!(2)\n#[cfg(test)] println!(3)".toList,
        [⟨0, 1, .debug, false⟩]⟩ := lift_eq_ok_iff.2 ⟨by decide +kernel, by decide +kernel⟩
  exact ⟨h, mem_lifted_offsets_iff h⟩

end LogLift.Document
