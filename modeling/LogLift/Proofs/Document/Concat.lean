import LogLift.Proofs.Document.Failure
import LogLift.Proofs.Source.TestMarker

/-! Lifting a text in two parts.  Behind full lines a reader works as at the start of a text, with
its offsets moved; and it reads full lines as if nothing followed them, as long as no token and no
test marker reaches over the seam.  So the two parts can be lifted on their own. -/

namespace LogLift.Source

open LogLift.Text

def SpanError.shifted (bytes : Nat) : SpanError → SpanError
  | .unterminated start opening => .unterminated (bytes + start) (bytes + opening)
  | .notAnOpening offset => .notAnOpening (bytes + offset)

/-- Full lines, or nothing. -/
def FullLines (cs : List Char) : Prop := cs = [] ∨ cs.getLast? = some '\n'

namespace FullLines

variable {cs : List Char}

theorem wordMayStart (h : FullLines cs) : wordMayStart cs.getLast? = true := by
  rcases h with rfl | h
  · rfl
  · rw [h]
    decide

theorem takeWhile_reverse (h : FullLines cs) : cs.reverse.takeWhile (· != '\n') = [] := by
  rcases h with rfl | h
  · rfl
  · obtain ⟨init, rfl⟩ := List.getLast?_eq_some_iff.1 h
    simp

theorem commented_append (h : FullLines cs) (before : List Char) :
    commented (before ++ cs.reverse) = commented before := by
  have hlast : lastLine (before ++ cs.reverse) = lastLine before := by
    rw [lastLine, lastLine, List.takeWhile_append, h.takeWhile_reverse]
    split
    · rename_i hlen
      rw [List.append_nil, (List.takeWhile_prefix _).eq_of_length hlen]
    · rfl
  rw [commented, commented, hlast]

theorem wordMayStart_head? (h : FullLines cs) (before : List Char) :
    Text.wordMayStart (before ++ cs.reverse).head? = Text.wordMayStart before.head? := by
  cases before with
  | nil =>
    rw [List.nil_append, List.head?_reverse, h.wordMayStart]
    rfl
  | cons c before => rfl

end FullLines

end LogLift.Source

namespace LogLift.Document

open LogLift.Text LogLift.Source LogLift.Message

def Cut.shifted (bytes : Nat) (cut : Cut) : Cut :=
  { cut with failure := cut.failure.map (·.shifted bytes) }

def Cut.append (a b : Cut) : Cut := ⟨a.pieces ++ b.pieces, b.failure⟩

def LiftedCall.shifted (bytes lines : Nat) (call : LiftedCall) : LiftedCall :=
  { call with offset := bytes + call.offset, line := lines + call.line }

theorem Cut.shifted_cons (bytes : Nat) (piece : Piece) (cut : Cut) :
    (cut.cons piece).shifted bytes = (cut.shifted bytes).cons piece := rfl

theorem Cut.append_cons (piece : Piece) (a b : Cut) :
    (a.cons piece).append b = (a.append b).cons piece := rfl

/-! ### Behind full lines -/

theorem token?_of_wordMayStart_eq {rules : Rules} {previous previous' : Option Char}
    (h : wordMayStart previous = wordMayStart previous') (cs : List Char) :
    token? rules previous cs = token? rules previous' cs := by
  rw [token?, token?, h]

/-- A reader that has full lines behind it reads on as one that has not. -/
theorem Reads.shifted {rules : Rules} {boundary : Nat} {before after : List Char} {cut : Cut}
    (h : Reads rules boundary before after cut) {lines : List Char} (hlines : FullLines lines) :
    Reads rules (byteLength lines + boundary) (before ++ lines.reverse) after
      (cut.shifted (byteLength lines)) := by
  have hcomment := hlines.commented_append
  have htoken : ∀ before after, token? rules (before ++ lines.reverse).head? after =
      token? rules before.head? after := fun before =>
    token?_of_wordMayStart_eq (hlines.wordMayStart_head? before)
  have hlen : ∀ before, byteLength (before ++ lines.reverse) =
      byteLength lines + byteLength before := by
    intro before
    rw [byteLength_append, byteLength_reverse, Nat.add_comm]
  induction h with
  | done => exact .done
  | char hnone _ ih =>
    rw [Cut.shifted_cons]
    exact .char (by rw [htoken, hnone]) ih
  | commented hsome hcom _ ih =>
    rw [Cut.shifted_cons]
    refine .commented (by rw [htoken, hsome]) (by rw [hcomment, hcom]) ?_
    simpa using ih
  | @unterminated before after blanks rest hsome hcode hspan =>
    have hreads : Reads rules (byteLength lines + boundary) (before ++ lines.reverse) after _ :=
      .unterminated (by rw [htoken, hsome]) (by rw [hcomment, hcode]) hspan
    simpa [hlen, Cut.shifted, SpanError.shifted, Nat.add_assoc] using hreads
  | exempt hsome hcode hspan hle _ ih =>
    rw [Cut.shifted_cons]
    refine .exempt (by rw [htoken, hsome]) (by rw [hcomment, hcode]) hspan ?_ ?_
    · rw [hlen]
      omega
    · simpa using ih
  | call hsome hcode hspan hlt _ ih =>
    rw [Cut.shifted_cons]
    refine .call (by rw [htoken, hsome]) (by rw [hcomment, hcode]) hspan ?_ ?_
    · rw [hlen]
      omega
    · simpa using ih

/-! ### Before the seam -/

/-- No token of `source` that starts before byte `seam` ends after it. -/
def NoTokenOver (rules : Rules) (source : List Char) (seam : Nat) : Prop :=
  ∀ start opening, TokenAt rules source start opening → start < seam → opening < seam

theorem TokenAt.append {rules : Rules} {a : List Char} {start opening : Nat}
    (h : TokenAt rules a start opening) (b : List Char) :
    TokenAt rules (a ++ b) start opening := by
  obtain ⟨before, blanks, rest, rfl, hword, hblank, hstart, hopening⟩ := h
  exact ⟨before, blanks, rest ++ b, by simp, hword, hblank, hstart, hopening⟩

theorem TokenAt.opening_lt_byteLength {rules : Rules} {source : List Char} {start opening : Nat}
    (h : TokenAt rules source start opening) : opening < byteLength source := by
  obtain ⟨before, blanks, rest, rfl, _, _, rfl, rfl⟩ := h
  have hpos : 0 < byteLength ('(' :: rest) := byteLength_pos (by simp)
  simp only [byteLength_append]
  omega

/-- No token reaches over a seam when those that start before it are tokens of the first part. -/
theorem noTokenOver_iff {rules : Rules} {a b : List Char} :
    NoTokenOver rules (a ++ b) (byteLength a) ↔
      ∀ p ∈ tokens rules (a ++ b), p < byteLength a → p ∈ tokens rules a := by
  simp only [mem_tokens_iff]
  constructor
  · rintro hseam p ⟨opening, htoken⟩ hlt
    have hopening := hseam p opening htoken hlt
    obtain ⟨before, blanks, rest, heq, hword, hblank, rfl, rfl⟩ := htoken
    have hcut : (before ++ (callHead rules ++ blanks)) ++ '(' :: rest = a ++ b := by
      simp [heq]
    rw [← byteLength_append] at hopening
    obtain ⟨m, rfl, hm⟩ := exists_eq_append_of_byteLength_le hcut (Nat.le_of_lt hopening)
    cases m with
    | nil => simp at hopening
    | cons c m =>
      obtain ⟨rfl, _⟩ := List.cons.inj hm
      exact ⟨_, before, blanks, m, by simp, hword, hblank, rfl, rfl⟩
  · intro hall start opening htoken hlt
    obtain ⟨opening', htoken'⟩ := hall start ⟨opening, htoken⟩ hlt
    obtain rfl := htoken.unique (htoken'.append b)
    exact htoken'.opening_lt_byteLength

section

variable {rules : Rules} {before after rest : List Char}

theorem byteLength_lt_of_ne_nil {lines : List Char} (htext : before.reverse ++ after = lines)
    (hne : after ≠ []) : byteLength before < byteLength lines := by
  have hpos := byteLength_pos hne
  rw [← htext, byteLength_append, byteLength_reverse]
  omega

theorem token?_append_of_some {previous : Option Char} {blanks tail : List Char}
    (h : token? rules previous after = some (blanks, tail)) (rest : List Char) :
    token? rules previous (after ++ rest) = some (blanks, tail ++ rest) := by
  obtain ⟨hword, hblank, rfl⟩ := token?_eq_some_iff.1 h
  exact token?_eq_some_iff.2 ⟨hword, hblank, by simp⟩

theorem token?_append_of_none {lines : List Char} (htext : before.reverse ++ after = lines)
    (hne : after ≠ []) (hseam : NoTokenOver rules (lines ++ rest) (byteLength lines))
    (h : token? rules before.head? after = none) :
    token? rules before.head? (after ++ rest) = none := by
  rw [Option.eq_none_iff_forall_ne_some]
  rintro ⟨blanks, tail⟩ hsome
  have hlt := byteLength_lt_of_ne_nil htext hne
  -- a token here would be one of the lines, where the reader found none
  have htoken := isToken_iff.2 ⟨blanks, tail, hsome⟩
  rw [← List.append_assoc, htext] at htoken
  have hlines := mem_tokens_iff.1 (noTokenOver_iff.1 hseam _ (mem_tokens_iff.2 htoken) hlt)
  rw [← htext] at hlines
  obtain ⟨_, _, hsome'⟩ := isToken_iff.1 hlines
  simp [h] at hsome'

theorem span?_append_of_some {cs span afterSpan : List Char}
    (h : span? cs = some (span, afterSpan)) (rest : List Char) :
    span? (cs ++ rest) = some (span, afterSpan ++ rest) := by
  rw [span?_append h, List.append_assoc]
  exact spanFrom?_append_of_some h _

/-- What a reader finds in full lines is the same with the rest and without it. -/
theorem Reads.append {boundary boundary' : Nat} {cut cut' : Cut} {lines : List Char}
    (h : Reads rules boundary before after cut) (hok : cut.failure = none)
    (htext : before.reverse ++ after = lines) (h' : Reads rules boundary' lines.reverse rest cut')
    (hle : byteLength lines ≤ boundary) (hle' : byteLength lines ≤ boundary')
    (hseam : NoTokenOver rules (lines ++ rest) (byteLength lines)) :
    Reads rules boundary' before (after ++ rest) (cut.append cut') := by
  induction h with
  | done =>
    subst htext
    simpa [Cut.append] using h'
  | char hnone _ ih =>
    rw [Cut.append_cons]
    refine .char (token?_append_of_none htext (by simp) hseam hnone) (ih hok ?_)
    simpa using htext
  | commented hsome hcomment _ ih =>
    rw [eq_append_of_token? hsome] at htext
    rw [Cut.append_cons]
    refine .commented (token?_append_of_some hsome rest) hcomment (ih hok ?_)
    simpa using htext
  | unterminated => simp at hok
  | exempt hsome _ _ hexempt _ _ =>
    -- the test region starts after the lines
    have := byteLength_lt_of_ne_nil htext (ne_nil_of_token? hsome)
    omega
  | call hsome hcode hspan _ _ ih =>
    have hlt := byteLength_lt_of_ne_nil htext (ne_nil_of_token? hsome)
    rw [eq_append_of_token?_of_span? hsome hspan] at htext
    rw [Cut.append_cons]
    refine .call (token?_append_of_some hsome rest) hcode (span?_append_of_some hspan rest)
      (by omega) (ih hok ?_)
    simpa using htext

end

/-! ### Both parts -/

/-- No test marker of `source` that starts before byte `seam` ends after it. -/
def NoMarkerOver (source : List Char) (seam : Nat) : Prop :=
  ∀ start stop, MarkerAt source start stop → start < seam → stop ≤ seam

theorem testOffset_append {a b : List Char} (hline : FullLines a)
    (hmarker : ∀ start stop, ¬MarkerAt a start stop) (hseam : NoMarkerOver (a ++ b) (byteLength a)) :
    testOffset (a ++ b) = byteLength a + testOffset b := by
  rw [testOffset, testOffsetFrom_append, testOffset]
  · rw [lastChar_none]
    exact congrArg _ (testOffsetFrom_congr hline.wordMayStart b)
  · intro x w hw hne
    rw [← Bool.not_eq_true, startsTestMarker_iff, lastChar_none]
    rintro ⟨text, htext, after, hafter⟩
    have hpos := byteLength_pos hne
    have hlen : byteLength a = byteLength x + byteLength w := by rw [hw, byteLength_append]
    have hstop := hseam _ _ ⟨x, text, after, by rw [hw, hafter, List.append_assoc], htext, rfl, rfl⟩
      (by omega)
    obtain ⟨m, rfl, _⟩ := exists_eq_append_of_byteLength_le hafter (by omega)
    exact hmarker _ _ ⟨x, text, m, hw, htext, rfl, rfl⟩

theorem noMarkerOver_of_le {source : List Char} {seam : Nat} (h : seam ≤ testOffset source) :
    NoMarkerOver source seam := by
  intro start stop hmarker hlt
  have := testOffsetFrom_le hmarker.occurs
  rw [testOffset] at h
  omega

theorem cut_append {rules : Rules} {a b : List Char} (hline : FullLines a)
    (hmarker : ∀ start stop, ¬MarkerAt a start stop)
    (htoken : NoTokenOver rules (a ++ b) (byteLength a))
    (hseam : NoMarkerOver (a ++ b) (byteLength a)) (hok : (cut rules a).failure = none) :
    cut rules (a ++ b) = (cut rules a).append ((cut rules b).shifted (byteLength a)) := by
  have hreads := (reads_cut rules b).shifted hline
  rw [List.nil_append, ← testOffset_append hline hmarker hseam] at hreads
  refine ((reads_cut rules a).append hok rfl hreads ?_ ?_ htoken).eq_cutFrom
  · rw [List.reverse_nil, List.nil_append, testOffset_eq_byteLength_iff.2 hmarker]
  · rw [List.reverse_nil, List.nil_append, testOffset_append hline hmarker hseam]
    omega

section

variable (rules : Rules) (keywords : Keywords)

theorem liftedCalls_shifted (bytes lines : Nat) (place : Place) (pieces : List Piece) :
    liftedCalls rules keywords ⟨bytes + place.offset, lines + place.line⟩ pieces =
      (liftedCalls rules keywords place pieces).map (·.shifted bytes lines) := by
  induction pieces generalizing place with
  | nil => rfl
  | cons piece pieces ih =>
    have hplace : Place.after ⟨bytes + place.offset, lines + place.line⟩ (piece.source rules) =
        ⟨bytes + (place.after (piece.source rules)).offset,
          lines + (place.after (piece.source rules)).line⟩ := by
      simp [Place.after, Nat.add_assoc]
    cases piece with
    | char c | commented blanks | exempt body =>
      simp only [liftedCalls]
      rw [hplace, ih]
    | call body =>
      simp only [liftedCalls, List.map_cons]
      rw [hplace, ih]
      rfl

end

/-- Full lines without a test marker are lifted apart from what follows them, as long as no token
and no test marker reaches over the seam.  Calls and errors of the second part move by the bytes and
the lines of the first. -/
theorem lift_append {rules : Rules} {keywords : Keywords} {a b : List Char} {ra : Lifting}
    (hline : FullLines a) (hmarker : ∀ start stop, ¬MarkerAt a start stop)
    (htoken : NoTokenOver rules (a ++ b) (byteLength a))
    (hseam : NoMarkerOver (a ++ b) (byteLength a)) (ha : lift rules keywords a = .ok ra) :
    (∀ rb, lift rules keywords b = .ok rb →
      lift rules keywords (a ++ b) = .ok ⟨ra.text ++ rb.text,
        ra.calls ++ rb.calls.map (·.shifted (byteLength a) (lineFeeds a))⟩) ∧
    ∀ start opening, lift rules keywords b = .error (.unterminated start opening) →
      lift rules keywords (a ++ b) =
        .error (.unterminated (byteLength a + start) (byteLength a + opening)) := by
  obtain ⟨hok, rfl⟩ := lift_eq_ok_iff.1 ha
  have hcut := cut_append hline hmarker htoken hseam hok
  constructor
  · intro rb hb
    obtain ⟨hok', rfl⟩ := lift_eq_ok_iff.1 hb
    refine lift_eq_ok_iff.2 ⟨by simp [hcut, Cut.append, Cut.shifted, hok'], ?_⟩
    have htext := (reads_cut rules a).flatMap_source hok
    have hcalls := liftedCalls_append rules keywords .start
      (cut rules a).pieces (cut rules b).pieces
    have hshifted := liftedCalls_shifted rules keywords (byteLength a)
      (lineFeeds a) .start (cut rules b).pieces
    rw [htext] at hcalls
    simp only [liftPieces, hcut, Cut.append, Cut.shifted, List.flatMap_append]
    rw [hcalls, ← hshifted]
    simp [Place.after, Place.start, Nat.add_comm]
  · intro start opening hb
    rw [lift_eq_error_iff_failure] at hb ⊢
    simp [hcut, Cut.append, Cut.shifted, hb, SpanError.shifted]

/-- A first part that ends in a comment, before a tagged call with a test module and before a call
that never closes. -/
theorem lift_append_commented :
    lift .default .default ("println!(\"a\"); // b\n".toList ++
        "println!(\"[B] b\");\nmod tests \x7b\x7d".toList) =
      .ok ⟨"log::debug!(\"a\"); // b\n".toList ++
          "log::debug!(\"b\");\nmod tests \x7b\x7d".toList,
        [⟨0, 1, .debug, false⟩, ⟨20, 2, .debug, true⟩]⟩ ∧
    lift .default .default ("println!(\"a\"); // b\n".toList ++ "println!(\"".toList) =
      .error (.unterminated 20 28) := by
  have hline : FullLines "println!(\"a\"); // b\n".toList := .inr (by decide)
  have hmarker := testOffset_eq_byteLength_iff.1
    (by decide +kernel : testOffset "println!(\"a\"); // b\n".toList =
      byteLength "println!(\"a\"); // b\n".toList)
  have ha : lift .default .default "println!(\"a\"); // b\n".toList =
      .ok ⟨"log::debug!(\"a\"); // b\n".toList, [⟨0, 1, .debug, false⟩]⟩ :=
    lift_eq_ok_iff.2 ⟨by decide +kernel, by decide +kernel⟩
  have hb : lift .default .default "println!(\"[B] b\");\nmod tests \x7b\x7d".toList =
      .ok ⟨"log::debug!(\"b\");\nmod tests \x7b\x7d".toList, [⟨0, 1, .debug, true⟩]⟩ :=
    lift_eq_ok_iff.2 ⟨by decide +kernel, by decide +kernel⟩
  have hc : lift .default .default "println!(\"".toList = .error (.unterminated 0 8) :=
    lift_eq_error_iff_failure.2 (by decide +kernel)
  have hok := (lift_append hline hmarker (noTokenOver_iff.2 (by decide +kernel))
    (noMarkerOver_of_le (by decide +kernel)) ha).1 _ hb
  have herror := (lift_append hline hmarker (noTokenOver_iff.2 (by decide +kernel))
    (noMarkerOver_of_le (by decide +kernel)) ha).2 _ _ hc
  exact ⟨hok, herror⟩

end LogLift.Document
