import LogLift.Document.Lift
import LogLift.Proofs.Document.Token
import LogLift.Proofs.Source.Spans

/-! How a source text is read into pieces.  `Reads` has one rule for each thing that a reader can
come to; every statement about cutting or lifting a text is proved along these rules.  The pieces
concatenate to the text, and the pieces past the test region's start are copied. -/

namespace LogLift.Document

open LogLift.Text LogLift.Source LogLift.Message

/-- The reader that has read `before`, the last character first, cuts `after`. -/
inductive Reads (rules : Rules) (boundary : Nat) : (before after : List Char) → Cut → Prop
  | done {before : List Char} : Reads rules boundary before [] ⟨[], none⟩
  | char {before cs : List Char} {c : Char} {cut : Cut} :
      token? rules before.head? (c :: cs) = none →
      Reads rules boundary (c :: before) cs cut →
      Reads rules boundary before (c :: cs) (cut.cons (.char c))
  | commented {before after blanks rest : List Char} {cut : Cut} :
      token? rules before.head? after = some (blanks, rest) → commented before = true →
      Reads rules boundary ((tokenText rules blanks).reverse ++ before) rest cut →
      Reads rules boundary before after (cut.cons (.commented blanks))
  | unterminated {before after blanks rest : List Char} :
      token? rules before.head? after = some (blanks, rest) → commented before = false →
      span? ('(' :: rest) = none →
      Reads rules boundary before after ⟨[], some (.unterminated (byteLength before)
        (byteLength before + byteLength (callHead rules ++ blanks)))⟩
  | exempt {before after blanks rest span afterSpan : List Char} {cut : Cut} :
      token? rules before.head? after = some (blanks, rest) → commented before = false →
      span? ('(' :: rest) = some (span, afterSpan) → boundary ≤ byteLength before →
      Reads rules boundary ((callHead rules ++ (blanks ++ span)).reverse ++ before) afterSpan cut →
      Reads rules boundary before after (cut.cons (.exempt (blanks ++ span)))
  | call {before after blanks rest span afterSpan : List Char} {cut : Cut} :
      token? rules before.head? after = some (blanks, rest) → commented before = false →
      span? ('(' :: rest) = some (span, afterSpan) → byteLength before < boundary →
      Reads rules boundary ((callHead rules ++ (blanks ++ span)).reverse ++ before) afterSpan cut →
      Reads rules boundary before after (cut.cons (.call (blanks ++ span)))

@[simp] theorem Cut.cons_pieces (piece : Piece) (cut : Cut) :
    (cut.cons piece).pieces = piece :: cut.pieces := rfl

@[simp] theorem Cut.cons_failure (piece : Piece) (cut : Cut) :
    (cut.cons piece).failure = cut.failure := rfl

theorem reads_cutFrom (rules : Rules) (boundary : Nat) (before after : List Char) :
    Reads rules boundary before after (cutFrom rules boundary before after) := by
  fun_induction cutFrom rules boundary before after with
  | case1 before => exact .done
  | case2 before c cs htoken ih => exact .char htoken ih
  | case3 before c cs blanks rest htoken hcomment piece ih =>
    refine .commented htoken hcomment ?_
    simpa [piece, Piece.source, tokenText] using ih
  | case4 before c cs blanks rest htoken hcomment start hspan =>
    exact .unterminated htoken (by simpa using hcomment) hspan
  | case5 before c cs blanks rest htoken hcomment start span afterSpan hspan body piece ih =>
    by_cases hle : boundary ≤ start
    · have hpiece : piece = .exempt body := if_pos hle
      rw [hpiece] at ih ⊢
      exact .exempt htoken (by simpa using hcomment) hspan hle ih
    · have hpiece : piece = .call body := if_neg hle
      rw [hpiece] at ih ⊢
      exact .call htoken (by simpa using hcomment) hspan (by simpa [start] using hle) ih

theorem reads_cut (rules : Rules) (source : List Char) :
    Reads rules (testOffset source) [] source (cut rules source) :=
  reads_cutFrom rules (testOffset source) [] source

theorem lift_eq_ok_iff {rules : Rules} {keywords : Keywords} {source : List Char} {r : Lifting} :
    lift rules keywords source = .ok r ↔
      (cut rules source).failure = none ∧
        r = liftPieces rules keywords (cut rules source).pieces := by
  rw [lift]
  cases (cut rules source).failure with
  | none => simp [eq_comm]
  | some error => simp

theorem eq_append_of_token?_of_span? {rules : Rules} {previous : Option Char}
    {after blanks rest span afterSpan : List Char}
    (htoken : token? rules previous after = some (blanks, rest))
    (hspan : span? ('(' :: rest) = some (span, afterSpan)) :
    after = (callHead rules ++ (blanks ++ span)) ++ afterSpan := by
  rw [token?_append htoken, span?_append hspan]
  simp

theorem eq_append_of_token? {rules : Rules} {previous : Option Char}
    {after blanks rest : List Char} (htoken : token? rules previous after = some (blanks, rest)) :
    after = tokenText rules blanks ++ rest := by
  rw [token?_append htoken]
  simp [tokenText]

/-- The call whose token starts at byte `start` of `source` reaches to byte `stop`. -/
def CallSpan (rules : Rules) (source : List Char) (start stop : Nat) : Prop :=
  ∃ opening, TokenAt rules source start opening ∧ spanEnd source start opening = .ok stop

theorem CallSpan.unique {rules : Rules} {source : List Char} {start stop stop' : Nat}
    (h : CallSpan rules source start stop) (h' : CallSpan rules source start stop') :
    stop = stop' := by
  obtain ⟨opening, htoken, hend⟩ := h
  obtain ⟨opening', htoken', hend'⟩ := h'
  obtain rfl := htoken.unique htoken'
  rw [hend] at hend'
  exact Except.ok.inj hend'

theorem CallSpan.start_lt_stop {rules : Rules} {source : List Char} {start stop : Nat}
    (h : CallSpan rules source start stop) : start < stop := by
  obtain ⟨opening, htoken, hend⟩ := h
  obtain ⟨_, _, _, _, _, _, _, rfl⟩ := spanEnd_eq_ok_iff.1 hend
  have := htoken.start_lt_opening
  omega

theorem callSpan_iff {rules : Rules} {before after : List Char} {stop : Nat} :
    CallSpan rules (before.reverse ++ after) (byteLength before) stop ↔
      ∃ blanks rest span afterSpan, token? rules before.head? after = some (blanks, rest) ∧
        span? ('(' :: rest) = some (span, afterSpan) ∧
        byteLength before + byteLength (callHead rules ++ (blanks ++ span)) = stop := by
  have hcut : ∀ blanks rest, token? rules before.head? after = some (blanks, rest) →
      before.reverse ++ after = (before.reverse ++ (callHead rules ++ blanks)) ++ '(' :: rest := by
    intro blanks rest htoken
    rw [token?_append htoken]
    simp
  constructor
  · rintro ⟨opening, hat, hend⟩
    obtain ⟨blanks, rest, htoken, rfl⟩ := tokenAt_iff.1 hat
    obtain ⟨front, rest', span, afterSpan, heq, hlen, hspan, rfl⟩ := spanEnd_eq_ok_iff.1 hend
    rw [hcut blanks rest htoken] at heq
    obtain ⟨_, heq⟩ := append_inj_of_byteLength heq (by simp [hlen])
    rw [← heq] at hspan
    refine ⟨blanks, rest, span, afterSpan, htoken, hspan, ?_⟩
    simp only [byteLength_append]
    omega
  · rintro ⟨blanks, rest, span, afterSpan, htoken, hspan, rfl⟩
    refine ⟨_, tokenAt_iff.2 ⟨blanks, rest, htoken, rfl⟩, spanEnd_eq_ok_iff.2 ?_⟩
    refine ⟨_, rest, span, afterSpan, hcut blanks rest htoken, by simp, hspan, ?_⟩
    simp only [byteLength_append]
    omega

section

variable (rules : Rules) (keywords : Keywords)

@[simp] theorem Piece.source_char (c : Char) : (Piece.char c).source rules = [c] := rfl

@[simp] theorem Piece.source_commented (blanks : List Char) :
    (Piece.commented blanks).source rules = tokenText rules blanks := by
  simp [Piece.source, tokenText]

@[simp] theorem Piece.source_exempt (body : List Char) :
    (Piece.exempt body).source rules = callHead rules ++ body := rfl

@[simp] theorem Piece.source_call (body : List Char) :
    (Piece.call body).source rules = callHead rules ++ body := rfl

@[simp] theorem Piece.image_char (c : Char) : (Piece.char c).image rules keywords = [c] := rfl

@[simp] theorem Piece.image_commented (blanks : List Char) :
    (Piece.commented blanks).image rules keywords = tokenText rules blanks :=
  Piece.source_commented rules blanks

@[simp] theorem Piece.image_exempt (body : List Char) :
    (Piece.exempt body).image rules keywords = callHead rules ++ body := rfl

@[simp] theorem Piece.image_call (body : List Char) :
    (Piece.call body).image rules keywords =
      (rules.replacement (callLevel keywords body)).toList ++ untagged body := rfl

end

theorem ne_nil_of_token? {rules : Rules} {previous : Option Char} {after blanks rest : List Char}
    (h : token? rules previous after = some (blanks, rest)) : after ≠ [] := by
  rintro rfl
  simpa [callHead] using token?_append h

/-- What `cutFrom` does at a token. -/
theorem cutFrom_of_token? {rules : Rules} {boundary : Nat} {before after blanks rest : List Char}
    (h : token? rules before.head? after = some (blanks, rest)) :
    cutFrom rules boundary before after =
      if commented before then
        (cutFrom rules boundary ((tokenText rules blanks).reverse ++ before) rest).cons
          (.commented blanks)
      else
        match span? ('(' :: rest) with
        | none => ⟨[], some (.unterminated (byteLength before)
            (byteLength before + byteLength (callHead rules ++ blanks)))⟩
        | some (span, afterSpan) =>
          (cutFrom rules boundary ((callHead rules ++ (blanks ++ span)).reverse ++ before)
            afterSpan).cons
            (if boundary ≤ byteLength before then .exempt (blanks ++ span)
              else .call (blanks ++ span)) := by
  obtain ⟨c, cs, rfl⟩ := List.exists_cons_of_ne_nil (ne_nil_of_token? h)
  rw [cutFrom]
  split
  · rename_i hnone
    simp [hnone] at h
  · rename_i blanks' rest' hsome
    obtain ⟨rfl, rfl⟩ := Prod.mk.inj (Option.some.inj (h.symm.trans hsome))
    simp only [Piece.source_commented]
    split
    · rfl
    · split
      · rename_i hnone
        rw [hnone]
      · rename_i span afterSpan hsome'
        rw [hsome']
        dsimp only
        split <;> rfl

/-- A reader cuts a text in one way only. -/
theorem Reads.eq_cutFrom {rules : Rules} {boundary : Nat} {before after : List Char} {cut : Cut}
    (h : Reads rules boundary before after cut) : cutFrom rules boundary before after = cut := by
  induction h with
  | done => rw [cutFrom]
  | char htoken _ ih =>
    rw [cutFrom]
    split
    · rw [ih]
    · rename_i hsome
      simp [htoken] at hsome
  | commented htoken hcomment _ ih => rw [cutFrom_of_token? htoken, if_pos hcomment, ih]
  | unterminated htoken hcode hspan =>
    rw [cutFrom_of_token? htoken, hcode, hspan]
    rfl
  | exempt htoken hcode hspan hle _ ih =>
    rw [cutFrom_of_token? htoken, hcode, hspan]
    simp only [Bool.false_eq_true, if_false, if_pos hle, ih]
  | call htoken hcode hspan hlt _ ih =>
    rw [cutFrom_of_token? htoken, hcode, hspan]
    simp only [Bool.false_eq_true, if_false, if_neg (Nat.not_le.2 hlt), ih]

namespace Reads

variable {rules : Rules} {boundary : Nat} {before after : List Char} {cut : Cut}

/-- The pieces of a text that was read to its end concatenate to the text. -/
theorem flatMap_source (h : Reads rules boundary before after cut) (hok : cut.failure = none) :
    cut.pieces.flatMap (·.source rules) = after := by
  induction h with
  | done => rfl
  | char _ _ ih =>
    simp [ih hok]
  | commented htoken _ _ ih =>
    rw [eq_append_of_token? htoken]
    simp [ih hok]
  | unterminated => simp at hok
  | exempt htoken _ hspan _ _ ih | call htoken _ hspan _ _ ih =>
    rw [eq_append_of_token?_of_span? htoken hspan]
    simp [ih hok]

/-- From the test region's start on, nothing is lifted: every piece is copied. -/
theorem copied (h : Reads rules boundary before after cut) (hok : cut.failure = none)
    (hle : boundary ≤ byteLength before) (keywords : Keywords) :
    cut.pieces.flatMap (·.image rules keywords) = after ∧ ∀ body, .call body ∉ cut.pieces := by
  induction h with
  | done => exact ⟨rfl, by simp⟩
  | char _ _ ih =>
    obtain ⟨htext, hno⟩ := ih hok (by simp; omega)
    exact ⟨by simp [htext], by simpa using hno⟩
  | commented htoken _ _ ih =>
    obtain ⟨htext, hno⟩ := ih hok (by simp; omega)
    rw [eq_append_of_token? htoken]
    exact ⟨by simp [htext], by simpa using hno⟩
  | unterminated => simp at hok
  | exempt htoken _ hspan _ _ ih =>
    obtain ⟨htext, hno⟩ := ih hok (by simp; omega)
    rw [eq_append_of_token?_of_span? htoken hspan]
    exact ⟨by simp [htext], by simpa using hno⟩
  | call _ _ _ hlt _ _ => omega

end Reads

end LogLift.Document
