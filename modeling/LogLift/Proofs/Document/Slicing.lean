import LogLift.Proofs.Document.Loop

/-! The loop that lifts by offsets never cuts a text where it cannot be cut.  Each of its states is
that of a reader of pieces (`Follows`), who has read the text before the cursor and owes the rest
(`Owes`).  From such a state every turn has a result, and it moves the cursor on to another such
state or ends the loop with the answer of lifting by pieces. -/

namespace LogLift.Document

open LogLift.Text LogLift.Source LogLift.Message

/-! ### What is left to do -/

/-- Where a reader stands that has read `before`, the last character first. -/
def placeAfter (before : List Char) : Place := Place.start.after before.reverse

/-- With `out` and `calls` for what a reader has read, the rest of the text makes the lifting
complete. -/
structure Owes (rules : Rules) (keywords : Keywords) (source : List Char) (out : List UInt8)
    (calls : List LiftedCall) (before after : List Char) : Prop where
  failed : ∀ error, (cutFrom rules (testOffset source) before after).failure = some error →
    lift rules keywords source = .error error
  lifted : (cutFrom rules (testOffset source) before after).failure = none →
    ∃ r, lift rules keywords source = .ok r ∧
      utf8 r.text = out ++ utf8 ((cutFrom rules (testOffset source) before after).pieces.flatMap
        (·.image rules keywords)) ∧
      r.calls = calls ++ liftedCalls rules keywords (placeAfter before)
        (cutFrom rules (testOffset source) before after).pieces

theorem placeAfter_reverse_append (piece before : List Char) :
    placeAfter (piece.reverse ++ before) = (placeAfter before).after piece := by
  rw [placeAfter, List.reverse_append, List.reverse_reverse, Place.after_append]
  rfl

section

variable {rules : Rules} {keywords : Keywords} {source : List Char} {out : List UInt8}
  {calls : List LiftedCall} {before after : List Char}

theorem owes_start (rules : Rules) (keywords : Keywords) (source : List Char) :
    Owes rules keywords source [] [] [] source where
  failed error herror := by
    rw [lift, cut, herror]
  lifted hok := ⟨liftPieces rules keywords (cut rules source).pieces,
    lift_eq_ok_iff.2 ⟨hok, rfl⟩, rfl, rfl⟩

/-- A piece that was read is no longer owed. -/
theorem Owes.cons {piece : Piece} {rest : List Char}
    (h : Owes rules keywords source out calls before after)
    (hcut : cutFrom rules (testOffset source) before after =
      (cutFrom rules (testOffset source) ((piece.source rules).reverse ++ before) rest).cons piece) :
    Owes rules keywords source (out ++ utf8 (piece.image rules keywords))
      (calls ++ liftedCalls rules keywords (placeAfter before) [piece])
      ((piece.source rules).reverse ++ before) rest where
  failed error herror := h.failed error (by rw [hcut]; exact herror)
  lifted hok := by
    obtain ⟨r, hlift, htext, hcalls⟩ := h.lifted (by rw [hcut]; exact hok)
    refine ⟨r, hlift, ?_, ?_⟩
    · rw [htext, hcut, Cut.cons_pieces, List.flatMap_cons, utf8_append, List.append_assoc]
    · rw [hcalls, hcut, Cut.cons_pieces, ← List.singleton_append, liftedCalls_append,
        List.flatMap_singleton, placeAfter_reverse_append, List.append_assoc]

theorem Owes.char {c : Char} {cs : List Char}
    (h : Owes rules keywords source out calls before (c :: cs))
    (htoken : token? rules before.head? (c :: cs) = none) :
    Owes rules keywords source (out ++ utf8 [c]) calls (c :: before) cs := by
  have hcut : cutFrom rules (testOffset source) before (c :: cs) =
      (cutFrom rules (testOffset source) (((Piece.char c).source rules).reverse ++ before) cs).cons
        (.char c) :=
    (Reads.char htoken (reads_cutFrom rules (testOffset source) (c :: before) cs)).eq_cutFrom
  have hnext := h.cons hcut
  rwa [show liftedCalls rules keywords (placeAfter before) [Piece.char c] = [] from rfl,
    List.append_nil] at hnext

/-- Text without a token is copied up to the end. -/
theorem Owes.copied {here : Nat} (h : Owes rules keywords source out calls before after)
    (hnone : tokenFrom? rules before.head? here after = none) :
    ∃ r, lift rules keywords source = .ok r ∧ utf8 r.text = out ++ utf8 after ∧
      r.calls = calls := by
  induction after generalizing out before here with
  | nil =>
    have hcut : cutFrom rules (testOffset source) before [] = ⟨[], none⟩ := by rw [cutFrom]
    obtain ⟨r, hlift, htext, hcalls⟩ := h.lifted (by rw [hcut])
    refine ⟨r, hlift, ?_, ?_⟩
    · rw [htext, hcut]
      rfl
    · rw [hcalls, hcut]
      exact List.append_nil calls
  | cons c cs ih =>
    rw [tokenFrom?] at hnone
    split at hnone
    · simp at hnone
    · rename_i htoken
      obtain ⟨r, hlift, htext, hcalls⟩ := ih (h.char htoken) hnone
      refine ⟨r, hlift, ?_, hcalls⟩
      rw [htext, List.append_assoc, ← utf8_append, List.singleton_append]

/-- Text before the first token is copied. -/
theorem Owes.skip {here start tokenStop : Nat}
    (h : Owes rules keywords source out calls before after)
    (hsome : tokenFrom? rules before.head? here after = some (start, tokenStop)) :
    ∃ skipped rest blanks after',
      after = skipped ++ after' ∧ token? rules (skipped.reverse ++ before).head? after' =
        some (blanks, rest) ∧
      start = here + byteLength skipped ∧
      tokenStop = start + byteLength (tokenText rules blanks) ∧
      Owes rules keywords source (out ++ utf8 skipped) calls (skipped.reverse ++ before) after' := by
  induction after generalizing out before here with
  | nil => simp [tokenFrom?] at hsome
  | cons c cs ih =>
    rw [tokenFrom?] at hsome
    split at hsome
    · rename_i blanks rest htoken
      obtain ⟨rfl, rfl⟩ := Prod.mk.inj (Option.some.inj hsome)
      exact ⟨[], rest, blanks, c :: cs, rfl, htoken, rfl, rfl, by simpa using h⟩
    · rename_i htoken
      obtain ⟨skipped, rest, blanks, after', rfl, htoken', rfl, rfl, hrest⟩ :=
        ih (h.char htoken) hsome
      refine ⟨c :: skipped, rest, blanks, after', rfl, by simpa using htoken', ?_, rfl, ?_⟩
      · rw [byteLength_cons]
        omega
      · simpa using hrest

end

/-! ### One turn -/

/-- The state knows the line of a byte that the reader of `before` has passed. -/
def KnowsLine (p : Progress) (before : List Char) : Prop :=
  ∃ front middle, before.reverse = front ++ middle ∧ byteLength front = p.linePos ∧
    p.line = 1 + lineFeeds front

theorem KnowsLine.onward {p : Progress} {before : List Char} (h : KnowsLine p before)
    (piece : List Char) : KnowsLine p (piece.reverse ++ before) := by
  obtain ⟨front, middle, hcut, hpos, hline⟩ := h
  refine ⟨front, middle ++ piece, ?_, hpos, hline⟩
  rw [List.reverse_append, List.reverse_reverse, hcut, List.append_assoc]

/-- The state is that of a reader who has read `before`, the last character first. -/
structure Follows (rules : Rules) (keywords : Keywords) (source : List Char) (p : Progress)
    (before after : List Char) : Prop where
  source_eq : source = before.reverse ++ after
  cursor_eq : p.cursor = byteLength before
  line : KnowsLine p before
  owes : Owes rules keywords source p.out p.calls before after

/-- The next token is found behind `skipped`, the last part of what the reader then has read. -/
structure Finds (rules : Rules) (keywords : Keywords) (source : List Char) (p : Progress)
    (start tokenStop : Nat) (skipped before blanks rest : List Char) : Prop where
  found : findToken? rules source p.cursor = some (some (start, tokenStop))
  source_eq : source = before.reverse ++ (tokenText rules blanks ++ rest)
  skipped_eq : ∃ old, before = skipped.reverse ++ old ∧ byteLength old = p.cursor
  token : token? rules before.head? (tokenText rules blanks ++ rest) = some (blanks, rest)
  start_eq : byteLength before = start
  tokenStop_eq : start + byteLength (tokenText rules blanks) = tokenStop
  line : KnowsLine p before
  owes : Owes rules keywords source (p.out ++ utf8 skipped) p.calls before
    (tokenText rules blanks ++ rest)

section

variable {rules : Rules} {keywords : Keywords} {source : List Char} {p : Progress}
  {before after : List Char}

theorem follows_start (rules : Rules) (keywords : Keywords) (source : List Char) :
    Follows rules keywords source .start [] source :=
  ⟨rfl, rfl, ⟨[], [], rfl, rfl, rfl⟩, owes_start rules keywords source⟩

namespace Follows

theorem findToken?_eq (h : Follows rules keywords source p before after) :
    findToken? rules source p.cursor = some (tokenFrom? rules before.head? p.cursor after) := by
  have hsplit : splitAtByte? p.cursor source = some (before.reverse, after) :=
    splitAtByte?_eq_some_iff.2 ⟨h.source_eq, by rw [byteLength_reverse, h.cursor_eq]⟩
  rw [findToken?, hsplit, Option.map_some, List.getLast?_reverse]

theorem finds (h : Follows rules keywords source p before after) {start tokenStop : Nat}
    (hfind : findToken? rules source p.cursor = some (some (start, tokenStop))) :
    ∃ skipped before' blanks rest,
      Finds rules keywords source p start tokenStop skipped before' blanks rest := by
  have hfrom := h.findToken?_eq.symm.trans hfind
  obtain ⟨skipped, rest, blanks, after', rfl, htoken, hstart, hstop, howes⟩ :=
    h.owes.skip (Option.some.inj hfrom)
  obtain rfl := eq_append_of_token? htoken
  refine ⟨skipped, skipped.reverse ++ before, blanks, rest, hfind, ?_,
    ⟨before, rfl, h.cursor_eq.symm⟩, htoken, ?_, hstop.symm, h.line.onward skipped, howes⟩
  · rw [h.source_eq, List.reverse_append, List.reverse_reverse, List.append_assoc]
  · rw [byteLength_reverse_append, hstart, h.cursor_eq]

/-- Without another token, the rest is copied and the loop is done. -/
theorem turn?_finished (h : Follows rules keywords source p before after)
    (hfind : findToken? rules source p.cursor = some none) :
    ∃ r, lift rules keywords source = .ok r ∧
      turn? rules keywords source p = some (.finished (utf8 r.text) r.calls) := by
  have hnone := h.findToken?_eq
  rw [hfind] at hnone
  obtain ⟨r, hlift, htext, hcalls⟩ := h.owes.copied (Option.some.inj hnone).symm
  have hrest : copy? source p.cursor (byteLength source) = some (utf8 after) := by
    refine copy?_of_slice ⟨before.reverse, [], ?_, ?_, ?_⟩
    · rw [h.source_eq, List.append_nil]
    · rw [byteLength_reverse, h.cursor_eq]
    · rw [h.source_eq, h.cursor_eq, byteLength_append, byteLength_reverse]
  refine ⟨r, hlift, ?_⟩
  simp only [turn?, hfind, Option.bind_eq_bind, Option.bind_some, hrest, Option.pure_def, htext,
    hcalls]

end Follows

namespace Finds

variable {start tokenStop : Nat} {skipped blanks rest span afterSpan : List Char}

theorem slice_skipped
    (h : Finds rules keywords source p start tokenStop skipped before blanks rest) :
    Slice source p.cursor start skipped := by
  obtain ⟨old, rfl, hold⟩ := h.skipped_eq
  refine ⟨old.reverse, tokenText rules blanks ++ rest, ?_, ?_, ?_⟩
  · rw [h.source_eq]
    simp
  · rw [byteLength_reverse, hold]
  · rw [← hold, ← h.start_eq, byteLength_reverse_append]

theorem slice_through_token
    (h : Finds rules keywords source p start tokenStop skipped before blanks rest) :
    Slice source p.cursor tokenStop (skipped ++ tokenText rules blanks) := by
  obtain ⟨old, hbefore, hold⟩ := h.skipped_eq
  have hstart := h.start_eq
  have hstop := h.tokenStop_eq
  rw [hbefore, byteLength_reverse_append] at hstart
  refine ⟨old.reverse, rest, ?_, ?_, ?_⟩
  · rw [h.source_eq, hbefore]
    simp
  · rw [byteLength_reverse, hold]
  · rw [byteLength_append]
    omega

theorem searchLine?_eq
    (h : Finds rules keywords source p start tokenStop skipped before blanks rest) :
    searchLine? source start = some (commented before) := by
  rw [h.source_eq, ← h.start_eq]
  exact Source.searchLine?_eq before _

/-- The token ends with its parenthesis. -/
theorem opening_eq (h : Finds rules keywords source p start tokenStop skipped before blanks rest) :
    tokenStop - 1 = byteLength (before.reverse ++ (callHead rules ++ blanks)) := by
  have hparen : byteLength ['('] = 1 := by decide
  have hstop := h.tokenStop_eq
  have hstart := h.start_eq
  simp only [tokenText, byteLength_append, hparen] at hstop
  simp only [byteLength_append, byteLength_reverse]
  omega

theorem scanEnd_eq (h : Finds rules keywords source p start tokenStop skipped before blanks rest) :
    scanEnd (utf8 source) start (tokenStop - 1) =
      match span? ('(' :: rest) with
      | some (span, _) => .ok (start + byteLength (callHead rules ++ (blanks ++ span)))
      | none => .error (.unterminated start (start + byteLength (callHead rules ++ blanks))) := by
  have hsource : source = (before.reverse ++ (callHead rules ++ blanks)) ++ '(' :: rest := by
    rw [h.source_eq]
    simp [tokenText]
  have hlength : byteLength (before.reverse ++ (callHead rules ++ blanks)) =
      start + byteLength (callHead rules ++ blanks) := by
    rw [byteLength_append, byteLength_reverse, h.start_eq]
  rw [scanEnd_utf8, h.opening_eq, hsource, spanEnd_append, hlength]
  cases span? ('(' :: rest) with
  | none => rfl
  | some p =>
    simp only [byteLength_append, Except.ok.injEq]
    omega

theorem turn?_commented
    (h : Finds rules keywords source p start tokenStop skipped before blanks rest)
    (hcomment : commented before = true) :
    ∃ q, turn? rules keywords source p = some (.onward q) ∧ q.cursor = tokenStop ∧
      Follows rules keywords source q ((tokenText rules blanks).reverse ++ before) rest := by
  have hcut : cutFrom rules (testOffset source) before (tokenText rules blanks ++ rest) =
      (cutFrom rules (testOffset source) (((Piece.commented blanks).source rules).reverse ++ before)
        rest).cons (.commented blanks) := by
    rw [cutFrom_of_token? h.token, if_pos hcomment, Piece.source_commented]
  have hnext := h.owes.cons hcut
  rw [Piece.image_commented, Piece.source_commented, List.append_assoc, ← utf8_append,
    show liftedCalls rules keywords (placeAfter before) [Piece.commented blanks] = [] from rfl,
    List.append_nil] at hnext
  refine ⟨⟨tokenStop, p.line, p.linePos, p.out ++ utf8 (skipped ++ tokenText rules blanks),
    p.calls⟩, ?_, rfl, ?_⟩
  · simp only [turn?, h.found, Option.bind_eq_bind, Option.bind_some, h.searchLine?_eq, hcomment,
      if_true, copy?_of_slice h.slice_through_token, Option.pure_def]
  · refine ⟨?_, ?_, h.line.onward (tokenText rules blanks), hnext⟩
    · rw [h.source_eq, List.reverse_append, List.reverse_reverse, List.append_assoc]
    · rw [byteLength_reverse_append, h.start_eq]
      exact h.tokenStop_eq.symm

theorem turn?_failed (h : Finds rules keywords source p start tokenStop skipped before blanks rest)
    (hcode : commented before = false) (hspan : span? ('(' :: rest) = none) :
    ∃ error, lift rules keywords source = .error error ∧
      turn? rules keywords source p = some (.failed error) := by
  have hcut : (cutFrom rules (testOffset source) before (tokenText rules blanks ++ rest)).failure =
      some (.unterminated start (start + byteLength (callHead rules ++ blanks))) := by
    rw [cutFrom_of_token? h.token, hcode, hspan, h.start_eq]
    rfl
  have hscan := h.scanEnd_eq
  rw [hspan] at hscan
  refine ⟨_, h.owes.failed _ hcut, ?_⟩
  simp only [turn?, h.found, Option.bind_eq_bind, Option.bind_some, h.searchLine?_eq, hcode,
    Bool.false_eq_true, if_false, hscan, Option.pure_def]

/-- What the loop needs to know of a call: where it stands, and what follows it. -/
theorem slice_call (h : Finds rules keywords source p start tokenStop skipped before blanks rest)
    (hspan : span? ('(' :: rest) = some (span, afterSpan)) :
    source = ((callHead rules ++ (blanks ++ span)).reverse ++ before).reverse ++ afterSpan ∧
      Slice source start (start + byteLength (callHead rules ++ (blanks ++ span)))
        (callHead rules ++ (blanks ++ span)) := by
  have hsource : source = before.reverse ++ ((callHead rules ++ (blanks ++ span)) ++ afterSpan) := by
    rw [h.source_eq, eq_append_of_token?_of_span? h.token hspan]
  refine ⟨?_, before.reverse, afterSpan, hsource, ?_, rfl⟩
  · rw [List.reverse_append, List.reverse_reverse, List.append_assoc before.reverse]
    exact hsource
  · rw [byteLength_reverse, h.start_eq]

/-- The line of a call, counted on from the byte whose line is known. -/
theorem line_eq (h : Finds rules keywords source p start tokenStop skipped before blanks rest) :
    ∃ between, copy? source p.linePos start = some between ∧
      p.line + between.count '\n'.toUInt8 = 1 + lineFeeds before.reverse := by
  obtain ⟨front, middle, hcut, hpos, hline⟩ := h.line
  have hmiddle : Slice source p.linePos start middle := by
    refine ⟨front, tokenText rules blanks ++ rest, ?_, hpos, ?_⟩
    · rw [h.source_eq, hcut, List.append_assoc]
    · rw [← hpos, ← byteLength_append, ← hcut, byteLength_reverse, h.start_eq]
  refine ⟨utf8 middle, copy?_of_slice hmiddle, ?_⟩
  rw [count_utf8 (by decide), hcut, lineFeeds_append, hline, Nat.add_assoc]
  rfl

theorem turn?_scanned (h : Finds rules keywords source p start tokenStop skipped before blanks rest)
    (hcode : commented before = false) (hspan : span? ('(' :: rest) = some (span, afterSpan)) :
    turn? rules keywords source p = callTurn? rules keywords source p start
      (start + byteLength (callHead rules ++ (blanks ++ span))) := by
  have hscan := h.scanEnd_eq
  rw [hspan] at hscan
  simp only [turn?, h.found, Option.bind_eq_bind, Option.bind_some, h.searchLine?_eq, hcode,
    Bool.false_eq_true, if_false, hscan]

theorem turn?_exempt (h : Finds rules keywords source p start tokenStop skipped before blanks rest)
    (hcode : commented before = false) (hspan : span? ('(' :: rest) = some (span, afterSpan))
    (hregion : testOffset source ≤ start) :
    ∃ q, turn? rules keywords source p = some (.onward q) ∧
      q.cursor = start + byteLength (callHead rules ++ (blanks ++ span)) ∧
      Follows rules keywords source q ((callHead rules ++ (blanks ++ span)).reverse ++ before)
        afterSpan := by
  have hcut : cutFrom rules (testOffset source) before (tokenText rules blanks ++ rest) =
      (cutFrom rules (testOffset source)
        (((Piece.exempt (blanks ++ span)).source rules).reverse ++ before) afterSpan).cons
        (.exempt (blanks ++ span)) := by
    rw [cutFrom_of_token? h.token, hcode, hspan, h.start_eq]
    simp only [Bool.false_eq_true, if_false, if_pos hregion, Piece.source_exempt]
  have hnext := h.owes.cons hcut
  rw [Piece.image_exempt, Piece.source_exempt,
    show liftedCalls rules keywords (placeAfter before) [Piece.exempt (blanks ++ span)] = [] from
      rfl, List.append_nil] at hnext
  obtain ⟨hsource, hcall⟩ := h.slice_call hspan
  refine ⟨⟨start + byteLength (callHead rules ++ (blanks ++ span)), p.line, p.linePos,
    p.out ++ utf8 skipped ++ utf8 (callHead rules ++ (blanks ++ span)), p.calls⟩, ?_, rfl, hsource,
    ?_, h.line.onward _, hnext⟩
  · rw [h.turn?_scanned hcode hspan]
    simp only [callTurn?, slice?_eq_some_iff.2 hcall, copy?_of_slice h.slice_skipped,
      Option.bind_eq_bind, Option.bind_some, if_pos hregion, Option.pure_def]
  · rw [byteLength_reverse_append, h.start_eq]

theorem turn?_call (h : Finds rules keywords source p start tokenStop skipped before blanks rest)
    (hcode : commented before = false) (hspan : span? ('(' :: rest) = some (span, afterSpan))
    (hregion : ¬testOffset source ≤ start) :
    ∃ q, turn? rules keywords source p = some (.onward q) ∧
      q.cursor = start + byteLength (callHead rules ++ (blanks ++ span)) ∧
      Follows rules keywords source q ((callHead rules ++ (blanks ++ span)).reverse ++ before)
        afterSpan := by
  have hcut : cutFrom rules (testOffset source) before (tokenText rules blanks ++ rest) =
      (cutFrom rules (testOffset source)
        (((Piece.call (blanks ++ span)).source rules).reverse ++ before) afterSpan).cons
        (.call (blanks ++ span)) := by
    rw [cutFrom_of_token? h.token, hcode, hspan, h.start_eq]
    simp only [Bool.false_eq_true, if_false, if_neg hregion, Piece.source_call]
  have hnext := h.owes.cons hcut
  obtain ⟨between, hbetween, hline⟩ := h.line_eq
  -- the line that the loop has counted is that of the place where the reader stands
  have hplace : liftedCalls rules keywords (placeAfter before) [Piece.call (blanks ++ span)] =
      [⟨start, p.line + between.count '\n'.toUInt8, callLevel keywords (blanks ++ span),
        callTagged (blanks ++ span)⟩] := by
    rw [hline, liftedCalls_call, placeAfter, ← h.start_eq]
    simp [Place.after, Place.start, liftedCalls]
  rw [hplace, Piece.source_call] at hnext
  obtain ⟨hsource, hcall⟩ := h.slice_call hspan
  refine ⟨⟨start + byteLength (callHead rules ++ (blanks ++ span)),
    p.line + between.count '\n'.toUInt8, start, _, _⟩, ?_, rfl, hsource, ?_, ?_, hnext⟩
  · rw [h.turn?_scanned hcode hspan]
    simp only [callTurn?, slice?_eq_some_iff.2 hcall, copy?_of_slice h.slice_skipped,
      Option.bind_eq_bind, Option.bind_some, if_neg hregion, hbetween, cutCall?_eq, Option.pure_def]
  · rw [byteLength_reverse_append, h.start_eq]
  · refine ⟨before.reverse, callHead rules ++ (blanks ++ span), ?_, ?_, hline⟩
    · rw [List.reverse_append, List.reverse_reverse]
    · rw [byteLength_reverse, h.start_eq]

theorem start_lt_opening
    (h : Finds rules keywords source p start tokenStop skipped before blanks rest) :
    start < tokenStop - 1 := by
  have hhead : 0 < byteLength (callHead rules ++ blanks) := byteLength_pos (by simp [callHead])
  rw [h.opening_eq, byteLength_append, byteLength_reverse, h.start_eq]
  omega

theorem opening_lt_stop
    (h : Finds rules keywords source p start tokenStop skipped before blanks rest)
    (hspan : span? ('(' :: rest) = some (span, afterSpan)) :
    tokenStop - 1 < start + byteLength (callHead rules ++ (blanks ++ span)) := by
  have hpos : 0 < byteLength span := byteLength_pos (spanFrom?_ne_nil hspan)
  rw [h.opening_eq]
  simp only [byteLength_append, byteLength_reverse, h.start_eq]
  omega

end Finds

/-- The turn that ends the loop, with the answer of lifting. -/
def Concludes (rules : Rules) (keywords : Keywords) (source : List Char) (p : Progress) : Prop :=
  match lift rules keywords source with
  | .ok r => turn? rules keywords source p = some (.finished (utf8 r.text) r.calls)
  | .error error => turn? rules keywords source p = some (.failed error)

/-- Every turn moves the cursor on or is the last. -/
theorem Follows.turn?_cases (h : Follows rules keywords source p before after) :
    (∃ q before' after', turn? rules keywords source p = some (.onward q) ∧ p.cursor < q.cursor ∧
      Follows rules keywords source q before' after') ∨ Concludes rules keywords source p := by
  cases hfind : tokenFrom? rules before.head? p.cursor after with
  | none =>
    obtain ⟨r, hlift, hturn⟩ := h.turn?_finished (by rw [h.findToken?_eq, hfind])
    refine .inr ?_
    rw [Concludes, hlift]
    exact hturn
  | some token =>
    obtain ⟨start, tokenStop⟩ := token
    replace hfind : findToken? rules source p.cursor = some (some (start, tokenStop)) := by
      rw [h.findToken?_eq, hfind]
    obtain ⟨skipped, before', blanks, rest, hfinds⟩ := h.finds hfind
    obtain ⟨_, _, _, _, hstart⟩ := hfinds.slice_skipped
    have hopening := hfinds.start_lt_opening
    cases hcomment : commented before' with
    | true =>
      obtain ⟨q, hturn, hcursor, hq⟩ := hfinds.turn?_commented hcomment
      exact .inl ⟨q, _, _, hturn, by omega, hq⟩
    | false =>
      cases hspan : span? ('(' :: rest) with
      | none =>
        obtain ⟨error, hlift, hturn⟩ := hfinds.turn?_failed hcomment hspan
        refine .inr ?_
        rw [Concludes, hlift]
        exact hturn
      | some pair =>
        obtain ⟨span, afterSpan⟩ := pair
        have hstop := hfinds.opening_lt_stop hspan
        by_cases hregion : testOffset source ≤ start
        · obtain ⟨q, hturn, hcursor, hq⟩ := hfinds.turn?_exempt hcomment hspan hregion
          exact .inl ⟨q, _, _, hturn, by omega, hq⟩
        · obtain ⟨q, hturn, hcursor, hq⟩ := hfinds.turn?_call hcomment hspan hregion
          exact .inl ⟨q, _, _, hturn, by omega, hq⟩

/-! ### All turns -/

/-- What holds of a state that the loop comes to, and of its turn. -/
structure SafeTurn (rules : Rules) (keywords : Keywords) (source : List Char) (p : Progress) :
    Prop where
  /-- The text can be cut wherever the turn cuts it. -/
  result : turn? rules keywords source p ≠ none
  cursor : p.linePos ≤ p.cursor ∧ p.cursor ≤ byteLength source ∧ Boundary source p.linePos ∧
    Boundary source p.cursor
  token : ∀ start tokenStop, findToken? rules source p.cursor = some (some (start, tokenStop)) →
    p.cursor ≤ start ∧ start < tokenStop - 1 ∧ tokenStop ≤ byteLength source ∧
      Boundary source start ∧ Boundary source tokenStop
  /-- A call that is scanned to its end, and the literal in it. -/
  call : ∀ start tokenStop stop,
    findToken? rules source p.cursor = some (some (start, tokenStop)) →
    scanEnd (utf8 source) start (tokenStop - 1) = .ok stop →
    tokenStop - 1 < stop ∧ stop ≤ byteLength source ∧ ∃ call, slice? source start stop = some call ∧
      ∀ l, firstLiteral? call = some l → byteLength rules.macroName.toList + 1 ≤ l.start ∧
        l.start ≤ l.stop ∧ l.stop ≤ byteLength call ∧ Boundary call l.start ∧ Boundary call l.stop
  advance : ∀ q, turn? rules keywords source p = some (.onward q) → p.cursor < q.cursor

theorem Follows.of_onward (h : Follows rules keywords source p before after) {q : Progress}
    (hturn : turn? rules keywords source p = some (.onward q)) :
    p.cursor < q.cursor ∧ ∃ before' after', Follows rules keywords source q before' after' := by
  rcases h.turn?_cases with ⟨q', before', after', hturn', hlt, hfollows⟩ | hend
  · rw [hturn, Option.some.injEq, Turn.onward.injEq] at hturn'
    subst hturn'
    exact ⟨hlt, before', after', hfollows⟩
  · rw [Concludes, hturn] at hend
    split at hend <;> simp at hend

theorem Follows.cursor_bounds (h : Follows rules keywords source p before after) :
    p.linePos ≤ p.cursor ∧ p.cursor ≤ byteLength source ∧ Boundary source p.linePos ∧
      Boundary source p.cursor := by
  obtain ⟨front, middle, hcut, hpos, _⟩ := h.line
  have hmiddle : Slice source p.linePos p.cursor middle := by
    refine ⟨front, after, ?_, hpos, ?_⟩
    · rw [h.source_eq, hcut, List.append_assoc]
    · rw [← hpos, ← byteLength_append, ← hcut, byteLength_reverse, h.cursor_eq]
  exact hmiddle.bounds

theorem Finds.token_bounds {start tokenStop : Nat} {skipped blanks rest : List Char}
    (h : Finds rules keywords source p start tokenStop skipped before blanks rest) :
    p.cursor ≤ start ∧ start < tokenStop - 1 ∧ tokenStop ≤ byteLength source ∧
      Boundary source start ∧ Boundary source tokenStop := by
  obtain ⟨hle, _, _, hstart⟩ := h.slice_skipped.bounds
  obtain ⟨_, hend, _, hstop⟩ := h.slice_through_token.bounds
  exact ⟨hle, h.start_lt_opening, hend, hstart, hstop⟩

theorem literal_bounds {body : List Char} {l : Literal}
    (h : firstLiteral? (callHead rules ++ body) = some l) :
    byteLength rules.macroName.toList + 1 ≤ l.start ∧ l.start ≤ l.stop ∧
      l.stop ≤ byteLength (callHead rules ++ body) ∧ Boundary (callHead rules ++ body) l.start ∧
      Boundary (callHead rules ++ body) l.stop := by
  cases hl : firstLiteral? body with
  | none =>
    rw [firstLiteral?_append (quote_not_mem_callHead rules), hl] at h
    simp at h
  | some inside =>
    obtain ⟨l', hfirst, _, hfront, hinner, _⟩ := slices_of_firstLiteral? rules hl
    obtain rfl := Option.some.inj (hfirst.symm.trans h)
    obtain ⟨hle, hend, hstart, hstop⟩ := hinner.bounds
    exact ⟨hfront.bounds.1, hle, hend, hstart, hstop⟩

/-- The end of a call and the literal in it. -/
theorem Finds.call_bounds {start tokenStop stop : Nat} {skipped blanks rest : List Char}
    (h : Finds rules keywords source p start tokenStop skipped before blanks rest)
    (hscan : scanEnd (utf8 source) start (tokenStop - 1) = .ok stop) :
    tokenStop - 1 < stop ∧ stop ≤ byteLength source ∧ ∃ call, slice? source start stop = some call ∧
      ∀ l, firstLiteral? call = some l → byteLength rules.macroName.toList + 1 ≤ l.start ∧
        l.start ≤ l.stop ∧ l.stop ≤ byteLength call ∧ Boundary call l.start ∧
        Boundary call l.stop := by
  rw [h.scanEnd_eq] at hscan
  cases hspan : span? ('(' :: rest) with
  | none => simp [hspan] at hscan
  | some pair =>
    obtain ⟨span, afterSpan⟩ := pair
    rw [hspan] at hscan
    obtain rfl := Except.ok.inj hscan
    have hcall := (h.slice_call hspan).2
    exact ⟨h.opening_lt_stop hspan, hcall.bounds.2.1, _, slice?_eq_some_iff.2 hcall,
      fun l hl => literal_bounds hl⟩

theorem Follows.safeTurn (h : Follows rules keywords source p before after) :
    SafeTurn rules keywords source p where
  result := by
    rcases h.turn?_cases with ⟨q, _, _, hturn, _⟩ | hend
    · simp [hturn]
    · rw [Concludes] at hend
      split at hend <;> simp [hend]
  cursor := h.cursor_bounds
  token start tokenStop hfind := by
    obtain ⟨skipped, before', blanks, rest, hfinds⟩ := h.finds hfind
    exact hfinds.token_bounds
  call start tokenStop stop hfind hscan := by
    obtain ⟨skipped, before', blanks, rest, hfinds⟩ := h.finds hfind
    exact hfinds.call_bounds hscan
  advance q hturn := (h.of_onward hturn).1

theorem Reached.follows (h : Reached rules keywords source p) :
    ∃ before after, Follows rules keywords source p before after := by
  induction h with
  | refl => exact ⟨[], source, follows_start rules keywords source⟩
  | tail _ hturn ih =>
    obtain ⟨before, after, hfollows⟩ := ih
    exact (hfollows.of_onward hturn).2

/-- The cursor cannot move on for ever. -/
theorem Reached.exists_concludes (h : Reached rules keywords source p) :
    ∃ q, Reached rules keywords source q ∧ Concludes rules keywords source q := by
  induction hleft : byteLength source - p.cursor using Nat.strong_induction_on generalizing p with
  | _ left ih =>
    obtain ⟨before, after, hfollows⟩ := h.follows
    rcases hfollows.turn?_cases with ⟨q, before', after', hturn, hlt, hq⟩ | hend
    · have hreached : Reached rules keywords source q := Relation.ReflTransGen.tail h hturn
      -- the cursor stays within the text, so that fewer bytes are left
      have hle := hq.cursor_bounds.2.1
      exact ih (byteLength source - q.cursor) (by omega) hreached rfl
    · exact ⟨p, h, hend⟩

/-- How the loop goes over a text. -/
structure SlicesSafely (rules : Rules) (keywords : Keywords) (source : List Char) : Prop where
  turns : ∀ p, Reached rules keywords source p → SafeTurn rules keywords source p
  /-- The loop ends, with the bytes of the lifted text and the lifted calls, or with the error. -/
  ends : ∃ p, Reached rules keywords source p ∧ Concludes rules keywords source p

end

/-- In every text, with every rules and keywords, the loop cuts the text only where it can be cut,
and it ends with the answer of lifting. -/
theorem loop_slices_safely (rules : Rules) (keywords : Keywords) (source : List Char) :
    SlicesSafely rules keywords source where
  turns p hreached := by
    obtain ⟨before, after, hfollows⟩ := hreached.follows
    exact hfollows.safeTurn
  ends := Reached.exists_concludes .refl

end LogLift.Document
