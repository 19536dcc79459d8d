import Mathlib.Data.List.Forall2
import LogLift.Proofs.Document.Reading
import LogLift.Proofs.Message.Parts

/-! A lifted document is its source with one patch for each lifted call.  The patches are in order
and apart from each other, each covers its call from the token to the closing parenthesis, and its
text is the call with the head and the tag of the first literal changed and nothing else. -/

namespace LogLift.Document

open LogLift.Text LogLift.Source LogLift.Message

/-- The text of a call and what it is lifted to, with its level and whether a tag was stripped. -/
inductive LiftsTo (rules : Rules) (keywords : Keywords) :
    (call : List Char) → Level → (tagStripped : Bool) → (image : List Char) → Prop
  /-- A call without a literal keeps all but its head. -/
  | bare {body : List Char} {level : Level} :
      firstLiteral? (callHead rules ++ body) = none → level = keywords.classify [] →
      LiftsTo rules keywords (callHead rules ++ body) level false
        ((rules.logPath ++ "::" ++ level.name ++ "!").toList ++ body)
  /-- The first literal of a call decides the level and loses its tag. -/
  | message {front inner after : List Char} {level : Level} {tagStripped : Bool} :
      firstLiteral? (callHead rules ++ (front ++ '"' :: (inner ++ '"' :: after))) =
        some ⟨callHead rules ++ front, inner, after⟩ →
      level = keywords.classify inner → (tagStripped = true ↔ stripTag inner ≠ inner) →
      LiftsTo rules keywords (callHead rules ++ (front ++ '"' :: (inner ++ '"' :: after))) level
        tagStripped
        ((rules.logPath ++ "::" ++ level.name ++ "!").toList ++
          (front ++ '"' :: (stripTag inner ++ '"' :: after)))

/-- The patch replaces the whole call, and by what the call is lifted to. -/
structure Patches (rules : Rules) (keywords : Keywords) (source : List Char) (call : LiftedCall)
    (patch : Patch) : Prop where
  start : patch.start = call.offset
  span : CallSpan rules source call.offset patch.stop
  text : ∃ cs, Slice source patch.start patch.stop cs ∧
    LiftsTo rules keywords cs call.level call.tagStripped patch.text

theorem quote_not_mem_callHead (rules : Rules) : '"' ∉ callHead rules := by
  intro h
  rcases List.mem_append.1 h with h | h
  · exact rules.not_mem_macroName (by decide) h
  · exact absurd h (by decide)

theorem untagged_of_none {body : List Char} (h : firstLiteral? body = none) :
    untagged body = body := by
  simp [untagged, h]

theorem untagged_of_some {body : List Char} {l : Literal} (h : firstLiteral? body = some l) :
    untagged body = (l.before ++ ['"']) ++ (stripTag l.inner ++ '"' :: l.after) := by
  simp [untagged, h, Literal.source]

theorem liftsTo_image (rules : Rules) (keywords : Keywords) (body : List Char) :
    LiftsTo rules keywords (callHead rules ++ body) (callLevel keywords body) (callTagged body)
      ((Piece.call body).image rules keywords) := by
  have hfirst := firstLiteral?_append (quote_not_mem_callHead rules) body
  cases hl : firstLiteral? body with
  | none =>
    have hmessage : message body = [] := by simp [message, hl]
    have htagged : callTagged body = false := by simp [callTagged, hmessage, stripTag]
    rw [hl] at hfirst
    rw [htagged, Piece.image_call, untagged_of_none hl]
    exact .bare hfirst (by rw [callLevel, hmessage])
  | some l =>
    have hmessage : message body = l.inner := by simp [message, hl]
    have huntagged : untagged body = l.before ++ '"' :: (stripTag l.inner ++ '"' :: l.after) := by
      simpa using untagged_of_some hl
    have hbody := eq_of_firstLiteral? hl
    rw [hl, Option.map_some] at hfirst
    rw [Piece.image_call, huntagged]
    have hlevel : callLevel keywords body = keywords.classify l.inner := by
      rw [callLevel, hmessage]
    have htag : callTagged body = true ↔ stripTag l.inner ≠ l.inner := by
      simp [callTagged, hmessage]
    generalize callLevel keywords body = level at hlevel ⊢
    generalize callTagged body = tagStripped at htag ⊢
    subst hbody
    exact .message hfirst hlevel htag

section

variable {rules : Rules} {keywords : Keywords} {place : Place} {pieces : List Piece}

@[simp] theorem liftedCalls_char (c : Char) :
    liftedCalls rules keywords place (.char c :: pieces) =
      liftedCalls rules keywords (place.after [c]) pieces := rfl

@[simp] theorem liftedCalls_commented (blanks : List Char) :
    liftedCalls rules keywords place (.commented blanks :: pieces) =
      liftedCalls rules keywords (place.after (tokenText rules blanks)) pieces := by
  rw [← Piece.source_commented]
  rfl

@[simp] theorem liftedCalls_exempt (body : List Char) :
    liftedCalls rules keywords place (.exempt body :: pieces) =
      liftedCalls rules keywords (place.after (callHead rules ++ body)) pieces := rfl

@[simp] theorem liftedCalls_call (body : List Char) :
    liftedCalls rules keywords place (.call body :: pieces) =
      ⟨place.offset, place.line, callLevel keywords body, callTagged body⟩ ::
        liftedCalls rules keywords (place.after (callHead rules ++ body)) pieces := rfl

end

theorem liftedCalls_append (rules : Rules) (keywords : Keywords) (place : Place)
    (pieces later : List Piece) :
    liftedCalls rules keywords place (pieces ++ later) =
      liftedCalls rules keywords place pieces ++
        liftedCalls rules keywords (place.after (pieces.flatMap (·.source rules))) later := by
  induction pieces generalizing place with
  | nil => rfl
  | cons piece pieces ih =>
    have hplace : (place.after (piece.source rules)).after (pieces.flatMap (·.source rules)) =
        place.after ((piece :: pieces).flatMap (·.source rules)) := by
      rw [List.flatMap_cons, Place.after_append]
    cases piece with
    | char c | commented blanks | exempt body =>
      simp only [List.cons_append, liftedCalls]
      rw [ih, hplace]
    | call body =>
      simp only [List.cons_append, liftedCalls]
      rw [ih, hplace]

/-- The place of a reader that goes on after `piece`. -/
theorem offset_after {place : Place} {before : List Char} (h : place.offset = byteLength before)
    (piece : List Char) : (place.after piece).offset = byteLength (piece.reverse ++ before) := by
  rw [byteLength_reverse_append, ← h]
  rfl

/-- The calls are patches of `after`, which the reader that has read `before` still has to read,
and the patched text is `text`. -/
def Patched (rules : Rules) (keywords : Keywords) (before after : List Char)
    (calls : List LiftedCall) (text : List Char) : Prop :=
  ∃ patches, List.Forall₂ (Patches rules keywords (before.reverse ++ after)) calls patches ∧
    patched? (byteLength before) after patches = some text

theorem Patched.copy {rules : Rules} {keywords : Keywords} {before piece after text : List Char}
    {calls : List LiftedCall}
    (h : Patched rules keywords (piece.reverse ++ before) after calls text) :
    Patched rules keywords before (piece ++ after) calls (piece ++ text) := by
  obtain ⟨patches, hcalls, htext⟩ := h
  rw [byteLength_reverse_append] at htext
  exact ⟨patches, by simpa using hcalls, patched?_append htext⟩

/-- Along a reading, the lifted calls are patches of the text that is left. -/
theorem Reads.patched {rules : Rules} {boundary : Nat} {before after : List Char} {cut : Cut}
    (h : Reads rules boundary before after cut) (hok : cut.failure = none) (keywords : Keywords)
    (place : Place) (hplace : place.offset = byteLength before) :
    Patched rules keywords before after (liftedCalls rules keywords place cut.pieces)
      (cut.pieces.flatMap (·.image rules keywords)) := by
  induction h generalizing place with
  | done => exact ⟨[], .nil, rfl⟩
  | @char before cs c cut _ _ ih =>
    have hrest : Patched rules keywords ([c].reverse ++ before) cs _ _ :=
      ih hok (place.after [c]) (offset_after hplace [c])
    simpa using hrest.copy
  | @commented before after blanks rest cut htoken _ _ ih =>
    have hrest := ih hok _ (offset_after hplace (tokenText rules blanks))
    rw [eq_append_of_token? htoken]
    simpa using hrest.copy
  | unterminated => simp at hok
  | @exempt before after blanks rest span afterSpan cut htoken _ hspan _ _ ih =>
    have hrest := ih hok _ (offset_after hplace (callHead rules ++ (blanks ++ span)))
    rw [eq_append_of_token?_of_span? htoken hspan]
    simpa using hrest.copy
  | @call before after blanks rest span afterSpan cut htoken _ hspan _ _ ih =>
    obtain ⟨patches, hcalls, htext⟩ :=
      ih hok _ (offset_after hplace (callHead rules ++ (blanks ++ span)))
    rw [byteLength_reverse_append] at htext
    have hcall := callSpan_iff.2 ⟨blanks, rest, span, afterSpan, htoken, hspan, rfl⟩
    have hafter := eq_append_of_token?_of_span? htoken hspan
    refine ⟨⟨byteLength before, byteLength before + byteLength (callHead rules ++ (blanks ++ span)),
      (Piece.call (blanks ++ span)).image rules keywords⟩ :: patches, ?_, ?_⟩
    · rw [Cut.cons_pieces, liftedCalls_call]
      refine .cons ⟨hplace.symm, by rwa [hplace], ?_⟩ ?_
      · refine ⟨callHead rules ++ (blanks ++ span), ?_, liftsTo_image rules keywords _⟩
        exact ⟨before.reverse, afterSpan, by rw [hafter], by simp, rfl⟩
      · rw [hafter]
        simpa using hcalls
    · rw [hafter]
      exact patched?_cons_eq_some_iff.2 ⟨[], callHead rules ++ (blanks ++ span), afterSpan,
        cut.pieces.flatMap (·.image rules keywords), rfl, rfl, rfl, htext, rfl⟩

section

variable {rules : Rules} {keywords : Keywords} {source : List Char} {calls : List LiftedCall}
  {patches : List Patch}

theorem map_offset_eq_map_start (h : List.Forall₂ (Patches rules keywords source) calls patches) :
    calls.map (·.offset) = patches.map (·.start) := by
  induction h with
  | nil => rfl
  | cons h _ ih => simp [h.start, ih]

theorem start_lt_stop_of_mem (h : List.Forall₂ (Patches rules keywords source) calls patches) :
    ∀ patch ∈ patches, patch.start < patch.stop := by
  induction h with
  | nil => simp
  | cons h _ ih =>
    have hlt := h.span.start_lt_stop
    rw [← h.start] at hlt
    simpa using ⟨hlt, ih⟩

theorem pairwise_offset (h : List.Forall₂ (Patches rules keywords source) calls patches)
    (hordered : patches.Pairwise fun p q => p.stop ≤ q.start) :
    (calls.map (·.offset)).Pairwise (· < ·) := by
  rw [map_offset_eq_map_start h, List.pairwise_map]
  refine hordered.imp_of_mem ?_
  intro p q hp _ hpq
  exact Nat.lt_of_lt_of_le (start_lt_stop_of_mem h p hp) hpq

/-- A lifted document is its source with every lifted call patched, from left to right and without
overlap, and with all other text copied. -/
theorem lift_eq_patched {r : Lifting} (h : lift rules keywords source = .ok r) :
    ∃ patches, List.Forall₂ (Patches rules keywords source) r.calls patches ∧
      (r.calls.map (·.offset)).Pairwise (· < ·) ∧
      patches.Pairwise (fun p q => p.stop ≤ q.start) ∧
      patched? 0 source patches = some r.text := by
  obtain ⟨hok, rfl⟩ := lift_eq_ok_iff.1 h
  obtain ⟨patches, hcalls, htext⟩ := (reads_cut rules source).patched hok keywords .start rfl
  have hordered := (ordered_of_patched? htext).2
  exact ⟨patches, hcalls, pairwise_offset hcalls hordered, hordered, htext⟩

end

/-- A commented call, a tagged call and a call in the test region: one patch. -/
theorem lift_eq_patched_mixed :
    lift .default .default
        "// println!(1)\nprintln!(\"[Init] Created\", x);\n#[cfg(test)] println!(2)".toList =
      .ok ⟨"// println!(1)\nlog::info!(\"Created\", x);\n#[cfg(test)] println!(2)".toList,
        [⟨15, 2, .info, true⟩]⟩ ∧
    ∃ patches, List.Forall₂ (Patches .default .default
        "// println!(1)\nprintln!(\"[Init] Created\", x);\n#[cfg(test)] println!(2)".toList)
        [⟨15, 2, .info, true⟩] patches ∧
      [15].Pairwise (· < ·) ∧ patches.Pairwise (fun p q => p.stop ≤ q.start) ∧
      patched? 0
          "// println!(1)\nprintln!(\"[Init] Created\", x);\n#[cfg(test)] println!(2)".toList
          patches =
        some "// println!(1)\nlog::info!(\"Created\", x);\n#[cfg(test)] println!(2)".toList := by
  have h : lift .default .default
      "// println!(1)\nprintln!(\"[Init] Created\", x);\n#[cfg(test)] println!(2)".toList =
      .ok ⟨"// println!(1)\nlog::info!(\"Created\", x);\n#[cfg(test)] println!(2)".toList,
        [⟨15, 2, .info, true⟩]⟩ := lift_eq_ok_iff.2 ⟨by decide +kernel, by decide +kernel⟩
  exact ⟨h, lift_eq_patched h⟩

end LogLift.Document
