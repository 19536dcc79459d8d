import LogLift.Proofs.Document.Carry

/-! The start of the test region under lifting.  Each lifted call makes one edit at its head, and
one at the tag that its message loses.  No edit touches a test marker, so the markers of a lifted
text are those of its source, each moved by as much as the edits before it lengthen the text; and
with them moves the start of the test region. -/

namespace LogLift.Document

open LogLift.Text LogLift.Source LogLift.Message

/-! ### The edits of a lifted call -/

/-- The name of the logging call takes the place of the call's head. -/
def headEdit (rules : Rules) (call : LiftedCall) : Patch :=
  ⟨call.offset, call.offset + byteLength (callHead rules), (rules.replacement call.level).toList⟩

/-- The first literal of the call at byte `start` loses the bytes from `tag` up to `stop`, which
are what stands before the rest of its message. -/
def LosesTag (rules : Rules) (source : List Char) (start tag stop : Nat) : Prop :=
  ∃ callStop cs l removed, CallSpan rules source start callStop ∧ Slice source start callStop cs ∧
    firstLiteral? cs = some l ∧ l.inner = removed ++ stripTag l.inner ∧ removed ≠ [] ∧
    tag = start + l.start ∧ stop = tag + byteLength removed

/-- The edits that lifting makes in a call: at its head, and at the tag of its message if it has
one. -/
inductive CallEdits (rules : Rules) (source : List Char) : LiftedCall → List Patch → Prop
  | untagged {call : LiftedCall} : call.tagStripped = false →
      CallEdits rules source call [headEdit rules call]
  | tagged {call : LiftedCall} {tag stop : Nat} : call.tagStripped = true →
      LosesTag rules source call.offset tag stop →
      CallEdits rules source call [headEdit rules call, ⟨tag, stop, []⟩]

theorem callTagged_of_none {body : List Char} (h : firstLiteral? body = none) :
    callTagged body = false := by
  simp [callTagged, message, h, stripTag]

theorem callTagged_of_some {body : List Char} {l : Literal} (h : firstLiteral? body = some l) :
    callTagged body = true ↔ tagOf l.inner ≠ [] := by
  rw [ne_eq, tagOf_eq_nil_iff]
  simp [callTagged, message, h]

theorem edits_bodyRevision (here : Nat) (body : List Char) :
    callTagged body = false ∧ edits here (bodyRevision body) = [] ∨
      ∃ l, firstLiteral? body = some l ∧ callTagged body = true ∧
        edits here (bodyRevision body) =
          [⟨here + l.start, here + l.start + byteLength (tagOf l.inner), []⟩] := by
  rw [bodyRevision]
  split
  · rename_i hl
    exact .inl ⟨callTagged_of_none hl, rfl⟩
  · rename_i l hl
    have hstart : byteLength (l.before ++ ['"']) = l.start := by
      rw [Literal.start, byteLength_append]
      rfl
    by_cases htag : tagOf l.inner = []
    · refine .inl ⟨?_, ?_⟩
      · rw [← Bool.not_eq_true, callTagged_of_some hl, not_not]
        exact htag
      · rw [edits, htag, edits_swapped_nil]
        rfl
    · refine .inr ⟨l, hl, (callTagged_of_some hl).2 htag, ?_⟩
      rw [edits, hstart, edits_swapped (.inl htag)]
      rfl

/-- The edits of a call that the reader comes to are those of its revision. -/
theorem callEdits_revision {rules : Rules} {before after blanks rest span afterSpan : List Char}
    (htoken : token? rules before.head? after = some (blanks, rest))
    (hspan : span? ('(' :: rest) = some (span, afterSpan)) (keywords : Keywords) (line : Nat) :
    CallEdits rules (before.reverse ++ after)
      ⟨byteLength before, line, callLevel keywords (blanks ++ span), callTagged (blanks ++ span)⟩
      (edits (byteLength before) ((Piece.call (blanks ++ span)).revision rules keywords)) := by
  have hhead : callHead rules ≠ [] := by simp [callHead]
  rw [Piece.revision, edits_swapped (.inl hhead)]
  obtain ⟨hplain, hedits⟩ | ⟨l, hl, htagged, hedits⟩ :=
    edits_bodyRevision (byteLength before + byteLength (callHead rules)) (blanks ++ span)
  · rw [hedits]
    exact .untagged hplain
  · rw [hedits]
    refine .tagged htagged ⟨_, _, { l with before := callHead rules ++ l.before }, tagOf l.inner,
      callSpan_iff.2 ⟨blanks, rest, span, afterSpan, htoken, hspan, rfl⟩,
      ⟨before.reverse, afterSpan, by rw [eq_append_of_token?_of_span? htoken hspan], by simp, rfl⟩,
      ?_, (tagOf_append_stripTag l.inner).symm, (callTagged_of_some hl).1 htagged, ?_, rfl⟩
    · rw [firstLiteral?_append (quote_not_mem_callHead rules), hl, Option.map_some]
    · simp only [Literal.start, byteLength_append]
      omega

/-- Along a reading, the edits of the lifted calls are those of the revision. -/
theorem Reads.callEdits {rules : Rules} {boundary : Nat} {before after : List Char} {cut : Cut}
    (h : Reads rules boundary before after cut) (hok : cut.failure = none) (keywords : Keywords)
    (place : Place) (hplace : place.offset = byteLength before) :
    ∃ groups, List.Forall₂ (CallEdits rules (before.reverse ++ after))
        (liftedCalls rules keywords place cut.pieces) groups ∧
      groups.flatten =
        edits (byteLength before) (cut.pieces.flatMap (·.revision rules keywords)) := by
  induction h generalizing place with
  | done => exact ⟨[], .nil, rfl⟩
  | @char before cs c cut _ _ ih =>
    obtain ⟨groups, hcalls, hedits⟩ := ih hok (place.after [c]) (offset_after hplace [c])
    refine ⟨groups, by simpa using hcalls, ?_⟩
    rw [hedits, byteLength_cons, Nat.add_comm]
    rfl
  | @commented before after blanks rest cut htoken _ _ ih =>
    obtain ⟨groups, hcalls, hedits⟩ :=
      ih hok _ (offset_after hplace (tokenText rules blanks))
    refine ⟨groups, ?_, ?_⟩
    · rw [eq_append_of_token? htoken]
      simpa using hcalls
    · rw [hedits, byteLength_reverse_append, Cut.cons_pieces, List.flatMap_cons,
        Piece.revision_commented]
      rfl
  | unterminated => simp at hok
  | @exempt before after blanks rest span afterSpan cut htoken _ hspan _ _ ih =>
    obtain ⟨groups, hcalls, hedits⟩ :=
      ih hok _ (offset_after hplace (callHead rules ++ (blanks ++ span)))
    refine ⟨groups, ?_, ?_⟩
    · rw [eq_append_of_token?_of_span? htoken hspan]
      simpa using hcalls
    · rw [hedits, byteLength_reverse_append]
      rfl
  | @call before after blanks rest span afterSpan cut htoken _ hspan _ _ ih =>
    obtain ⟨groups, hcalls, hedits⟩ :=
      ih hok _ (offset_after hplace (callHead rules ++ (blanks ++ span)))
    have hfirst := callEdits_revision htoken hspan keywords place.line
    refine ⟨edits (byteLength before) ((Piece.call (blanks ++ span)).revision rules keywords) ::
      groups, ?_, ?_⟩
    · rw [Cut.cons_pieces, liftedCalls_call, hplace]
      refine .cons hfirst ?_
      rw [eq_append_of_token?_of_span? htoken hspan]
      simpa using hcalls
    · rw [List.flatten_cons, hedits, byteLength_reverse_append, Cut.cons_pieces,
        List.flatMap_cons, edits_append, Piece.oldText_revision, Piece.source_call]

/-! ### Markers, each with its text -/

/-- The pattern of one marker's text. -/
def startsMarker (text : List Char) : Pattern := fun previous cs =>
  decide (text = testAttribute ∨ wordMayStart previous = true) && text.isPrefixOf cs

theorem markerAt_iff_occurs {source : List Char} {start length : Nat} :
    MarkerAt source start (start + length) ↔
      ∃ text, IsMarker text ∧ byteLength text = length ∧
        Occurs (startsMarker text) none source start := by
  simp only [MarkerAt, MarkerText, Occurs, startsMarker, lastChar_none, Bool.and_eq_true,
    decide_eq_true_eq, List.isPrefixOf_iff_prefix]
  constructor
  · rintro ⟨before, text, after, rfl, ⟨hmarker, hword⟩, hstart, hstop⟩
    exact ⟨text, hmarker, by omega, before, text ++ after, rfl, hstart, hword,
      List.prefix_append text after⟩
  · rintro ⟨text, hmarker, rfl, before, _, hsource, hstart, hword, after, rfl⟩
    exact ⟨before, text, after, hsource, ⟨hmarker, hword⟩, hstart, rfl⟩

theorem blind_startsMarker (rules : Rules) {text : List Char} (h : IsMarker text) :
    Blind rules (startsMarker text) := by
  have hpattern : ∀ p cs, startsMarker text p cs = true ↔
      ∃ t, (t = text ∧ (text = testAttribute ∨ wordMayStart p = true)) ∧ t <+: cs := by
    simp [startsMarker]
  refine blind_of_isMarker rules hpattern ?_ ?_
  · rintro p t ⟨rfl, _⟩
    exact h
  · intro p p' hword cs
    simp only [startsMarker, hword]

section

variable {rules : Rules} {keywords : Keywords} {source : List Char} {r : Lifting}

/-- The markers of a lifted text are the markers of the source, carried over. -/
theorem markerAt_lifted_iff (h : lift rules keywords source = .ok r) {start' length : Nat} :
    MarkerAt r.text start' (start' + length) ↔
      ∃ start, moved (revision rules keywords source) start = some start' ∧
        MarkerAt source start (start + length) := by
  simp only [markerAt_iff_occurs]
  constructor
  · rintro ⟨text, hmarker, hlen, hocc⟩
    obtain ⟨start, hmoved, hocc⟩ := ((blind_startsMarker rules hmarker).occurs_lifted_iff h).1 hocc
    exact ⟨start, hmoved, text, hmarker, hlen, hocc⟩
  · rintro ⟨start, hmoved, text, hmarker, hlen, hocc⟩
    exact ⟨text, hmarker, hlen,
      ((blind_startsMarker rules hmarker).occurs_lifted_iff h).2 ⟨start, hmoved, hocc⟩⟩

theorem exists_moved_of_markerAt (h : lift rules keywords source = .ok r) {start stop : Nat}
    (hmarker : MarkerAt source start stop) :
    ∃ start', moved (revision rules keywords source) start = some start' := by
  have hspares : Spares startsTestMarker none (revision rules keywords source) :=
    (reads_cut rules source).spares keywords
  obtain ⟨hold, _⟩ := texts_of_lift h
  exact hspares.exists_moved (by rw [hold]; exact hmarker.occurs)

/-- The start of the test region moves by as much as the edits before it lengthen the text.  A pass
makes no marker and loses none: each keeps its length and moves in the same way.  A text without
markers stays one. -/
theorem test_region_carried (h : lift rules keywords source = .ok r) :
    ∃ groups, List.Forall₂ (CallEdits rules source) r.calls groups ∧
      patched? 0 source groups.flatten = some r.text ∧
      (∀ edit ∈ groups.flatten, edit.stop ≤ testOffset source ∨ testOffset source ≤ edit.start) ∧
      (testOffset r.text : Int) =
        testOffset source + growthBefore groups.flatten (testOffset source) ∧
      (∀ start length, MarkerAt source start (start + length) → ∃ start' : Nat,
        (start' : Int) = start + growthBefore groups.flatten start ∧
          MarkerAt r.text start' (start' + length)) ∧
      (∀ start' length, MarkerAt r.text start' (start' + length) → ∃ start : Nat,
        (start' : Int) = start + growthBefore groups.flatten start ∧
          MarkerAt source start (start + length)) ∧
      ((∀ start stop, ¬MarkerAt source start stop) → testOffset r.text = byteLength r.text) := by
  obtain ⟨hold, hnew⟩ := texts_of_lift h
  have hboundary := moved_testOffset h
  have hcalls := (reads_cut rules source).callEdits (lift_eq_ok_iff.1 h).1 keywords .start rfl
  obtain ⟨groups, hcalls, hedits⟩ := hcalls
  have hgrowth : ∀ {start start' : Nat},
      moved (revision rules keywords source) start = some start' →
      (start' : Int) = start + growthBefore groups.flatten start := by
    intro start start' hmoved
    have := moved_eq_add_growthBefore hmoved 0
    rwa [Nat.zero_add, ← byteLength_nil, revision, ← hedits] at this
  have hcreated : ∀ start' length, MarkerAt r.text start' (start' + length) → ∃ start : Nat,
      (start' : Int) = start + growthBefore groups.flatten start ∧
        MarkerAt source start (start + length) := by
    intro start' length hmarker
    obtain ⟨start, hmoved, hmarker⟩ := (markerAt_lifted_iff h).1 hmarker
    exact ⟨start, hgrowth hmoved, hmarker⟩
  refine ⟨groups, ?_, ?_, ?_, hgrowth hboundary, ?_, hcreated, ?_⟩
  · rw [(lift_eq_ok_iff.1 h).2]
    exact hcalls
  · have htext := patched?_edits 0 (revision rules keywords source)
    rwa [hold, hnew, ← byteLength_nil, revision, ← hedits] at htext
  · intro edit hedit
    rw [hedits] at hedit
    have := stop_le_or_le_start_of_moved hboundary hedit
    rwa [byteLength_nil, Nat.zero_add] at this
  · intro start length hmarker
    obtain ⟨start', hmoved⟩ := exists_moved_of_markerAt h hmarker
    exact ⟨start', hgrowth hmoved, (markerAt_lifted_iff h).2 ⟨start, hmoved, hmarker⟩⟩
  · intro hnone
    rw [testOffset_eq_byteLength_iff]
    intro start' stop' hmarker
    obtain ⟨length, rfl⟩ : ∃ length, stop' = start' + length := by
      obtain ⟨_, text, _, _, _, _, hstop⟩ := hmarker
      exact ⟨byteLength text, hstop.symm⟩
    obtain ⟨start, _, hmarker⟩ := hcreated start' length hmarker
    exact hnone _ _ hmarker

end

/-- A marker among the arguments of a tagged call: the head grows by three bytes, the tag takes
four. -/
theorem test_region_carried_argument :
    lift .default .default "println!(\"[A] x\", #[cfg(test)] 1)".toList =
      .ok ⟨"log::debug!(\"x\", #[cfg(test)] 1)".toList, [⟨0, 1, .debug, true⟩]⟩ ∧
    testOffset "println!(\"[A] x\", #[cfg(test)] 1)".toList = 18 ∧
    MarkerAt "println!(\"[A] x\", #[cfg(test)] 1)".toList 18 (18 + 12) ∧
    ∃ groups, List.Forall₂ (CallEdits .default "println!(\"[A] x\", #[cfg(test)] 1)".toList)
        [⟨0, 1, .debug, true⟩] groups ∧
      patched? 0 "println!(\"[A] x\", #[cfg(test)] 1)".toList groups.flatten =
        some "log::debug!(\"x\", #[cfg(test)] 1)".toList ∧
      (∀ edit ∈ groups.flatten, edit.stop ≤ 18 ∨ 18 ≤ edit.start) ∧
      (testOffset "log::debug!(\"x\", #[cfg(test)] 1)".toList : Int) =
        18 + growthBefore groups.flatten 18 ∧
      ∃ start' : Nat, (start' : Int) = 18 + growthBefore groups.flatten 18 ∧
        MarkerAt "log::debug!(\"x\", #[cfg(test)] 1)".toList start' (start' + 12) := by
  have h : lift .default .default "println!(\"[A] x\", #[cfg(test)] 1)".toList =
      .ok ⟨"log::debug!(\"x\", #[cfg(test)] 1)".toList, [⟨0, 1, .debug, true⟩]⟩ :=
    lift_eq_ok_iff.2 ⟨by decide +kernel, by decide +kernel⟩
  have hoffset : testOffset "println!(\"[A] x\", #[cfg(test)] 1)".toList = 18 := by
    decide +kernel
  have hmarker : MarkerAt "println!(\"[A] x\", #[cfg(test)] 1)".toList 18 (18 + 12) :=
    ⟨"println!(\"[A] x\", ".toList, testAttribute, " 1)".toList, by decide +kernel,
      ⟨.attr, .inl rfl⟩, by decide +kernel, by decide +kernel⟩
  obtain ⟨groups, hcalls, htext, hapart, hgrowth, hkept, _⟩ := test_region_carried h
  rw [hoffset] at hapart hgrowth
  exact ⟨h, hoffset, hmarker, groups, hcalls, htext, hapart, hgrowth, hkept 18 12 hmarker⟩

end LogLift.Document
