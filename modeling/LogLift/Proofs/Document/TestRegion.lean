import LogLift.Proofs.Document.Splice
import LogLift.Proofs.Source.TestMarker

/-! The test region under lifting.  No test marker starts inside the head of a call or inside a
tag, so a call that reaches over the region's start changes the region only when its first literal
opens there and has a tag.  The region is kept byte for byte exactly when no call does that. -/

namespace LogLift.Document

open LogLift.Text LogLift.Source LogLift.Message

/-! ### Where no marker starts -/

theorem no_marker_in_callHead {rules : Rules} {previous : Option Char} {a b rest : List Char}
    (h : callHead rules = a ++ b) (hb : b ≠ []) :
    startsTestMarker previous (b ++ rest) = false := by
  obtain ⟨init, rfl, hname⟩ := exists_concat_of_concat_eq h hb
  rw [List.append_assoc]
  refine no_marker_before_bang (fun c hc => .inl (rules.isWord_of_mem_macroName ?_)) previous rest
  rw [hname]
  exact List.mem_append_right a hc

/-- No test marker starts in a tag: it would have to reach over the closing bracket to a brace. -/
theorem no_marker_in_tag {previous : Option Char} {tag a b rest : List Char} (htag : IsTag tag)
    (h : tag = a ++ b) (hb : b ≠ []) : startsTestMarker previous (b ++ rest) = false := by
  rw [← Bool.not_eq_true, startsTestMarker_iff]
  rintro ⟨text, ⟨hmarker, _⟩, hpre⟩
  obtain ⟨inner, blanks, rfl, _, hinner, hblank⟩ := htag
  obtain ⟨c, b, rfl⟩ := List.exists_cons_of_ne_nil hb
  have hmem : c ∈ '[' :: (inner ++ ']' :: blanks) := by simp [h]
  cases hmarker with
  | attr =>
    obtain ⟨rfl, _⟩ := List.cons_prefix_cons.1 hpre
    simp only [List.mem_cons, List.mem_append] at hmem
    rcases hmem with hmem | hmem | hmem | hmem
    · exact absurd hmem (by decide)
    · exact absurd (hinner _ hmem) (by decide)
    · exact absurd hmem (by decide)
    · exact absurd (hblank _ hmem) (by decide)
  | @moduleHead gap gap' _ hgap hafter =>
    obtain ⟨rfl, _⟩ := List.cons_prefix_cons.1 hpre
    cases a with
    | nil => exact absurd (List.cons.inj h).1 (by decide)
    | cons d a =>
      obtain ⟨rfl, hcut⟩ := List.cons.inj h
      obtain ⟨x, _, hx⟩ | ⟨x, rfl, hx⟩ := List.append_eq_append_iff.1 hcut
      · have hm : 'm' ∈ ']' :: blanks := by simp [hx]
        rcases List.mem_cons.1 hm with hm | hm
        · exact absurd hm (by decide)
        · exact absurd (hblank 'm' hm) (by decide)
      · -- of the bracket and the brace, the one that comes first is out of place
        obtain ⟨tail, htail⟩ := hpre
        rw [hx] at htail
        have hends : x ++ ']' :: (blanks ++ rest) =
            ['m', 'o', 'd'] ++ (gap ++ (['t', 'e', 's', 't', 's'] ++ gap')) ++ '\x7b' :: tail := by
          simpa using htail.symm
        rcases mem_or_mem_of_append_cons_eq hends (by decide) with hmem | hmem
        · simp only [List.mem_append] at hmem
          rcases hmem with hmem | hmem | hmem | hmem
          · exact absurd hmem (by decide)
          · exact absurd (hgap ']' hmem) (by decide)
          · exact absurd hmem (by decide)
          · exact absurd (hafter ']' hmem) (by decide)
        · exact absurd (hinner '\x7b' (by simp [hmem])) (by decide)

/-! ### Calls that reach into the test region -/

theorem liftedCalls_eq_nil {rules : Rules} {keywords : Keywords} {place : Place}
    {pieces : List Piece} (h : ∀ body, .call body ∉ pieces) :
    liftedCalls rules keywords place pieces = [] := by
  induction pieces generalizing place with
  | nil => rfl
  | cons piece pieces ih =>
    have hrest : ∀ body, .call body ∉ pieces := fun body hb => h body (by simp [hb])
    cases piece with
    | char c => rw [liftedCalls_char, ih hrest]
    | commented blanks => rw [liftedCalls_commented, ih hrest]
    | exempt body => rw [liftedCalls_exempt, ih hrest]
    | call body => exact absurd (by simp) (h body)

/-- After the quote before it, a text without its tag does not end as it did with the tag. -/
theorem not_suffix_without_tag {tag : List Char} (htag : IsTag tag) (y same front : List Char) :
    ¬y ++ (tag ++ same) <:+ front ++ ['"'] ++ same := by
  rintro ⟨w, hw⟩
  obtain ⟨init, z, rfl, hlast⟩ := htag.exists_last
  have hends : w ++ y ++ init ++ [z] ++ same = front ++ ['"'] ++ same := by
    simpa using hw
  obtain ⟨_, hz⟩ := List.append_inj' (List.append_cancel_right hends) rfl
  obtain rfl := List.singleton_inj.1 hz
  rcases hlast with hbracket | hblank
  · exact absurd hbracket (by decide)
  · exact absurd hblank (by decide)

/-- The end of a call that stands in the test region is kept exactly when the call's tag, if it
has one, opens before the region. -/
theorem suffix_untagged_iff {previous : Option Char} {body u m rest : List Char}
    (hbody : body = u ++ m) (hmarker : startsTestMarker previous (m ++ rest) = true)
    (front : List Char) :
    m <:+ front ++ untagged body ↔
      ∀ l, firstLiteral? body = some l → stripTag l.inner ≠ l.inner → l.start < byteLength u := by
  cases hl : firstLiteral? body with
  | none =>
    rw [untagged_of_none hl, hbody]
    simp [List.suffix_append_of_suffix, List.suffix_append]
  | some l =>
    have hcut := eq_append_tagOf hl
    rw [hbody] at hcut
    have hstart : l.start = byteLength (l.before ++ ['"']) := by
      rw [Literal.start, byteLength_append]
      rfl
    simp only [Option.some.injEq, forall_eq', untagged_of_some hl, hstart]
    generalize stripTag l.inner ++ '"' :: l.after = same at hcut ⊢
    by_cases hstrip : stripTag l.inner = l.inner
    · rw [tagOf_eq_nil_iff.2 hstrip, List.nil_append] at hcut
      rw [← hcut]
      simp [hstrip, List.suffix_append_of_suffix, List.suffix_append]
    · have htag := isTag_tagOf hstrip
      constructor
      · intro hsuffix _
        by_contra hle
        obtain ⟨y, _, rfl⟩ := exists_eq_append_of_byteLength_le hcut (by omega)
        exact not_suffix_without_tag htag y same (front ++ l.before) (by simpa using hsuffix)
      · intro hlt
        have hle := Nat.le_of_lt (hlt hstrip)
        obtain ⟨x, rfl, hx⟩ := exists_eq_append_of_byteLength_le hcut.symm hle
        obtain ⟨d, _, rfl⟩ | ⟨d, hd, rfl⟩ := List.append_eq_append_iff.1 hx
        · exact ⟨front ++ (l.before ++ ['"'] ++ d), by simp⟩
        · -- the marker does not start in the tag, so it starts after it
          cases d with
          | nil => exact ⟨front ++ (l.before ++ ['"']), by simp⟩
          | cons c d =>
            rw [List.append_assoc, no_marker_in_tag htag hd (by simp)] at hmarker
            exact absurd hmarker (by decide)

/-- The call at byte `start` loses a tag, which opens at byte `tag`. -/
def TagAt (rules : Rules) (source : List Char) (start tag : Nat) : Prop :=
  ∃ stop cs l, CallSpan rules source start stop ∧ Slice source start stop cs ∧
    firstLiteral? cs = some l ∧ stripTag l.inner ≠ l.inner ∧ tag = start + l.start

theorem tagAt_iff {rules : Rules} {before after blanks rest span afterSpan : List Char} {tag : Nat}
    (htoken : token? rules before.head? after = some (blanks, rest))
    (hspan : span? ('(' :: rest) = some (span, afterSpan)) :
    TagAt rules (before.reverse ++ after) (byteLength before) tag ↔
      ∃ l, firstLiteral? (blanks ++ span) = some l ∧ stripTag l.inner ≠ l.inner ∧
        tag = byteLength before + (byteLength (callHead rules) + l.start) := by
  have hcall := callSpan_iff.2 ⟨blanks, rest, span, afterSpan, htoken, hspan, rfl⟩
  have hslice : Slice (before.reverse ++ after) (byteLength before)
      (byteLength before + byteLength (callHead rules ++ (blanks ++ span)))
      (callHead rules ++ (blanks ++ span)) :=
    ⟨before.reverse, afterSpan, by rw [eq_append_of_token?_of_span? htoken hspan], by simp, rfl⟩
  have hfirst := firstLiteral?_append (quote_not_mem_callHead rules) (blanks ++ span)
  have hstart : ∀ l : Literal, Literal.start { l with before := callHead rules ++ l.before } =
      byteLength (callHead rules) + l.start := by
    intro l
    simp only [Literal.start, byteLength_append]
    omega
  constructor
  · rintro ⟨stop, cs, l, hcall', hslice', hl, hstrip, rfl⟩
    obtain rfl := hcall.unique hcall'
    obtain rfl := hslice.unique hslice'
    rw [hfirst] at hl
    obtain ⟨l', hl', rfl⟩ := Option.map_eq_some_iff.1 hl
    exact ⟨l', hl', hstrip, by rw [hstart]⟩
  · rintro ⟨l, hl, hstrip, rfl⟩
    refine ⟨_, _, { l with before := callHead rules ++ l.before }, hcall, hslice, ?_, hstrip, ?_⟩
    · rw [hfirst, hl, Option.map_some]
    · rw [hstart]

/-- Whatever stands before it, the lifted text of `pieces` ends with the test region exactly when no
call among them loses a tag in the region. -/
def KeepsRegion (rules : Rules) (keywords : Keywords) (source region : List Char) (boundary : Nat)
    (place : Place) (pieces : List Piece) : Prop :=
  ∀ front, region <:+ front ++ pieces.flatMap (·.image rules keywords) ↔
    ∀ call ∈ liftedCalls rules keywords place pieces, ∀ tag,
      TagAt rules source call.offset tag → tag < boundary

namespace KeepsRegion

variable {rules : Rules} {keywords : Keywords} {source region : List Char} {boundary : Nat}
  {place : Place} {pieces : List Piece}

theorem of_no_calls (hno : ∀ body, .call body ∉ pieces)
    (hregion : region <:+ pieces.flatMap (·.image rules keywords)) :
    KeepsRegion rules keywords source region boundary place pieces := by
  intro front
  rw [liftedCalls_eq_nil hno]
  simpa using List.suffix_append_of_suffix hregion

theorem char {c : Char}
    (h : KeepsRegion rules keywords source region boundary (place.after [c]) pieces) :
    KeepsRegion rules keywords source region boundary place (.char c :: pieces) := by
  intro front
  simpa using h (front ++ [c])

theorem commented {blanks : List Char}
    (h : KeepsRegion rules keywords source region boundary
      (place.after (tokenText rules blanks)) pieces) :
    KeepsRegion rules keywords source region boundary place (.commented blanks :: pieces) := by
  intro front
  simpa using h (front ++ tokenText rules blanks)

theorem call {body : List Char}
    (htag : ∀ tag, TagAt rules source place.offset tag → tag < boundary)
    (h : KeepsRegion rules keywords source region boundary
      (place.after (callHead rules ++ body)) pieces) :
    KeepsRegion rules keywords source region boundary place (.call body :: pieces) := by
  intro front
  have hrest := h (front ++ (Piece.call body).image rules keywords)
  rw [liftedCalls_call, List.forall_mem_cons, List.flatMap_cons, ← List.append_assoc, hrest]
  exact ⟨fun hcalls => ⟨htag, hcalls⟩, fun hcalls => hcalls.2⟩

/-- A call over the region's start keeps what it has of the region when its tag opens before. -/
theorem of_call {body u m rest : List Char} {previous : Option Char}
    (hbody : callHead rules ++ body = u ++ m)
    (hmarker : startsTestMarker (lastChar previous u) (m ++ rest) = true)
    (hrest : pieces.flatMap (·.image rules keywords) = rest) (hno : ∀ body, .call body ∉ pieces)
    (htag : ∀ tag, TagAt rules source place.offset tag ↔ ∃ l, firstLiteral? body = some l ∧
      stripTag l.inner ≠ l.inner ∧ tag = place.offset + (byteLength (callHead rules) + l.start))
    (hboundary : place.offset + byteLength u = boundary) :
    KeepsRegion rules keywords source (m ++ rest) boundary place (.call body :: pieces) := by
  -- the head of the call is in front of the region
  have hhead : ∃ v, u = callHead rules ++ v ∧ body = v ++ m := by
    obtain ⟨v, hv, hb⟩ | ⟨v, hv, rfl⟩ := List.append_eq_append_iff.1 hbody
    · exact ⟨v, hv, hb⟩
    · by_cases hnil : v = []
      · subst hnil
        exact ⟨[], by simpa using hv.symm, rfl⟩
      · rw [List.append_assoc, no_marker_in_callHead hv hnil] at hmarker
        exact absurd hmarker (by decide)
  obtain ⟨v, rfl, hb⟩ := hhead
  intro front
  have hsuffix := suffix_untagged_iff hb hmarker
    (front ++ (rules.replacement (callLevel keywords body)).toList)
  rw [liftedCalls_call, liftedCalls_eq_nil hno, List.flatMap_cons, Piece.image_call, hrest,
    ← List.append_assoc, List.suffix_append_self_iff, ← List.append_assoc, hsuffix]
  simp only [List.mem_singleton, forall_eq, htag]
  rw [byteLength_append] at hboundary
  constructor
  · rintro hl tag ⟨l, hsome, hstrip, rfl⟩
    have := hl l hsome hstrip
    omega
  · intro hl l hsome hstrip
    have := hl _ ⟨l, hsome, hstrip, rfl⟩
    omega

end KeepsRegion

/-- Along a reading, the region is kept when no call that is still to be lifted loses a tag in
it. -/
theorem Reads.keepsRegion {rules : Rules} {boundary : Nat} {before after : List Char}
    {cut : Cut} (h : Reads rules boundary before after cut) (hok : cut.failure = none)
    (keywords : Keywords) (place : Place) (hplace : place.offset = byteLength before)
    {source u region : List Char} (hsource : before.reverse ++ after = source)
    (hafter : after = u ++ region) (hboundary : byteLength before + byteLength u = boundary)
    (hmarker : region = [] ∨ startsTestMarker (lastChar before.head? u) region = true) :
    KeepsRegion rules keywords source region boundary place cut.pieces := by
  induction h generalizing place u with
  | done =>
    obtain ⟨rfl, rfl⟩ := List.append_eq_nil_iff.1 hafter.symm
    exact .of_no_calls (by simp) (by simp)
  | @char before cs c cut htoken hrest ih =>
    cases u with
    | nil =>
      have hle : boundary ≤ byteLength before := by
        rw [← hboundary, byteLength_nil, Nat.add_zero]
      obtain ⟨htext, hno⟩ := (Reads.char htoken hrest).copied hok hle keywords
      exact .of_no_calls hno (by rw [htext, hafter]; simp)
    | cons d u =>
      obtain ⟨rfl, rfl⟩ := List.cons.inj hafter
      refine .char (ih hok _ (offset_after hplace [c]) ?_ rfl ?_ hmarker)
      · simpa using hsource
      · rw [byteLength_cons] at hboundary ⊢
        omega
  | @commented before after blanks rest cut htoken _ hrest ih =>
    rw [eq_append_of_token? htoken] at hafter
    by_cases hle : byteLength (tokenText rules blanks) ≤ byteLength u
    · obtain ⟨v, rfl, rfl⟩ := exists_eq_append_of_byteLength_le hafter hle
      rw [byteLength_append] at hboundary
      refine .commented (ih hok _ (offset_after hplace _) ?_ rfl ?_ ?_)
      · rw [← hsource, eq_append_of_token? htoken]
        simp
      · rw [byteLength_reverse_append]
        omega
      · rwa [head?_reverse_append, ← lastChar_append]
    · obtain ⟨htext, hno⟩ := hrest.copied hok (by rw [byteLength_reverse_append]; omega) keywords
      refine .of_no_calls (by simpa using hno) ?_
      rw [Cut.cons_pieces, List.flatMap_cons, htext, Piece.image_commented, hafter]
      exact List.suffix_append u region
  | unterminated => simp at hok
  | @exempt before after blanks rest span afterSpan cut htoken hcomment hspan hle hrest ih =>
    obtain ⟨htext, hno⟩ := (Reads.exempt htoken hcomment hspan hle hrest).copied hok hle keywords
    exact .of_no_calls hno (by rw [htext, hafter]; exact List.suffix_append u region)
  | @call before after blanks rest span afterSpan cut htoken hcomment hspan hlt hrest ih =>
    have hcut := eq_append_of_token?_of_span? htoken hspan
    have htag : ∀ tag, TagAt rules source place.offset tag ↔
        ∃ l, firstLiteral? (blanks ++ span) = some l ∧ stripTag l.inner ≠ l.inner ∧
          tag = place.offset + (byteLength (callHead rules) + l.start) := by
      intro tag
      rw [← hsource, hplace]
      exact tagAt_iff htoken hspan
    rw [hcut] at hafter
    by_cases hle : byteLength (callHead rules ++ (blanks ++ span)) ≤ byteLength u
    · obtain ⟨v, rfl, rfl⟩ := exists_eq_append_of_byteLength_le hafter hle
      rw [byteLength_append] at hboundary
      refine .call ?_ (ih hok _ (offset_after hplace _) ?_ rfl ?_ ?_)
      · intro tag hat
        obtain ⟨l, hl, _, rfl⟩ := (htag tag).1 hat
        have := congrArg byteLength (eq_of_firstLiteral? hl)
        simp only [byteLength_append, byteLength_cons, Literal.start] at this hboundary ⊢
        have hquote : '"'.utf8Size = 1 := by decide
        omega
      · rw [← hsource, hcut]
        simp
      · rw [byteLength_reverse_append]
        omega
      · rwa [head?_reverse_append, ← lastChar_append]
    · obtain ⟨htext, hno⟩ := hrest.copied hok (by rw [byteLength_reverse_append]; omega) keywords
      obtain ⟨m, hm, rfl⟩ := exists_eq_append_of_byteLength_le hafter.symm (by omega)
      have hne : m ++ afterSpan ≠ [] := by
        rintro hnil
        obtain ⟨rfl, _⟩ := List.append_eq_nil_iff.1 hnil
        rw [hm, List.append_nil] at hle
        omega
      exact .of_call hm (hmarker.resolve_left hne) htext hno htag (by rw [hplace, hboundary])

/-- The text from the test region's start on is the end of the lifted text exactly when every tag
that a lifted call loses opens before the region. -/
theorem test_region_suffix_iff {rules : Rules} {keywords : Keywords} {source : List Char}
    {r : Lifting} (h : lift rules keywords source = .ok r) :
    ∃ front region, source = front ++ region ∧ byteLength front = testOffset source ∧
      (region <:+ r.text ↔ ∀ call ∈ r.calls, ∀ tag, TagAt rules source call.offset tag →
        tag < testOffset source) := by
  obtain ⟨hok, rfl⟩ := lift_eq_ok_iff.1 h
  obtain ⟨front, region, hsource, hlen, hmarker⟩ := exists_testOffsetFrom_split none source
  refine ⟨front, region, hsource, hlen, ?_⟩
  have hkeeps := (reads_cut rules source).keepsRegion hok keywords .start rfl rfl hsource
    (by rw [byteLength_nil, Nat.zero_add, hlen, testOffset]) hmarker
  exact hkeeps []

/-- A call over the region's start whose tag opens before it. -/
theorem test_region_suffix_iff_kept :
    lift .default .default "println!(\"[A] x\", #[cfg(test)] 1)".toList =
      .ok ⟨"log::debug!(\"x\", #[cfg(test)] 1)".toList, [⟨0, 1, .debug, true⟩]⟩ ∧
    ∃ front region, "println!(\"[A] x\", #[cfg(test)] 1)".toList = front ++ region ∧
      byteLength front = testOffset "println!(\"[A] x\", #[cfg(test)] 1)".toList ∧
      (region <:+ "log::debug!(\"x\", #[cfg(test)] 1)".toList ↔
        ∀ call ∈ [(⟨0, 1, .debug, true⟩ : LiftedCall)], ∀ tag,
          TagAt .default "println!(\"[A] x\", #[cfg(test)] 1)".toList call.offset tag →
          tag < testOffset "println!(\"[A] x\", #[cfg(test)] 1)".toList) := by
  have h : lift .default .default "println!(\"[A] x\", #[cfg(test)] 1)".toList =
      .ok ⟨"log::debug!(\"x\", #[cfg(test)] 1)".toList, [⟨0, 1, .debug, true⟩]⟩ :=
    lift_eq_ok_iff.2 ⟨by decide +kernel, by decide +kernel⟩
  exact ⟨h, test_region_suffix_iff h⟩

/-- A call that starts before the region and has its literal in the region: the tag is taken off
there. -/
theorem test_region_changed :
    lift .default .default "println!(#[cfg(test)] \"[A] x\");".toList =
      .ok ⟨"log::debug!(#[cfg(test)] \"x\");".toList, [⟨0, 1, .debug, true⟩]⟩ ∧
    splitAtByte? (testOffset "println!(#[cfg(test)] \"[A] x\");".toList)
        "println!(#[cfg(test)] \"[A] x\");".toList =
      some ("println!(".toList, "#[cfg(test)] \"[A] x\");".toList) ∧
    ¬"#[cfg(test)] \"[A] x\");".toList <:+ "log::debug!(#[cfg(test)] \"x\");".toList :=
  ⟨lift_eq_ok_iff.2 ⟨by decide +kernel, by decide +kernel⟩, by decide +kernel, by decide +kernel⟩

end LogLift.Document
