import LogLift.Proofs.Document.Carry
import LogLift.Proofs.Message.Quotes
import LogLift.Proofs.Source.Spans

/-! A lifted call is still a call.  In the lifted text the name of a logging call stands where the
call's name stood; the blanks behind it, the parenthesis and the one that closes it are those of the
source, and the first literal is the first one of the source without its tag. -/

namespace LogLift.Document

open LogLift.Text LogLift.Source LogLift.Message

/-- The call from byte `start` to byte `stop` of `text`: `name` and `blanks` stand before its
parenthesis, which closes at the end, and `message` is the inner text of its first literal. -/
structure CallAt (text : List Char) (start stop : Nat) (name blanks : List Char)
    (message : Option (List Char)) : Prop where
  closes : ∃ opening, Slice text start opening (name ++ blanks) ∧
    spanEnd text start opening = .ok stop
  literal : ∃ cs, Slice text start stop cs ∧ (firstLiteral? cs).map (·.inner) = message

/-- The call that was lifted is a call of `text` too, from byte `image.1` to byte `image.2`. -/
def StaysCall (rules : Rules) (source text : List Char) (call : LiftedCall)
    (image : Nat × Nat) : Prop :=
  ∃ stop blanks message, CallSpan rules source call.offset stop ∧
    (∀ c ∈ blanks, isBlank c = true) ∧
    CallAt source call.offset stop (callHead rules) blanks message ∧
    CallAt text image.1 image.2 (rules.replacement call.level).toList blanks
      (message.map stripTag)

/-! ### Bodies without their tags -/

theorem untagged_append {a : List Char} (ha : '"' ∉ a) (cs : List Char) :
    untagged (a ++ cs) = a ++ untagged cs := by
  rw [untagged, untagged, firstLiteral?_append ha]
  cases firstLiteral? cs with
  | none => rfl
  | some l => simp [Literal.source]

theorem span?_untagged {cs span rest : List Char} (h : span? cs = some (span, rest))
    (after : List Char) : span? (untagged span ++ after) = some (untagged span, after) := by
  cases hl : firstLiteral? span with
  | none =>
    rw [untagged_of_none hl]
    exact spanFrom?_append_of_some h after
  | some l =>
    have hbefore := (parts_of_firstLiteral? hl).1
    have hspan := eq_append_tagOf hl
    simp only [List.append_assoc, List.cons_append, List.nil_append] at hspan
    rw [hspan] at h
    rw [untagged_of_some hl]
    simpa using span?_without hbefore (plain_tagOf l.inner) h after

/-- The first literal is still the first, without its tag. -/
theorem firstLiteral?_untagged (body : List Char) :
    (firstLiteral? (untagged body)).map (·.inner) =
      ((firstLiteral? body).map (·.inner)).map stripTag := by
  cases hl : firstLiteral? body with
  | none => simp [untagged_of_none hl, hl]
  | some l =>
    have hstripped := firstLiteral?_stripTag hl (parts_of_firstLiteral? hl).1
    rw [untagged_of_some hl]
    simp [hstripped]

theorem LiftsTo.eq_untagged {rules : Rules} {keywords : Keywords} {body image : List Char}
    {level : Level} {tagStripped : Bool}
    (h : LiftsTo rules keywords (callHead rules ++ body) level tagStripped image) :
    image = (rules.replacement level).toList ++ untagged body := by
  generalize hcs : callHead rules ++ body = cs at h
  cases h with
  | @bare body' _ hnone _ =>
    obtain rfl := List.append_cancel_left hcs
    rw [firstLiteral?_append (quote_not_mem_callHead rules), Option.map_eq_none_iff] at hnone
    rw [untagged_of_none hnone, Rules.replacement]
  | @message front inner after _ _ hfirst _ _ =>
    obtain rfl := List.append_cancel_left hcs
    rw [firstLiteral?_append (quote_not_mem_callHead rules)] at hfirst
    obtain ⟨l, hl, hparts⟩ := Option.map_eq_some_iff.1 hfirst
    simp only [Literal.mk.injEq, List.append_cancel_left_eq] at hparts
    obtain ⟨rfl, rfl, rfl⟩ := hparts
    rw [untagged_of_some hl, Rules.replacement]
    simp

/-! ### Calls in a text -/

theorem CallSpan.exists_parts {rules : Rules} {source : List Char} {start stop : Nat}
    (h : CallSpan rules source start stop) :
    ∃ before blanks tail after,
      source = before ++ ((callHead rules ++ (blanks ++ '(' :: tail)) ++ after) ∧
      (∀ c ∈ blanks, isBlank c = true) ∧ byteLength before = start ∧
      start + byteLength (callHead rules ++ (blanks ++ '(' :: tail)) = stop ∧
      span? ('(' :: (tail ++ after)) = some ('(' :: tail, after) := by
  obtain ⟨opening, ⟨before, blanks, rest, rfl, _, hblank, rfl, rfl⟩, hend⟩ := h
  obtain ⟨front, rest', span, after, heq, hlen, hspan, rfl⟩ := spanEnd_eq_ok_iff.1 hend
  have hcut : (before ++ (callHead rules ++ blanks)) ++ '(' :: rest = front ++ '(' :: rest' := by
    simpa using heq
  obtain ⟨_, hrest⟩ := append_inj_of_byteLength hcut (by rw [byteLength_append, hlen])
  obtain ⟨_, rfl⟩ := List.cons.inj hrest
  obtain ⟨c, tail, rfl⟩ := List.exists_cons_of_ne_nil (spanFrom?_ne_nil hspan)
  obtain ⟨rfl, rfl⟩ := List.cons.inj (span?_append hspan)
  refine ⟨before, blanks, tail, after, by simp, hblank, rfl, ?_, hspan⟩
  simp only [byteLength_append]
  omega

theorem callAt_of_span? {front name blanks tail after : List Char}
    (h : span? ('(' :: (tail ++ after)) = some ('(' :: tail, after)) :
    CallAt (front ++ ((name ++ (blanks ++ '(' :: tail)) ++ after)) (byteLength front)
      (byteLength front + byteLength (name ++ (blanks ++ '(' :: tail))) name blanks
      ((firstLiteral? (name ++ (blanks ++ '(' :: tail))).map (·.inner)) where
  closes := by
    refine ⟨byteLength front + byteLength (name ++ blanks),
      ⟨front, '(' :: (tail ++ after), by simp, rfl, rfl⟩, spanEnd_eq_ok_iff.2 ?_⟩
    refine ⟨front ++ (name ++ blanks), tail ++ after, '(' :: tail, after, by simp, by simp, h, ?_⟩
    simp only [byteLength_append]
    omega
  literal := ⟨_, ⟨front, after, rfl, rfl, rfl⟩, rfl⟩

theorem quote_not_mem_of_isBlank {blanks : List Char} (h : ∀ c ∈ blanks, isBlank c = true) :
    '"' ∉ blanks := by
  intro hmem
  exact absurd (h '"' hmem) (by decide)

theorem quote_not_mem_replacement (rules : Rules) (level : Level) :
    '"' ∉ (rules.replacement level).toList := by
  rw [replacement_toList]
  intro h
  rcases List.mem_append.1 h with h | h
  · exact absurd (isWord_or_of_mem_name h) (by decide)
  · exact absurd h (by decide)

theorem map_inner_firstLiteral? {name blanks : List Char} (hname : '"' ∉ name)
    (hblank : ∀ c ∈ blanks, isBlank c = true) (span : List Char) :
    (firstLiteral? (name ++ (blanks ++ span))).map (·.inner) =
      (firstLiteral? span).map (·.inner) := by
  rw [firstLiteral?_append hname, firstLiteral?_append (quote_not_mem_of_isBlank hblank),
    Option.map_map, Option.map_map]
  rfl

theorem Patches.staysCall {rules : Rules} {keywords : Keywords} {source text : List Char}
    {call : LiftedCall} {patch : Patch} {image : Nat × Nat}
    (h : Patches rules keywords source call patch)
    (himage : Slice text image.1 image.2 patch.text) :
    StaysCall rules source text call image := by
  obtain ⟨hstart, hcall, cs, hcs, hlifts⟩ := h
  obtain ⟨before, blanks, tail, after, hsource, hblank, hlen, hstop, hspan⟩ := hcall.exists_parts
  have hcalltext : cs = callHead rules ++ (blanks ++ '(' :: tail) := by
    refine hcs.unique ⟨before, after, hsource, ?_, ?_⟩
    · rw [hstart, hlen]
    · rw [hstart, hstop]
  subst hcalltext
  have htext : patch.text = (rules.replacement call.level).toList ++
      (blanks ++ untagged ('(' :: tail)) := by
    rw [hlifts.eq_untagged, untagged_append (quote_not_mem_of_isBlank hblank)]
  -- the source's call and its image are cut alike, around the same blanks
  obtain ⟨tail', htail⟩ : ∃ tail', untagged ('(' :: tail) = '(' :: tail' :=
    ⟨_, untagged_append (a := ['(']) (by decide) tail⟩
  refine ⟨patch.stop, blanks, (firstLiteral? ('(' :: tail)).map (·.inner), hcall, hblank, ?_, ?_⟩
  · rw [hsource, ← hlen, ← hstop, ← hlen,
      ← map_inner_firstLiteral? (quote_not_mem_callHead rules) hblank]
    exact callAt_of_span? hspan
  · obtain ⟨front, rest, rfl, hfront, hend⟩ := himage
    have hspan' := span?_untagged hspan rest
    rw [← firstLiteral?_untagged, htail,
      ← map_inner_firstLiteral? (quote_not_mem_replacement rules call.level) hblank, ← hend,
      ← hfront, htext, htail]
    rw [htail] at hspan'
    exact callAt_of_span? hspan'

theorem forall₂_comp {α β γ : Type} {R : α → β → Prop} {S : β → γ → Prop} {T : α → γ → Prop}
    (hcomp : ∀ a b c, R a b → S b c → T a c) {as : List α} {bs : List β} {cs : List γ}
    (h : List.Forall₂ R as bs) (h' : List.Forall₂ S bs cs) : List.Forall₂ T as cs := by
  induction h generalizing cs with
  | nil =>
    cases h'
    exact .nil
  | cons hab _ ih =>
    obtain _ | ⟨hbc, h'⟩ := h'
    exact .cons (hcomp _ _ _ hab hbc) (ih h')

/-- Every lifted call is a call where its patch stands in the lifted text: the same blanks before
its parenthesis, a parenthesis that closes at the patch's end, and the same first literal without
its tag. -/
theorem lifted_calls_stay_calls {rules : Rules} {keywords : Keywords} {source : List Char}
    {r : Lifting} (h : lift rules keywords source = .ok r) :
    ∃ patches, List.Forall₂ (Patches rules keywords source) r.calls patches ∧
      patched? 0 source patches = some r.text ∧
      List.Forall₂ (StaysCall rules source r.text) r.calls (patchImages 0 0 patches) := by
  obtain ⟨hok, rfl⟩ := lift_eq_ok_iff.1 h
  obtain ⟨patches, hcalls, htext⟩ := (reads_cut rules source).patched hok keywords .start rfl
  refine ⟨patches, hcalls, htext, forall₂_comp ?_ hcalls (slices_of_patched? htext [])⟩
  intro call patch image hpatch himage
  exact hpatch.staysCall himage

/-- Two calls, the second with blanks before its parenthesis, a tag, and an escaped quote and a
parenthesis in its literal. -/
theorem lifted_calls_stay_calls_escaped :
    lift .default .default "println!(); println! (\"[A] say \\\")\", f(x));".toList =
      .ok ⟨"log::debug!(); log::debug! (\"say \\\")\", f(x));".toList,
        [⟨0, 1, .debug, false⟩, ⟨12, 1, .debug, true⟩]⟩ ∧
    ∃ patches, List.Forall₂ (Patches .default .default
        "println!(); println! (\"[A] say \\\")\", f(x));".toList)
        [⟨0, 1, .debug, false⟩, ⟨12, 1, .debug, true⟩] patches ∧
      patched? 0 "println!(); println! (\"[A] say \\\")\", f(x));".toList patches =
        some "log::debug!(); log::debug! (\"say \\\")\", f(x));".toList ∧
      List.Forall₂ (StaysCall .default
        "println!(); println! (\"[A] say \\\")\", f(x));".toList
        "log::debug!(); log::debug! (\"say \\\")\", f(x));".toList)
        [⟨0, 1, .debug, false⟩, ⟨12, 1, .debug, true⟩] (patchImages 0 0 patches) := by
  have h : lift .default .default "println!(); println! (\"[A] say \\\")\", f(x));".toList =
      .ok ⟨"log::debug!(); log::debug! (\"say \\\")\", f(x));".toList,
        [⟨0, 1, .debug, false⟩, ⟨12, 1, .debug, true⟩]⟩ :=
    lift_eq_ok_iff.2 ⟨by decide +kernel, by decide +kernel⟩
  exact ⟨h, lifted_calls_stay_calls h⟩

end LogLift.Document
