import LogLift.Proofs.Document.Carry
import LogLift.Proofs.Document.Change
import LogLift.Proofs.Document.Selection

/-! Lifting a lifted text again.  A text is a fixed point of lifting when its tokens before the test
region are all commented and every scanned call closes.  No token of a lifted text is new, so a
second pass changes nothing exactly when every token that the first pass left has these two
properties in the lifted text.  A token inside a lifted call is left and may have neither. -/

namespace LogLift.Document

open LogLift.Text LogLift.Source LogLift.Message

variable {rules : Rules} {keywords : Keywords} {source : List Char}

theorem IsToken.onComment? {start : Nat} (h : IsToken rules source start) :
    ∃ b, onComment? source start = some b := by
  obtain ⟨_, before, blanks, rest, rfl, _, _, rfl, _⟩ := h
  have := onComment?_eq before.reverse (callHead rules ++ (blanks ++ '(' :: rest))
  rw [List.reverse_reverse, byteLength_reverse] at this
  exact ⟨_, this⟩

/-- No token is scanned before the test region exactly when all tokens there are commented. -/
theorem forall_not_scanned_iff :
    (∀ p, ¬(Scanned rules source p ∧ p < testOffset source)) ↔
      ∀ p, IsToken rules source p → p < testOffset source → onComment? source p = some true := by
  constructor
  · intro hnone p htoken hlt
    obtain ⟨b, hb⟩ := htoken.onComment?
    cases b with
    | true => exact hb
    | false =>
      -- there is no scanned token before `p` either, so nothing hides it
      refine absurd ⟨?_, hlt⟩ (hnone p)
      rw [Scanned]
      refine ⟨htoken, hb, fun earlier hearlier hscanned => ?_⟩
      exact absurd ⟨hscanned, by omega⟩ (hnone earlier)
  · rintro hall p ⟨hscanned, hlt⟩
    rw [Scanned] at hscanned
    have := hall p hscanned.1 hlt
    rw [hscanned.2.1] at this
    exact absurd this (by decide)

/-- A text is a fixed point of lifting when its tokens before the test region are commented and
every scanned call closes. -/
theorem lift_eq_self_iff :
    lift rules keywords source = .ok ⟨source, []⟩ ↔
      (∀ p, IsToken rules source p → p < testOffset source → onComment? source p = some true) ∧
        ∀ p, Scanned rules source p → Closes rules source p := by
  rw [← forall_not_scanned_iff, ← cut_failure_eq_none_iff]
  constructor
  · intro h
    obtain ⟨hok, hr⟩ := lift_eq_ok_iff.1 h
    have hmem := (reads_cut rules source).mem_offsets_iff hok (.start rules source) keywords
      .start rfl
    have hcalls : liftedCalls rules keywords .start (cut rules source).pieces = [] :=
      (congrArg Lifting.calls hr).symm
    refine ⟨fun p hp => ?_, hok⟩
    have := (hmem p).2 ⟨⟨Nat.zero_le p, hp.1⟩, hp.2⟩
    rw [hcalls] at this
    exact absurd this (by simp)
  · rintro ⟨hnone, hok⟩
    have hmem := (reads_cut rules source).mem_offsets_iff hok (.start rules source) keywords
      .start rfl
    have hlift : lift rules keywords source =
        .ok (liftPieces rules keywords (cut rules source).pieces) := lift_eq_ok_iff.2 ⟨hok, rfl⟩
    have hcalls : (liftPieces rules keywords (cut rules source).pieces).calls = [] := by
      rw [List.eq_nil_iff_forall_not_mem]
      intro call hcall
      have := (hmem call.offset).1 (List.mem_map_of_mem hcall)
      exact hnone call.offset ⟨this.1.2, this.2⟩
    have htext := text_of_calls_eq_nil hlift hcalls
    rw [hlift]
    generalize liftPieces rules keywords (cut rules source).pieces = r at hcalls htext
    obtain ⟨text, calls⟩ := r
    simp only at hcalls htext
    rw [hcalls, htext]

/-- A second pass changes nothing exactly when every token that the first pass left is in a comment
of the lifted text, if it stands before the test region, and has a closing parenthesis, if the
second pass scans it. -/
theorem second_pass_unchanged_iff {first : Lifting}
    (hname : ∀ level : Level, rules.macroName ≠ level.name)
    (h : lift rules keywords source = .ok first) :
    (∃ second, lift rules keywords first.text = .ok second ∧ second.replacements = 0 ∧
        second.text = first.text) ↔
      ∀ p q, IsToken rules source p → moved (revision rules keywords source) p = some q →
        (p < testOffset source → onComment? first.text q = some true) ∧
          (Scanned rules first.text q → Closes rules first.text q) := by
  have hfixed : (∃ second, lift rules keywords first.text = .ok second ∧
      second.replacements = 0 ∧ second.text = first.text) ↔
      lift rules keywords first.text = .ok ⟨first.text, []⟩ := by
    constructor
    · rintro ⟨⟨text, calls⟩, hlift, hzero, htext⟩
      obtain rfl := List.length_eq_zero_iff.1 hzero
      obtain rfl : text = first.text := htext
      exact hlift
    · intro hlift
      exact ⟨_, hlift, rfl, rfl⟩
  rw [hfixed, lift_eq_self_iff]
  constructor
  · rintro ⟨hcomment, hcloses⟩ p q hp hmoved
    have hq := (isToken_lifted_iff hname h).2 ⟨p, hmoved, hp⟩
    exact ⟨fun hlt => hcomment q hq ((lt_testOffset_iff h hmoved).2 hlt), hcloses q⟩
  · intro hall
    constructor
    · intro q hq hlt
      obtain ⟨p, hmoved, hp⟩ := (isToken_lifted_iff hname h).1 hq
      exact (hall p q hp hmoved).1 ((lt_testOffset_iff h hmoved).1 hlt)
    · intro q hscanned
      have hq : IsToken rules first.text q := by
        rw [Scanned] at hscanned
        exact hscanned.1
      obtain ⟨p, hmoved, hp⟩ := (isToken_lifted_iff hname h).1 hq
      exact (hall p q hp hmoved).2 hscanned

theorem macroName_default_ne (level : Level) : Rules.default.macroName ≠ level.name := by
  cases level <;> decide

/-- A tagged call and a commented one: the first is lifted, the second is left. -/
theorem second_pass_unchanged_iff_commented :
    lift .default .default "println!(\"[A] x\"); // println!(1)".toList =
      .ok ⟨"log::debug!(\"x\"); // println!(1)".toList, [⟨0, 1, .debug, true⟩]⟩ ∧
    ((∃ second, lift .default .default "log::debug!(\"x\"); // println!(1)".toList = .ok second ∧
        second.replacements = 0 ∧ second.text = "log::debug!(\"x\"); // println!(1)".toList) ↔
      ∀ p q, IsToken .default "println!(\"[A] x\"); // println!(1)".toList p →
        moved (revision .default .default "println!(\"[A] x\"); // println!(1)".toList) p = some q →
        (p < testOffset "println!(\"[A] x\"); // println!(1)".toList →
            onComment? "log::debug!(\"x\"); // println!(1)".toList q = some true) ∧
          (Scanned .default "log::debug!(\"x\"); // println!(1)".toList q →
            Closes .default "log::debug!(\"x\"); // println!(1)".toList q)) := by
  have h : lift .default .default "println!(\"[A] x\"); // println!(1)".toList =
      .ok ⟨"log::debug!(\"x\"); // println!(1)".toList, [⟨0, 1, .debug, true⟩]⟩ :=
    lift_eq_ok_iff.2 ⟨by decide +kernel, by decide +kernel⟩
  exact ⟨h, second_pass_unchanged_iff macroName_default_ne h⟩

/-- A call inside a lifted call is left by the first pass and lifted by the second. -/
theorem second_pass_lifts_nested :
    (∀ level : Level, Rules.default.macroName ≠ level.name) ∧
    lift .default .default "println!(println!())".toList =
      .ok ⟨"log::debug!(println!())".toList, [⟨0, 1, .debug, false⟩]⟩ ∧
    lift .default .default "log::debug!(println!())".toList =
      .ok ⟨"log::debug!(log::debug!())".toList, [⟨12, 1, .debug, false⟩]⟩ ∧
    ¬∃ second, lift .default .default "log::debug!(println!())".toList = .ok second ∧
      second.replacements = 0 ∧ second.text = "log::debug!(println!())".toList := by
  have h : lift .default .default "log::debug!(println!())".toList =
      .ok ⟨"log::debug!(log::debug!())".toList, [⟨12, 1, .debug, false⟩]⟩ :=
    lift_eq_ok_iff.2 ⟨by decide +kernel, by decide +kernel⟩
  refine ⟨macroName_default_ne, lift_eq_ok_iff.2 ⟨by decide +kernel, by decide +kernel⟩, h, ?_⟩
  rintro ⟨second, hsecond, hzero, _⟩
  rw [h] at hsecond
  obtain rfl := Except.ok.inj hsecond
  exact absurd hzero (by decide)

end LogLift.Document
