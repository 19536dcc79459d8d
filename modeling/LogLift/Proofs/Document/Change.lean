import LogLift.Proofs.Document.Splice

/-! When lifting changes a text.  A lifted call never stands where it stood before: the name of a
printing call ends with `!` and has no colon in it, and the path of a logging call has a colon before
its first `!`.  So a lifted text differs from its source from the first lifted call on, whatever
names the rules give and whatever tags are lost later, and a text is the same only when no call was
lifted. -/

namespace LogLift.Document

open LogLift.Text LogLift.Source LogLift.Message

variable {rules : Rules} {keywords : Keywords} {source : List Char}

theorem bang_not_mem_logPath (rules : Rules) : '!' ∉ rules.logPath.toList := by
  intro hmem
  rcases of_mem_isIdentifierPath rules.isIdentifierPath_logPath hmem with h | h <;>
    exact absurd h (by decide)

/-- A text that starts with a printing call does not start with a logging call. -/
theorem callHead_append_ne (rules : Rules) (level : Level) (s t : List Char) :
    callHead rules ++ s ≠ (rules.logPath ++ "::" ++ level.name ++ "!").toList ++ t := by
  intro h
  have hcut : rules.macroName.toList ++ '!' :: s =
      rules.logPath.toList ++ ':' :: (':' :: (level.name.toList ++ '!' :: t)) := by
    simpa [callHead, String.toList_append] using h
  -- of the first `!` and the first colon, the one that comes first is out of place
  rcases mem_or_mem_of_append_cons_eq hcut (by decide) with hbang | hcolon
  · exact bang_not_mem_logPath rules hbang
  · exact rules.not_mem_macroName (by decide) hcolon

theorem LiftsTo.append_ne {call image : List Char} {level : Level} {tagStripped : Bool}
    (h : LiftsTo rules keywords call level tagStripped image) (s t : List Char) :
    call ++ s ≠ image ++ t := by
  cases h <;>
    simp only [List.append_assoc] <;>
    exact callHead_append_ne rules level _ _

theorem text_of_calls_eq_nil {r : Lifting} (h : lift rules keywords source = .ok r)
    (hcalls : r.calls = []) : r.text = source := by
  obtain ⟨hok, rfl⟩ := lift_eq_ok_iff.1 h
  obtain ⟨patches, hpatches, htext⟩ := (reads_cut rules source).patched hok keywords .start rfl
  have hnil : liftedCalls rules keywords .start (cut rules source).pieces = [] := hcalls
  rw [hnil] at hpatches
  cases hpatches
  exact (Option.some.inj htext).symm

/-- Up to its first lifted call a text is copied; from there on it is another. -/
theorem text_ne_of_calls_eq_cons {r : Lifting} {call : LiftedCall} {calls : List LiftedCall}
    (h : lift rules keywords source = .ok r) (hcalls : r.calls = call :: calls) :
    ∃ kept old new, byteLength kept = call.offset ∧ source = kept ++ old ∧ r.text = kept ++ new ∧
      old ≠ new := by
  obtain ⟨hok, rfl⟩ := lift_eq_ok_iff.1 h
  obtain ⟨patches, hpatches, htext⟩ := (reads_cut rules source).patched hok keywords .start rfl
  have hcons : liftedCalls rules keywords .start (cut rules source).pieces = call :: calls := hcalls
  rw [hcons] at hpatches
  obtain _ | ⟨⟨hstart, _, cs, hslice, hlifts⟩, _⟩ := hpatches
  obtain ⟨kept, old, rest, later, hsource, hkept, hold, _, hnew⟩ := patched?_cons_eq_some_iff.1 htext
  rw [byteLength_nil, Nat.zero_add] at hkept
  obtain rfl : cs = old := by
    refine hslice.unique ⟨kept, rest, ?_, hkept, hold⟩
    simpa using hsource
  exact ⟨kept, _, _, hkept.trans hstart, hsource, hnew, hlifts.append_ne rest later⟩

/-- A lifted text is its source exactly when no call was lifted. -/
theorem unchanged_iff_text_eq {r : Lifting} (h : lift rules keywords source = .ok r) :
    r.unchanged = true ↔ r.text = source := by
  rw [Lifting.unchanged, List.isEmpty_iff]
  constructor
  · exact text_of_calls_eq_nil h
  · intro htext
    cases hcalls : r.calls with
    | nil => rfl
    | cons call calls =>
      obtain ⟨kept, old, new, _, hsource, hnew, hne⟩ := text_ne_of_calls_eq_cons h hcalls
      rw [hnew, hsource] at htext
      exact absurd (List.append_cancel_left htext).symm hne

/-- Rules that replace a call by one whose path is made of the call's own name. -/
def echoRules : Rules := ⟨"debug", "debug::debug", by decide +kernel, by decide +kernel⟩

/-- A call that loses as many bytes with its tag as its name grows by, and a text whose calls are
commented or in the test region: the first is changed, the second is not. -/
theorem unchanged_iff_text_eq_echo :
    lift echoRules .default "debug!(\"[debug::debu] x\")".toList =
      .ok ⟨"debug::debug::debug!(\"x\")".toList, [⟨0, 1, .debug, true⟩]⟩ ∧
    byteLength "debug!(\"[debug::debu] x\")".toList =
      byteLength "debug::debug::debug!(\"x\")".toList ∧
    "debug::debug::debug!(\"x\")".toList ≠ "debug!(\"[debug::debu] x\")".toList ∧
    ∃ r, lift echoRules .default "// debug!(\"[a] b\")\nmod tests \x7b debug!(\"[a] b\") \x7d".toList =
      .ok r ∧ r.unchanged = true ∧
      r.text = "// debug!(\"[a] b\")\nmod tests \x7b debug!(\"[a] b\") \x7d".toList := by
  have h : lift echoRules .default "debug!(\"[debug::debu] x\")".toList =
      .ok ⟨"debug::debug::debug!(\"x\")".toList, [⟨0, 1, .debug, true⟩]⟩ :=
    lift_eq_ok_iff.2 ⟨by decide +kernel, by decide +kernel⟩
  have h' : lift echoRules .default
      "// debug!(\"[a] b\")\nmod tests \x7b debug!(\"[a] b\") \x7d".toList =
      .ok ⟨"// debug!(\"[a] b\")\nmod tests \x7b debug!(\"[a] b\") \x7d".toList, []⟩ :=
    lift_eq_ok_iff.2 ⟨by decide +kernel, by decide +kernel⟩
  refine ⟨h, by decide +kernel, fun htext => ?_, _, h', rfl, (unchanged_iff_text_eq h').1 rfl⟩
  exact absurd ((unchanged_iff_text_eq h).2 htext) (by decide)

end LogLift.Document
