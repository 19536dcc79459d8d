import LogLift.Severity
import LogLift.Proofs.Message.Parts
import LogLift.Proofs.Text.Utf8

/-! The level of a message is the most severe one that has a word in it.  So it depends on which words
the levels have and on no order or repetition among them, and more text never makes a message less
severe: a message with its tag is at least as severe as the message without it. -/

namespace LogLift

open LogLift.Text LogLift.Message

theorem occursIn_iff {word text : List Char} : occursIn word text = true ↔ word <:+: text := by
  induction text with
  | nil => simp [occursIn]
  | cons c cs ih =>
    rw [occursIn, Bool.or_eq_true, List.isPrefixOf_iff_prefix, ih, List.infix_cons_iff]

theorem Level.rank_inj {a b : Level} : a.rank = b.rank ↔ a = b := by
  cases a <;> cases b <;> decide

theorem Level.rank_le_debug (level : Level) : level.rank ≤ Level.debug.rank := by
  cases level <;> decide

namespace Keywords

/-- The words of a level.  The least severe one needs none. -/
def words (k : Keywords) : Level → List String
  | .error => k.error
  | .warn => k.warn
  | .info => k.info
  | .debug => []

/-- A word of the level stands in the text without a gap. -/
def Has (k : Keywords) (level : Level) (text : List Char) : Prop :=
  ∃ word ∈ k.words level, word.toList <:+: text

/-- The first level with a word in the text, or the last level when no other has one. -/
structure MostSevere (k : Keywords) (text : List Char) (level : Level) : Prop where
  has : level = .debug ∨ k.Has level text
  first : ∀ other, other.rank < level.rank → ¬k.Has other text

variable {k : Keywords} {text : List Char}

theorem anyOccurs_iff {words : List String} :
    anyOccurs words text = true ↔ ∃ word ∈ words, word.toList <:+: text := by
  simp only [anyOccurs, List.any_eq_true, occursIn_iff]

theorem not_has_debug : ¬k.Has .debug text := by
  rintro ⟨word, hword, _⟩
  simp [words] at hword

theorem Has.mono {level : Level} {whole : List Char} (h : k.Has level text)
    (hpart : text <:+: whole) : k.Has level whole := by
  obtain ⟨word, hword, hin⟩ := h
  exact ⟨word, hword, hin.trans hpart⟩

/-- Words are found among the bytes of a text where they are found among its characters. -/
theorem has_iff_utf8 {level : Level} :
    k.Has level text ↔ ∃ word ∈ k.words level, utf8 word.toList <:+: utf8 text := by
  simp only [Has, utf8_infix_iff]

theorem MostSevere.unique {a b : Level} (ha : k.MostSevere text a) (hb : k.MostSevere text b) :
    a = b := by
  -- the more severe of two levels has a word, unless it is the last level
  have hle : ∀ {a b}, k.MostSevere text a → k.MostSevere text b → b.rank ≤ a.rank := by
    intro a b ha hb
    by_contra hlt
    rcases ha.has with rfl | hhas
    · exact hlt b.rank_le_debug
    · exact hb.first a (Nat.lt_of_not_le hlt) hhas
  exact Level.rank_inj.1 (Nat.le_antisymm (hle hb ha) (hle ha hb))

theorem mostSevere_classify (k : Keywords) (text : List Char) :
    k.MostSevere text (k.classify text) := by
  simp only [classify, anyOccurs_iff]
  split
  · rename_i herror
    exact ⟨.inr herror, fun other hlt => absurd hlt (Nat.not_lt_zero _)⟩
  · rename_i herror
    split
    · rename_i hwarn
      refine ⟨.inr hwarn, fun other hlt => ?_⟩
      cases other with
      | error => exact herror
      | warn | info | debug => exact absurd hlt (by decide)
    · rename_i hwarn
      split
      · rename_i hinfo
        refine ⟨.inr hinfo, fun other hlt => ?_⟩
        cases other with
        | error => exact herror
        | warn => exact hwarn
        | info | debug => exact absurd hlt (by decide)
      · rename_i hinfo
        refine ⟨.inl rfl, fun other hlt => ?_⟩
        cases other with
        | error => exact herror
        | warn => exact hwarn
        | info => exact hinfo
        | debug => exact absurd hlt (by decide)

theorem classify_eq_iff {level : Level} : k.classify text = level ↔ k.MostSevere text level :=
  ⟨fun h => h ▸ k.mostSevere_classify text, fun h => (k.mostSevere_classify text).unique h⟩

theorem classify_eq_debug_iff : k.classify text = .debug ↔ ∀ level, ¬k.Has level text := by
  rw [classify_eq_iff]
  constructor
  · intro h level
    cases level with
    | error | warn | info => exact h.first _ (by decide)
    | debug => exact not_has_debug
  · exact fun h => ⟨.inl rfl, fun other _ => h other⟩

/-- Only the words that a level has matter. -/
theorem classify_congr {k' : Keywords}
    (hwords : ∀ level word, word ∈ k'.words level ↔ word ∈ k.words level) :
    k'.classify text = k.classify text := by
  have hhas : ∀ level, k'.Has level text ↔ k.Has level text := fun level => by
    simp only [Has, hwords]
  obtain ⟨has, first⟩ := k.mostSevere_classify text
  exact classify_eq_iff.2
    ⟨has.imp_right (hhas _).2, fun other hlt => mt (hhas other).1 (first other hlt)⟩

theorem rank_classify_le {whole : List Char} (h : text <:+: whole) :
    (k.classify whole).rank ≤ (k.classify text).rank := by
  by_contra hlt
  rcases (k.mostSevere_classify text).has with hdebug | hhas
  · exact hlt (hdebug ▸ Level.rank_le_debug _)
  · exact (k.mostSevere_classify whole).first _ (Nat.lt_of_not_le hlt) (hhas.mono h)

/-- The level of a text is the first in the order of severity that has a word among its bytes, and the
last where none has.  The order and number of a level's words play no part, and neither a longer
text nor a tag makes it less severe. -/
theorem classify_by_severity (k : Keywords) (text : List Char) :
    (∀ level, k.classify text = level ↔ k.MostSevere text level) ∧
    (k.classify text = .debug ↔ ∀ level, ¬k.Has level text) ∧
    (∀ level, k.Has level text ↔ ∃ word ∈ k.words level, utf8 word.toList <:+: utf8 text) ∧
    (∀ k' : Keywords, (∀ level word, word ∈ k'.words level ↔ word ∈ k.words level) →
      k'.classify text = k.classify text) ∧
    (∀ whole, text <:+: whole → (k.classify whole).rank ≤ (k.classify text).rank) ∧
    (k.classify text).rank ≤ (k.classify (stripTag text)).rank := by
  refine ⟨fun _ => classify_eq_iff, classify_eq_debug_iff, fun _ => has_iff_utf8,
    fun _ => classify_congr, fun _ => rank_classify_le, rank_classify_le ?_⟩
  exact ⟨tagOf text, [], by rw [List.append_nil, tagOf_append_stripTag]⟩

/-- Words that overlap and repeat, with the empty one among them, and a message that is an error by
its tag alone. -/
theorem classify_by_severity_overlapping :
    let k : Keywords := ⟨["失败"], ["", "失", ""], ["ok"]⟩
    let k' : Keywords := ⟨["失败", "失败"], ["失", ""], ["ok"]⟩
    k.classify "ok".toList = .warn ∧ k'.classify "ok".toList = k.classify "ok".toList ∧
      (k.classify "[失败] ok".toList).rank ≤ (k.classify "ok".toList).rank := by
  intro k k'
  obtain ⟨_, _, _, hcongr, hmono, _⟩ := k.classify_by_severity "ok".toList
  refine ⟨by decide +kernel, hcongr k' fun level word => ?_,
    hmono _ ⟨"[失败] ".toList, [], by decide +kernel⟩⟩
  cases level <;> simp [k, k', words, or_comm]

end Keywords

end LogLift
