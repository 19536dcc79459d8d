import Mathlib.Data.List.TakeWhile
import LogLift.Document.Piece

/-! The characters of names.  Those of an identifier are word characters, blanks are not, and the
names of valid rules are made of identifiers: so the name of a printing call, the `!` after it and
the path of a logging call can be told apart character by character. -/

namespace LogLift

open LogLift.Text

/-- The ranges of blanks and of word characters past ASCII have no code point in common. -/
theorem disjoint_blankRanges_wordRanges :
    ∀ r ∈ blankRanges, ∀ s ∈ wordRanges, r.2 < s.1 ∨ s.2 < r.1 := by
  decide +kernel

/-- The code points of identifiers: from the digit zero to the letter z. -/
theorem toNat_of_isIdentifierRest {c : Char} (h : isIdentifierRest c = true) :
    48 ≤ c.toNat ∧ c.toNat < 128 := by
  delta isIdentifierRest Char.isAlphanum Char.isAlpha Char.isUpper Char.isLower Char.isDigit at h
  simp only [Bool.or_eq_true, Bool.and_eq_true, decide_eq_true_eq, beq_iff_eq,
    UInt32.le_iff_toNat_le, ge_iff_le] at h
  change c = '_' ∨ ((65 ≤ c.toNat ∧ c.toNat ≤ 90) ∨ (97 ≤ c.toNat ∧ c.toNat ≤ 122)) ∨
    (48 ≤ c.toNat ∧ c.toNat ≤ 57) at h
  rcases h with rfl | h
  · decide
  · omega

theorem isWord_of_lt {c : Char} (h : c.toNat < 128) : isWord c = isIdentifierRest c := by
  rw [isWord, if_pos h, isIdentifierRest, Bool.or_comm]

theorem isWord_of_isIdentifierRest {c : Char} (h : isIdentifierRest c = true) :
    isWord c = true := by
  rwa [isWord_of_lt (toNat_of_isIdentifierRest h).2]

theorem isWord_of_isBlank {c : Char} (h : isBlank c = true) : isWord c = false := by
  obtain ⟨r, hr, hlo, hhi⟩ := inRanges_iff.1 h
  by_cases hascii : c.toNat < 128
  · rw [isWord_of_lt hascii, ← Bool.not_eq_true]
    intro hrest
    have := toNat_of_isIdentifierRest hrest
    simp only [blankRanges, List.mem_cons, List.not_mem_nil, or_false] at hr
    rcases hr with rfl | rfl | rfl | rfl | rfl | rfl | rfl | rfl | rfl | rfl <;>
      simp only at hlo hhi <;> omega
  · rw [isWord, if_neg hascii, ← Bool.not_eq_true, inRanges_iff]
    rintro ⟨s, hs, hlo', hhi'⟩
    have := disjoint_blankRanges_wordRanges r hr s hs
    omega

theorem exists_blanks_append_trimLeft (cs : List Char) :
    ∃ blanks, (∀ c ∈ blanks, isBlank c = true) ∧ cs = blanks ++ trimLeft cs :=
  ⟨cs.takeWhile isBlank, fun _ hc => List.mem_takeWhile_imp hc,
    List.takeWhile_append_dropWhile.symm⟩

theorem isIdentifierRest_of_isIdentifierStart {c : Char} (h : isIdentifierStart c = true) :
    isIdentifierRest c = true := by
  simp only [isIdentifierStart, isIdentifierRest, Char.isAlphanum, Bool.or_eq_true] at h ⊢
  exact h.imp_right .inl

theorem isIdentifier_ne_nil {cs : List Char} (h : isIdentifier cs = true) : cs ≠ [] := by
  rintro rfl
  simp [isIdentifier] at h

theorem isIdentifierRest_of_mem {cs : List Char} (h : isIdentifier cs = true) {c : Char}
    (hc : c ∈ cs) : isIdentifierRest c = true := by
  cases cs with
  | nil => simp at hc
  | cons d ds =>
    simp only [isIdentifier, Bool.and_eq_true, List.all_eq_true] at h
    rcases List.mem_cons.1 hc with rfl | hc
    · exact isIdentifierRest_of_isIdentifierStart h.1
    · exact h.2 c hc

theorem not_mem_of_isIdentifier {cs : List Char} (h : isIdentifier cs = true) {c : Char}
    (hc : isWord c = false) : c ∉ cs := by
  intro hmem
  rw [isWord_of_isIdentifierRest (isIdentifierRest_of_mem h hmem)] at hc
  exact absurd hc (by decide)

/-- Every character of a path is a colon or belongs to one of its segments. -/
theorem mem_pathSegments_or {cs : List Char} {c : Char} (h : c ∈ cs) :
    c = ':' ∨ ∃ s ∈ pathSegments cs, c ∈ s := by
  fun_induction pathSegments cs with
  | case1 => simp at h
  | case2 cs ih =>
    simp only [List.mem_cons] at h
    rcases h with h | h | h
    · exact .inl h
    · exact .inl h
    · obtain hcolon | ⟨s, hs, hc⟩ := ih h
      · exact .inl hcolon
      · exact .inr ⟨s, List.mem_cons_of_mem _ hs, hc⟩
  | case3 d cs _ hnil ih =>
    rcases List.mem_cons.1 h with rfl | h
    · exact .inr ⟨[c], by simp, by simp⟩
    · obtain hcolon | ⟨s, hs, _⟩ := ih h
      · exact .inl hcolon
      · simp [hnil] at hs
  | case4 d cs _ segment segments hcons ih =>
    rcases List.mem_cons.1 h with rfl | h
    · exact .inr ⟨c :: segment, by simp, by simp⟩
    · obtain hcolon | ⟨s, hs, hc⟩ := ih h
      · exact .inl hcolon
      · rw [hcons] at hs
        rcases List.mem_cons.1 hs with rfl | hs
        · exact .inr ⟨d :: s, by simp, by simp [hc]⟩
        · exact .inr ⟨s, by simp [hs], hc⟩

theorem of_mem_isIdentifierPath {cs : List Char} (h : isIdentifierPath cs = true) {c : Char}
    (hc : c ∈ cs) : c = ':' ∨ isIdentifierRest c = true := by
  obtain hcolon | ⟨s, hs, hmem⟩ := mem_pathSegments_or hc
  · exact .inl hcolon
  · exact .inr (isIdentifierRest_of_mem (List.all_eq_true.1 h s hs) hmem)

theorem exists_cons_of_isIdentifierPath {cs : List Char} (h : isIdentifierPath cs = true) :
    ∃ c ds, cs = c :: ds ∧ isIdentifierRest c = true := by
  rw [isIdentifierPath] at h
  fun_cases pathSegments cs with
  | case1 => simp [pathSegments, isIdentifier] at h
  | case2 cs => simp [pathSegments, isIdentifier] at h
  | case3 c cs hne hnil =>
    refine ⟨c, cs, rfl, ?_⟩
    rw [pathSegments, hnil] at h
    · simp only [List.all_cons, isIdentifier, Bool.and_eq_true] at h
      exact isIdentifierRest_of_isIdentifierStart h.1.1
    · exact hne
  | case4 c cs hne segment segments hcons =>
    refine ⟨c, cs, rfl, ?_⟩
    rw [pathSegments, hcons] at h
    · simp only [List.all_cons, isIdentifier, Bool.and_eq_true] at h
      exact isIdentifierRest_of_isIdentifierStart h.1.1
    · exact hne

theorem isIdentifierRest_of_mem_level {level : Level} {c : Char} (h : c ∈ level.name.toList) :
    isIdentifierRest c = true := by
  have hall : level.name.toList.all isIdentifierRest = true := by
    cases level <;> decide +kernel
  exact List.all_eq_true.1 hall c h

namespace Rules

variable (r : Rules)

theorem macroName_ne_nil : r.macroName.toList ≠ [] := isIdentifier_ne_nil r.isIdentifier_macroName

theorem isWord_of_mem_macroName {c : Char} (h : c ∈ r.macroName.toList) : isWord c = true :=
  isWord_of_isIdentifierRest (isIdentifierRest_of_mem r.isIdentifier_macroName h)

theorem not_mem_macroName {c : Char} (h : isWord c = false) : c ∉ r.macroName.toList :=
  not_mem_of_isIdentifier r.isIdentifier_macroName h

theorem exists_cons_macroName :
    ∃ c ds, r.macroName.toList = c :: ds ∧ isIdentifierRest c = true := by
  have hne := r.macroName_ne_nil
  obtain ⟨c, ds, h⟩ := List.exists_cons_of_ne_nil hne
  exact ⟨c, ds, h, isIdentifierRest_of_mem r.isIdentifier_macroName (by simp [h])⟩

end Rules

end LogLift
