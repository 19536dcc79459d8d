import LogLift.Source.TestRegion
import LogLift.Proofs.Names
import LogLift.Proofs.Text.Revision

/-! Test markers as texts: the attribute, or the head of the module with any blanks in its gaps.
The test region starts at the first of them. -/

namespace LogLift.Source

open LogLift.Text

/-- The text of a test marker. -/
inductive IsMarker : List Char → Prop
  | attr : IsMarker testAttribute
  | moduleHead {gap gap' : List Char} : gap ≠ [] → (∀ c ∈ gap, isBlank c = true) →
      (∀ c ∈ gap', isBlank c = true) →
      IsMarker (['m', 'o', 'd'] ++ (gap ++ (['t', 'e', 's', 't', 's'] ++ (gap' ++ ['\x7b']))))

theorem trimLeft_blanks_append {blanks cs : List Char} {c : Char}
    (hblank : ∀ c ∈ blanks, isBlank c = true) (hc : isBlank c = false) :
    trimLeft (blanks ++ c :: cs) = c :: cs := by
  rw [trimLeft, List.dropWhile_append_of_pos hblank, List.dropWhile_cons_of_neg (by simp [hc])]

theorem startsTestsModule_iff {cs : List Char} :
    startsTestsModule cs = true ↔ ∃ gap gap',
      ['m', 'o', 'd'] ++ (gap ++ (['t', 'e', 's', 't', 's'] ++ (gap' ++ ['\x7b']))) <+: cs ∧
      gap ≠ [] ∧ (∀ c ∈ gap, isBlank c = true) ∧ ∀ c ∈ gap', isBlank c = true := by
  constructor
  · intro h
    unfold startsTestsModule at h
    split at h
    · simp at h
    · rename_i afterMod hmod
      obtain rfl := afterStart?_eq_some_iff.1 hmod
      split at h
      · simp at h
      · rename_i c tail
        rw [Bool.and_eq_true] at h
        obtain ⟨hc, h⟩ := h
        split at h
        · simp at h
        · rename_i afterName hname
          obtain ⟨gap', hgap', heq'⟩ := exists_blanks_append_trimLeft afterName
          obtain ⟨rest, hrest⟩ := List.head?_eq_some_iff.1 (by simpa using h)
          have hsplit := List.takeWhile_append_dropWhile (p := isBlank) (l := c :: tail)
          rw [← trimLeft, afterStart?_eq_some_iff.1 hname, heq', hrest] at hsplit
          refine ⟨(c :: tail).takeWhile isBlank, gap', ⟨rest, ?_⟩, by simp [hc],
            fun _ hd => List.mem_takeWhile_imp hd, hgap'⟩
          simpa using hsplit
  · rintro ⟨gap, gap', ⟨rest, rfl⟩, hne, hgap, hgap'⟩
    obtain ⟨c, gap, rfl⟩ := List.exists_cons_of_ne_nil hne
    have hmod : afterStart? "mod".toList (['m', 'o', 'd'] ++
        (c :: gap ++ (['t', 'e', 's', 't', 's'] ++ (gap' ++ ['\x7b']))) ++ rest) =
        some (c :: (gap ++ 't' :: 'e' :: 's' :: 't' :: 's' :: (gap' ++ '\x7b' :: rest))) :=
      afterStart?_eq_some_iff.2 (by simp)
    have hname : afterStart? "tests".toList (trimLeft
        (c :: (gap ++ 't' :: 'e' :: 's' :: 't' :: 's' :: (gap' ++ '\x7b' :: rest)))) =
        some (gap' ++ '\x7b' :: rest) := by
      rw [← List.cons_append, trimLeft_blanks_append hgap (by decide)]
      exact afterStart?_eq_some_iff.2 rfl
    have hbrace : trimLeft (gap' ++ '\x7b' :: rest) = '\x7b' :: rest :=
      trimLeft_blanks_append hgap' (by decide)
    rw [startsTestsModule, hmod]
    simp only [hname, hbrace, hgap c (by simp)]
    rfl

/-- The texts that `startsTestMarker` looks for. -/
def MarkerText (previous : Option Char) (text : List Char) : Prop :=
  IsMarker text ∧ (text = testAttribute ∨ wordMayStart previous = true)

theorem startsTestMarker_iff (previous : Option Char) (cs : List Char) :
    startsTestMarker previous cs = true ↔ ∃ text, MarkerText previous text ∧ text <+: cs := by
  rw [startsTestMarker, Bool.or_eq_true, Bool.and_eq_true, List.isPrefixOf_iff_prefix,
    startsTestsModule_iff]
  constructor
  · rintro (h | ⟨hword, gap, gap', hpre, hne, hgap, hgap'⟩)
    · exact ⟨_, ⟨.attr, .inl rfl⟩, h⟩
    · exact ⟨_, ⟨.moduleHead hne hgap hgap', .inr hword⟩, hpre⟩
  · rintro ⟨text, ⟨hmarker, hword⟩, hpre⟩
    cases hmarker with
    | attr => exact .inl hpre
    | moduleHead hne hgap hgap' =>
      refine .inr ⟨hword.resolve_left ?_, _, _, hpre, hne, hgap, hgap'⟩
      intro h
      exact absurd (List.cons.inj h).1 (by decide)

theorem startsTestMarker_congr {previous previous' : Option Char}
    (h : wordMayStart previous = wordMayStart previous') (cs : List Char) :
    startsTestMarker previous cs = startsTestMarker previous' cs := by
  rw [startsTestMarker, startsTestMarker, h]

namespace IsMarker

variable {text : List Char}

theorem exists_last (h : IsMarker text) :
    ∃ init z, text = init ++ [z] ∧ (z = ']' ∨ z = '\x7b') := by
  cases h with
  | attr => exact ⟨"#[cfg(test)".toList, ']', by decide, .inl rfl⟩
  | @moduleHead gap gap' _ _ _ =>
    refine ⟨['m', 'o', 'd'] ++ (gap ++ (['t', 'e', 's', 't', 's'] ++ gap')), '\x7b', ?_, .inr rfl⟩
    simp

/-- Blanks aside, a marker holds only the characters of its two forms. -/
theorem of_mem (h : IsMarker text) {c : Char} (hc : c ∈ text) :
    isBlank c = true ∨ c ∈ "#[cfg(test)]modtests\x7b".toList := by
  cases h with
  | attr => exact .inr (List.mem_append_left "modtests\x7b".toList hc)
  | moduleHead _ hgap hgap' =>
    have hmod : ['m', 'o', 'd'] ⊆ "#[cfg(test)]modtests\x7b".toList := by decide +kernel
    have htests : ['t', 'e', 's', 't', 's'] ⊆ "#[cfg(test)]modtests\x7b".toList := by
      decide +kernel
    have hbrace : ['\x7b'] ⊆ "#[cfg(test)]modtests\x7b".toList := by decide +kernel
    simp only [List.mem_append] at hc
    rcases hc with hc | hc | hc | hc | hc
    · exact .inr (hmod hc)
    · exact .inl (hgap c hc)
    · exact .inr (htests hc)
    · exact .inl (hgap' c hc)
    · exact .inr (hbrace hc)

theorem bang_not_mem (h : IsMarker text) : '!' ∉ text := by
  intro hmem
  exact absurd (h.of_mem hmem) (by decide)

theorem quote_not_mem (h : IsMarker text) : '"' ∉ text := by
  intro hmem
  exact absurd (h.of_mem hmem) (by decide)

end IsMarker

/-- A marker does not reach over the `!` after a name. -/
theorem within_of_bang {name : List Char} (hname : ∀ c ∈ name, isWord c = true ∨ c = ':')
    (w s : List Char) : Within IsMarker w (name ++ '!' :: s) := by
  intro text hmarker hpre
  obtain hpre | ⟨c, r, rfl, rest, hr⟩ := prefix_or_of_prefix_append hpre
  · exact hpre
  · -- the marker's last character would have to stand in the name, or `!` in the marker
    obtain ⟨_, z, hz, hlast⟩ := hmarker.exists_last
    obtain ⟨init, hinit, _⟩ := exists_concat_of_concat_eq hz.symm (by simp)
    have hcut : init ++ z :: rest = name ++ '!' :: s := by
      rw [← hr, hinit]
      simp
    have hbang : z ≠ '!' := by
      rcases hlast with rfl | rfl <;> decide
    rcases mem_or_mem_of_append_cons_eq hcut hbang with hmem | hmem
    · have := hname z hmem
      rcases hlast with rfl | rfl
      · exact absurd this (by decide)
      · exact absurd this (by decide)
    · exact absurd (by simp [hinit, hmem]) hmarker.bang_not_mem

theorem IsMarker.not_prefix_bang {text name : List Char} (h : IsMarker text)
    (hname : ∀ c ∈ name, isWord c = true ∨ c = ':') (s : List Char) :
    ¬text <+: name ++ '!' :: s := by
  intro hpre
  have hnil := within_of_bang hname [] s text h hpre
  obtain ⟨init, z, rfl, _⟩ := h.exists_last
  simp at hnil

theorem no_marker_before_bang {name : List Char} (hname : ∀ c ∈ name, isWord c = true ∨ c = ':')
    (previous : Option Char) (s : List Char) :
    startsTestMarker previous (name ++ '!' :: s) = false := by
  rw [← Bool.not_eq_true, startsTestMarker_iff]
  rintro ⟨text, ⟨hmarker, _⟩, hpre⟩
  exact hmarker.not_prefix_bang hname s hpre

/-! ### The first marker -/

/-- The test region of a text starts at a test marker, or at the text's end. -/
theorem exists_testOffsetFrom_split (previous : Option Char) (cs : List Char) :
    ∃ front region, cs = front ++ region ∧ byteLength front = testOffsetFrom previous cs ∧
      (region = [] ∨ startsTestMarker (lastChar previous front) region = true) := by
  induction cs generalizing previous with
  | nil => exact ⟨[], [], rfl, rfl, .inl rfl⟩
  | cons c cs ih =>
    rw [testOffsetFrom]
    split
    · rename_i hmarker
      exact ⟨[], c :: cs, rfl, rfl, .inr hmarker⟩
    · obtain ⟨front, region, rfl, hlen, hmarker⟩ := ih (some c)
      exact ⟨c :: front, region, rfl, by rw [byteLength_cons, hlen], hmarker⟩

theorem testOffset_le_byteLength (source : List Char) : testOffset source ≤ byteLength source := by
  obtain ⟨front, region, hsource, hlen, _⟩ := exists_testOffsetFrom_split none source
  rw [testOffset, ← hlen, hsource, byteLength_append]
  omega

theorem lt_byteLength_of_occurs {cs : List Char} {previous : Option Char} {k : Nat}
    (h : Occurs startsTestMarker previous cs k) : k < byteLength cs := by
  obtain ⟨a, b, rfl, rfl, hmarker⟩ := h
  have hb : b ≠ [] := by
    rintro rfl
    obtain ⟨text, htext, hpre⟩ := (startsTestMarker_iff _ _).1 hmarker
    obtain ⟨init, z, rfl, _⟩ := htext.1.exists_last
    simp at hpre
  have := byteLength_pos hb
  rw [byteLength_append]
  omega

theorem testOffsetFrom_le {previous : Option Char} {cs : List Char} {k : Nat}
    (h : Occurs startsTestMarker previous cs k) : testOffsetFrom previous cs ≤ k := by
  induction cs generalizing previous k with
  | nil => exact Nat.zero_le k
  | cons c cs ih =>
    rw [testOffsetFrom]
    split
    · exact Nat.zero_le k
    · rename_i hstart
      obtain ⟨a, b, heq, rfl, hmarker⟩ := h
      cases a with
      | nil =>
        rw [List.nil_append] at heq
        exact absurd (heq ▸ hmarker) hstart
      | cons d a =>
        obtain ⟨rfl, rfl⟩ := List.cons.inj heq
        have := ih ⟨a, b, rfl, rfl, hmarker⟩
        rw [byteLength_cons]
        omega

theorem occurs_testOffset {source : List Char} (h : testOffset source < byteLength source) :
    Occurs startsTestMarker none source (testOffset source) := by
  obtain ⟨front, region, hsource, hlen, hmarker⟩ := exists_testOffsetFrom_split none source
  refine ⟨front, region, hsource, hlen, hmarker.resolve_left ?_⟩
  rintro rfl
  rw [testOffset, ← hlen, hsource, List.append_nil] at h
  exact Nat.lt_irrefl _ h

/-! ### Markers by their offsets -/

/-- A test marker stands in `source` from byte `start` to byte `stop`. -/
def MarkerAt (source : List Char) (start stop : Nat) : Prop :=
  ∃ before text after, source = before ++ (text ++ after) ∧ MarkerText before.getLast? text ∧
    byteLength before = start ∧ start + byteLength text = stop

theorem MarkerAt.occurs {source : List Char} {start stop : Nat} (h : MarkerAt source start stop) :
    Occurs startsTestMarker none source start := by
  obtain ⟨before, text, after, rfl, htext, hstart, _⟩ := h
  refine ⟨before, text ++ after, rfl, hstart, ?_⟩
  rw [lastChar_none]
  exact (startsTestMarker_iff _ _).2 ⟨text, htext, List.prefix_append text after⟩

theorem testOffset_eq_byteLength_iff {source : List Char} :
    testOffset source = byteLength source ↔ ∀ start stop, ¬MarkerAt source start stop := by
  constructor
  · intro hall start stop hmarker
    have hle := testOffsetFrom_le hmarker.occurs
    have hlt := lt_byteLength_of_occurs hmarker.occurs
    rw [testOffset] at hall
    omega
  · intro hnone
    rcases Nat.lt_or_eq_of_le (testOffset_le_byteLength source) with hlt | heq
    · obtain ⟨before, region, hsource, hlen, hmarker⟩ := occurs_testOffset hlt
      rw [lastChar_none] at hmarker
      obtain ⟨text, htext, after, rfl⟩ := (startsTestMarker_iff _ _).1 hmarker
      exact absurd ⟨before, text, after, hsource, htext, hlen, rfl⟩ (hnone _ _)
    · exact heq

/-- Text in which no marker starts is before the test region of what follows it. -/
theorem testOffsetFrom_append {previous : Option Char} {a b : List Char}
    (h : ∀ x w, a = x ++ w → w ≠ [] → startsTestMarker (lastChar previous x) (w ++ b) = false) :
    testOffsetFrom previous (a ++ b) =
      byteLength a + testOffsetFrom (lastChar previous a) b := by
  induction a generalizing previous with
  | nil => simp
  | cons c a ih =>
    have hstart := h [] (c :: a) rfl (by simp)
    have hrest : ∀ x w, a = x ++ w → w ≠ [] →
        startsTestMarker (lastChar (some c) x) (w ++ b) = false :=
      fun x w hw hne => h (c :: x) w (by simp [hw]) hne
    rw [lastChar_nil, List.cons_append] at hstart
    rw [List.cons_append, testOffsetFrom, hstart, ih hrest, lastChar_cons, byteLength_cons]
    simp only [Bool.false_eq_true, if_false]
    omega

theorem testOffsetFrom_congr {previous previous' : Option Char}
    (h : wordMayStart previous = wordMayStart previous') (cs : List Char) :
    testOffsetFrom previous cs = testOffsetFrom previous' cs := by
  cases cs with
  | nil => rfl
  | cons c cs => rw [testOffsetFrom, testOffsetFrom, startsTestMarker_congr h]

end LogLift.Source
