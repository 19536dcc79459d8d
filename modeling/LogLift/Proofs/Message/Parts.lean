import Mathlib.Data.List.TakeWhile
import LogLift.Message.Literal
import LogLift.Message.Tag

/-! The parts of a message.  The first literal cuts a text without loss, text without a quote does
not hide it, and what `stripTag` takes off a message is a bracketed tag with the blanks after
it. -/

namespace LogLift.Message

open LogLift.Text

theorem literalBody?_append {cs inner rest : List Char}
    (h : literalBody? cs = some (inner, rest)) : cs = inner ++ '"' :: rest := by
  fun_induction literalBody? cs generalizing inner rest with
  | case1 => simp at h
  | case2 cs =>
    simp only [Option.some.injEq, Prod.mk.injEq] at h
    obtain ⟨rfl, rfl⟩ := h
    rfl
  | case3 c cs ih =>
    obtain ⟨p, hp, hq⟩ := Option.map_eq_some_iff.1 h
    simp only [Prod.mk.injEq] at hq
    obtain ⟨rfl, rfl⟩ := hq
    simp [← ih hp]
  | case4 => simp at h
  | case5 c cs _ _ _ ih =>
    obtain ⟨p, hp, hq⟩ := Option.map_eq_some_iff.1 h
    simp only [Prod.mk.injEq] at hq
    obtain ⟨rfl, rfl⟩ := hq
    simp [← ih hp]

theorem source_of_firstLiteral? {cs : List Char} {l : Literal} (h : firstLiteral? cs = some l) :
    l.source = cs := by
  fun_induction firstLiteral? cs generalizing l with
  | case1 => simp at h
  | case2 c rest inner after hbody =>
    simp only [Option.some.injEq] at h
    subst h
    split at hbody
    · rename_i hc
      subst hc
      simp [Literal.source, literalBody?_append hbody]
    · simp at hbody
  | case3 c rest hbody ih =>
    obtain ⟨l', hl', rfl⟩ := Option.map_eq_some_iff.1 h
    have hsource := ih hl'
    simp only [Literal.source, List.cons_append] at hsource ⊢
    rw [hsource]

theorem eq_of_firstLiteral? {cs : List Char} {l : Literal} (h : firstLiteral? cs = some l) :
    cs = l.before ++ '"' :: (l.inner ++ '"' :: l.after) :=
  (source_of_firstLiteral? h).symm

/-- The first literal of a text is the same after a front without a quote. -/
theorem firstLiteral?_append {a : List Char} (ha : '"' ∉ a) (cs : List Char) :
    firstLiteral? (a ++ cs) =
      (firstLiteral? cs).map fun l => { l with before := a ++ l.before } := by
  induction a with
  | nil => simp
  | cons c a ih =>
    have hc : c ≠ '"' := fun h => ha (by simp [h])
    have ha' : '"' ∉ a := fun h => ha (List.mem_cons_of_mem c h)
    rw [List.cons_append, firstLiteral?, if_neg hc, ih ha']
    cases firstLiteral? cs <;> rfl

/-- The text is a bracketed tag, blanks, and a rest that does not start with a blank. -/
structure Tagged (text tag blanks rest : List Char) : Prop where
  text_eq : text = '[' :: (tag ++ ']' :: (blanks ++ rest))
  tag_ne_nil : tag ≠ []
  tag_char : ∀ c ∈ tag, isWord c = true ∨ isBlank c = true ∨ c ∈ ['_', '-', ':', '.']
  blank : ∀ c ∈ blanks, isBlank c = true
  rest_start : ∀ c, rest.head? = some c → isBlank c = false

theorem isTagChar_iff {c : Char} :
    isTagChar c = true ↔ isWord c = true ∨ isBlank c = true ∨ c ∈ ['_', '-', ':', '.'] := by
  simp [isTagChar, or_assoc]

theorem isBlank_head?_trimLeft {cs : List Char} {c : Char} (h : (trimLeft cs).head? = some c) :
    isBlank c = false := by
  have hhead := List.head?_dropWhile_not isBlank cs
  rw [← trimLeft, h] at hhead
  exact hhead

/-- What `stripTag` takes off is a tag with all the blanks after it, or nothing. -/
theorem tagged_stripTag_or (text : List Char) :
    (∃ tag blanks, Tagged text tag blanks (stripTag text)) ∨ stripTag text = text := by
  fun_cases stripTag text with
  | case1 cs c tag rest hdrop htake =>
    refine .inl ⟨c :: tag, rest.takeWhile isBlank, ?_, by simp, ?_, ?_, ?_⟩
    · rw [trimLeft, List.takeWhile_append_dropWhile, ← htake, ← hdrop,
        List.takeWhile_append_dropWhile]
    · intro d hd
      rw [← htake] at hd
      exact isTagChar_iff.1 (List.mem_takeWhile_imp hd)
    · exact fun d hd => List.mem_takeWhile_imp hd
    · exact fun d hd => isBlank_head?_trimLeft hd
  | case2 | case3 => exact .inr rfl

/-- A tag with the blanks after it: at least one tag character in brackets, then blanks. -/
def IsTag (cs : List Char) : Prop :=
  ∃ tag blanks, cs = '[' :: (tag ++ ']' :: blanks) ∧ tag ≠ [] ∧ (∀ c ∈ tag, isTagChar c = true) ∧
    ∀ c ∈ blanks, isBlank c = true

theorem IsTag.exists_last {cs : List Char} (h : IsTag cs) :
    ∃ init z, cs = init ++ [z] ∧ (z = ']' ∨ isBlank z = true) := by
  obtain ⟨tag, blanks, rfl, _, _, hblank⟩ := h
  rcases List.eq_nil_or_concat blanks with rfl | ⟨init, z, rfl⟩
  · exact ⟨'[' :: tag, ']', by simp, .inl rfl⟩
  · exact ⟨'[' :: (tag ++ ']' :: init), z, by simp, .inr (hblank z (by simp))⟩

theorem Tagged.isTag {text tag blanks rest : List Char} (h : Tagged text tag blanks rest) :
    IsTag ('[' :: (tag ++ ']' :: blanks)) :=
  ⟨tag, blanks, rfl, h.tag_ne_nil, fun c hc => isTagChar_iff.2 (h.tag_char c hc), h.blank⟩

theorem stripTag_eq_or (cs : List Char) :
    stripTag cs = cs ∨ ∃ tag, IsTag tag ∧ cs = tag ++ stripTag cs := by
  obtain ⟨tag, blanks, h⟩ | h := tagged_stripTag_or cs
  · exact .inr ⟨_, h.isTag, by simpa using h.text_eq⟩
  · exact .inl h

/-- The part of a message that `stripTag` takes off. -/
def tagOf (cs : List Char) : List Char := cs.take (cs.length - (stripTag cs).length)

theorem tagOf_append_stripTag (cs : List Char) : tagOf cs ++ stripTag cs = cs := by
  obtain h | ⟨tag, _, h⟩ := stripTag_eq_or cs
  · simp [tagOf, h]
  · have htake : tagOf cs = tag := by
      rw [tagOf]
      have hlen : cs.length - (stripTag cs).length = tag.length := by
        have := congrArg List.length h
        rw [List.length_append] at this
        omega
      rw [hlen, h, List.take_left]
    rw [htake, ← h]

theorem eq_append_tagOf {cs : List Char} {l : Literal} (h : firstLiteral? cs = some l) :
    cs = (l.before ++ ['"']) ++ (tagOf l.inner ++ (stripTag l.inner ++ '"' :: l.after)) := by
  rw [← List.append_assoc (tagOf l.inner), tagOf_append_stripTag]
  simpa using eq_of_firstLiteral? h

theorem tagOf_eq_nil_iff {cs : List Char} : tagOf cs = [] ↔ stripTag cs = cs := by
  have h := tagOf_append_stripTag cs
  constructor
  · intro hnil
    rwa [hnil, List.nil_append] at h
  · intro hstrip
    simpa [hstrip] using h

theorem isTag_tagOf {cs : List Char} (h : stripTag cs ≠ cs) : IsTag (tagOf cs) := by
  obtain hstrip | ⟨tag, htag, heq⟩ := stripTag_eq_or cs
  · exact absurd hstrip h
  · have heq' := (tagOf_append_stripTag cs).trans heq
    rwa [List.append_cancel_right heq']

/-! ### Literals without their tags -/

theorem IsTag.not_mem {cs : List Char} (h : IsTag cs) {c : Char} (hc : isTagChar c = false)
    (hopen : c ≠ '[') (hclose : c ≠ ']') : c ∉ cs := by
  obtain ⟨tag, blanks, rfl, _, htag, hblank⟩ := h
  intro hmem
  simp only [List.mem_cons, List.mem_append] at hmem
  rcases hmem with hmem | hmem | hmem | hmem
  · exact hopen hmem
  · simp [htag c hmem] at hc
  · exact hclose hmem
  · simp [isTagChar, hblank c hmem] at hc

theorem IsTag.plain {cs : List Char} (h : IsTag cs) : ∀ c ∈ cs, c ≠ '"' ∧ c ≠ '\\' := by
  intro c hc
  constructor
  · rintro rfl
    exact h.not_mem (by decide) (by decide) (by decide) hc
  · rintro rfl
    exact h.not_mem (by decide) (by decide) (by decide) hc

/-- What a message loses holds no quote and no backslash. -/
theorem plain_tagOf (cs : List Char) : ∀ c ∈ tagOf cs, c ≠ '"' ∧ c ≠ '\\' := by
  by_cases h : stripTag cs = cs
  · simp [tagOf_eq_nil_iff.2 h]
  · exact (isTag_tagOf h).plain

theorem literalBody?_plain_append {plain : List Char} (hplain : ∀ c ∈ plain, c ≠ '"' ∧ c ≠ '\\')
    (cs : List Char) :
    literalBody? (plain ++ cs) = (literalBody? cs).map fun p => (plain ++ p.1, p.2) := by
  induction plain with
  | nil => simp
  | cons c plain ih =>
    obtain ⟨hquote, hslash⟩ := hplain c (by simp)
    have hrest := ih fun d hd => hplain d (List.mem_cons_of_mem c hd)
    rw [List.cons_append, literalBody?, if_neg hslash, hrest, Option.map_map]
    · rfl
    · exact hquote
    · exact fun _ _ hc => absurd hc hslash

theorem literalBody?_of_firstLiteral? {cs : List Char} {l : Literal}
    (h : firstLiteral? cs = some l) :
    literalBody? (l.inner ++ '"' :: l.after) = some (l.inner, l.after) := by
  fun_induction firstLiteral? cs generalizing l with
  | case1 => simp at h
  | case2 c rest inner after hbody =>
    obtain rfl := Option.some.inj h
    split at hbody
    · rw [← literalBody?_append hbody, hbody]
    · simp at hbody
  | case3 c rest hbody ih =>
    obtain ⟨l', hl', rfl⟩ := Option.map_eq_some_iff.1 h
    simpa using ih hl'

/-- Behind a front without a quote, the first literal is still the first without its tag. -/
theorem firstLiteral?_stripTag {cs front : List Char} {l : Literal} (h : firstLiteral? cs = some l)
    (hfront : '"' ∉ front) :
    firstLiteral? (front ++ '"' :: (stripTag l.inner ++ '"' :: l.after)) =
      some ⟨front, stripTag l.inner, l.after⟩ := by
  have hbody := literalBody?_of_firstLiteral? h
  have hstripped : literalBody? (stripTag l.inner ++ '"' :: l.after) =
      some (stripTag l.inner, l.after) := by
    rw [← tagOf_append_stripTag l.inner, List.append_assoc,
      literalBody?_plain_append (plain_tagOf l.inner), tagOf_append_stripTag] at hbody
    obtain ⟨⟨inner, after⟩, hp, hq⟩ := Option.map_eq_some_iff.1 hbody
    simp only [Prod.mk.injEq] at hq
    obtain ⟨hinner, rfl⟩ := hq
    rw [hp, List.append_cancel_left (hinner.trans (tagOf_append_stripTag l.inner).symm)]
  rw [firstLiteral?_append hfront, firstLiteral?, if_pos rfl, hstripped]
  simp

end LogLift.Message
