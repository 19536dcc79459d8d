import LogLift.Proofs.Message.Parts
import LogLift.Proofs.Text.Position

/-! Where the first literal of a text opens and closes.  It opens at the first quote of the text,
and closes at the first quote after it that no backslash has taken.  Where there is no such quote,
later quotes do not help: every one of them was taken by a backslash, and a search that starts from
it takes the rest in the same pairs. -/

namespace LogLift.Message

open LogLift.Text

/-! ### Escapes -/

/-- Read from an opening quote on, `cs` ends with a backslash that takes the next character. -/
def endsEscaped (cs : List Char) : Bool :=
  cs.foldl (fun escaped c => !escaped && c == '\\') false

/-- Read from an opening quote on, every quote of `cs` is taken by a backslash. -/
def AllEscaped (cs : List Char) : Prop :=
  ∀ front rest, cs = front ++ '"' :: rest → endsEscaped front = true

theorem endsEscaped_nil : endsEscaped [] = false := rfl

theorem endsEscaped_backslash : endsEscaped ['\\'] = true := rfl

theorem endsEscaped_escape (c : Char) (cs : List Char) :
    endsEscaped ('\\' :: c :: cs) = endsEscaped cs := rfl

theorem endsEscaped_cons {c : Char} (h : c ≠ '\\') (cs : List Char) :
    endsEscaped (c :: cs) = endsEscaped cs := by
  have hc : (c == '\\') = false := by simpa using h
  simp [endsEscaped, hc]

theorem endsEscaped_concat (cs : List Char) (c : Char) :
    endsEscaped (cs ++ [c]) = (!endsEscaped cs && c == '\\') := by
  simp [endsEscaped]

theorem allEscaped_nil : AllEscaped [] := by
  intro front rest h
  simp at h

theorem not_allEscaped_quote (cs : List Char) : ¬AllEscaped ('"' :: cs) := by
  intro h
  have hnil := h [] cs rfl
  simp [endsEscaped_nil] at hnil

theorem allEscaped_escape {c : Char} {cs : List Char} :
    AllEscaped ('\\' :: c :: cs) ↔ AllEscaped cs := by
  constructor
  · rintro h front rest rfl
    exact h ('\\' :: c :: front) rest rfl
  · intro h front rest heq
    -- a quote in the text is the one right after the backslash or stands in the rest
    match front, heq with
    | [], heq => exact absurd (List.cons.inj heq).1 (by decide)
    | [_], heq =>
      obtain ⟨rfl, _⟩ := List.cons.inj heq
      exact endsEscaped_backslash
    | _ :: _ :: front, heq =>
      obtain ⟨rfl, htail⟩ := List.cons.inj heq
      obtain ⟨rfl, hrest⟩ := List.cons.inj htail
      exact h front rest hrest

theorem allEscaped_backslash : AllEscaped ['\\'] := by
  intro front rest heq
  cases front with
  | nil => exact absurd (List.cons.inj heq).1 (by decide)
  | cons _ front => simp at heq

theorem allEscaped_cons {c : Char} (hquote : c ≠ '"') (hslash : c ≠ '\\') {cs : List Char} :
    AllEscaped (c :: cs) ↔ AllEscaped cs := by
  constructor
  · rintro h front rest rfl
    rw [← endsEscaped_cons hslash]
    exact h (c :: front) rest rfl
  · intro h front rest heq
    cases front with
    | nil => exact absurd (List.cons.inj heq).1 hquote
    | cons _ front =>
      obtain ⟨rfl, hrest⟩ := List.cons.inj heq
      rw [endsEscaped_cons hslash]
      exact h front rest hrest

theorem AllEscaped.of_prefix {front cs : List Char} (h : AllEscaped cs) (hpre : front <+: cs) :
    AllEscaped front := by
  obtain ⟨more, rfl⟩ := hpre
  rintro a b rfl
  exact h a (b ++ more) (by simp)

/-! ### Bodies of literals -/

theorem literalBody?_eq_none_iff {cs : List Char} : literalBody? cs = none ↔ AllEscaped cs := by
  fun_induction literalBody? cs with
  | case1 => simp [allEscaped_nil]
  | case2 rest => simp [not_allEscaped_quote]
  | case3 c rest ih => rw [Option.map_eq_none_iff, ih, allEscaped_escape]
  | case4 rest _ hlast =>
    -- a backslash at the very end takes nothing
    cases rest with
    | nil => simp [allEscaped_backslash]
    | cons c rest => exact absurd rfl (hlast c rest rfl)
  | case5 c rest hquote _ hslash ih =>
    rw [Option.map_eq_none_iff, ih, allEscaped_cons hquote hslash]

/-- A literal closes at the first quote that no backslash takes. -/
theorem escapes_of_literalBody? {cs inner after : List Char}
    (h : literalBody? cs = some (inner, after)) : AllEscaped inner ∧ endsEscaped inner = false := by
  fun_induction literalBody? cs generalizing inner after with
  | case1 => simp at h
  | case2 rest =>
    obtain ⟨rfl, rfl⟩ := Prod.mk.inj (Option.some.inj h)
    exact ⟨allEscaped_nil, endsEscaped_nil⟩
  | case3 c rest ih =>
    obtain ⟨⟨inner, after⟩, hp, hq⟩ := Option.map_eq_some_iff.1 h
    obtain ⟨rfl, rfl⟩ := Prod.mk.inj hq
    rw [allEscaped_escape, endsEscaped_escape]
    exact ih hp
  | case4 => simp at h
  | case5 c rest hquote _ hslash ih =>
    obtain ⟨⟨inner, after⟩, hp, hq⟩ := Option.map_eq_some_iff.1 h
    obtain ⟨rfl, rfl⟩ := Prod.mk.inj hq
    rw [allEscaped_cons hquote hslash, endsEscaped_cons hslash]
    exact ih hp

/-- Where the first quote opens no literal, no later one does. -/
theorem firstLiteral?_eq_none_of_allEscaped {cs : List Char} (h : literalBody? cs = none) :
    firstLiteral? cs = none := by
  fun_induction literalBody? cs with
  | case1 => rfl
  | case2 => simp at h
  | case3 c rest ih =>
    -- the character that the backslash takes may be a quote: behind it stands what was searched
    have hrest := Option.map_eq_none_iff.1 h
    have hlater := ih hrest
    by_cases hc : c = '"' <;> simp [firstLiteral?, hc, hrest, hlater]
  | case4 rest _ hlast =>
    cases rest with
    | nil => rfl
    | cons c rest => exact absurd rfl (hlast c rest rfl)
  | case5 c rest hquote _ hslash ih =>
    have hc : c ≠ '"' := hquote
    simp [firstLiteral?, hc, ih (Option.map_eq_none_iff.1 h)]

/-- The first literal of a text opens at its first quote. -/
theorem firstLiteral?_quote {before : List Char} (hbefore : '"' ∉ before) (rest : List Char) :
    firstLiteral? (before ++ '"' :: rest) =
      (literalBody? rest).map fun p => ⟨before, p.1, p.2⟩ := by
  rw [firstLiteral?_append hbefore, firstLiteral?, if_pos rfl]
  cases hbody : literalBody? rest with
  | none => simp [firstLiteral?_eq_none_of_allEscaped hbody]
  | some p => simp

theorem firstLiteral?_eq_none_of_not_mem {cs : List Char} (h : '"' ∉ cs) :
    firstLiteral? cs = none := by
  have happend := firstLiteral?_append h []
  simpa [firstLiteral?] using happend

theorem parts_of_firstLiteral? {cs : List Char} {l : Literal} (h : firstLiteral? cs = some l) :
    '"' ∉ l.before ∧ AllEscaped l.inner ∧ endsEscaped l.inner = false := by
  have hmem : '"' ∈ cs := by
    by_contra hmem
    rw [firstLiteral?_eq_none_of_not_mem hmem] at h
    simp at h
  obtain ⟨before, rest, rfl, hbefore⟩ := List.eq_append_cons_of_mem hmem
  rw [firstLiteral?_quote hbefore] at h
  obtain ⟨⟨inner, after⟩, hbody, rfl⟩ := Option.map_eq_some_iff.1 h
  exact ⟨hbefore, escapes_of_literalBody? hbody⟩

/-! ### Literals by their offsets -/

/-- A quote stands at byte `offset` of `text`. -/
def QuoteAt (text : List Char) (offset : Nat) : Prop :=
  ∃ front after, text = front ++ '"' :: after ∧ byteLength front = offset

structure FirstQuote (text : List Char) (offset : Nat) : Prop where
  quote : QuoteAt text offset
  first : ∀ other, QuoteAt text other → offset ≤ other

/-- Read from the quote at byte `opening` of `text` on, the quote at byte `closing` is one that no
backslash takes. -/
def UnescapedAt (text : List Char) (opening closing : Nat) : Prop :=
  ∃ front inner after, text = front ++ '"' :: (inner ++ '"' :: after) ∧ byteLength front = opening ∧
    opening + 1 + byteLength inner = closing ∧ endsEscaped inner = false

variable {text : List Char}

theorem FirstQuote.unique {opening opening' : Nat} (h : FirstQuote text opening)
    (h' : FirstQuote text opening') : opening = opening' :=
  Nat.le_antisymm (h.first opening' h'.quote) (h'.first opening h.quote)

theorem firstQuote_iff {opening : Nat} :
    FirstQuote text opening ↔
      ∃ before rest, text = before ++ '"' :: rest ∧ '"' ∉ before ∧ byteLength before = opening := by
  constructor
  · rintro ⟨⟨before, rest, rfl, rfl⟩, hfirst⟩
    refine ⟨before, rest, rfl, fun hmem => ?_, rfl⟩
    obtain ⟨a, b, rfl⟩ := List.append_of_mem hmem
    have hle := hfirst (byteLength a) ⟨a, b ++ '"' :: rest, by simp, rfl⟩
    have hpos := byteLength_pos (List.cons_ne_nil '"' b)
    rw [byteLength_append] at hle
    omega
  · rintro ⟨before, rest, rfl, hbefore, rfl⟩
    refine ⟨⟨before, rest, rfl, rfl⟩, ?_⟩
    rintro _ ⟨front, after, heq, rfl⟩
    by_contra hlt
    obtain ⟨m, rfl, hm⟩ := exists_eq_append_of_byteLength_le heq.symm (by omega)
    cases m with
    | nil => simp at hlt
    | cons c m =>
      obtain ⟨rfl, _⟩ := List.cons.inj hm
      exact hbefore (by simp)

/-- The quotes that no backslash takes, in the text after an opening quote. -/
theorem unescapedAt_append_iff {before rest : List Char} {closing : Nat} :
    UnescapedAt (before ++ '"' :: rest) (byteLength before) closing ↔
      ∃ inner after, rest = inner ++ '"' :: after ∧
        byteLength before + 1 + byteLength inner = closing ∧ endsEscaped inner = false := by
  constructor
  · rintro ⟨front, inner, after, heq, hlen, hclosing, hescaped⟩
    obtain ⟨rfl, hrest⟩ := append_inj_of_byteLength heq hlen.symm
    exact ⟨inner, after, (List.cons.inj hrest).2, hclosing, hescaped⟩
  · rintro ⟨inner, after, rfl, hclosing, hescaped⟩
    exact ⟨before, inner, after, rfl, rfl, hclosing, hescaped⟩

theorem forall_not_unescapedAt_iff (before rest : List Char) :
    (∀ closing, ¬UnescapedAt (before ++ '"' :: rest) (byteLength before) closing) ↔
      literalBody? rest = none := by
  simp only [literalBody?_eq_none_iff, unescapedAt_append_iff]
  constructor
  · rintro h inner after rfl
    by_contra hescaped
    exact h _ ⟨inner, after, rfl, rfl, by simpa using hescaped⟩
  · rintro h _ ⟨inner, after, rfl, _, hescaped⟩
    rw [h inner after rfl] at hescaped
    exact absurd hescaped (by decide)

/-- There is no literal exactly when there is no quote or the first one is never closed. -/
theorem firstLiteral?_eq_none_iff :
    firstLiteral? text = none ↔
      (∀ offset, ¬QuoteAt text offset) ∨
        ∃ opening, FirstQuote text opening ∧ ∀ closing, ¬UnescapedAt text opening closing := by
  by_cases hmem : '"' ∈ text
  · obtain ⟨before, rest, rfl, hbefore⟩ := List.eq_append_cons_of_mem hmem
    have hfirst : FirstQuote (before ++ '"' :: rest) (byteLength before) :=
      firstQuote_iff.2 ⟨before, rest, rfl, hbefore, rfl⟩
    rw [firstLiteral?_quote hbefore, Option.map_eq_none_iff,
      ← forall_not_unescapedAt_iff before]
    constructor
    · exact fun h => .inr ⟨_, hfirst, h⟩
    · rintro (hnone | ⟨opening, hfirst', h⟩)
      · exact absurd hfirst.quote (hnone _)
      · rwa [hfirst.unique hfirst']
  · rw [firstLiteral?_eq_none_of_not_mem hmem]
    refine iff_of_true rfl (.inl ?_)
    rintro offset ⟨front, after, rfl, _⟩
    exact hmem (by simp)

/-- A literal opens at the first quote and closes at the first one after it that no backslash
takes. -/
theorem bounds_of_firstLiteral? {l : Literal} (h : firstLiteral? text = some l) :
    ∃ opening, FirstQuote text opening ∧ l.start = opening + 1 ∧ UnescapedAt text opening l.stop ∧
      (∀ closing, UnescapedAt text opening closing → l.stop ≤ closing) ∧
      Slice text l.start l.stop l.inner := by
  obtain rfl := eq_of_firstLiteral? h
  obtain ⟨hbefore, hall, hend⟩ := parts_of_firstLiteral? h
  refine ⟨byteLength l.before, firstQuote_iff.2 ⟨l.before, _, rfl, hbefore, rfl⟩, rfl,
    unescapedAt_append_iff.2 ⟨l.inner, l.after, rfl, rfl, hend⟩, ?_, ?_⟩
  · intro closing hclosing
    obtain ⟨inner, after, heq, rfl, hend'⟩ := unescapedAt_append_iff.1 hclosing
    by_contra hstop
    have hlt : byteLength inner < byteLength l.inner := by
      simp only [Literal.stop, Literal.start] at hstop
      omega
    -- a quote inside of the literal is one that a backslash takes
    obtain ⟨m, hinner, hm⟩ := exists_eq_append_of_byteLength_le heq.symm (Nat.le_of_lt hlt)
    cases m with
    | nil =>
      rw [hinner, List.append_nil] at hlt
      exact absurd hlt (Nat.lt_irrefl _)
    | cons c m =>
      obtain ⟨rfl, _⟩ := List.cons.inj hm
      rw [hall inner m hinner] at hend'
      exact absurd hend' (by decide)
  · exact ⟨l.before ++ ['"'], '"' :: l.after, by simp, by simp [Literal.start]; rfl, rfl⟩

end LogLift.Message
