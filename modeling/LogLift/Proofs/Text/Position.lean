import Mathlib.Data.List.Basic
import Mathlib.Data.List.Forall2
import LogLift.Text.Offset

/-! Positions in a text.  A byte offset between two characters cuts a text in two, and in one way
only.  A patch replaces the bytes between two offsets, and patches are applied from left to right
without overlap. -/

namespace LogLift.Text

theorem byteLength_pos {cs : List Char} (h : cs ≠ []) : 0 < byteLength cs := by
  cases cs with
  | nil => exact absurd rfl h
  | cons c cs =>
    have := c.utf8Size_pos
    rw [byteLength_cons]
    omega

@[simp] theorem byteLength_eq_zero {cs : List Char} : byteLength cs = 0 ↔ cs = [] := by
  constructor
  · intro h
    by_contra hne
    have := byteLength_pos hne
    omega
  · rintro rfl
    rfl

/-- Of two ways to cut a text, the one with the shorter front cuts the other front. -/
theorem exists_eq_append_of_byteLength_le {a b a' b' : List Char} (h : a ++ b = a' ++ b')
    (hle : byteLength a ≤ byteLength a') : ∃ m, a' = a ++ m ∧ b = m ++ b' := by
  obtain ⟨m, ha, hb⟩ | ⟨m, ha, hb⟩ := List.append_eq_append_iff.1 h
  · exact ⟨m, ha, hb⟩
  · have hm : m = [] := by
      rw [ha, byteLength_append] at hle
      exact byteLength_eq_zero.1 (by omega)
    subst hm
    exact ⟨[], by simpa using ha.symm, by simpa using hb.symm⟩

/-- Of two different characters in one text, the one that comes first stands in the front of the
other. -/
theorem mem_or_mem_of_append_cons_eq {a b a' b' : List Char} {c d : Char}
    (h : a ++ c :: b = a' ++ d :: b') (hne : c ≠ d) : c ∈ a' ∨ d ∈ a := by
  obtain ⟨m, ha, hm⟩ | ⟨m, ha, hm⟩ := List.append_eq_append_iff.1 h
  · cases m with
    | nil => exact absurd (List.cons.inj hm).1 hne
    | cons e m =>
      obtain ⟨rfl, _⟩ := List.cons.inj hm
      exact .inl (by simp [ha])
  · cases m with
    | nil => exact absurd (List.cons.inj hm).1.symm hne
    | cons e m =>
      obtain ⟨rfl, _⟩ := List.cons.inj hm
      exact .inr (by simp [ha])

theorem append_cons_inj_of_not_mem {a b a' b' : List Char} {c : Char} (ha : c ∉ a) (ha' : c ∉ a')
    (h : a ++ c :: b = a' ++ c :: b') : a = a' ∧ b = b' := by
  obtain ⟨m, rfl, hm⟩ | ⟨m, rfl, hm⟩ := List.append_eq_append_iff.1 h
  · cases m with
    | nil => exact ⟨(List.append_nil a).symm, (List.cons.inj hm).2⟩
    | cons d m =>
      obtain ⟨rfl, _⟩ := List.cons.inj hm
      exact absurd (by simp) ha'
  · cases m with
    | nil => exact ⟨List.append_nil a', (List.cons.inj hm).2.symm⟩
    | cons d m =>
      obtain ⟨rfl, _⟩ := List.cons.inj hm
      exact absurd (by simp) ha

theorem exists_concat_of_concat_eq {x a b : List Char} {c : Char} (h : x ++ [c] = a ++ b)
    (hb : b ≠ []) : ∃ init, b = init ++ [c] ∧ x = a ++ init := by
  obtain ⟨init, z, rfl⟩ := (List.eq_nil_or_concat b).resolve_left hb
  rw [List.concat_eq_append, ← List.append_assoc] at h
  obtain ⟨hx, hz⟩ := List.append_inj' h rfl
  obtain rfl := List.singleton_inj.1 hz
  exact ⟨init, List.concat_eq_append, hx⟩

theorem append_inj_of_byteLength {a b a' b' : List Char} (h : a ++ b = a' ++ b')
    (heq : byteLength a = byteLength a') : a = a' ∧ b = b' := by
  obtain ⟨m, ha, hb⟩ := exists_eq_append_of_byteLength_le h (by omega)
  have hm : m = [] := by
    rw [ha, byteLength_append] at heq
    exact byteLength_eq_zero.1 (by omega)
  subst hm
  exact ⟨by simpa using ha.symm, by simpa using hb⟩

/-- The two parts at a byte offset are the only ones whose front has that many bytes. -/
theorem splitAtByte?_eq_some_iff {offset : Nat} {cs a b : List Char} :
    splitAtByte? offset cs = some (a, b) ↔ cs = a ++ b ∧ byteLength a = offset := by
  induction cs generalizing offset a b with
  | nil =>
    cases offset with
    | zero =>
      simp only [splitAtByte?, Option.some.injEq, Prod.mk.injEq, byteLength_eq_zero]
      constructor
      · rintro ⟨rfl, rfl⟩
        exact ⟨rfl, rfl⟩
      · rintro ⟨h, rfl⟩
        exact ⟨rfl, by simpa using h⟩
    | succ n =>
      simp only [splitAtByte?, reduceCtorEq, false_iff, not_and]
      intro h
      obtain ⟨rfl, rfl⟩ := List.append_eq_nil_iff.1 h.symm
      simp
  | cons c cs ih =>
    cases offset with
    | zero =>
      simp only [splitAtByte?, Option.some.injEq, Prod.mk.injEq, byteLength_eq_zero]
      constructor
      · rintro ⟨rfl, rfl⟩
        exact ⟨rfl, rfl⟩
      · rintro ⟨h, rfl⟩
        exact ⟨rfl, by simpa using h⟩
    | succ n =>
      rw [splitAtByte?]
      have hc := c.utf8Size_pos
      constructor
      · intro h
        split at h
        · obtain ⟨⟨a', b'⟩, hp, hq⟩ := Option.map_eq_some_iff.1 h
          simp only [Prod.mk.injEq] at hq
          obtain ⟨rfl, rfl⟩ := hq
          obtain ⟨rfl, hlen⟩ := ih.1 hp
          refine ⟨rfl, ?_⟩
          rw [byteLength_cons]
          omega
        · simp at h
      · rintro ⟨h, hlen⟩
        cases a with
        | nil => simp at hlen
        | cons a0 a =>
          obtain ⟨rfl, rfl⟩ := List.cons.inj h
          rw [byteLength_cons] at hlen
          rw [if_pos (by omega), ih.2 ⟨rfl, (by omega : byteLength a = n + 1 - c.utf8Size)⟩]
          rfl

/-- Byte `offset` of `source` is the first of a character, or the end. -/
def Boundary (source : List Char) (offset : Nat) : Prop :=
  ∃ front rest, source = front ++ rest ∧ byteLength front = offset

/-- `cs` is the text of `source` from byte `start` up to byte `stop`. -/
def Slice (source : List Char) (start stop : Nat) (cs : List Char) : Prop :=
  ∃ before after, source = before ++ (cs ++ after) ∧ byteLength before = start ∧
    start + byteLength cs = stop

theorem Slice.unique {source cs ds : List Char} {start stop : Nat} (h : Slice source start stop cs)
    (h' : Slice source start stop ds) : cs = ds := by
  obtain ⟨before, after, rfl, hb, hs⟩ := h
  obtain ⟨before', after', heq, hb', hs'⟩ := h'
  obtain ⟨rfl, hrest⟩ := append_inj_of_byteLength heq (by omega)
  exact (append_inj_of_byteLength hrest (by omega)).1

/-- The text of `source` from byte `start` up to byte `stop`.  There is none when the two are out of
order, past the end or inside a character. -/
def slice? (source : List Char) (start stop : Nat) : Option (List Char) :=
  if start ≤ stop then do
    let (_, rest) ← splitAtByte? start source
    let (text, _) ← splitAtByte? (stop - start) rest
    return text
  else none

theorem slice?_eq_some_iff {source cs : List Char} {start stop : Nat} :
    slice? source start stop = some cs ↔ Slice source start stop cs := by
  rw [slice?]
  constructor
  · intro h
    split at h
    · rename_i hle
      simp only [Option.bind_eq_bind, Option.bind_eq_some_iff, Option.pure_def] at h
      obtain ⟨⟨before, rest⟩, hbefore, ⟨text, after⟩, htext, hcs⟩ := h
      obtain ⟨rfl, hstart⟩ := splitAtByte?_eq_some_iff.1 hbefore
      obtain ⟨rfl, hstop⟩ := splitAtByte?_eq_some_iff.1 htext
      obtain rfl : text = cs := Option.some.inj hcs
      exact ⟨before, after, rfl, hstart, by omega⟩
    · simp at h
  · rintro ⟨before, after, rfl, rfl, rfl⟩
    have hbefore : splitAtByte? (byteLength before) (before ++ (cs ++ after)) =
        some (before, cs ++ after) := splitAtByte?_eq_some_iff.2 ⟨rfl, rfl⟩
    have htext : splitAtByte? (byteLength cs) (cs ++ after) = some (cs, after) :=
      splitAtByte?_eq_some_iff.2 ⟨rfl, rfl⟩
    simp [hbefore, htext]

/-- A text can be cut at two offsets that are in order, not past the end and not inside a
character, and at no others. -/
theorem slice?_ne_none_iff {source : List Char} {start stop : Nat} :
    slice? source start stop ≠ none ↔ start ≤ stop ∧ stop ≤ byteLength source ∧
      Boundary source start ∧ Boundary source stop := by
  rw [Option.ne_none_iff_exists']
  simp only [slice?_eq_some_iff]
  constructor
  · rintro ⟨cs, before, after, rfl, rfl, rfl⟩
    refine ⟨by omega, by simp, ⟨before, cs ++ after, rfl, rfl⟩, before ++ cs, after, by simp, ?_⟩
    rw [byteLength_append]
  · rintro ⟨hle, _, ⟨before, rest, rfl, rfl⟩, before', after, heq, rfl⟩
    obtain ⟨cs, rfl, rfl⟩ := exists_eq_append_of_byteLength_le heq hle
    exact ⟨cs, before, after, rfl, rfl, by rw [byteLength_append]⟩

theorem Slice.bounds {source cs : List Char} {start stop : Nat} (h : Slice source start stop cs) :
    start ≤ stop ∧ stop ≤ byteLength source ∧ Boundary source start ∧ Boundary source stop := by
  rw [← slice?_ne_none_iff, slice?_eq_some_iff.2 h]
  exact Option.some_ne_none cs

/-- The character that stands before what follows `cs`, when `previous` stands before `cs`. -/
def lastChar : (previous : Option Char) → List Char → Option Char
  | previous, [] => previous
  | _, c :: cs => lastChar (some c) cs

@[simp] theorem lastChar_nil (previous : Option Char) : lastChar previous [] = previous := rfl

@[simp] theorem lastChar_cons (previous : Option Char) (c : Char) (cs : List Char) :
    lastChar previous (c :: cs) = lastChar (some c) cs := rfl

@[simp] theorem lastChar_append (previous : Option Char) (a b : List Char) :
    lastChar previous (a ++ b) = lastChar (lastChar previous a) b := by
  induction a generalizing previous with
  | nil => rfl
  | cons c cs ih => exact ih (some c)

theorem lastChar_of_ne_nil {cs : List Char} (h : cs ≠ []) (previous previous' : Option Char) :
    lastChar previous cs = lastChar previous' cs := by
  cases cs with
  | nil => exact absurd rfl h
  | cons c cs => rfl

theorem lastChar_none (cs : List Char) : lastChar none cs = cs.getLast? := by
  rcases List.eq_nil_or_concat cs with rfl | ⟨init, c, rfl⟩
  · rfl
  · simp

theorem head?_reverse_append (cs before : List Char) :
    (cs.reverse ++ before).head? = lastChar before.head? cs := by
  induction cs generalizing before with
  | nil => rfl
  | cons c cs ih =>
    have h := ih (c :: before)
    simpa using h

theorem byteLength_reverse_append (a before : List Char) :
    byteLength (a.reverse ++ before) = byteLength before + byteLength a := by
  rw [byteLength_append, byteLength_reverse, Nat.add_comm]

/-- The bytes from `start` up to `stop` give way to `text`. -/
structure Patch where
  start : Nat
  stop : Nat
  text : List Char
  deriving Repr, DecidableEq

/-- `cs`, whose first byte has the offset `here`, with the patches applied.  There is no result
when patches overlap, are out of order, reach past the end or cut a character. -/
def patched? (here : Nat) (cs : List Char) : List Patch → Option (List Char)
  | [] => some cs
  | patch :: patches =>
    if here ≤ patch.start ∧ patch.start ≤ patch.stop then do
      let (kept, rest) ← splitAtByte? (patch.start - here) cs
      let (_, rest) ← splitAtByte? (patch.stop - patch.start) rest
      let later ← patched? patch.stop rest patches
      return kept ++ patch.text ++ later
    else none

/-- A patch that applies cuts the text into what is kept, what is replaced and the rest. -/
theorem patched?_cons_eq_some_iff {here : Nat} {cs result : List Char} {patch : Patch}
    {patches : List Patch} :
    patched? here cs (patch :: patches) = some result ↔
      ∃ kept old rest later, cs = kept ++ (old ++ rest) ∧ here + byteLength kept = patch.start ∧
        patch.start + byteLength old = patch.stop ∧
        patched? patch.stop rest patches = some later ∧ result = kept ++ (patch.text ++ later) := by
  rw [patched?]
  constructor
  · intro h
    split at h
    · rename_i hle
      simp only [Option.bind_eq_bind, Option.bind_eq_some_iff, Option.pure_def] at h
      obtain ⟨⟨kept, tail⟩, hk, ⟨old, rest⟩, ho, later, hl, hr⟩ := h
      obtain ⟨rfl, hk⟩ := splitAtByte?_eq_some_iff.1 hk
      obtain ⟨rfl, ho⟩ := splitAtByte?_eq_some_iff.1 ho
      refine ⟨kept, old, rest, later, rfl, by omega, by omega, hl, ?_⟩
      simpa using hr.symm
    · simp at h
  · rintro ⟨kept, old, rest, later, rfl, hk, ho, hl, rfl⟩
    have hsplit : splitAtByte? (patch.start - here) (kept ++ (old ++ rest)) =
        some (kept, old ++ rest) := splitAtByte?_eq_some_iff.2 ⟨rfl, by omega⟩
    have hsplit' : splitAtByte? (patch.stop - patch.start) (old ++ rest) = some (old, rest) :=
      splitAtByte?_eq_some_iff.2 ⟨rfl, by omega⟩
    rw [if_pos (by omega)]
    simp [hsplit, hsplit', hl]

theorem patched?_append {here : Nat} {a cs result : List Char} {patches : List Patch}
    (h : patched? (here + byteLength a) cs patches = some result) :
    patched? here (a ++ cs) patches = some (a ++ result) := by
  cases patches with
  | nil =>
    simp only [patched?, Option.some.injEq] at h ⊢
    rw [h]
  | cons patch patches =>
    obtain ⟨kept, old, rest, later, rfl, hk, ho, hl, rfl⟩ := patched?_cons_eq_some_iff.1 h
    refine patched?_cons_eq_some_iff.2 ⟨a ++ kept, old, rest, later, by simp, ?_, ho, hl, by simp⟩
    rw [byteLength_append]
    omega

/-- Patches that apply start where the text does or later, and no patch starts before the one
before it stops. -/
theorem ordered_of_patched? {here : Nat} {cs result : List Char} {patches : List Patch}
    (h : patched? here cs patches = some result) :
    (∀ patch ∈ patches, here ≤ patch.start ∧ patch.start ≤ patch.stop) ∧
      patches.Pairwise fun p q => p.stop ≤ q.start := by
  induction patches generalizing here cs result with
  | nil => simp
  | cons patch patches ih =>
    obtain ⟨kept, old, rest, later, rfl, hk, ho, hl, rfl⟩ := patched?_cons_eq_some_iff.1 h
    obtain ⟨hbound, hpair⟩ := ih hl
    refine ⟨?_, List.pairwise_cons.2 ⟨fun q hq => (hbound q hq).1, hpair⟩⟩
    intro p hp
    rcases List.mem_cons.1 hp with rfl | hp
    · omega
    · have := hbound p hp
      omega

/-- Where the patches' texts stand in the patched text, each from its first byte up to the byte
after it.  The text that is patched has its first byte at `here`, the patched one at `here'`. -/
def patchImages (here here' : Nat) : List Patch → List (Nat × Nat)
  | [] => []
  | patch :: patches =>
    let start := here' + (patch.start - here)
    let stop := start + byteLength patch.text
    (start, stop) :: patchImages patch.stop stop patches

theorem slices_of_patched? {here : Nat} {cs result : List Char} {patches : List Patch}
    (h : patched? here cs patches = some result) (front : List Char) :
    List.Forall₂ (fun patch image => Slice (front ++ result) image.1 image.2 patch.text) patches
      (patchImages here (byteLength front) patches) := by
  induction patches generalizing here cs result front with
  | nil => exact .nil
  | cons patch patches ih =>
    obtain ⟨kept, old, rest, later, rfl, hk, ho, hl, rfl⟩ := patched?_cons_eq_some_iff.1 h
    have hstart : byteLength front + (patch.start - here) = byteLength (front ++ kept) := by
      rw [byteLength_append]
      omega
    have hrest := ih hl (front ++ kept ++ patch.text)
    rw [byteLength_append, ← hstart] at hrest
    rw [patchImages]
    refine .cons ⟨front ++ kept, later, by simp, hstart.symm, rfl⟩ ?_
    simpa using hrest

end LogLift.Text
