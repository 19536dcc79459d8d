import LogLift.Proofs.Text.Position

/-! Revisions of a text.  A revision is a list of stretches that are kept or swapped for another
text; it carries the offsets of the kept text from the old version to the new one.  The main
statement is about a pattern that no swap makes, breaks or meets halfway: its occurrences in the
new text are its occurrences in the kept part of the old one, carried over. -/

namespace LogLift.Text

/-- A stretch of a text in a revision. -/
inductive Stretch where
  /-- The text stays. -/
  | kept (text : List Char)
  /-- The old text gives way to the new one. -/
  | swapped (old new : List Char)
  deriving Repr, DecidableEq

def Stretch.old : Stretch → List Char
  | kept text => text
  | swapped old _ => old

def Stretch.new : Stretch → List Char
  | kept text => text
  | swapped _ new => new

def oldText (revision : List Stretch) : List Char := revision.flatMap (·.old)

def newText (revision : List Stretch) : List Char := revision.flatMap (·.new)

@[simp] theorem oldText_nil : oldText [] = [] := rfl

@[simp] theorem newText_nil : newText [] = [] := rfl

@[simp] theorem oldText_kept (text : List Char) (revision : List Stretch) :
    oldText (.kept text :: revision) = text ++ oldText revision := rfl

@[simp] theorem newText_kept (text : List Char) (revision : List Stretch) :
    newText (.kept text :: revision) = text ++ newText revision := rfl

@[simp] theorem oldText_swapped (old new : List Char) (revision : List Stretch) :
    oldText (.swapped old new :: revision) = old ++ oldText revision := rfl

@[simp] theorem newText_swapped (old new : List Char) (revision : List Stretch) :
    newText (.swapped old new :: revision) = new ++ newText revision := rfl

@[simp] theorem oldText_append (a b : List Stretch) :
    oldText (a ++ b) = oldText a ++ oldText b := by
  simp [oldText]

@[simp] theorem newText_append (a b : List Stretch) :
    newText (a ++ b) = newText a ++ newText b := by
  simp [newText]

/-- Where the byte at `offset` of the old text stands in the new one.  A byte that was swapped out
stands nowhere. -/
def moved : List Stretch → (offset : Nat) → Option Nat
  | [], offset => some offset
  | .kept text :: revision, offset =>
    if offset < byteLength text then some offset
    else (moved revision (offset - byteLength text)).map (byteLength text + ·)
  | .swapped old new :: revision, offset =>
    if offset < byteLength old then none
    else (moved revision (offset - byteLength old)).map (byteLength new + ·)

theorem moved_append_of_lt {a : List Stretch} {offset : Nat}
    (h : offset < byteLength (oldText a)) (b : List Stretch) :
    moved (a ++ b) offset = moved a offset := by
  induction a generalizing offset with
  | nil => simp at h
  | cons stretch a ih =>
    cases stretch with
    | kept text =>
      rw [oldText_kept, byteLength_append] at h
      rw [List.cons_append, moved, moved]
      split
      · rfl
      · rw [ih (by omega)]
    | swapped old new =>
      rw [oldText_swapped, byteLength_append] at h
      rw [List.cons_append, moved, moved]
      split
      · rfl
      · rw [ih (by omega)]

theorem moved_append_add (a b : List Stretch) (offset : Nat) :
    moved (a ++ b) (byteLength (oldText a) + offset) =
      (moved b offset).map (byteLength (newText a) + ·) := by
  induction a with
  | nil => simp
  | cons stretch a ih =>
    cases stretch with
    | kept text =>
      rw [oldText_kept, newText_kept, byteLength_append, byteLength_append, List.cons_append, moved,
        if_neg (by omega), Nat.add_assoc, Nat.add_sub_cancel_left, ih, Option.map_map]
      simp [Function.comp_def, Nat.add_assoc]
    | swapped old new =>
      rw [oldText_swapped, newText_swapped, byteLength_append, byteLength_append, List.cons_append,
        moved, if_neg (by omega), Nat.add_assoc, Nat.add_sub_cancel_left, ih, Option.map_map]
      simp [Function.comp_def, Nat.add_assoc]

theorem moved_byteLength (revision : List Stretch) :
    moved revision (byteLength (oldText revision)) = some (byteLength (newText revision)) := by
  induction revision with
  | nil => rfl
  | cons stretch revision ih =>
    cases stretch with
    | kept text =>
      rw [oldText_kept, newText_kept, byteLength_append, byteLength_append, moved,
        if_neg (by omega), Nat.add_sub_cancel_left, ih, Option.map_some]
    | swapped old new =>
      rw [oldText_swapped, newText_swapped, byteLength_append, byteLength_append, moved,
        if_neg (by omega), Nat.add_sub_cancel_left, ih, Option.map_some]

theorem moved_lt_moved {revision : List Stretch} {k k' j j' : Nat}
    (h : moved revision k = some j) (h' : moved revision k' = some j') (hlt : k < k') : j < j' := by
  induction revision generalizing k k' j j' with
  | nil =>
    obtain rfl := Option.some.inj h
    obtain rfl := Option.some.inj h'
    exact hlt
  | cons stretch revision ih =>
    cases stretch with
    | kept text =>
      rw [moved] at h h'
      split at h'
      · obtain rfl := Option.some.inj h'
        rw [if_pos (by omega)] at h
        obtain rfl := Option.some.inj h
        exact hlt
      · obtain ⟨i', hi', rfl⟩ := Option.map_eq_some_iff.1 h'
        split at h
        · obtain rfl := Option.some.inj h
          omega
        · obtain ⟨i, hi, rfl⟩ := Option.map_eq_some_iff.1 h
          have := ih hi hi' (by omega)
          omega
    | swapped old new =>
      rw [moved] at h h'
      split at h
      · simp at h
      · obtain ⟨i, hi, rfl⟩ := Option.map_eq_some_iff.1 h
        rw [if_neg (by omega)] at h'
        obtain ⟨i', hi', rfl⟩ := Option.map_eq_some_iff.1 h'
        have := ih hi hi' (by omega)
        omega

/-! ### Occurrences of a pattern -/

/-- A pattern looks at a text and the character before it. -/
abbrev Pattern := (previous : Option Char) → List Char → Bool

/-- The pattern holds at byte `offset` of `cs`, which stands after `previous`. -/
def Occurs (pattern : Pattern) (previous : Option Char) (cs : List Char) (offset : Nat) : Prop :=
  ∃ a b, cs = a ++ b ∧ byteLength a = offset ∧ pattern (lastChar previous a) b = true

section

variable {pattern : Pattern} {previous previous' : Option Char} {a s t : List Char} {k : Nat}

theorem occurs_append_add :
    Occurs pattern previous (a ++ s) (byteLength a + k) ↔
      Occurs pattern (lastChar previous a) s k := by
  constructor
  · rintro ⟨x, y, heq, hx, hpat⟩
    obtain ⟨m, rfl, rfl⟩ := exists_eq_append_of_byteLength_le heq (by omega)
    refine ⟨m, y, rfl, ?_, by simpa using hpat⟩
    rw [byteLength_append] at hx
    omega
  · rintro ⟨x, y, rfl, hx, hpat⟩
    exact ⟨a ++ x, y, by simp, by simp [hx], by simpa using hpat⟩

theorem exists_of_occurs_append (h : Occurs pattern previous (a ++ s) k) (hk : k < byteLength a) :
    ∃ x w, a = x ++ w ∧ w ≠ [] ∧ byteLength x = k ∧
      pattern (lastChar previous x) (w ++ s) = true := by
  obtain ⟨x, y, heq, hx, hpat⟩ := h
  obtain ⟨w, rfl, rfl⟩ := exists_eq_append_of_byteLength_le heq.symm (by omega)
  refine ⟨x, w, rfl, ?_, hx, hpat⟩
  rintro rfl
  simp [hx] at hk

/-- The pattern cannot tell `s` from `t` when it starts before them, in a text that ends with
`previous`. -/
def Alike (pattern : Pattern) (previous : Option Char) (s t : List Char) : Prop :=
  ∀ w, w ≠ [] → lastChar none w = previous → ∀ p, pattern p (w ++ s) = pattern p (w ++ t)

theorem Alike.symm (h : Alike pattern previous s t) : Alike pattern previous t s :=
  fun w hw hlast p => (h w hw hlast p).symm

theorem Alike.append (h : Alike pattern (lastChar previous a) s t) :
    Alike pattern previous (a ++ s) (a ++ t) := by
  intro w hw hlast p
  have := h (w ++ a) (by simp [hw]) (by simp [hlast]) p
  simpa using this

theorem occurs_append_of_alike (hstart : ∀ x, pattern previous x = pattern previous' x)
    (h : Alike pattern (lastChar previous a) s t) (hk : k < byteLength a)
    (hs : Occurs pattern previous (a ++ s) k) : Occurs pattern previous' (a ++ t) k := by
  obtain ⟨x, w, rfl, hw, hx, hpat⟩ := exists_of_occurs_append hs hk
  refine ⟨x, w ++ t, by simp, hx, ?_⟩
  rw [lastChar_append] at h
  rw [h w hw (lastChar_of_ne_nil hw _ _)] at hpat
  cases x with
  | nil => rwa [lastChar_nil, ← hstart]
  | cons c x => exact hpat

end

/-- A text of `texts` that starts in `w` and goes on as `w ++ s` does ends within `w`. -/
def Within (texts : List Char → Prop) (w s : List Char) : Prop :=
  ∀ text, texts text → text <+: w ++ s → text <+: w

/-- A pattern that looks for texts at the front sees no more than `w` if they end within `w`. -/
theorem append_eq_of_within {pattern : Pattern} {texts : Option Char → List Char → Prop}
    (hpattern : ∀ p cs, pattern p cs = true ↔ ∃ text, texts p text ∧ text <+: cs)
    {previous : Option Char} {w s t : List Char} (hs : Within (texts previous) w s)
    (ht : Within (texts previous) w t) : pattern previous (w ++ s) = pattern previous (w ++ t) := by
  have key : ∀ x, Within (texts previous) w x →
      (pattern previous (w ++ x) = true ↔ pattern previous w = true) := by
    intro x hx
    rw [hpattern, hpattern]
    constructor
    · rintro ⟨text, htext, hpre⟩
      exact ⟨text, htext, hx text htext hpre⟩
    · rintro ⟨text, htext, hpre⟩
      exact ⟨text, htext, hpre.trans (List.prefix_append w x)⟩
  rw [Bool.eq_iff_iff, key s hs, key t ht]

theorem prefix_or_of_prefix_append {t w s : List Char} (h : t <+: w ++ s) :
    t <+: w ∨ ∃ c r, t = w ++ c :: r ∧ c :: r <+: s := by
  obtain ⟨rest, hrest⟩ := h
  obtain ⟨x, hx, hs⟩ | ⟨x, hx, hs⟩ := List.append_eq_append_iff.1 hrest
  · exact .inl ⟨x, hx.symm⟩
  · cases x with
    | nil => exact .inl ⟨[], by simpa using hx⟩
    | cons c r => exact .inr ⟨c, r, hx, rest, hs.symm⟩

theorem within_of_not_mem {texts : List Char → Prop} {c : Char} (h : ∀ text, texts text → c ∉ text)
    {w : List Char} (hlast : lastChar none w = some c) (s : List Char) : Within texts w s := by
  intro text htext hpre
  obtain hpre | ⟨d, r, rfl, _⟩ := prefix_or_of_prefix_append hpre
  · exact hpre
  · rw [lastChar_none] at hlast
    exact absurd (List.mem_append_left _ (List.mem_of_getLast? hlast)) (h _ htext)

/-- A revision after `previous` in the old text and `previous'` in the new one that the pattern
does not notice: no swap shows to a pattern that starts before it, no swapped-in text holds an
occurrence, and what stands before a kept text is the same to the pattern. -/
inductive Unnoticed (pattern : Pattern) :
    (previous previous' : Option Char) → List Stretch → Prop
  | nil {previous previous' : Option Char} :
      (∀ x, pattern previous x = pattern previous' x) → Unnoticed pattern previous previous' []
  | kept {previous previous' : Option Char} {text : List Char} {revision : List Stretch} :
      (∀ x, pattern previous x = pattern previous' x) →
      Unnoticed pattern (lastChar previous text) (lastChar previous' text) revision →
      Unnoticed pattern previous previous' (.kept text :: revision)
  | swapped {previous previous' : Option Char} {old new : List Char} {revision : List Stretch} :
      Alike pattern previous (old ++ oldText revision) (new ++ newText revision) →
      (∀ a b, new = a ++ b → b ≠ [] →
        pattern (lastChar previous' a) (b ++ newText revision) = false) →
      Unnoticed pattern (lastChar previous old) (lastChar previous' new) revision →
      Unnoticed pattern previous previous' (.swapped old new :: revision)

namespace Unnoticed

variable {pattern : Pattern} {previous previous' : Option Char} {revision : List Stretch}

theorem alike (h : Unnoticed pattern previous previous' revision) :
    Alike pattern previous (oldText revision) (newText revision) := by
  induction h with
  | nil _ => exact fun _ _ _ _ => rfl
  | kept _ _ ih => exact ih.append
  | swapped halike _ _ _ => exact halike

/-- Kept text holds the pattern in the new version exactly where it did in the old one. -/
theorem occurs_iff (h : Unnoticed pattern previous previous' revision) {k j : Nat}
    (hmoved : moved revision k = some j) :
    Occurs pattern previous (oldText revision) k ↔
      Occurs pattern previous' (newText revision) j := by
  induction h generalizing k j with
  | nil hstart =>
    obtain rfl := Option.some.inj hmoved
    constructor
    · rintro ⟨a, b, heq, hk, hpat⟩
      obtain ⟨rfl, rfl⟩ := List.append_eq_nil_iff.1 heq.symm
      exact ⟨[], [], rfl, hk, hstart _ ▸ hpat⟩
    · rintro ⟨a, b, heq, hk, hpat⟩
      obtain ⟨rfl, rfl⟩ := List.append_eq_nil_iff.1 heq.symm
      exact ⟨[], [], rfl, hk, (hstart _).symm ▸ hpat⟩
  | @kept previous previous' text revision hstart hrest ih =>
    rw [moved] at hmoved
    split at hmoved
    · rename_i hk
      obtain rfl := Option.some.inj hmoved
      have hne : text ≠ [] := by
        rintro rfl
        simp at hk
      have halike := hrest.alike
      have halike' : Alike pattern (lastChar previous' text) (newText revision)
          (oldText revision) := by
        rw [lastChar_of_ne_nil hne previous' previous]
        exact halike.symm
      rw [oldText_kept, newText_kept]
      exact ⟨occurs_append_of_alike hstart halike hk,
        occurs_append_of_alike (fun x => (hstart x).symm) halike' hk⟩
    · obtain ⟨i, hi, rfl⟩ := Option.map_eq_some_iff.1 hmoved
      have hk : k = byteLength text + (k - byteLength text) := by omega
      rw [hk, oldText_kept, newText_kept, occurs_append_add, occurs_append_add]
      exact ih hi
  | @swapped previous previous' old new revision _ _ _ ih =>
    rw [moved] at hmoved
    split at hmoved
    · simp at hmoved
    · obtain ⟨i, hi, rfl⟩ := Option.map_eq_some_iff.1 hmoved
      have hk : k = byteLength old + (k - byteLength old) := by omega
      rw [hk, oldText_swapped, newText_swapped, occurs_append_add, occurs_append_add]
      exact ih hi

/-- The pattern holds nowhere in the new text but in what was kept. -/
theorem exists_moved (h : Unnoticed pattern previous previous' revision) {j : Nat}
    (hj : Occurs pattern previous' (newText revision) j) : ∃ k, moved revision k = some j := by
  induction h generalizing j with
  | nil _ => exact ⟨j, rfl⟩
  | @kept previous previous' text revision _ _ ih =>
    by_cases hlt : j < byteLength text
    · exact ⟨j, by rw [moved, if_pos hlt]⟩
    · have hsplit : j = byteLength text + (j - byteLength text) := by omega
      rw [hsplit, newText_kept, occurs_append_add] at hj
      obtain ⟨k, hk⟩ := ih hj
      refine ⟨byteLength text + k, ?_⟩
      rw [moved, if_neg (by omega), Nat.add_sub_cancel_left, hk, Option.map_some, ← hsplit]
  | @swapped previous previous' old new revision _ hnew _ ih =>
    by_cases hlt : j < byteLength new
    · rw [newText_swapped] at hj
      obtain ⟨a, w, hw, hne, _, hpat⟩ := exists_of_occurs_append hj hlt
      rw [hnew a w hw hne] at hpat
      exact absurd hpat (by decide)
    · have hsplit : j = byteLength new + (j - byteLength new) := by omega
      rw [hsplit, newText_swapped, occurs_append_add] at hj
      obtain ⟨k, hk⟩ := ih hj
      refine ⟨byteLength old + k, ?_⟩
      rw [moved, if_neg (by omega), Nat.add_sub_cancel_left, hk, Option.map_some, ← hsplit]

/-- The occurrences in the new text are those in the kept part of the old one, carried over. -/
theorem occurs_new_iff (h : Unnoticed pattern previous previous' revision) {j : Nat} :
    Occurs pattern previous' (newText revision) j ↔
      ∃ k, moved revision k = some j ∧ Occurs pattern previous (oldText revision) k := by
  constructor
  · intro hj
    obtain ⟨k, hk⟩ := h.exists_moved hj
    exact ⟨k, hk, (h.occurs_iff hk).2 hj⟩
  · rintro ⟨k, hk, hocc⟩
    exact (h.occurs_iff hk).1 hocc

end Unnoticed

/-- A revision after `previous` that swaps out no occurrence of the pattern. -/
inductive Spares (pattern : Pattern) : (previous : Option Char) → List Stretch → Prop
  | nil {previous : Option Char} : Spares pattern previous []
  | kept {previous : Option Char} {text : List Char} {revision : List Stretch} :
      Spares pattern (lastChar previous text) revision →
      Spares pattern previous (.kept text :: revision)
  | swapped {previous : Option Char} {old new : List Char} {revision : List Stretch} :
      (∀ a b, old = a ++ b → b ≠ [] →
        pattern (lastChar previous a) (b ++ oldText revision) = false) →
      Spares pattern (lastChar previous old) revision →
      Spares pattern previous (.swapped old new :: revision)

theorem Spares.exists_moved {pattern : Pattern} {previous : Option Char} {revision : List Stretch}
    (h : Spares pattern previous revision) {k : Nat}
    (hk : Occurs pattern previous (oldText revision) k) : ∃ j, moved revision k = some j := by
  induction h generalizing k with
  | nil => exact ⟨k, rfl⟩
  | @kept previous text revision _ ih =>
    by_cases hlt : k < byteLength text
    · exact ⟨k, by rw [moved, if_pos hlt]⟩
    · have hsplit : k = byteLength text + (k - byteLength text) := by omega
      rw [hsplit, oldText_kept, occurs_append_add] at hk
      obtain ⟨j, hj⟩ := ih hk
      exact ⟨byteLength text + j, by rw [moved, if_neg hlt, hj, Option.map_some]⟩
  | @swapped previous old new revision hold _ ih =>
    by_cases hlt : k < byteLength old
    · rw [oldText_swapped] at hk
      obtain ⟨a, w, hw, hne, _, hpat⟩ := exists_of_occurs_append hk hlt
      rw [hold a w hw hne] at hpat
      exact absurd hpat (by decide)
    · have hsplit : k = byteLength old + (k - byteLength old) := by omega
      rw [hsplit, oldText_swapped, occurs_append_add] at hk
      obtain ⟨j, hj⟩ := ih hk
      exact ⟨byteLength new + j, by rw [moved, if_neg hlt, hj, Option.map_some]⟩

/-! ### The patches of a revision -/

/-- By how many bytes a patch lengthens a text. -/
def Patch.growth (patch : Patch) : Int :=
  byteLength patch.text - ((patch.stop : Int) - patch.start)

/-- By how many bytes the patches that lie before `offset` lengthen a text. -/
def growthBefore (patches : List Patch) (offset : Nat) : Int :=
  (patches.filter (·.stop ≤ offset)).foldr (fun patch growth => patch.growth + growth) 0

/-- The patches of a revision whose old text has its first byte at `here`.  A swap of nothing for
nothing has none. -/
def edits (here : Nat) : List Stretch → List Patch
  | [] => []
  | .kept text :: revision => edits (here + byteLength text) revision
  | .swapped old new :: revision =>
    let later := edits (here + byteLength old) revision
    if old = [] ∧ new = [] then later else ⟨here, here + byteLength old, new⟩ :: later

theorem edits_swapped_nil (here : Nat) (revision : List Stretch) :
    edits here (.swapped [] [] :: revision) = edits here revision := by
  simp [edits]

theorem edits_swapped {here : Nat} {old new : List Char} (h : old ≠ [] ∨ new ≠ [])
    (revision : List Stretch) :
    edits here (.swapped old new :: revision) =
      ⟨here, here + byteLength old, new⟩ :: edits (here + byteLength old) revision := by
  rw [edits, if_neg]
  rintro ⟨rfl, rfl⟩
  simp at h

theorem edits_append (here : Nat) (a b : List Stretch) :
    edits here (a ++ b) = edits here a ++ edits (here + byteLength (oldText a)) b := by
  induction a generalizing here with
  | nil => rfl
  | cons stretch a ih =>
    cases stretch with
    | kept text =>
      rw [List.cons_append, edits, edits, ih, oldText_kept, byteLength_append, Nat.add_assoc]
    | swapped old new =>
      have hlen : here + byteLength (oldText (.swapped old new :: a)) =
          here + byteLength old + byteLength (oldText a) := by
        rw [oldText_swapped, byteLength_append, Nat.add_assoc]
      by_cases hnil : old = [] ∧ new = []
      · obtain ⟨rfl, rfl⟩ := hnil
        rw [List.cons_append, edits_swapped_nil, edits_swapped_nil, ih, hlen]
        rfl
      · have hne : old ≠ [] ∨ new ≠ [] := by
          rwa [← not_and_or]
        rw [List.cons_append, edits_swapped hne, edits_swapped hne, ih, hlen, List.cons_append]

/-- The patches of a revision turn its old text into its new one. -/
theorem patched?_edits (here : Nat) (revision : List Stretch) :
    patched? here (oldText revision) (edits here revision) = some (newText revision) := by
  induction revision generalizing here with
  | nil => rfl
  | cons stretch revision ih =>
    cases stretch with
    | kept text => exact patched?_append (ih _)
    | swapped old new =>
      by_cases hnil : old = [] ∧ new = []
      · obtain ⟨rfl, rfl⟩ := hnil
        rw [edits_swapped_nil]
        exact ih here
      · rw [edits_swapped (by rwa [← not_and_or])]
        exact patched?_cons_eq_some_iff.2
          ⟨[], old, oldText revision, newText revision, rfl, rfl, rfl, ih _, rfl⟩

theorem growthBefore_cons_of_le {patch : Patch} {offset : Nat} (h : patch.stop ≤ offset)
    (patches : List Patch) :
    growthBefore (patch :: patches) offset = patch.growth + growthBefore patches offset := by
  simp [growthBefore, h]

theorem growthBefore_eq_zero {patches : List Patch} {offset : Nat}
    (h : ∀ patch ∈ patches, offset < patch.stop) : growthBefore patches offset = 0 := by
  have hnone : patches.filter (·.stop ≤ offset) = [] := by
    rw [List.filter_eq_nil_iff]
    intro patch hpatch
    have := h patch hpatch
    simpa using this
  rw [growthBefore, hnone]
  rfl

theorem le_start_of_mem_edits {here : Nat} {revision : List Stretch} {patch : Patch}
    (h : patch ∈ edits here revision) : here ≤ patch.start ∧ patch.start ≤ patch.stop :=
  (ordered_of_patched? (patched?_edits here revision)).1 patch h

/-- Kept text moves by as much as the patches before it lengthen the text. -/
theorem moved_eq_add_growthBefore {revision : List Stretch} {k j : Nat}
    (h : moved revision k = some j) (here : Nat) :
    (j : Int) = k + growthBefore (edits here revision) (here + k) := by
  induction revision generalizing here k j with
  | nil =>
    obtain rfl := Option.some.inj h
    simp [edits, growthBefore]
  | cons stretch revision ih =>
    cases stretch with
    | kept text =>
      rw [moved] at h
      rw [edits]
      split at h
      · rename_i hk
        obtain rfl := Option.some.inj h
        rw [growthBefore_eq_zero, Int.add_zero]
        intro patch hpatch
        have := le_start_of_mem_edits hpatch
        omega
      · obtain ⟨i, hi, rfl⟩ := Option.map_eq_some_iff.1 h
        have hrest := ih hi (here + byteLength text)
        rw [show here + byteLength text + (k - byteLength text) = here + k by omega] at hrest
        omega
    | swapped old new =>
      rw [moved] at h
      split at h
      · simp at h
      · obtain ⟨i, hi, rfl⟩ := Option.map_eq_some_iff.1 h
        have hrest := ih hi (here + byteLength old)
        rw [show here + byteLength old + (k - byteLength old) = here + k by omega] at hrest
        by_cases hnil : old = [] ∧ new = []
        · obtain ⟨rfl, rfl⟩ := hnil
          rw [edits_swapped_nil]
          simpa using hrest
        · rw [edits_swapped (by rwa [← not_and_or]), growthBefore_cons_of_le (by simp; omega),
            Patch.growth]
          simp only
          omega

/-- A patch lies before or after any place in kept text. -/
theorem stop_le_or_le_start_of_moved {revision : List Stretch} {k j here : Nat}
    (h : moved revision k = some j) {patch : Patch} (hpatch : patch ∈ edits here revision) :
    patch.stop ≤ here + k ∨ here + k ≤ patch.start := by
  induction revision generalizing here k j with
  | nil => simp [edits] at hpatch
  | cons stretch revision ih =>
    cases stretch with
    | kept text =>
      rw [moved] at h
      rw [edits] at hpatch
      split at h
      · have := le_start_of_mem_edits hpatch
        omega
      · obtain ⟨i, hi, rfl⟩ := Option.map_eq_some_iff.1 h
        have := ih hi hpatch
        omega
    | swapped old new =>
      rw [moved] at h
      split at h
      · simp at h
      · obtain ⟨i, hi, rfl⟩ := Option.map_eq_some_iff.1 h
        by_cases hnil : old = [] ∧ new = []
        · obtain ⟨rfl, rfl⟩ := hnil
          rw [edits_swapped_nil] at hpatch
          simpa using ih hi hpatch
        · rw [edits_swapped (by rwa [← not_and_or])] at hpatch
          rcases List.mem_cons.1 hpatch with rfl | hlater
          · simp only
            omega
          · have := ih hi hlater
            omega

end LogLift.Text
