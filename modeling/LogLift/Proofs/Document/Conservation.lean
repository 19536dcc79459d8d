import Mathlib.Algebra.GroupWithZero.Nat
import Mathlib.Data.List.Sort
import LogLift.Proofs.Document.SecondPass

/-! Tokens are conserved.  A pass swaps out the tokens of the calls that it lifts and no other token,
and it makes no new one; so the number of tokens drops by the number of lifted calls.  However many
passes follow each other, they cannot lift more calls than the first text has tokens. -/

namespace LogLift.Document

open LogLift.Text LogLift.Source LogLift.Message

/-! ### Where no token starts -/

theorem no_token_in_callHead {rules : Rules} {previous : Option Char} {a b rest : List Char}
    (h : callHead rules = a ++ b) (ha : a ≠ []) (hb : b ≠ []) :
    startsToken rules (lastChar previous a) (b ++ rest) = false := by
  obtain ⟨init, rfl, hname⟩ := exists_concat_of_concat_eq h hb
  obtain ⟨front, z, rfl⟩ := (List.eq_nil_or_concat a).resolve_left ha
  have hz : isWord z = true := rules.isWord_of_mem_macroName (by simp [hname])
  rw [← Bool.not_eq_true, startsToken_iff]
  rintro ⟨hword, _⟩
  simp [wordMayStart, hz] at hword

/-- No token starts in a tag: its name would have to reach over the tag's end. -/
theorem no_token_in_tag {rules : Rules} {previous : Option Char} {tag a b rest : List Char}
    (htag : IsTag tag) (h : tag = a ++ b) (hb : b ≠ []) :
    startsToken rules previous (b ++ rest) = false := by
  rw [← Bool.not_eq_true, startsToken_iff]
  rintro ⟨_, blanks, _, tail, htail⟩
  obtain ⟨_, z, hz, hlast⟩ := htag.exists_last
  obtain ⟨init, rfl, _⟩ := exists_concat_of_concat_eq (hz.symm.trans h) hb
  have hword : isWord z = false := by
    rcases hlast with rfl | hblank
    · decide
    · exact isWord_of_isBlank hblank
  have hbang : '!' ∉ tag := htag.not_mem (by decide) (by decide) (by decide)
  have hne : z ≠ '!' := by
    rintro rfl
    exact hbang (by simp [h])
  have hcut : init ++ z :: rest = rules.macroName.toList ++ '!' :: (blanks ++ '(' :: tail) := by
    simpa [tokenText_eq] using htail.symm
  rcases mem_or_mem_of_append_cons_eq hcut hne with hmem | hmem
  · exact rules.not_mem_macroName hword hmem
  · exact hbang (by simp [h, hmem])

/-! ### Which tokens a pass swaps out -/

theorem offset_le_of_mem {rules : Rules} {keywords : Keywords} {place : Place}
    {pieces : List Piece} {p : Nat}
    (h : p ∈ (liftedCalls rules keywords place pieces).map (·.offset)) : place.offset ≤ p := by
  induction pieces generalizing place with
  | nil => simp [liftedCalls] at h
  | cons piece pieces ih =>
    have hlater : p ∈ (liftedCalls rules keywords (place.after (piece.source rules)) pieces).map
        (·.offset) → place.offset ≤ p := fun hp => Nat.le_of_add_right_le (ih hp)
    cases piece with
    | char c | commented blanks | exempt body => exact hlater h
    | call body =>
      rw [liftedCalls_call, List.map_cons, List.mem_cons] at h
      rcases h with rfl | h
      · exact Nat.le_refl _
      · exact hlater h

/-- Of the tokens of `after`, which stands after `previous`, lifting swaps out those of the calls
among `pieces` and no others. -/
def SwapsLifted (rules : Rules) (keywords : Keywords) (place : Place) (previous : Option Char)
    (after : List Char) (pieces : List Piece) : Prop :=
  ∀ k, Occurs (startsToken rules) previous after k →
    (moved (pieces.flatMap (·.revision rules keywords)) k = none ↔
      place.offset + k ∈ (liftedCalls rules keywords place pieces).map (·.offset))

section

variable {rules : Rules} {keywords : Keywords} {place : Place} {previous : Option Char}
  {text tail : List Char} {pieces : List Piece}

theorem SwapsLifted.past
    (h : SwapsLifted rules keywords (place.after text) (lastChar previous text) tail pieces)
    {stretches : List Stretch} (hold : oldText stretches = text) {k : Nat}
    (hocc : Occurs (startsToken rules) previous (text ++ tail) (byteLength text + k)) :
    moved (stretches ++ pieces.flatMap (·.revision rules keywords)) (byteLength text + k) = none ↔
      place.offset + (byteLength text + k) ∈
        (liftedCalls rules keywords (place.after text) pieces).map (·.offset) := by
  rw [← hold, moved_append_add, Option.map_eq_none_iff, h k (occurs_append_add.1 hocc), hold,
    ← Nat.add_assoc]
  rfl

theorem SwapsLifted.copy {piece : Piece}
    (h : SwapsLifted rules keywords (place.after text) (lastChar previous text) tail pieces)
    (hrevision : piece.revision rules keywords = [.kept text])
    (hcalls : liftedCalls rules keywords place (piece :: pieces) =
      liftedCalls rules keywords (place.after text) pieces) :
    SwapsLifted rules keywords place previous (text ++ tail) (piece :: pieces) := by
  intro k hocc
  rw [List.flatMap_cons, hrevision, hcalls]
  by_cases hk : k < byteLength text
  · have hkept : moved ([.kept text] ++ pieces.flatMap (·.revision rules keywords)) k = some k := by
      rw [List.singleton_append, moved, if_pos hk]
    rw [hkept]
    simp only [reduceCtorEq, false_iff]
    -- the later calls start after the piece
    intro hmem
    have := offset_le_of_mem hmem
    simp only [Place.after] at this
    omega
  · obtain ⟨j, rfl⟩ := Nat.exists_eq_add_of_le (Nat.le_of_not_lt hk)
    exact h.past (by simp) hocc

theorem moved_bodyRevision_ne_none {body : List Char} {k : Nat} (hk : k < byteLength body)
    (hocc : Occurs (startsToken rules) previous (body ++ tail) k) :
    moved (bodyRevision body) k ≠ none := by
  have hspares : Spares (startsToken rules) previous (bodyRevision body ++ [.kept tail]) :=
    spares_bodyRevision (fun _ _ _ _ _ htag hab hb => no_token_in_tag htag hab hb) (.kept .nil)
  obtain ⟨j, hj⟩ := hspares.exists_moved (by simpa using hocc)
  rw [moved_append_of_lt (by simpa using hk)] at hj
  simp [hj]

theorem moved_call_eq_none_iff {body : List Char} {k : Nat}
    (hk : k < byteLength (callHead rules ++ body))
    (hocc : Occurs (startsToken rules) previous (callHead rules ++ body ++ tail) k) :
    moved ((Piece.call body).revision rules keywords) k = none ↔ k = 0 := by
  rw [List.append_assoc] at hocc
  rw [Piece.revision, moved]
  split
  · rename_i hhead
    obtain ⟨x, w, hw, hne, rfl, hpat⟩ := exists_of_occurs_append hocc hhead
    -- past its first character, the head is in the middle of a word
    simp only [true_iff, byteLength_eq_zero]
    by_contra hx
    rw [no_token_in_callHead hw hx hne] at hpat
    exact absurd hpat (by decide)
  · rename_i hhead
    obtain ⟨j, rfl⟩ := Nat.exists_eq_add_of_le (Nat.le_of_not_lt hhead)
    have hpos : 0 < byteLength (callHead rules) := byteLength_pos (by simp [callHead])
    rw [byteLength_append] at hk
    have hbody := moved_bodyRevision_ne_none (by omega) (occurs_append_add.1 hocc)
    rw [Nat.add_sub_cancel_left, Option.map_eq_none_iff]
    constructor
    · intro hnone
      exact absurd hnone hbody
    · intro hzero
      omega

theorem SwapsLifted.call {body : List Char}
    (h : SwapsLifted rules keywords (place.after (callHead rules ++ body))
      (lastChar previous (callHead rules ++ body)) tail pieces) :
    SwapsLifted rules keywords place previous (callHead rules ++ body ++ tail)
      (.call body :: pieces) := by
  intro k hocc
  have hold : oldText ((Piece.call body).revision rules keywords) = callHead rules ++ body := by
    simp
  rw [List.flatMap_cons, liftedCalls_call, List.map_cons, List.mem_cons]
  by_cases hk : k < byteLength (callHead rules ++ body)
  · rw [moved_append_of_lt (by rwa [hold]), moved_call_eq_none_iff hk hocc]
    constructor
    · rintro rfl
      exact .inl rfl
    · rintro (hzero | hmem)
      · exact Nat.add_eq_left.1 hzero
      · have := offset_le_of_mem hmem
        simp only [Place.after] at this
        omega
  · obtain ⟨j, rfl⟩ := Nat.exists_eq_add_of_le (Nat.le_of_not_lt hk)
    have hpos : 0 < byteLength (callHead rules ++ body) := byteLength_pos (by simp [callHead])
    rw [h.past hold hocc]
    constructor
    · exact .inr
    · rintro (hzero | hmem)
      · have := Nat.add_eq_left.1 hzero
        omega
      · exact hmem

end

theorem Reads.swapsLifted {rules : Rules} {boundary : Nat} {before after : List Char} {cut : Cut}
    (h : Reads rules boundary before after cut) (hok : cut.failure = none) (keywords : Keywords)
    (place : Place) : SwapsLifted rules keywords place before.head? after cut.pieces := by
  induction h generalizing place with
  | done =>
    intro k hocc
    obtain ⟨a, b, heq, _, hpat⟩ := hocc
    obtain ⟨rfl, rfl⟩ := List.append_eq_nil_iff.1 heq.symm
    simp [startsToken_nil] at hpat
  | @char before cs c cut _ _ ih =>
    have hrest : SwapsLifted rules keywords (place.after [c]) (lastChar before.head? [c]) cs
        cut.pieces := ih hok _
    exact hrest.copy rfl rfl
  | @commented before after blanks rest cut htoken _ _ ih =>
    have hrest := ih hok (place.after (tokenText rules blanks))
    rw [head?_reverse_append] at hrest
    rw [eq_append_of_token? htoken]
    exact hrest.copy (Piece.revision_commented rules keywords blanks) (liftedCalls_commented blanks)
  | unterminated => simp at hok
  | @exempt before after blanks rest span afterSpan cut htoken _ hspan _ _ ih =>
    have hrest := ih hok (place.after (callHead rules ++ (blanks ++ span)))
    rw [head?_reverse_append] at hrest
    rw [eq_append_of_token?_of_span? htoken hspan]
    exact hrest.copy rfl rfl
  | @call before after blanks rest span afterSpan cut htoken _ hspan _ _ ih =>
    have hrest := ih hok (place.after (callHead rules ++ (blanks ++ span)))
    rw [head?_reverse_append] at hrest
    rw [eq_append_of_token?_of_span? htoken hspan]
    exact hrest.call

/-! ### Counting tokens over passes -/

section

variable {rules : Rules} {keywords : Keywords} {source : List Char} {r : Lifting}

theorem moved_eq_none_iff (h : lift rules keywords source = .ok r) {p : Nat}
    (hp : IsToken rules source p) :
    moved (revision rules keywords source) p = none ↔ p ∈ r.calls.map (·.offset) := by
  obtain ⟨hok, rfl⟩ := lift_eq_ok_iff.1 h
  have hswaps := (reads_cut rules source).swapsLifted hok keywords .start p
    (isToken_iff_occurs.1 hp)
  have hstart : Place.start.offset + p = p := Nat.zero_add p
  rwa [hstart] at hswaps

theorem filter_tokens_eq (h : lift rules keywords source = .ok r) :
    (tokens rules source).filter (· ∈ r.calls.map (·.offset)) = r.calls.map (·.offset) := by
  obtain ⟨hok, rfl⟩ := lift_eq_ok_iff.1 h
  obtain ⟨patches, hcalls, htext⟩ := (reads_cut rules source).patched hok keywords .start rfl
  have hordered := pairwise_offset hcalls (ordered_of_patched? htext).2
  refine (pairwise_tokens.filter _).eq_of_mem_iff hordered fun p => ?_
  rw [List.mem_filter, decide_eq_true_eq, mem_tokens_iff, and_iff_right_iff_imp]
  intro hp
  have hscanned := (((reads_cut rules source).mem_offsets_iff hok (.start rules source) keywords
    .start rfl p).1 hp).1.2
  rw [Scanned] at hscanned
  exact hscanned.1

theorem map_some_tokens (hname : ∀ level : Level, rules.macroName ≠ level.name)
    (h : lift rules keywords source = .ok r) :
    (tokens rules r.text).map some =
      ((tokens rules source).filter (· ∉ r.calls.map (·.offset))).map
        (moved (revision rules keywords source)) := by
  have himage : ∀ p ∈ (tokens rules source).filter (· ∉ r.calls.map (·.offset)),
      moved (revision rules keywords source) p ≠ none := by
    intro p hp
    rw [List.mem_filter, decide_eq_true_eq, mem_tokens_iff] at hp
    rw [ne_eq, moved_eq_none_iff h hp.1]
    exact hp.2
  have htokens : tokens rules r.text =
      ((tokens rules source).filter (· ∉ r.calls.map (·.offset))).filterMap
        (moved (revision rules keywords source)) := by
    -- both sides ascend, so they are equal when they have the same members
    refine pairwise_tokens.eq_of_mem_iff ?_ fun q => ?_
    · exact (pairwise_tokens.filter _).filterMap _
        fun p p' hlt q hq q' hq' => moved_lt_moved hq hq' hlt
    · rw [mem_tokens_iff, isToken_lifted_iff hname h]
      simp only [List.mem_filterMap, List.mem_filter, decide_eq_true_eq, mem_tokens_iff]
      constructor
      · rintro ⟨p, hq, hp⟩
        refine ⟨p, ⟨hp, ?_⟩, hq⟩
        rw [← moved_eq_none_iff h hp, hq]
        exact Option.some_ne_none q
      · rintro ⟨p, ⟨hp, _⟩, hq⟩
        exact ⟨p, hq, hp⟩
  rw [htokens, List.map_filterMap]
  generalize (tokens rules source).filter (· ∉ r.calls.map (·.offset)) = kept at himage
  rw [← List.filterMap_eq_map]
  refine List.filterMap_congr fun p hp => ?_
  obtain ⟨q, hq⟩ := Option.ne_none_iff_exists'.1 (himage p hp)
  rw [hq, Option.map_some, Function.comp_apply, hq]

theorem length_tokens_add (hname : ∀ level : Level, rules.macroName ≠ level.name)
    (h : lift rules keywords source = .ok r) :
    (tokens rules r.text).length + r.replacements = (tokens rules source).length := by
  have hkept : (tokens rules r.text).length =
      ((tokens rules source).filter (· ∉ r.calls.map (·.offset))).length := by
    simpa only [List.length_map] using congrArg List.length (map_some_tokens hname h)
  have hlifted : r.replacements =
      ((tokens rules source).filter (· ∈ r.calls.map (·.offset))).length := by
    rw [filter_tokens_eq h, List.length_map, Lifting.replacements]
  have hsplit := (tokens rules source).length_eq_length_filter_add
    fun p => decide (p ∈ r.calls.map (·.offset))
  simp only [← decide_not] at hsplit
  omega

end

theorem tokens_congr {rules rules' : Rules} (hname : rules.macroName = rules'.macroName)
    (source : List Char) : tokens rules source = tokens rules' source := by
  have hhead : callHead rules = callHead rules' := by rw [callHead, callHead, hname]
  refine pairwise_tokens.eq_of_mem_iff pairwise_tokens fun p => ?_
  simp only [mem_tokens_iff, IsToken, TokenAt, hhead]

/-- Successive passes over `source` for the calls of one name.  Each pass lifts the text that the
pass before it has left, with keywords and a path of its own. -/
inductive Passes (macroName : String) : (source : List Char) → List Lifting → Prop
  | done {source : List Char} : Passes macroName source []
  | pass {rules : Rules} {keywords : Keywords} {source : List Char} {r : Lifting}
      {later : List Lifting} :
      rules.macroName = macroName → lift rules keywords source = .ok r →
      Passes macroName r.text later → Passes macroName source (r :: later)

theorem Passes.sum_replacements_le {rules : Rules} {source : List Char} {passes : List Lifting}
    (hname : ∀ level : Level, rules.macroName ≠ level.name)
    (h : Passes rules.macroName source passes) :
    (passes.map (·.replacements)).sum ≤ (tokens rules source).length := by
  induction h with
  | done => exact Nat.zero_le _
  | @pass rules' _ source r later hsame hlift _ ih =>
    have hstep := length_tokens_add (fun level => by rw [hsame]; exact hname level) hlift
    rw [tokens_congr hsame, tokens_congr hsame] at hstep
    rw [List.map_cons, List.sum_cons]
    omega

/-- A pass keeps the tokens that it does not lift, in their order, and makes no new one.  So each
lifted call uses up one token, and successive passes lift no more calls than the first text has
tokens. -/
theorem tokens_conserved {rules : Rules} (hname : ∀ level : Level, rules.macroName ≠ level.name)
    (source : List Char) :
    (∀ (keywords : Keywords) (r : Lifting), lift rules keywords source = .ok r →
      oldText (revision rules keywords source) = source ∧
      newText (revision rules keywords source) = r.text ∧
      (tokens rules r.text).map some =
        ((tokens rules source).filter (· ∉ r.calls.map (·.offset))).map
          (moved (revision rules keywords source)) ∧
      (tokens rules r.text).length + r.replacements = (tokens rules source).length) ∧
    ∀ passes, Passes rules.macroName source passes →
      (passes.map (·.replacements)).sum ≤ (tokens rules source).length := by
  constructor
  · intro keywords r h
    obtain ⟨hold, hnew⟩ := texts_of_lift h
    exact ⟨hold, hnew, map_some_tokens hname h, length_tokens_add hname h⟩
  · intro passes hpasses
    exact hpasses.sum_replacements_le hname

/-- A call in a call, and a commented one.  The first pass lifts the outer call; a second pass, with
another path and no keywords, lifts the inner one. -/
theorem tokens_conserved_nested :
    lift .default .default "println!(println!(\"[A] x\")); // println!(1)".toList =
      .ok ⟨"log::debug!(println!(\"x\")); // println!(1)".toList, [⟨0, 1, .debug, true⟩]⟩ ∧
    tokens .default "println!(println!(\"[A] x\")); // println!(1)".toList = [0, 9, 32] ∧
    (tokens .default "log::debug!(println!(\"x\")); // println!(1)".toList).map some =
      [9, 32].map (moved (revision .default .default
        "println!(println!(\"[A] x\")); // println!(1)".toList)) ∧
    (tokens .default "log::debug!(println!(\"x\")); // println!(1)".toList).length + 1 = 3 ∧
    Passes "println" "println!(println!(\"[A] x\")); // println!(1)".toList
      [⟨"log::debug!(println!(\"x\")); // println!(1)".toList, [⟨0, 1, .debug, true⟩]⟩,
        ⟨"log::debug!(tracing::debug!(\"x\")); // println!(1)".toList, [⟨12, 1, .debug, false⟩]⟩] ∧
    1 + 1 ≤ (tokens .default "println!(println!(\"[A] x\")); // println!(1)".toList).length := by
  have hfirst : lift .default .default "println!(println!(\"[A] x\")); // println!(1)".toList =
      .ok ⟨"log::debug!(println!(\"x\")); // println!(1)".toList, [⟨0, 1, .debug, true⟩]⟩ :=
    lift_eq_ok_iff.2 ⟨by decide +kernel, by decide +kernel⟩
  have hsecond : lift ⟨"println", "tracing", by decide +kernel, by decide +kernel⟩ ⟨[], [], []⟩
      "log::debug!(println!(\"x\")); // println!(1)".toList =
      .ok ⟨"log::debug!(tracing::debug!(\"x\")); // println!(1)".toList, [⟨12, 1, .debug, false⟩]⟩ :=
    lift_eq_ok_iff.2 ⟨by decide +kernel, by decide +kernel⟩
  have htokens : tokens .default "println!(println!(\"[A] x\")); // println!(1)".toList = [0, 9, 32] := by
    decide +kernel
  have hpasses : Passes "println" "println!(println!(\"[A] x\")); // println!(1)".toList
      [⟨"log::debug!(println!(\"x\")); // println!(1)".toList, [⟨0, 1, .debug, true⟩]⟩,
        ⟨"log::debug!(tracing::debug!(\"x\")); // println!(1)".toList, [⟨12, 1, .debug, false⟩]⟩] :=
    .pass rfl hfirst (.pass rfl hsecond .done)
  obtain ⟨hpass, hsum⟩ := tokens_conserved macroName_default_ne
    "println!(println!(\"[A] x\")); // println!(1)".toList
  obtain ⟨_, _, hkept, hcount⟩ := hpass .default _ hfirst
  rw [htokens] at hkept hcount
  exact ⟨hfirst, htokens, hkept, hcount, hpasses, hsum _ hpasses⟩

end LogLift.Document
