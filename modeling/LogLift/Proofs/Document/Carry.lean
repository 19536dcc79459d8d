import LogLift.Proofs.Document.TestRegion

/-! What lifting carries over.  Lifting a document is a revision of its text: the head of a lifted
call and the tag of its message are swapped, and the rest is kept.  A pattern is blind to lifting
when no such swap shows to it; its occurrences in the lifted text are then those in the kept part
of the source.  Tokens are such a pattern, unless they are the heads of logging calls. -/

namespace LogLift.Document

open LogLift.Text LogLift.Source LogLift.Message

/-! ### Lifting as a revision -/

def bodyRevision (body : List Char) : List Stretch :=
  match firstLiteral? body with
  | none => [.kept body]
  | some l => [.kept (l.before ++ ['"']), .swapped (tagOf l.inner) [],
      .kept (stripTag l.inner ++ '"' :: l.after)]

/-- What lifting does to a piece. -/
def Piece.revision (rules : Rules) (keywords : Keywords) : Piece → List Stretch
  | .call body =>
    .swapped (callHead rules) (rules.replacement (callLevel keywords body)).toList ::
      bodyRevision body
  | piece => [.kept (piece.source rules)]

def revision (rules : Rules) (keywords : Keywords) (source : List Char) : List Stretch :=
  (cut rules source).pieces.flatMap (·.revision rules keywords)

section

variable (rules : Rules) (keywords : Keywords)

@[simp] theorem oldText_bodyRevision (body : List Char) : oldText (bodyRevision body) = body := by
  rw [bodyRevision]
  split
  · simp
  · rename_i l hl
    simpa using (eq_append_tagOf hl).symm

@[simp] theorem newText_bodyRevision (body : List Char) :
    newText (bodyRevision body) = untagged body := by
  rw [bodyRevision]
  split
  · rename_i hl
    simp [untagged_of_none hl]
  · rename_i l hl
    simp [untagged_of_some hl]

@[simp] theorem Piece.revision_commented (blanks : List Char) :
    (Piece.commented blanks).revision rules keywords = [.kept (tokenText rules blanks)] := by
  rw [← Piece.source_commented]
  rfl

@[simp] theorem Piece.oldText_revision (piece : Piece) :
    oldText (piece.revision rules keywords) = piece.source rules := by
  cases piece <;> simp [Piece.revision]

@[simp] theorem Piece.newText_revision (piece : Piece) :
    newText (piece.revision rules keywords) = piece.image rules keywords := by
  cases piece <;> simp [Piece.revision]

theorem oldText_flatMap (pieces : List Piece) :
    oldText (pieces.flatMap (·.revision rules keywords)) = pieces.flatMap (·.source rules) := by
  induction pieces with
  | nil => rfl
  | cons piece pieces ih => simp [ih]

theorem newText_flatMap (pieces : List Piece) :
    newText (pieces.flatMap (·.revision rules keywords)) =
      pieces.flatMap (·.image rules keywords) := by
  induction pieces with
  | nil => rfl
  | cons piece pieces ih => simp [ih]

end

theorem texts_of_lift {rules : Rules} {keywords : Keywords} {source : List Char} {r : Lifting}
    (h : lift rules keywords source = .ok r) :
    oldText (revision rules keywords source) = source ∧
      newText (revision rules keywords source) = r.text := by
  obtain ⟨hok, rfl⟩ := lift_eq_ok_iff.1 h
  exact ⟨(oldText_flatMap _ _ _).trans ((reads_cut rules source).flatMap_source hok),
    newText_flatMap _ _ _⟩

/-! ### Patterns that are blind to lifting -/

/-- Lifting does not show to the pattern. -/
structure Blind (rules : Rules) (pattern : Pattern) : Prop where
  /-- Of the character before, it asks only whether a word may start after it. -/
  previous : ∀ {p p' : Option Char}, wordMayStart p = wordMayStart p' →
    ∀ cs, pattern p cs = pattern p' cs
  /-- From before, it cannot tell the head of a call from the name of a logging call. -/
  head : ∀ {w : List Char}, w ≠ [] → wordMayStart (lastChar none w) = true → ∀ level s t p,
    pattern p (w ++ (callHead rules ++ s)) =
      pattern p (w ++ ((rules.replacement level).toList ++ t))
  /-- It does not reach over a quote. -/
  quote : ∀ {w : List Char}, lastChar none w = some '"' → ∀ s t p,
    pattern p (w ++ s) = pattern p (w ++ t)
  /-- It does not start in the name of a logging call. -/
  name : ∀ {level : Level} {a b : List Char}, (rules.replacement level).toList = a ++ b → b ≠ [] →
    ∀ s p, pattern (lastChar p a) (b ++ s) = false

theorem replacement_toList (rules : Rules) (level : Level) :
    (rules.replacement level).toList =
      (rules.logPath.toList ++ [':', ':'] ++ level.name.toList) ++ ['!'] := by
  simp [Rules.replacement, String.toList_append]

theorem lastChar_callHead (rules : Rules) (previous : Option Char) :
    lastChar previous (callHead rules) = some '!' := by
  simp [callHead]

theorem lastChar_replacement (rules : Rules) (level : Level) (previous : Option Char) :
    lastChar previous (rules.replacement level).toList = some '!' := by
  simp [replacement_toList]

theorem lastChar_untagged (previous : Option Char) (body : List Char) :
    lastChar previous (untagged body) = lastChar previous body := by
  cases hl : firstLiteral? body with
  | none => rw [untagged_of_none hl]
  | some l =>
    rw [untagged_of_some hl, eq_of_firstLiteral? hl]
    simp

/-- After a tag a word may start, as after the quote before the tag. -/
theorem wordMayStart_tagOf (cs : List Char) :
    wordMayStart (lastChar (some '"') (tagOf cs)) = wordMayStart (some '"') := by
  by_cases h : stripTag cs = cs
  · rw [tagOf_eq_nil_iff.2 h, lastChar_nil]
  · obtain ⟨init, z, hz, hlast⟩ := (isTag_tagOf h).exists_last
    have hword : isWord z = false := by
      rcases hlast with rfl | hblank
      · decide
      · exact isWord_of_isBlank hblank
    have hquote : wordMayStart (some '"') = true := by decide
    rw [hz, lastChar_append, lastChar_cons, lastChar_nil, hquote]
    simp [wordMayStart, hword]

section

variable {rules : Rules} {pattern : Pattern} {previous previous' : Option Char}
  {rest : List Stretch}

/-- Copied text is kept, and what stands behind it is its last character. -/
theorem Blind.unnoticed_copy (hblind : Blind rules pattern) {before text : List Char}
    (hstart : wordMayStart before.head? = wordMayStart previous') (hne : text ≠ [])
    (hrest : ∀ p, wordMayStart (text.reverse ++ before).head? = wordMayStart p →
      Unnoticed pattern (text.reverse ++ before).head? p rest) :
    Unnoticed pattern before.head? previous' (.kept text :: rest) := by
  have hends := head?_reverse_append text before
  rw [lastChar_of_ne_nil hne _ previous'] at hends
  have hnext := hrest (lastChar previous' text) (by rw [hends])
  rw [head?_reverse_append] at hnext
  exact .kept (hblind.previous hstart) hnext

theorem Blind.unnoticed_body (hblind : Blind rules pattern) {body : List Char}
    (hrest : Unnoticed pattern (lastChar previous body) (lastChar previous (untagged body)) rest) :
    Unnoticed pattern previous previous (bodyRevision body ++ rest) := by
  rw [bodyRevision]
  split
  · rename_i hl
    rw [untagged_of_none hl] at hrest
    exact .kept (fun _ => rfl) hrest
  · rename_i l hl
    have hquote : lastChar previous (l.before ++ ['"']) = some '"' := by simp
    rw [untagged_of_some hl, lastChar_append, hquote, eq_append_tagOf hl, lastChar_append, hquote,
      lastChar_append] at hrest
    refine .kept (fun _ => rfl) ?_
    rw [hquote]
    refine .swapped ?_ ?_ (.kept (hblind.previous (wordMayStart_tagOf l.inner)) hrest)
    · intro w _ hlast p
      exact hblind.quote hlast _ _ p
    · intro a b hab hb
      exact absurd (List.append_eq_nil_iff.1 hab.symm).2 hb

theorem Blind.unnoticed_call (hblind : Blind rules pattern) {keywords : Keywords}
    {body : List Char} (hword : wordMayStart previous = true)
    (hrest : Unnoticed pattern (lastChar previous (callHead rules ++ body))
      (lastChar previous' ((Piece.call body).image rules keywords)) rest) :
    Unnoticed pattern previous previous' ((Piece.call body).revision rules keywords ++ rest) := by
  rw [Piece.image_call, lastChar_append, lastChar_callHead, lastChar_append,
    lastChar_replacement] at hrest
  rw [Piece.revision, List.cons_append]
  refine .swapped ?_ ?_ ?_
  · intro w hw hlast p
    exact hblind.head hw (hlast ▸ hword) _ _ _ p
  · intro a b hab hb
    exact hblind.name hab hb _ _
  · rw [lastChar_callHead, lastChar_replacement]
    exact hblind.unnoticed_body hrest

end

/-- Along a reading, lifting goes unnoticed by a blind pattern. -/
theorem Reads.unnoticed {rules : Rules} {boundary : Nat} {before after : List Char} {cut : Cut}
    (h : Reads rules boundary before after cut) {pattern : Pattern} (hblind : Blind rules pattern)
    (keywords : Keywords) (previous' : Option Char)
    (hstart : wordMayStart before.head? = wordMayStart previous') :
    Unnoticed pattern before.head? previous'
      (cut.pieces.flatMap (·.revision rules keywords)) := by
  induction h generalizing previous' with
  | done => exact .nil (hblind.previous hstart)
  | @char before cs c cut _ _ ih =>
    exact hblind.unnoticed_copy hstart (List.cons_ne_nil c []) ih
  | @commented before after blanks rest cut _ _ _ ih =>
    rw [Cut.cons_pieces, List.flatMap_cons, Piece.revision_commented]
    exact hblind.unnoticed_copy hstart (by simp [tokenText]) ih
  | unterminated => exact .nil (hblind.previous hstart)
  | @exempt before after blanks rest span afterSpan cut _ _ _ _ _ ih =>
    exact hblind.unnoticed_copy hstart (by simp [callHead]) ih
  | @call before after blanks rest span afterSpan cut htoken _ _ _ _ ih =>
    have hword := (token?_eq_some_iff.1 htoken).1
    have hends : wordMayStart ((callHead rules ++ (blanks ++ span)).reverse ++ before).head? =
        wordMayStart (lastChar previous' ((Piece.call (blanks ++ span)).image rules keywords)) := by
      rw [head?_reverse_append, Piece.image_call, lastChar_append, lastChar_callHead,
        lastChar_append previous', lastChar_replacement, lastChar_untagged]
    have hrest := ih _ hends
    rw [head?_reverse_append] at hrest
    exact hblind.unnoticed_call hword hrest

/-- The occurrences of a blind pattern in a lifted text are those in the kept part of the source,
carried over. -/
theorem Blind.occurs_lifted_iff {rules : Rules} {pattern : Pattern} (hblind : Blind rules pattern)
    {keywords : Keywords} {source : List Char} {r : Lifting}
    (h : lift rules keywords source = .ok r) {q : Nat} :
    Occurs pattern none r.text q ↔
      ∃ p, moved (revision rules keywords source) p = some q ∧ Occurs pattern none source p := by
  obtain ⟨hold, hnew⟩ := texts_of_lift h
  have hunnoticed : Unnoticed pattern none none (revision rules keywords source) :=
    (reads_cut rules source).unnoticed hblind keywords none rfl
  rw [← hnew, hunnoticed.occurs_new_iff, hold]

/-! ### Tokens -/

theorem exists_cons_callHead (rules : Rules) :
    ∃ c cs, callHead rules = c :: cs ∧ isWord c = true := by
  obtain ⟨c, cs, hname, hc⟩ := rules.exists_cons_macroName
  exact ⟨c, cs ++ ['!'], by simp [callHead, hname], isWord_of_isIdentifierRest hc⟩

theorem exists_cons_replacement (rules : Rules) (level : Level) :
    ∃ c cs, (rules.replacement level).toList = c :: cs ∧ isWord c = true := by
  obtain ⟨c, cs, hpath, hc⟩ := exists_cons_of_isIdentifierPath rules.isIdentifierPath_logPath
  exact ⟨c, _, by rw [replacement_toList, hpath]; rfl, isWord_of_isIdentifierRest hc⟩

theorem isWord_or_of_mem_name {rules : Rules} {level : Level} {c : Char}
    (h : c ∈ rules.logPath.toList ++ [':', ':'] ++ level.name.toList) :
    isWord c = true ∨ c = ':' := by
  rcases List.mem_append.1 h with h | h
  · rcases List.mem_append.1 h with h | h
    · rcases of_mem_isIdentifierPath rules.isIdentifierPath_logPath h with h | h
      · exact .inr h
      · exact .inl (isWord_of_isIdentifierRest h)
    · exact .inr (by simpa using h)
  · exact .inl (isWord_of_isIdentifierRest (isIdentifierRest_of_mem_level h))

/-- A name that ends the path of a logging call where a word may start is the level's. -/
theorem eq_level_of_ends {rules : Rules} {level : Level} {a : List Char} {previous : Option Char}
    (h : rules.logPath.toList ++ [':', ':'] ++ level.name.toList = a ++ rules.macroName.toList)
    (hword : wordMayStart (lastChar previous a) = true) : rules.macroName = level.name := by
  rw [← String.toList_inj]
  obtain ⟨x, rfl, hx⟩ | ⟨x, hx, hname⟩ := List.append_eq_append_iff.1 h
  · rcases List.eq_nil_or_concat x with rfl | ⟨init, z, rfl⟩
    · exact hx.symm
    · have hz : z ∈ level.name.toList := by simp [hx]
      have := isWord_of_isIdentifierRest (isIdentifierRest_of_mem_level hz)
      simp [wordMayStart, this] at hword
  · rcases List.eq_nil_or_concat x with rfl | ⟨init, z, rfl⟩
    · exact hname
    · have hz : z = ':' := by
        have := congrArg List.getLast? hx
        simpa using this.symm
      exact absurd (by simp [hname, hz] : ':' ∈ rules.macroName.toList)
        (rules.not_mem_macroName (by decide))

/-- Tokens that are not heads of logging calls are blind to lifting. -/
theorem blind_startsToken {rules : Rules} (hname : ∀ level : Level, rules.macroName ≠ level.name) :
    Blind rules (startsToken rules) where
  previous h cs := startsToken_congr h cs
  head hw hlast level s t p := by
    obtain ⟨c, cs, hhead, hc⟩ := exists_cons_callHead rules
    obtain ⟨d, ds, hrep, hd⟩ := exists_cons_replacement rules level
    rw [hhead, hrep]
    exact append_eq_of_within startsToken_iff_tokenText (within_of_wordMayStart hw hlast hc)
      (within_of_wordMayStart hw hlast hd)
  quote hlast s t p := by
    have hquote : ∀ text, TokenText rules p text → '"' ∉ text := by
      rintro _ ⟨_, blanks, hblank, rfl⟩
      exact not_mem_tokenText hblank
    exact append_eq_of_within startsToken_iff_tokenText (within_of_not_mem hquote hlast s)
      (within_of_not_mem hquote hlast t)
  name {level a b} hab hb s p := by
    rw [← Bool.not_eq_true]
    intro htoken
    obtain ⟨hword, blanks, _, rest, hrest⟩ := startsToken_iff.1 htoken
    rw [replacement_toList] at hab
    obtain ⟨init, rfl, hinit⟩ := exists_concat_of_concat_eq hab hb
    -- the first `!` on both sides ends the call's name and the level's
    have hcut : rules.macroName.toList ++ '!' :: (blanks ++ '(' :: rest) = init ++ '!' :: s := by
      simpa [tokenText_eq] using hrest
    have hinit' : '!' ∉ init := by
      intro hmem
      have hbang : '!' ∈ rules.logPath.toList ++ [':', ':'] ++ level.name.toList := by
        rw [hinit]
        exact List.mem_append_right a hmem
      exact absurd (isWord_or_of_mem_name hbang) (by decide)
    obtain ⟨rfl, _⟩ := append_cons_inj_of_not_mem (rules.not_mem_macroName (by decide)) hinit' hcut
    exact hname level (eq_level_of_ends hinit hword)

/-- The tokens of a lifted text are the tokens in the kept part of the source, carried over. -/
theorem isToken_lifted_iff {rules : Rules} (hname : ∀ level : Level, rules.macroName ≠ level.name)
    {keywords : Keywords} {source : List Char} {r : Lifting}
    (h : lift rules keywords source = .ok r) {q : Nat} :
    IsToken rules r.text q ↔
      ∃ p, moved (revision rules keywords source) p = some q ∧ IsToken rules source p := by
  simp only [isToken_iff_occurs]
  exact (blind_startsToken hname).occurs_lifted_iff h

/-! ### Test markers -/

/-- A pattern that looks for test markers, for all of them or for some, is blind to lifting. -/
theorem blind_of_isMarker (rules : Rules) {pattern : Pattern}
    {texts : Option Char → List Char → Prop}
    (hpattern : ∀ p cs, pattern p cs = true ↔ ∃ text, texts p text ∧ text <+: cs)
    (hmarker : ∀ {p text}, texts p text → IsMarker text)
    (hprevious : ∀ {p p' : Option Char}, wordMayStart p = wordMayStart p' →
      ∀ cs, pattern p cs = pattern p' cs) : Blind rules pattern where
  previous := hprevious
  head {w} _ _ level s t p := by
    have hhead : Within (texts p) w (callHead rules ++ s) := by
      intro text htext
      rw [callHead, List.append_assoc]
      exact within_of_bang (fun c hc => .inl (rules.isWord_of_mem_macroName hc)) w s text
        (hmarker htext)
    have hname : Within (texts p) w ((rules.replacement level).toList ++ t) := by
      intro text htext
      rw [replacement_toList, List.append_assoc]
      exact within_of_bang (fun c hc => isWord_or_of_mem_name hc) w t text (hmarker htext)
    exact append_eq_of_within hpattern hhead hname
  quote hlast s t p := by
    have hquote : ∀ text, texts p text → '"' ∉ text := fun _ htext =>
      (hmarker htext).quote_not_mem
    exact append_eq_of_within hpattern (within_of_not_mem hquote hlast s)
      (within_of_not_mem hquote hlast t)
  name {level a b} hab hb s p := by
    rw [replacement_toList] at hab
    obtain ⟨init, rfl, hinit⟩ := exists_concat_of_concat_eq hab hb
    have hchars : ∀ c ∈ init, isWord c = true ∨ c = ':' := by
      intro c hc
      have hmem : c ∈ rules.logPath.toList ++ [':', ':'] ++ level.name.toList := by
        rw [hinit]
        exact List.mem_append_right a hc
      exact isWord_or_of_mem_name hmem
    rw [← Bool.not_eq_true, hpattern, List.append_assoc]
    rintro ⟨text, htext, hpre⟩
    exact (hmarker htext).not_prefix_bang hchars s hpre

theorem blind_startsTestMarker (rules : Rules) : Blind rules startsTestMarker :=
  blind_of_isMarker rules startsTestMarker_iff (fun h => h.1) startsTestMarker_congr

/-- Where a pattern occurs in no tag, untagging a body swaps out no occurrence. -/
theorem spares_bodyRevision {pattern : Pattern} {previous : Option Char} {body : List Char}
    {later : List Stretch}
    (hpattern : ∀ (previous : Option Char) (tag a b rest : List Char), IsTag tag → tag = a ++ b →
      b ≠ [] → pattern previous (b ++ rest) = false)
    (h : Spares pattern (lastChar previous body) later) :
    Spares pattern previous (bodyRevision body ++ later) := by
  rw [bodyRevision]
  split
  · exact .kept h
  · rename_i l hl
    rw [eq_append_tagOf hl, lastChar_append, lastChar_append] at h
    refine .kept (.swapped (fun a b hab hb => ?_) (.kept h))
    have hstrip : stripTag l.inner ≠ l.inner := by
      intro hsame
      rw [tagOf_eq_nil_iff.2 hsame] at hab
      exact hb (List.append_eq_nil_iff.1 hab.symm).2
    exact hpattern _ _ a b _ (isTag_tagOf hstrip) hab hb

/-- Along a reading, lifting swaps out no test marker. -/
theorem Reads.spares {rules : Rules} {boundary : Nat} {before after : List Char} {cut : Cut}
    (h : Reads rules boundary before after cut) (keywords : Keywords) :
    Spares startsTestMarker before.head? (cut.pieces.flatMap (·.revision rules keywords)) := by
  induction h with
  | done => exact .nil
  | char _ _ ih => exact .kept ih
  | @commented before after blanks rest cut _ _ _ ih =>
    rw [head?_reverse_append] at ih
    rw [Cut.cons_pieces, List.flatMap_cons, Piece.revision_commented]
    exact .kept ih
  | unterminated => exact .nil
  | @exempt before after blanks rest span afterSpan cut _ _ _ _ _ ih =>
    rw [head?_reverse_append] at ih
    exact .kept ih
  | @call before after blanks rest span afterSpan cut _ _ _ _ _ ih =>
    rw [head?_reverse_append, lastChar_append] at ih
    refine .swapped (fun a b hab hb => no_marker_in_callHead hab hb) ?_
    exact spares_bodyRevision (fun _ _ _ _ _ htag hab hb => no_marker_in_tag htag hab hb) ih

/-- The test region of a lifted text starts where the test region of the source is carried to. -/
theorem moved_testOffset {rules : Rules} {keywords : Keywords} {source : List Char} {r : Lifting}
    (h : lift rules keywords source = .ok r) :
    moved (revision rules keywords source) (testOffset source) = some (testOffset r.text) := by
  obtain ⟨hold, hnew⟩ := texts_of_lift h
  have hcarried : ∀ {q : Nat}, Occurs startsTestMarker none r.text q ↔ ∃ p,
      moved (revision rules keywords source) p = some q ∧ Occurs startsTestMarker none source p :=
    (blind_startsTestMarker rules).occurs_lifted_iff h
  have hle := testOffset_le_byteLength source
  have hle' := testOffset_le_byteLength r.text
  rcases Nat.lt_or_eq_of_le hle with hlt | heq
  · have hocc := occurs_testOffset hlt
    have hspares : Spares startsTestMarker none (revision rules keywords source) :=
      (reads_cut rules source).spares keywords
    obtain ⟨q, hq⟩ := hspares.exists_moved (by rwa [hold])
    have hocc' := hcarried.2 ⟨_, hq, hocc⟩
    have hfirst : testOffset r.text ≤ q := testOffsetFrom_le hocc'
    rcases Nat.eq_or_lt_of_le hfirst with hsame | hbefore
    · rw [hq, hsame]
    · -- an earlier marker in the lifted text comes from an earlier one in the source
      have := lt_byteLength_of_occurs hocc'
      obtain ⟨p, hp, hoccp⟩ := hcarried.1 (occurs_testOffset (by omega))
      have hlep : testOffset source ≤ p := testOffsetFrom_le hoccp
      rcases Nat.eq_or_lt_of_le hlep with hsame | hafter
      · rw [hsame, hp]
      · have := moved_lt_moved hq hp hafter
        omega
  · have hend := moved_byteLength (revision rules keywords source)
    rw [hold, hnew, ← heq] at hend
    rcases Nat.eq_or_lt_of_le hle' with hsame | hbefore
    · rw [hend, hsame]
    · obtain ⟨p, _, hoccp⟩ := hcarried.1 (occurs_testOffset hbefore)
      have := lt_byteLength_of_occurs hoccp
      have : testOffset source ≤ p := testOffsetFrom_le hoccp
      omega

theorem lt_testOffset_iff {rules : Rules} {keywords : Keywords} {source : List Char} {r : Lifting}
    (h : lift rules keywords source = .ok r) {p q : Nat}
    (hmoved : moved (revision rules keywords source) p = some q) :
    q < testOffset r.text ↔ p < testOffset source := by
  have hboundary := moved_testOffset h
  rcases Nat.lt_trichotomy p (testOffset source) with hlt | rfl | hgt
  · have := moved_lt_moved hmoved hboundary hlt
    omega
  · have := Option.some.inj (hmoved.symm.trans hboundary)
    omega
  · have := moved_lt_moved hboundary hmoved hgt
    omega

end LogLift.Document
