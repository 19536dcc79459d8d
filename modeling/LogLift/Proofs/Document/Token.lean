import Mathlib.Data.List.TakeWhile
import LogLift.Proofs.Names
import LogLift.Proofs.Text.Revision

/-! Tokens, the heads of printing calls, as a pattern: at the start of a word stand the call's
name, `!`, any blanks and `(`.  Tokens do not overlap, and inside one no word starts again, which
is why text that changes at the start of a word, or after a quote, shows to no token before it. -/

namespace LogLift.Document

open LogLift.Text LogLift.Source

variable {rules : Rules} {previous : Option Char}

theorem isBlank_paren : isBlank '(' = false := by decide

theorem token?_eq_some_iff {cs blanks rest : List Char} :
    token? rules previous cs = some (blanks, rest) ↔
      wordMayStart previous = true ∧ (∀ c ∈ blanks, isBlank c = true) ∧
        cs = callHead rules ++ (blanks ++ '(' :: rest) := by
  constructor
  · intro h
    refine ⟨?_, ?_, token?_append h⟩
    · by_contra hword
      simp [token?, hword] at h
    · unfold token? at h
      split at h
      · split at h
        · simp at h
        · split at h
          · simp only [Option.some.injEq, Prod.mk.injEq] at h
            rw [← h.1]
            exact fun c hc => List.mem_takeWhile_imp hc
          · simp at h
      · simp at h
  · rintro ⟨hword, hblank, rfl⟩
    have hafter : afterStart? (callHead rules) (callHead rules ++ (blanks ++ '(' :: rest)) =
        some (blanks ++ '(' :: rest) := afterStart?_eq_some_iff.2 rfl
    have hdrop : (blanks ++ '(' :: rest).dropWhile isBlank = '(' :: rest := by
      rw [List.dropWhile_append_of_pos hblank, List.dropWhile_cons_of_neg (by simp [isBlank_paren])]
    have htake : (blanks ++ '(' :: rest).takeWhile isBlank = blanks := by
      rw [List.takeWhile_append_of_pos hblank, List.takeWhile_cons_of_neg (by simp [isBlank_paren]),
        List.append_nil]
    simp only [token?, hword, if_true, hafter]
    split
    · rename_i afterOpen heq
      rw [hdrop] at heq
      rw [htake, (List.cons.inj heq).2]
    · rename_i hne
      exact absurd hdrop (hne rest)

/-- A token starts at `cs`, which stands after `previous`. -/
def startsToken (rules : Rules) : Pattern := fun previous cs => (token? rules previous cs).isSome

def tokenText (rules : Rules) (blanks : List Char) : List Char :=
  callHead rules ++ (blanks ++ ['('])

theorem startsToken_iff {cs : List Char} :
    startsToken rules previous cs = true ↔
      wordMayStart previous = true ∧
        ∃ blanks, (∀ c ∈ blanks, isBlank c = true) ∧ tokenText rules blanks <+: cs := by
  rw [startsToken, Option.isSome_iff_exists]
  constructor
  · rintro ⟨⟨blanks, rest⟩, h⟩
    obtain ⟨hword, hblank, rfl⟩ := token?_eq_some_iff.1 h
    exact ⟨hword, blanks, hblank, rest, by simp [tokenText]⟩
  · rintro ⟨hword, blanks, hblank, rest, rfl⟩
    exact ⟨(blanks, rest), token?_eq_some_iff.2 ⟨hword, hblank, by simp [tokenText]⟩⟩

theorem startsToken_congr {previous' : Option Char}
    (h : wordMayStart previous = wordMayStart previous') (cs : List Char) :
    startsToken rules previous cs = startsToken rules previous' cs := by
  rw [Bool.eq_iff_iff, startsToken_iff, startsToken_iff, h]

theorem not_isWord_of_mem_tail {blanks : List Char} (hblank : ∀ c ∈ blanks, isBlank c = true)
    {c : Char} (h : c ∈ '!' :: (blanks ++ ['('])) : isWord c = false := by
  simp only [List.mem_cons, List.mem_append, List.not_mem_nil, or_false] at h
  rcases h with rfl | h | rfl
  · decide
  · exact isWord_of_isBlank (hblank c h)
  · decide

theorem tokenText_eq (blanks : List Char) :
    tokenText rules blanks = rules.macroName.toList ++ '!' :: (blanks ++ ['(']) := by
  simp [tokenText, callHead]

/-- Inside a token, no word starts after its first character. -/
theorem wordMayStart_inside_token {blanks m t : List Char} {c : Char}
    (hblank : ∀ c ∈ blanks, isBlank c = true) (h : tokenText rules blanks = m ++ c :: t)
    (hm : m ≠ []) (hc : isWord c = true) : wordMayStart (lastChar none m) = false := by
  rw [tokenText_eq] at h
  obtain ⟨x, hx, hrest⟩ | ⟨x, hx, hrest⟩ := List.append_eq_append_iff.1 h
  · -- the name ends before `c`, which is then one of `!`, the blanks and `(`
    have hmem : c ∈ '!' :: (blanks ++ ['(']) := by simp [hrest]
    rw [not_isWord_of_mem_tail hblank hmem] at hc
    exact absurd hc (by decide)
  · obtain ⟨init, z, rfl⟩ := List.eq_nil_or_concat m |>.resolve_left hm
    have hz : z ∈ rules.macroName.toList := by simp [hx]
    have hword := rules.isWord_of_mem_macroName hz
    simp [wordMayStart, hword]

/-- The texts that `startsToken` looks for. -/
def TokenText (rules : Rules) (previous : Option Char) (text : List Char) : Prop :=
  wordMayStart previous = true ∧
    ∃ blanks, (∀ c ∈ blanks, isBlank c = true) ∧ text = tokenText rules blanks

theorem startsToken_iff_tokenText (p : Option Char) (cs : List Char) :
    startsToken rules p cs = true ↔ ∃ text, TokenText rules p text ∧ text <+: cs := by
  rw [startsToken_iff]
  constructor
  · rintro ⟨hword, blanks, hblank, hpre⟩
    exact ⟨_, ⟨hword, blanks, hblank, rfl⟩, hpre⟩
  · rintro ⟨_, ⟨hword, blanks, hblank, rfl⟩, hpre⟩
    exact ⟨hword, blanks, hblank, hpre⟩

theorem within_of_wordMayStart {w s : List Char} {c : Char} (hw : w ≠ [])
    (hlast : wordMayStart (lastChar none w) = true) (hc : isWord c = true) :
    Within (TokenText rules previous) w (c :: s) := by
  rintro _ ⟨_, blanks, hblank, rfl⟩ hpre
  obtain hpre | ⟨d, r, ht, hd⟩ := prefix_or_of_prefix_append hpre
  · exact hpre
  · obtain ⟨rfl, _⟩ := List.cons_prefix_cons.1 hd
    rw [wordMayStart_inside_token hblank ht hw hc] at hlast
    exact absurd hlast (by decide)

theorem not_mem_tokenText {blanks : List Char} (hblank : ∀ c ∈ blanks, isBlank c = true) :
    '"' ∉ tokenText rules blanks := by
  rw [tokenText_eq]
  intro h
  rcases List.mem_append.1 h with h | h
  · exact rules.not_mem_macroName (by decide) h
  · simp only [List.mem_cons, List.mem_append, List.not_mem_nil, or_false] at h
    rcases h with h | h | h
    · exact absurd h (by decide)
    · exact absurd (hblank '"' h) (by decide)
    · exact absurd h (by decide)

/-! ### Tokens by their offsets -/

/-- The token at byte `start` of `source`: a word starts there, with the call's name, `!` and any
blanks, and its parenthesis is at byte `opening`. -/
def TokenAt (rules : Rules) (source : List Char) (start opening : Nat) : Prop :=
  ∃ before blanks rest, source = before ++ (callHead rules ++ (blanks ++ '(' :: rest)) ∧
    wordMayStart before.getLast? = true ∧ (∀ c ∈ blanks, isBlank c = true) ∧
    byteLength before = start ∧ start + byteLength (callHead rules ++ blanks) = opening

def IsToken (rules : Rules) (source : List Char) (start : Nat) : Prop :=
  ∃ opening, TokenAt rules source start opening

theorem isToken_iff_occurs {source : List Char} {start : Nat} :
    IsToken rules source start ↔ Occurs (startsToken rules) none source start := by
  constructor
  · rintro ⟨opening, before, blanks, rest, rfl, hword, hblank, hstart, _⟩
    refine ⟨before, _, rfl, hstart, startsToken_iff.2 ⟨?_, blanks, hblank, rest, ?_⟩⟩
    · rwa [lastChar_none]
    · simp [tokenText]
  · rintro ⟨before, after, rfl, hstart, hpat⟩
    obtain ⟨hword, blanks, hblank, rest, rfl⟩ := startsToken_iff.1 hpat
    rw [lastChar_none] at hword
    exact ⟨_, before, blanks, rest, by simp [tokenText], hword, hblank, hstart, rfl⟩

/-- A reader that has read `before`, the last character first, stands at a token when `token?`
says so. -/
theorem tokenAt_iff {before after : List Char} {opening : Nat} :
    TokenAt rules (before.reverse ++ after) (byteLength before) opening ↔
      ∃ blanks rest, token? rules before.head? after = some (blanks, rest) ∧
        byteLength before + byteLength (callHead rules ++ blanks) = opening := by
  constructor
  · rintro ⟨front, blanks, rest, heq, hword, hblank, hstart, hopening⟩
    obtain ⟨rfl, rfl⟩ := append_inj_of_byteLength heq (by simpa using hstart.symm)
    rw [List.getLast?_reverse] at hword
    exact ⟨blanks, rest, token?_eq_some_iff.2 ⟨hword, hblank, rfl⟩, hopening⟩
  · rintro ⟨blanks, rest, htoken, hopening⟩
    obtain ⟨hword, hblank, rfl⟩ := token?_eq_some_iff.1 htoken
    exact ⟨before.reverse, blanks, rest, rfl, by rwa [List.getLast?_reverse], hblank, by simp,
      hopening⟩

theorem isToken_iff {before after : List Char} :
    IsToken rules (before.reverse ++ after) (byteLength before) ↔
      ∃ blanks rest, token? rules before.head? after = some (blanks, rest) := by
  constructor
  · rintro ⟨opening, h⟩
    obtain ⟨blanks, rest, htoken, _⟩ := tokenAt_iff.1 h
    exact ⟨blanks, rest, htoken⟩
  · rintro ⟨blanks, rest, htoken⟩
    exact ⟨_, tokenAt_iff.2 ⟨blanks, rest, htoken, rfl⟩⟩

/-- The offsets of the tokens of a text after `previous` whose first byte is at `here`. -/
def tokensFrom (rules : Rules) (previous : Option Char) (here : Nat) : List Char → List Nat
  | [] => []
  | c :: cs =>
    let later := tokensFrom rules (some c) (here + c.utf8Size) cs
    if startsToken rules previous (c :: cs) then here :: later else later

/-- The offsets of the tokens of `source`. -/
def tokens (rules : Rules) (source : List Char) : List Nat := tokensFrom rules none 0 source

theorem startsToken_nil : startsToken rules previous [] = false := by
  rw [← Bool.not_eq_true, startsToken_iff]
  rintro ⟨_, blanks, _, hpre⟩
  simp [tokenText, List.prefix_nil] at hpre

theorem mem_tokensFrom_iff {here p : Nat} {cs : List Char} :
    p ∈ tokensFrom rules previous here cs ↔
      ∃ k, p = here + k ∧ Occurs (startsToken rules) previous cs k := by
  induction cs generalizing previous here with
  | nil =>
    simp only [tokensFrom, List.not_mem_nil, false_iff]
    rintro ⟨k, -, a, b, heq, -, hpat⟩
    obtain ⟨rfl, rfl⟩ := List.append_eq_nil_iff.1 heq.symm
    simp [startsToken_nil] at hpat
  | cons c cs ih =>
    -- an occurrence is at the first character or in the rest
    have hcases : (∃ k, p = here + k ∧ Occurs (startsToken rules) previous (c :: cs) k) ↔
        (p = here ∧ startsToken rules previous (c :: cs) = true) ∨
          ∃ k, p = here + c.utf8Size + k ∧ Occurs (startsToken rules) (some c) cs k := by
      constructor
      · rintro ⟨k, rfl, a, b, heq, rfl, hpat⟩
        cases a with
        | nil =>
          rw [List.nil_append] at heq
          exact .inl ⟨rfl, by rwa [heq]⟩
        | cons d a =>
          obtain ⟨rfl, rfl⟩ := List.cons.inj heq
          exact .inr ⟨byteLength a, by rw [byteLength_cons]; omega, a, b, rfl, rfl, hpat⟩
      · rintro (⟨rfl, hpat⟩ | ⟨k, rfl, a, b, rfl, rfl, hpat⟩)
        · exact ⟨0, rfl, [], c :: cs, rfl, rfl, hpat⟩
        · exact ⟨c.utf8Size + byteLength a, by omega, c :: a, b, rfl, rfl, hpat⟩
    rw [hcases, ← ih, tokensFrom]
    split
    · rename_i hstart
      simp [hstart]
    · rename_i hstart
      simp [hstart]

theorem mem_tokens_iff {source : List Char} {p : Nat} :
    p ∈ tokens rules source ↔ IsToken rules source p := by
  rw [tokens, mem_tokensFrom_iff, isToken_iff_occurs]
  simp

theorem pairwise_tokensFrom {here : Nat} {cs : List Char} :
    (tokensFrom rules previous here cs).Pairwise (· < ·) := by
  induction cs generalizing previous here with
  | nil => exact .nil
  | cons c cs ih =>
    rw [tokensFrom]
    split
    · refine List.pairwise_cons.2 ⟨fun p hp => ?_, ih⟩
      obtain ⟨k, rfl, _⟩ := mem_tokensFrom_iff.1 hp
      have := c.utf8Size_pos
      omega
    · exact ih

theorem pairwise_tokens {source : List Char} : (tokens rules source).Pairwise (· < ·) :=
  pairwise_tokensFrom

namespace TokenAt

variable {source : List Char} {start start' opening opening' : Nat}

theorem unique (h : TokenAt rules source start opening) (h' : TokenAt rules source start opening') :
    opening = opening' := by
  obtain ⟨before, blanks, rest, rfl, hword, hblank, hstart, hopening⟩ := h
  obtain ⟨before', blanks', rest', heq, hword', hblank', hstart', hopening'⟩ := h'
  obtain ⟨rfl, hrest⟩ := append_inj_of_byteLength heq (by omega)
  have htoken : token? rules before.getLast? (callHead rules ++ (blanks ++ '(' :: rest)) =
      some (blanks, rest) := token?_eq_some_iff.2 ⟨hword, hblank, rfl⟩
  rw [token?_eq_some_iff.2 ⟨hword', hblank', hrest⟩] at htoken
  simp only [Option.some.injEq, Prod.mk.injEq] at htoken
  rw [← hopening, ← hopening', htoken.1]

theorem start_lt_opening (h : TokenAt rules source start opening) : start < opening := by
  obtain ⟨before, blanks, rest, _, _, _, _, hopening⟩ := h
  have : 0 < byteLength (callHead rules ++ blanks) := byteLength_pos (by simp [callHead])
  omega

/-- Tokens do not overlap: a later token starts after the parenthesis of an earlier one. -/
theorem opening_lt_of_lt (h : TokenAt rules source start opening)
    (h' : TokenAt rules source start' opening') (hlt : start < start') : opening < start' := by
  obtain ⟨before, blanks, rest, rfl, hword, hblank, rfl, rfl⟩ := h
  obtain ⟨before', blanks', rest', heq, hword', hblank', rfl, _⟩ := h'
  by_contra hle
  obtain ⟨m, rfl, heq'⟩ := exists_eq_append_of_byteLength_le heq (by omega)
  rw [byteLength_append] at hlt hle
  have hm : m ≠ [] := by
    rintro rfl
    simp at hlt
  obtain ⟨c, name, hname, hc⟩ := rules.exists_cons_macroName
  -- the later token would start inside the text of the earlier one
  have hinside : ∃ t, tokenText rules blanks = m ++ c :: t := by
    have htext : tokenText rules blanks ++ rest =
        m ++ c :: (name ++ '!' :: (blanks' ++ '(' :: rest')) := by
      simpa [tokenText, callHead, hname] using heq'
    have hlen : byteLength m < byteLength (tokenText rules blanks) := by
      have hparen : byteLength ['('] = 1 := by decide
      simp only [tokenText, byteLength_append, hparen] at hle ⊢
      omega
    obtain ⟨x, hx, _⟩ | ⟨x, hx, hc'⟩ := List.append_eq_append_iff.1 htext
    · rw [hx, byteLength_append] at hlen
      omega
    · cases x with
      | nil =>
        rw [hx, List.append_nil] at hlen
        omega
      | cons d t =>
        obtain ⟨rfl, _⟩ := List.cons.inj hc'
        exact ⟨t, hx⟩
  obtain ⟨t, ht⟩ := hinside
  have hstart := wordMayStart_inside_token hblank ht hm (isWord_of_isIdentifierRest hc)
  rw [← lastChar_none, lastChar_append, lastChar_of_ne_nil hm _ none] at hword'
  rw [hstart] at hword'
  exact absurd hword' (by decide)

end TokenAt

end LogLift.Document
