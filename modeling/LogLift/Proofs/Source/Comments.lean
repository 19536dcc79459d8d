import Mathlib.Data.List.Induction
import Mathlib.Data.List.Infix
import Mathlib.Data.List.TakeWhile
import Mathlib.Logic.Relation
import LogLift.Proofs.Names
import LogLift.Proofs.Text.Utf8
import LogLift.Source.Comment

/-! Line comments by lexing.  The bytes of a line are lexed from its start, outside of strings, and a
place is inside a comment exactly when a `//` comes up outside of strings before it.  A line that is
cut at another place is lexed the same way up to a literal of a quote that the cut goes through, and
in what is left of such a literal no `//` can start: so what is inside a comment stays inside as the
line goes on. -/

namespace LogLift.Source

open LogLift.Text

/-! ### Lexing bytes -/

/-- The character literals of a quote, plain and escaped. -/
def quoteLiterals : List (List Char) := [['\'', '"', '\''], ['\'', '\\', '"', '\'']]

/-- One step of a lexer that is in a string or not and has some bytes left. -/
inductive LexStep : Bool × List UInt8 → Bool × List UInt8 → Prop
  /-- A quote opens a string or closes it. -/
  | quote {inString : Bool} {bs : List UInt8} :
      LexStep (inString, '"'.toUInt8 :: bs) (!inString, bs)
  /-- In a string a backslash takes the next byte with it. -/
  | escape {b : UInt8} {bs : List UInt8} : LexStep (true, '\\'.toUInt8 :: b :: bs) (true, bs)
  | string {b : UInt8} {bs : List UInt8} : b ≠ '"'.toUInt8 → b ≠ '\\'.toUInt8 →
      LexStep (true, b :: bs) (true, bs)
  /-- Outside of strings the literals of a quote are passed over whole. -/
  | literal {text : List Char} {bs rest : List UInt8} : text ∈ quoteLiterals →
      bs = utf8 text ++ rest → LexStep (false, bs) (false, rest)
  | code {b : UInt8} {bs : List UInt8} : b ≠ '"'.toUInt8 →
      (∀ text ∈ quoteLiterals, ¬utf8 text <+: b :: bs) → LexStep (false, b :: bs) (false, bs)

/-- Two slashes, outside of strings. -/
def AtComment (state : Bool × List UInt8) : Prop :=
  ∃ rest, state = (false, '/'.toUInt8 :: '/'.toUInt8 :: rest)

/-- Lexing from `state` on comes to two slashes outside of strings. -/
def MeetsComment (state : Bool × List UInt8) : Prop :=
  ∃ later, Relation.ReflTransGen LexStep state later ∧ AtComment later

section Lexing

variable {s t t' : Bool × List UInt8} {inString : Bool} {b : UInt8} {bs : List UInt8}

theorem utf8_quoteLiteral {text : List Char} (h : text ∈ quoteLiterals) :
    ∃ rest, utf8 text = '\''.toUInt8 :: rest := by
  simp only [quoteLiterals, List.mem_cons, List.not_mem_nil, or_false] at h
  rcases h with rfl | rfl <;> exact ⟨_, rfl⟩

/-- Of the two literals at most one stands at a place. -/
theorem quoteLiteral_unique {text text' : List Char} {rest rest' : List UInt8}
    (h : text ∈ quoteLiterals) (h' : text' ∈ quoteLiterals)
    (heq : utf8 text ++ rest = utf8 text' ++ rest') : rest = rest' := by
  simp only [quoteLiterals, List.mem_cons, List.not_mem_nil, or_false] at h h'
  rcases h with rfl | rfl <;> rcases h' with rfl | rfl
  · exact List.append_cancel_left heq
  · exact absurd (List.cons.inj (List.cons.inj heq).2).1 (by decide)
  · exact absurd (List.cons.inj (List.cons.inj heq).2).1 (by decide)
  · exact List.append_cancel_left heq

theorem LexStep.unique (h : LexStep s t) (h' : LexStep s t') : t = t' := by
  cases h with
  | quote =>
    cases h' with
    | quote => rfl
    | string hquote _ => exact absurd rfl hquote
    | literal htext heq =>
      obtain ⟨_, hhead⟩ := utf8_quoteLiteral htext
      rw [hhead] at heq
      exact absurd (List.cons.inj heq).1 (by decide)
    | code hquote _ => exact absurd rfl hquote
  | escape =>
    cases h' with
    | escape => rfl
    | string _ hslash => exact absurd rfl hslash
  | string hquote hslash =>
    cases h' with
    | quote => exact absurd rfl hquote
    | escape => exact absurd rfl hslash
    | string => rfl
  | literal htext heq =>
    cases h' with
    | quote =>
      obtain ⟨_, hhead⟩ := utf8_quoteLiteral htext
      rw [hhead] at heq
      exact absurd (List.cons.inj heq).1 (by decide)
    | literal htext' heq' => rw [quoteLiteral_unique htext htext' (heq.symm.trans heq')]
    | code _ hnone => exact absurd (by rw [heq]; exact List.prefix_append _ _) (hnone _ htext)
  | code hquote hnone =>
    cases h' with
    | quote => exact absurd rfl hquote
    | literal htext heq => exact absurd (by rw [heq]; exact List.prefix_append _ _) (hnone _ htext)
    | code => rfl

/-- A step that does not leave a comment behind changes nothing of what is ahead. -/
theorem LexStep.meetsComment_iff (h : LexStep s t) (hs : ¬AtComment s) :
    MeetsComment s ↔ MeetsComment t := by
  constructor
  · rintro ⟨later, hsteps, hlater⟩
    rcases Relation.ReflTransGen.cases_head hsteps with rfl | ⟨next, hnext, hrest⟩
    · exact absurd hlater hs
    · rw [h.unique hnext]
      exact ⟨later, hrest, hlater⟩
  · rintro ⟨later, hsteps, hlater⟩
    exact ⟨later, .head h hsteps, hlater⟩

theorem not_meetsComment_of_stuck (hs : ¬AtComment s) (hstuck : ∀ t, ¬LexStep s t) :
    ¬MeetsComment s := by
  rintro ⟨later, hsteps, hlater⟩
  rcases Relation.ReflTransGen.cases_head hsteps with rfl | ⟨next, hnext, _⟩
  · exact hs hlater
  · exact hstuck next hnext

theorem AtComment.meetsComment (h : AtComment s) : MeetsComment s := ⟨s, .refl, h⟩

theorem not_atComment_string : ¬AtComment (true, bs) := by
  rintro ⟨rest, h⟩
  exact absurd (Prod.mk.inj h).1 (by decide)

theorem not_atComment_of_ne (h : b ≠ '/'.toUInt8) : ¬AtComment (inString, b :: bs) := by
  rintro ⟨rest, heq⟩
  exact h (List.cons.inj (Prod.mk.inj heq).2).1

theorem meetsComment_nil : ¬MeetsComment (inString, []) := by
  refine not_meetsComment_of_stuck ?_ ?_
  · rintro ⟨rest, heq⟩
    exact absurd (Prod.mk.inj heq).2 (by simp)
  · intro t h
    cases h with
    | literal htext heq =>
      obtain ⟨_, hhead⟩ := utf8_quoteLiteral htext
      simp [hhead] at heq

theorem meetsComment_quote :
    MeetsComment (inString, '"'.toUInt8 :: bs) ↔ MeetsComment (!inString, bs) :=
  LexStep.quote.meetsComment_iff (not_atComment_of_ne (by decide))

theorem meetsComment_escape :
    MeetsComment (true, '\\'.toUInt8 :: b :: bs) ↔ MeetsComment (true, bs) :=
  LexStep.escape.meetsComment_iff not_atComment_string

/-- A backslash at the very end of a string takes nothing. -/
theorem not_meetsComment_backslash : ¬MeetsComment (true, ['\\'.toUInt8]) := by
  refine not_meetsComment_of_stuck not_atComment_string fun t h => ?_
  cases h with
  | string _ hslash => exact hslash rfl

theorem meetsComment_string (hquote : b ≠ '"'.toUInt8) (hslash : b ≠ '\\'.toUInt8) :
    MeetsComment (true, b :: bs) ↔ MeetsComment (true, bs) :=
  (LexStep.string hquote hslash).meetsComment_iff not_atComment_string

theorem meetsComment_literal {text : List Char} (h : text ∈ quoteLiterals) :
    MeetsComment (false, utf8 text ++ bs) ↔ MeetsComment (false, bs) := by
  refine (LexStep.literal h rfl).meetsComment_iff ?_
  obtain ⟨_, hhead⟩ := utf8_quoteLiteral h
  rw [hhead]
  exact not_atComment_of_ne (by decide)

theorem meetsComment_code (hquote : b ≠ '"'.toUInt8)
    (hnone : ∀ text ∈ quoteLiterals, ¬utf8 text <+: b :: bs)
    (hslash : ¬AtComment (false, b :: bs)) :
    MeetsComment (false, b :: bs) ↔ MeetsComment (false, bs) :=
  (LexStep.code hquote hnone).meetsComment_iff hslash

/-- The bytes of longer characters are passed over, in a string or not. -/
theorem meetsComment_append_of_le {front : List UInt8} (hle : ∀ b ∈ front, 128 ≤ b.toNat) :
    MeetsComment (inString, front ++ bs) ↔ MeetsComment (inString, bs) := by
  induction front with
  | nil => rfl
  | cons b front ih =>
    obtain ⟨hb, hfront⟩ := List.forall_mem_cons.1 hle
    have hne : ∀ d : Char, d.toNat < 128 → b ≠ d.toUInt8 := fun d hd => ne_toUInt8_of_le hb hd
    rw [← ih hfront, List.cons_append]
    cases inString with
    | true => exact meetsComment_string (hne '"' (by decide)) (hne '\\' (by decide))
    | false =>
      refine meetsComment_code (hne '"' (by decide)) ?_ (not_atComment_of_ne (hne '/' (by decide)))
      intro text htext hpre
      obtain ⟨_, hhead⟩ := utf8_quoteLiteral htext
      rw [hhead] at hpre
      exact hne '\'' (by decide) (List.cons_prefix_cons.1 hpre).1.symm

end Lexing

/-! ### Lexing characters -/

section Characters

variable {c : Char} {cs : List Char}

theorem meetsComment_quote_char {inString : Bool} :
    MeetsComment (inString, utf8 ('"' :: cs)) ↔ MeetsComment (!inString, utf8 cs) :=
  meetsComment_quote

theorem meetsComment_string_char (hquote : c ≠ '"') (hslash : c ≠ '\\') :
    MeetsComment (true, utf8 (c :: cs)) ↔ MeetsComment (true, utf8 cs) := by
  by_cases hc : c.toNat < 128
  · rw [utf8_cons, utf8EncodeChar_of_lt hc, List.singleton_append]
    exact meetsComment_string (mt (toUInt8_eq_iff hc (by decide)).1 hquote)
      (mt (toUInt8_eq_iff hc (by decide)).1 hslash)
  · rw [utf8_cons]
    exact meetsComment_append_of_le fun b hb => le_of_mem_utf8EncodeChar (Nat.le_of_not_lt hc) hb

/-- The backslash takes the first byte of a character; the others, if any, are passed over. -/
theorem meetsComment_escape_char :
    MeetsComment (true, utf8 ('\\' :: c :: cs)) ↔ MeetsComment (true, utf8 cs) := by
  obtain ⟨b, more, hbytes⟩ := List.exists_cons_of_ne_nil (String.utf8EncodeChar_ne_nil (c := c))
  have hmore : ∀ b ∈ more, 128 ≤ b.toNat := by
    by_cases hc : c.toNat < 128
    · rw [utf8EncodeChar_of_lt hc] at hbytes
      obtain ⟨_, rfl⟩ := List.cons.inj hbytes
      simp
    · intro b hb
      refine le_of_mem_utf8EncodeChar (Nat.le_of_not_lt hc) ?_
      rw [hbytes]
      exact List.mem_cons_of_mem _ hb
  have hsplit : utf8 ('\\' :: c :: cs) = '\\'.toUInt8 :: b :: (more ++ utf8 cs) := by
    rw [utf8_cons, utf8_cons, utf8EncodeChar_of_lt (by decide), hbytes]
    rfl
  rw [hsplit, meetsComment_escape, meetsComment_append_of_le hmore]

theorem meetsComment_literal_char {text : List Char} (h : text ∈ quoteLiterals) :
    MeetsComment (false, utf8 (text ++ cs)) ↔ MeetsComment (false, utf8 cs) := by
  rw [utf8_append, meetsComment_literal h]

theorem atComment_utf8_iff : AtComment (false, utf8 cs) ↔ ['/', '/'] <+: cs := by
  rw [← utf8_prefix_iff]
  constructor
  · rintro ⟨rest, heq⟩
    exact ⟨rest, (Prod.mk.inj heq).2.symm⟩
  · rintro ⟨rest, heq⟩
    exact ⟨rest, by rw [← heq]; rfl⟩

theorem meetsComment_code_char (hquote : c ≠ '"')
    (hnone : ∀ text ∈ quoteLiterals, ¬text <+: c :: cs) (hslash : ¬['/', '/'] <+: c :: cs) :
    MeetsComment (false, utf8 (c :: cs)) ↔ MeetsComment (false, utf8 cs) := by
  by_cases hc : c.toNat < 128
  · have hbytes : utf8 (c :: cs) = c.toUInt8 :: utf8 cs := by
      rw [utf8_cons, utf8EncodeChar_of_lt hc]
      rfl
    rw [hbytes]
    refine meetsComment_code (mt (toUInt8_eq_iff hc (by decide)).1 hquote) ?_ ?_
    · intro text htext hpre
      rw [← hbytes, utf8_prefix_iff] at hpre
      exact hnone text htext hpre
    · rwa [← hbytes, atComment_utf8_iff]
  · rw [utf8_cons]
    exact meetsComment_append_of_le fun b hb => le_of_mem_utf8EncodeChar (Nat.le_of_not_lt hc) hb

end Characters

/-- What the last rule of the search takes for granted: no literal of a quote and no comment
starts here. -/
theorem not_prefix_of_code {c : Char} {cs : List Char}
    (hplain : ∀ ds, c = '\'' → cs = '"' :: '\'' :: ds → False)
    (hescaped : ∀ ds, c = '\'' → cs = '\\' :: '"' :: '\'' :: ds → False)
    (hslash : ∀ ds, c = '/' → cs = '/' :: ds → False) :
    (∀ text ∈ quoteLiterals, ¬text <+: c :: cs) ∧ ¬['/', '/'] <+: c :: cs := by
  constructor
  · intro text htext hpre
    simp only [quoteLiterals, List.mem_cons, List.not_mem_nil, or_false] at htext
    rcases htext with rfl | rfl
    · obtain ⟨rest, heq⟩ := hpre
      exact hplain rest (List.cons.inj heq).1.symm (List.cons.inj heq).2.symm
    · obtain ⟨rest, heq⟩ := hpre
      exact hescaped rest (List.cons.inj heq).1.symm (List.cons.inj heq).2.symm
  · rintro ⟨rest, heq⟩
    exact hslash rest (List.cons.inj heq).1.symm (List.cons.inj heq).2.symm

/-- The search for a comment does as the lexer of the bytes does. -/
theorem hasComment_iff_meetsComment (inString : Bool) (cs : List Char) :
    hasComment inString cs = true ↔ MeetsComment (inString, utf8 cs) := by
  fun_induction hasComment inString cs with
  | case1 inString => simpa using meetsComment_nil
  | case2 c cs ih => rw [ih, meetsComment_escape_char]
  | case3 cs ih => rw [ih, meetsComment_quote_char, Bool.not_true]
  | case4 c cs hescape hquote ih =>
    by_cases hslash : c = '\\'
    · subst hslash
      cases cs with
      | nil => exact iff_of_false (by decide) not_meetsComment_backslash
      | cons d cs => exact absurd rfl (hescape d cs rfl)
    · rw [ih, meetsComment_string_char hquote hslash]
  | case5 cs ih => rw [ih, meetsComment_quote_char, Bool.not_false]
  | case6 cs ih =>
    rw [ih]
    have hliteral : ['\'', '"', '\''] ∈ quoteLiterals := by decide
    exact (meetsComment_literal_char hliteral).symm
  | case7 cs ih =>
    rw [ih]
    have hliteral : ['\'', '\\', '"', '\''] ∈ quoteLiterals := by decide
    exact (meetsComment_literal_char hliteral).symm
  | case8 cs => exact iff_of_true rfl (AtComment.meetsComment ⟨utf8 cs, rfl⟩)
  | case9 c cs hquote hplain hescaped hslash ih =>
    obtain ⟨hnone, hcomment⟩ := not_prefix_of_code hplain hescaped hslash
    rw [ih, meetsComment_code_char hquote hnone hcomment]

/-! ### Lines that go on -/

theorem hasComment_string {c : Char} {cs : List Char} (hquote : c ≠ '"') (hslash : c ≠ '\\') :
    hasComment true (c :: cs) = hasComment true cs := by
  rw [Bool.eq_iff_iff, hasComment_iff_meetsComment, hasComment_iff_meetsComment,
    meetsComment_string_char hquote hslash]

theorem hasComment_code {c : Char} {cs : List Char} (hquote : c ≠ '"')
    (hnone : ∀ text ∈ quoteLiterals, ¬text <+: c :: cs) (hslash : ¬['/', '/'] <+: c :: cs) :
    hasComment false (c :: cs) = hasComment false cs := by
  rw [Bool.eq_iff_iff, hasComment_iff_meetsComment, hasComment_iff_meetsComment,
    meetsComment_code_char hquote hnone hslash]

/-- In what a cut leaves of a literal of a quote no comment starts. -/
theorem hasComment_cut_literal :
    ∀ text ∈ quoteLiterals, ∀ front ∈ text.inits, front ≠ text →
      hasComment false front.tail = false := by
  decide

/-- A comment on a line is there as well when the line goes on. -/
theorem hasComment_append {inString : Bool} {a : List Char} (h : hasComment inString a = true)
    (b : List Char) : hasComment inString (a ++ b) = true := by
  fun_induction hasComment inString a with
  | case1 => simp at h
  | case2 c cs ih | case3 cs ih | case5 cs ih | case6 cs ih | case7 cs ih =>
    simpa [hasComment] using ih h
  | case4 c cs hescape hquote ih =>
    have hslash : c ≠ '\\' := by
      rintro rfl
      cases cs with
      | nil => simp [hasComment] at h
      | cons d cs => exact hescape d cs rfl rfl
    rw [List.cons_append, hasComment_string hquote hslash]
    exact ih h
  | case8 cs => rfl
  | case9 c cs hquote hplain hescaped hslash ih =>
    obtain ⟨hnone, _⟩ := not_prefix_of_code hplain hescaped hslash
    by_cases hcomment : ['/', '/'] <+: c :: (cs ++ b)
    · obtain ⟨rest, heq⟩ := hcomment
      rw [List.cons_append, ← heq]
      rfl
    · rw [List.cons_append, hasComment_code hquote ?_ hcomment]
      · exact ih h
      · intro text htext hpre
        have hcut : c :: cs <+: c :: (cs ++ b) := ⟨b, rfl⟩
        rcases List.prefix_or_prefix_of_prefix hpre hcut with hwhole | hpart
        · exact hnone text htext hwhole
        · have hne : c :: cs ≠ text := by
            rintro rfl
            exact hnone _ htext (List.prefix_refl _)
          have hfalse := hasComment_cut_literal text htext _ ((List.mem_inits _ _).2 hpart) hne
          rw [List.tail_cons, h] at hfalse
          exact absurd hfalse (by decide)

/-! ### The early test -/

theorem trim_prefix_trimLeft (cs : List Char) : trim cs <+: trimLeft cs := by
  have hsuffix : trimLeft (trimLeft cs).reverse <:+ (trimLeft cs).reverse :=
    List.dropWhile_suffix _
  rw [← List.reverse_prefix, List.reverse_reverse] at hsuffix
  exact hsuffix

theorem hasComment_blanks_append {blanks : List Char} (h : ∀ c ∈ blanks, isBlank c = true)
    (cs : List Char) : hasComment false (blanks ++ cs) = hasComment false cs := by
  induction blanks with
  | nil => rfl
  | cons c blanks ih =>
    obtain ⟨hc, hrest⟩ := List.forall_mem_cons.1 h
    have hne : ∀ d, isBlank d = false → c ≠ d := by
      rintro d hd rfl
      rw [hc] at hd
      exact absurd hd (by decide)
    rw [List.cons_append, hasComment_code (hne '"' (by decide)) ?_ ?_, ih hrest]
    · intro text htext hpre
      simp only [quoteLiterals, List.mem_cons, List.not_mem_nil, or_false] at htext
      rcases htext with rfl | rfl <;>
        exact hne '\'' (by decide) (List.cons_prefix_cons.1 hpre).1.symm
    · intro hpre
      exact hne '/' (by decide) (List.cons_prefix_cons.1 hpre).1.symm

/-- A line that starts with `//`, blanks aside, has that comment. -/
theorem hasComment_of_leadsWithComment {cs : List Char} (h : leadsWithComment cs = true) :
    hasComment false cs = true := by
  rw [leadsWithComment, List.isPrefixOf_iff_prefix] at h
  obtain ⟨rest, hrest⟩ := h.trans (trim_prefix_trimLeft cs)
  obtain ⟨blanks, hblank, hcs⟩ := exists_blanks_append_trimLeft cs
  rw [hcs, hasComment_blanks_append hblank, ← hrest]
  rfl

theorem endsInComment_eq_hasComment (cs : List Char) : endsInComment cs = hasComment false cs := by
  rw [endsInComment]
  cases hlead : leadsWithComment cs with
  | true => rw [hasComment_of_leadsWithComment hlead, Bool.or_true]
  | false => rw [Bool.false_or]

/-! ### Lines by their bytes -/

/-- The bytes after the last line feed before byte `offset`, up to `offset`. -/
def lineBefore (bytes : List UInt8) (offset : Nat) : List UInt8 :=
  ((bytes.take offset).reverse.takeWhile (· != '\n'.toUInt8)).reverse

theorem utf8_lastLine (cs : List Char) :
    utf8 (lastLine cs.reverse) =
      ((utf8 cs).reverse.takeWhile (· != '\n'.toUInt8)).reverse := by
  rw [lastLine]
  induction cs using List.reverseRecOn with
  | nil => rfl
  | append_singleton cs c ih =>
    rw [List.reverse_append, List.reverse_singleton, List.singleton_append, utf8_append,
      List.reverse_append]
    by_cases hc : c = '\n'
    · subst hc
      rfl
    · have hbytes : ∀ b ∈ (utf8 [c]).reverse, (b != '\n'.toUInt8) = true := by
        intro b hb
        rw [List.mem_reverse, utf8_cons, utf8_nil, List.append_nil] at hb
        rw [bne_iff_ne]
        rintro rfl
        exact toUInt8_not_mem_utf8EncodeChar (by decide) hc hb
      rw [List.takeWhile_cons_of_pos (by simpa using hc), List.takeWhile_append_of_pos hbytes,
        List.reverse_cons, List.reverse_append, List.reverse_reverse, utf8_append, ih]

theorem utf8_lastLine_reverse (before after : List Char) :
    utf8 (lastLine before.reverse) = lineBefore (utf8 (before ++ after)) (byteLength before) := by
  rw [lineBefore, take_utf8_append, utf8_lastLine]

theorem lastLine_reverse_append {more : List Char} (h : '\n' ∉ more) (before : List Char) :
    lastLine (more.reverse ++ before) = lastLine before ++ more := by
  have hmore : ∀ c ∈ more.reverse, (c != '\n') = true := by
    intro c hc
    rw [bne_iff_ne]
    rintro rfl
    exact h (List.mem_reverse.1 hc)
  rw [lastLine, lastLine, List.takeWhile_append_of_pos hmore, List.reverse_append,
    List.reverse_reverse]

/-! ### The answer at an offset -/

theorem onComment?_eq (before after : List Char) :
    onComment? (before.reverse ++ after) (byteLength before) = some (commented before) := by
  have hsplit : splitAtByte? (byteLength before) (before.reverse ++ after) =
      some (before.reverse, after) := splitAtByte?_eq_some_iff.2 ⟨rfl, by simp⟩
  simp [onComment?, hsplit]

theorem onComment?_append (before after : List Char) :
    onComment? (before ++ after) (byteLength before) =
      some (hasComment false (lastLine before.reverse)) := by
  have h := onComment?_eq before.reverse after
  rwa [List.reverse_reverse, byteLength_reverse, commented, endsInComment_eq_hasComment] at h

/-- How the answer at byte `offset` of `source` comes about. -/
structure DetectsComment (source : List Char) (offset : Nat) : Prop where
  /-- It is whether the lexer of the line up to the offset meets a comment. -/
  lexed : ∃ answer, onComment? source offset = some answer ∧
    (answer = true ↔ MeetsComment (false, lineBefore (utf8 source) offset))
  /-- The test for a line that starts with a comment never decides it. -/
  searched : ∀ before after, source = before ++ after → byteLength before = offset →
    onComment? source offset = some (hasComment false (lastLine before.reverse))
  /-- Nothing but the line up to the offset decides it. -/
  line : ∀ source' offset', Boundary source' offset' →
    lineBefore (utf8 source') offset' = lineBefore (utf8 source) offset →
    onComment? source' offset' = onComment? source offset
  /-- What is inside a comment is so up to the end of the line. -/
  onward : onComment? source offset = some true → ∀ later, Boundary source later →
    offset ≤ later → '\n'.toUInt8 ∉ ((utf8 source).take later).drop offset →
    onComment? source later = some true

section Offsets

variable {source source' : List Char} {offset offset' : Nat}

theorem exists_onComment?_iff (h : Boundary source offset) :
    ∃ answer, onComment? source offset = some answer ∧
      (answer = true ↔ MeetsComment (false, lineBefore (utf8 source) offset)) := by
  obtain ⟨before, after, rfl, rfl⟩ := h
  refine ⟨_, onComment?_append before after, ?_⟩
  rw [hasComment_iff_meetsComment, utf8_lastLine_reverse before after]

theorem onComment?_eq_of_lineBefore_eq (h : Boundary source offset) (h' : Boundary source' offset')
    (hline : lineBefore (utf8 source') offset' = lineBefore (utf8 source) offset) :
    onComment? source' offset' = onComment? source offset := by
  obtain ⟨answer, hsome, hiff⟩ := exists_onComment?_iff h
  obtain ⟨answer', hsome', hiff'⟩ := exists_onComment?_iff h'
  rw [hline, ← hiff] at hiff'
  rw [hsome, hsome', Bool.eq_iff_iff.2 hiff']

theorem onComment?_onward (h : onComment? source offset = some true)
    (hoffset : Boundary source offset) (hoffset' : Boundary source offset') (hle : offset ≤ offset')
    (hline : '\n'.toUInt8 ∉ ((utf8 source).take offset').drop offset) :
    onComment? source offset' = some true := by
  obtain ⟨before, after, rfl, rfl⟩ := hoffset
  obtain ⟨before', after', heq, rfl⟩ := hoffset'
  obtain ⟨more, rfl, rfl⟩ := exists_eq_append_of_byteLength_le heq hle
  have hmore : '\n' ∉ more := by
    intro hmem
    rw [heq, take_utf8_append, drop_utf8_append] at hline
    obtain ⟨a, b, rfl⟩ := List.append_of_mem hmem
    exact hline (by simp [utf8EncodeChar_of_lt (c := '\n') (by decide)])
  rw [onComment?_append, Option.some.injEq] at h
  rw [heq, onComment?_append, List.reverse_append, lastLine_reverse_append hmore,
    hasComment_append h]

/-- At every place in a text, the answer is that of lexing the line up to there. -/
theorem onComment?_detects (h : Boundary source offset) : DetectsComment source offset where
  lexed := exists_onComment?_iff h
  searched before after hsource hoffset := by
    rw [hsource, ← hoffset, onComment?_append]
  line source' offset' h' hline := onComment?_eq_of_lineBefore_eq h h' hline
  onward htrue later hlater hle hline := onComment?_onward htrue h hlater hle hline

end Offsets

/-- A literal of a quote, a string with slashes after a backslash that takes the first byte of a
longer character, and a comment: between its two slashes the answer is no, and after them yes. -/
theorem onComment?_detects_slashes :
    let source := "'\"' \"\\é//\" //x".toList
    Boundary source 13 ∧ onComment? source 13 = some false ∧
      ¬MeetsComment (false, lineBefore (utf8 source) 13) ∧
      Boundary source 14 ∧ onComment? source 14 = some true ∧
      MeetsComment (false, lineBefore (utf8 source) 14) ∧ onComment? source 15 = some true := by
  intro source
  have hbetween : Boundary source 13 := ⟨"'\"' \"\\é//\" /".toList, "/x".toList, rfl, rfl⟩
  have hafter : Boundary source 14 := ⟨"'\"' \"\\é//\" //".toList, "x".toList, rfl, rfl⟩
  have hend : Boundary source 15 := ⟨source, [], rfl, rfl⟩
  have hfalse : onComment? source 13 = some false := by decide +kernel
  have htrue : onComment? source 14 = some true := by decide +kernel
  obtain ⟨answer, hanswer, hiff⟩ := (onComment?_detects hbetween).lexed
  obtain ⟨answer', hanswer', hiff'⟩ := (onComment?_detects hafter).lexed
  rw [hfalse, Option.some.injEq] at hanswer
  rw [htrue, Option.some.injEq] at hanswer'
  refine ⟨hbetween, hfalse, fun h => ?_, hafter, htrue, hiff'.1 hanswer'.symm, ?_⟩
  · rw [← hiff, ← hanswer] at h
    exact absurd h (by decide)
  · exact (onComment?_detects hafter).onward htrue 15 hend (by decide) (by decide +kernel)

end LogLift.Source
