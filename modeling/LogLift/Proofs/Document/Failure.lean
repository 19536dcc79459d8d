import LogLift.Proofs.Document.Selection
import LogLift.Proofs.Source.Spans

/-! When lifting fails.  It fails exactly when the parentheses of some scanned token never balance,
and the error is about the first such token.  Only the name of the printing call plays a part in
this: how a text is cut depends neither on the keywords nor on the path of the logging calls. -/

namespace LogLift.Document

open LogLift.Text LogLift.Source LogLift.Message

variable {rules rules' : Rules} {keywords : Keywords} {source : List Char}

theorem lift_eq_error_iff_failure {error : SpanError} :
    lift rules keywords source = .error error ↔ (cut rules source).failure = some error := by
  rw [lift]
  cases (cut rules source).failure with
  | none => simp
  | some e => simp

theorem TokenAt.closes_iff {start opening : Nat} (h : TokenAt rules source start opening) :
    Closes rules source start ↔ ¬NeverBalances source opening := by
  have htoken := h
  obtain ⟨before, blanks, rest, rfl, _, _, rfl, rfl⟩ := h
  have hcut : before ++ (callHead rules ++ (blanks ++ '(' :: rest)) =
      (before ++ (callHead rules ++ blanks)) ++ '(' :: rest := by simp
  have hlen : byteLength before + byteLength (callHead rules ++ blanks) =
      byteLength (before ++ (callHead rules ++ blanks)) := (byteLength_append _ _).symm
  rw [hlen] at htoken ⊢
  rw [hcut] at htoken ⊢
  rw [← span?_eq_none_iff, ← ne_eq, Option.ne_none_iff_exists']
  constructor
  · rintro ⟨stop, opening, htoken', hend⟩
    obtain rfl := htoken.unique htoken'
    obtain ⟨front, rest', span, afterSpan, heq, hfront, hspan, _⟩ := spanEnd_eq_ok_iff.1 hend
    obtain ⟨_, hrest⟩ := append_inj_of_byteLength heq hfront.symm
    exact ⟨(span, afterSpan), by rw [hrest, hspan]⟩
  · rintro ⟨⟨span, afterSpan⟩, hspan⟩
    exact ⟨_, _, htoken, spanEnd_eq_ok_iff.2 ⟨_, rest, span, afterSpan, rfl, rfl, hspan, rfl⟩⟩

/-- The first scanned token whose parentheses never balance: it starts at byte `start` and opens at
byte `opening`. -/
structure FirstUnbalanced (rules : Rules) (source : List Char) (start opening : Nat) : Prop where
  token : TokenAt rules source start opening
  scanned : Scanned rules source start
  unbalanced : NeverBalances source opening
  first : ∀ earlier opening', earlier < start → Scanned rules source earlier →
    TokenAt rules source earlier opening' → ¬NeverBalances source opening'

theorem Reads.congr {boundary : Nat} {before after : List Char} {cut : Cut}
    (hname : rules.macroName = rules'.macroName) (h : Reads rules boundary before after cut) :
    Reads rules' boundary before after cut := by
  obtain ⟨macroName, _, _, _⟩ := rules
  obtain ⟨_, _, _, _⟩ := rules'
  obtain rfl : macroName = _ := hname
  induction h with
  | done => exact .done
  | char htoken _ ih => exact .char htoken ih
  | commented htoken hcomment _ ih => exact .commented htoken hcomment ih
  | unterminated htoken hcode hspan => exact .unterminated htoken hcode hspan
  | exempt htoken hcode hspan hle _ ih => exact .exempt htoken hcode hspan hle ih
  | call htoken hcode hspan hlt _ ih => exact .call htoken hcode hspan hlt ih

theorem cut_congr (hname : rules.macroName = rules'.macroName) (source : List Char) :
    cut rules source = cut rules' source :=
  ((reads_cut rules source).congr hname).eq_cutFrom.symm

namespace FirstUnbalanced

variable {start start' opening opening' : Nat}

theorem not_lt (h : FirstUnbalanced rules source start opening)
    (h' : FirstUnbalanced rules source start' opening') : ¬start < start' :=
  fun hlt => h'.first start opening hlt h.scanned h.token h.unbalanced

theorem unique (h : FirstUnbalanced rules source start opening)
    (h' : FirstUnbalanced rules source start' opening') : start = start' ∧ opening = opening' := by
  have hle := h.not_lt h'
  have hge := h'.not_lt h
  obtain rfl : start = start' := by omega
  exact ⟨rfl, h.token.unique h'.token⟩

end FirstUnbalanced

theorem exists_firstUnbalanced_of_failure {error : SpanError}
    (h : (cut rules source).failure = some error) :
    ∃ start opening, error = .unterminated start opening ∧
      FirstUnbalanced rules source start opening := by
  obtain ⟨start, opening, rfl, htoken, hscanned, hopen, hfirst⟩ :=
    (reads_cut rules source).exists_unclosed h (.start rules source)
  refine ⟨start, opening, rfl, htoken, hscanned, ?_, ?_⟩
  · rwa [htoken.closes_iff, not_not] at hopen
  · intro earlier opening' hlt hearlier htoken'
    exact htoken'.closes_iff.1 (hfirst earlier hlt ⟨Nat.zero_le _, hearlier⟩)

theorem exists_failure_iff :
    (∃ error, (cut rules source).failure = some error) ↔
      ∃ start opening, Scanned rules source start ∧ TokenAt rules source start opening ∧
        NeverBalances source opening := by
  rw [← Option.isSome_iff_exists, Option.isSome_iff_ne_none, ne_eq, cut_failure_eq_none_iff]
  constructor
  · intro hfail
    obtain ⟨start, hstart⟩ := not_forall.1 hfail
    obtain ⟨hscanned, hopen⟩ := Classical.not_imp.1 hstart
    obtain ⟨opening, htoken⟩ : IsToken rules source start := by
      rw [Scanned] at hscanned
      exact hscanned.1
    rw [htoken.closes_iff, not_not] at hopen
    exact ⟨start, opening, hscanned, htoken, hopen⟩
  · rintro ⟨start, opening, hscanned, htoken, hopen⟩ hall
    exact htoken.closes_iff.1 (hall start hscanned) hopen

theorem failure_eq_some_iff {error : SpanError} :
    (cut rules source).failure = some error ↔
      ∃ start opening, error = .unterminated start opening ∧
        FirstUnbalanced rules source start opening := by
  constructor
  · exact exists_firstUnbalanced_of_failure
  · rintro ⟨start, opening, rfl, hfirst⟩
    obtain ⟨error, herror⟩ :=
      exists_failure_iff.2 ⟨start, opening, hfirst.scanned, hfirst.token, hfirst.unbalanced⟩
    obtain ⟨start', opening', rfl, hfirst'⟩ := exists_firstUnbalanced_of_failure herror
    obtain ⟨rfl, rfl⟩ := hfirst.unique hfirst'
    exact herror

/-- Lifting fails exactly when the parentheses of a scanned token, before the test region or in it,
never balance.  The error is then about the first such token and its parenthesis, and it is the same
for all keywords and for all paths of the logging calls. -/
theorem lift_fails_iff (rules : Rules) (keywords : Keywords) (source : List Char) :
    ((∃ error, lift rules keywords source = .error error) ↔
      ∃ start opening, Scanned rules source start ∧ TokenAt rules source start opening ∧
        NeverBalances source opening) ∧
    (∀ error, lift rules keywords source = .error error ↔
      ∃ start opening, error = .unterminated start opening ∧
        FirstUnbalanced rules source start opening) ∧
    ∀ (rules' : Rules) (keywords' : Keywords), rules'.macroName = rules.macroName →
      ∀ error, lift rules' keywords' source = .error error ↔
        lift rules keywords source = .error error := by
  simp only [lift_eq_error_iff_failure]
  refine ⟨exists_failure_iff, fun error => failure_eq_some_iff, ?_⟩
  intro rules' keywords' hname error
  rw [cut_congr hname]

/-- A commented call that never closes, and one in the test region: the second fails the text,
whatever the keywords and the path are. -/
theorem lift_fails_iff_test_region :
    lift .default .default "// println!(\n#[cfg(test)]\nprintln!(\"x\"".toList =
      .error (.unterminated 26 34) ∧
    (∃ start opening, Scanned .default "// println!(\n#[cfg(test)]\nprintln!(\"x\"".toList start ∧
      TokenAt .default "// println!(\n#[cfg(test)]\nprintln!(\"x\"".toList start opening ∧
      NeverBalances "// println!(\n#[cfg(test)]\nprintln!(\"x\"".toList opening) ∧
    FirstUnbalanced .default "// println!(\n#[cfg(test)]\nprintln!(\"x\"".toList 26 34 ∧
    lift ⟨"println", "tracing", by decide +kernel, by decide +kernel⟩ ⟨[], [], []⟩
        "// println!(\n#[cfg(test)]\nprintln!(\"x\"".toList =
      .error (.unterminated 26 34) := by
  have h : lift .default .default "// println!(\n#[cfg(test)]\nprintln!(\"x\"".toList =
      .error (.unterminated 26 34) := lift_eq_error_iff_failure.2 (by decide +kernel)
  obtain ⟨hfails, hfirst, hsame⟩ := lift_fails_iff .default .default
    "// println!(\n#[cfg(test)]\nprintln!(\"x\"".toList
  refine ⟨h, hfails.1 ⟨_, h⟩, ?_, (hsame _ _ (by rfl) _).2 h⟩
  obtain ⟨start, opening, herror, hunbalanced⟩ := (hfirst _).1 h
  obtain ⟨rfl, rfl⟩ := SpanError.unterminated.inj herror
  exact hunbalanced

end LogLift.Document
