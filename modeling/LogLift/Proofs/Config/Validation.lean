import LogLift.Config.Load
import LogLift.Proofs.Rules

/-! The checks of a configuration and what it gives.  Its rules are valid exactly when no issue calls
them invalid.  Its issues are those of the targets and then those of the rules and words, and without
the latter it gives rules, and words of which every level has some and none is empty. -/

namespace LogLift.Config

/-! ### Blank targets -/

/-- The places of the blank entries of a list, in order. -/
def BlankPlaces (entries : List String) (places : List Nat) : Prop :=
  places.Pairwise (· < ·) ∧ ∀ i, i ∈ places ↔
    ∃ entry, entries[i]? = some entry ∧ ∀ c ∈ entry.toList, Text.isBlank c = true

theorem exists_blankPlaces (setting : Setting) (entries : List String) :
    ∃ places, BlankPlaces entries places ∧
      blankEntries setting entries = places.map (.blankEntry setting) := by
  let blank := entries.zipIdx.filter fun entry => Text.allBlank entry.1.toList
  refine ⟨blank.map Prod.snd, ⟨?_, fun i => ?_⟩, by rw [List.map_map]; rfl⟩
  · -- the places of all entries are in order, and those of some are among them
    have hall : (entries.zipIdx.map Prod.snd).Pairwise (· < ·) := by
      rw [List.zipIdx_map_snd]
      exact List.pairwise_lt_range' 1
    exact hall.sublist (List.filter_sublist.map Prod.snd)
  · simp only [blank, List.mem_map, List.mem_filter, List.mem_zipIdx_iff_getElem?, Text.allBlank,
      List.all_eq_true]
    constructor
    · rintro ⟨⟨entry, i⟩, ⟨hentry, hblank⟩, rfl⟩
      exact ⟨entry, hentry, hblank⟩
    · rintro ⟨entry, hentry, hblank⟩
      exact ⟨(entry, i), ⟨hentry, hblank⟩, rfl⟩

/-- The issues of the targets, and then those of the rules and words. -/
theorem issues_eq_append (c : Config) :
    ∃ files dirs, BlankPlaces c.targets.files files ∧ BlankPlaces c.targets.dirs dirs ∧
      c.issues = (if c.targets.files = [] ∧ c.targets.dirs = [] then [.noTargets] else []) ++
        files.map (.blankEntry .files) ++ dirs.map (.blankEntry .dirs) ++ c.ruleIssues := by
  obtain ⟨files, hfiles, hfilesEq⟩ := exists_blankPlaces .files c.targets.files
  obtain ⟨dirs, hdirs, hdirsEq⟩ := exists_blankPlaces .dirs c.targets.dirs
  refine ⟨files, dirs, hfiles, hdirs, ?_⟩
  simp only [issues, TargetLists.issues, hfilesEq, hdirsEq, Bool.and_eq_true, List.isEmpty_iff]

theorem ruleIssues_eq_nil {c : Config} (h : c.issues = []) : c.ruleIssues = [] :=
  (List.append_eq_nil_iff.1 h).2

/-! ### Words -/

/-- The list has a word, and none of its words is empty. -/
structure UsableList (words : List String) : Prop where
  ne_nil : words ≠ []
  empty_not_mem : "" ∉ words

structure UsableWords (k : Keywords) : Prop where
  error : UsableList k.error
  warn : UsableList k.warn
  info : UsableList k.info

theorem usableWords_default : UsableWords .default where
  error := ⟨by decide +kernel, by decide +kernel⟩
  warn := ⟨by decide +kernel, by decide +kernel⟩
  info := ⟨by decide +kernel, by decide +kernel⟩

theorem findIdx?_isEmpty_eq_none_iff {words : List String} :
    words.findIdx? (·.isEmpty) = none ↔ "" ∉ words := by
  rw [List.findIdx?_eq_none_iff]
  constructor
  · intro h hmem
    exact absurd (h "" hmem) (by decide)
  · intro h word hword
    rw [← Bool.not_eq_true, String.isEmpty_iff]
    rintro rfl
    exact h hword

/-- The words of a level: those that were given, or the built-in ones where none were. -/
def GivenOr (given : Option (List String)) (builtIn words : List String) : Prop :=
  given = some words ∨ given = none ∧ words = builtIn

theorem givenOr_getD (given : Option (List String)) (builtIn : List String) :
    GivenOr given builtIn (given.getD builtIn) := by
  cases given with
  | none => exact .inr ⟨rfl, rfl⟩
  | some words => exact .inl rfl

/-- A list without issues can be used, if the words that a missing list stands for can. -/
theorem wordIssues_eq_nil_iff {setting : Setting} {missing : List String}
    (hmissing : UsableList missing) (given : Option (List String)) :
    wordIssues setting given = [] ↔ UsableList (given.getD missing) := by
  fun_cases wordIssues setting given with
  | case1 => exact iff_of_true rfl hmissing
  | case2 => exact iff_of_false (List.cons_ne_nil _ _) fun h => h.ne_nil rfl
  | case3 words hne hnone =>
    exact iff_of_true rfl ⟨hne, findIdx?_isEmpty_eq_none_iff.1 hnone⟩
  | case4 words hne index hsome =>
    refine iff_of_false (List.cons_ne_nil _ _) fun h => ?_
    have hnone := findIdx?_isEmpty_eq_none_iff.2 h.empty_not_mem
    exact absurd (hsome.symm.trans hnone) (Option.some_ne_none index)

theorem invalidRule_not_mem_wordIssues {setting setting' : Setting} {value : String}
    (given : Option (List String)) : .invalidRule setting value ∉ wordIssues setting' given := by
  fun_cases wordIssues setting' given <;> simp

theorem keywordLists_issues_eq_nil_iff (k : KeywordLists) :
    k.issues = [] ↔ UsableWords k.keywords := by
  rw [KeywordLists.issues, List.append_eq_nil_iff, List.append_eq_nil_iff,
    wordIssues_eq_nil_iff usableWords_default.error,
    wordIssues_eq_nil_iff usableWords_default.warn, wordIssues_eq_nil_iff usableWords_default.info]
  exact ⟨fun ⟨⟨herror, hwarn⟩, hinfo⟩ => ⟨herror, hwarn, hinfo⟩,
    fun h => ⟨⟨h.error, h.warn⟩, h.info⟩⟩

/-! ### Rules -/

section

variable {c : Config}

/-- An issue that calls a name invalid tells which one it is. -/
theorem invalidRule_mem_ruleIssues_iff {setting : Setting} {value : String} :
    .invalidRule setting value ∈ c.ruleIssues ↔
      (setting = .macroName ∧ value = c.rules.macroName ∧ ¬IsName c.rules.macroName.toList) ∨
      (setting = .logPath ∧ value = c.rules.logPath ∧ ¬IsNamePath c.rules.logPath.toList) := by
  have hwords : .invalidRule setting value ∉ c.keywords.issues := by
    simp [KeywordLists.issues, invalidRule_not_mem_wordIssues]
  have hone : ∀ (b : Bool) (s : Setting) (v : String),
      .invalidRule setting value ∈ (if b then [] else [Issue.invalidRule s v]) ↔
        setting = s ∧ value = v ∧ ¬b = true := by
    intro b s v
    cases b <;> simp
  rw [ruleIssues, List.mem_append, or_iff_left hwords, RuleNames.issues, List.mem_append, hone, hone,
    isIdentifier_iff, isIdentifierPath_iff]

theorem ruleNames_issues_eq_nil_iff (names : RuleNames) :
    names.issues = [] ↔ ∃ r, names.rules = .ok r := by
  rw [RuleNames.rules, Rules.exists_of_eq_ok_iff, ← isIdentifier_iff, ← isIdentifierPath_iff,
    RuleNames.issues, List.append_eq_nil_iff]
  simp

theorem ruleIssues_eq_nil_iff :
    c.ruleIssues = [] ↔ (∃ r, c.rules.rules = .ok r) ∧ UsableWords c.keywords.keywords := by
  rw [ruleIssues, List.append_eq_nil_iff, ruleNames_issues_eq_nil_iff,
    keywordLists_issues_eq_nil_iff]

theorem exists_rules_iff_no_invalidRule :
    (∃ r, c.rules.rules = .ok r) ↔
      ∀ setting value, .invalidRule setting value ∉ c.ruleIssues := by
  simp only [invalidRule_mem_ruleIssues_iff, RuleNames.rules, Rules.exists_of_eq_ok_iff]
  constructor
  · rintro ⟨hname, hpath⟩ setting value (⟨_, _, h⟩ | ⟨_, _, h⟩)
    · exact h hname
    · exact h hpath
  · intro h
    by_contra hnames
    rcases not_and_or.1 hnames with hname | hpath
    · exact h .macroName _ (.inl ⟨rfl, rfl, hname⟩)
    · exact h .logPath _ (.inr ⟨rfl, rfl, hpath⟩)

theorem issues_eq_nil_of_ofText {check : Config → List Issue} {file : Option Storage.Path}
    {text : String} (h : ofText check file text = .ok c) : check c = [] := by
  rw [ofText] at h
  split at h
  · simp at h
  · split at h
    · rename_i hempty
      obtain rfl := Except.ok.inj h
      exact List.isEmpty_iff.1 hempty
    · simp at h

end

/-- What the checks of a configuration and the rules and words that it gives have to do with each
other. -/
structure ChecksAgree (c : Config) : Prop where
  rules_iff : (∃ r, c.rules.rules = .ok r) ↔
    IsName c.rules.macroName.toList ∧ IsNamePath c.rules.logPath.toList
  rules_names : ∀ r, c.rules.rules = .ok r ↔
    r.macroName = c.rules.macroName ∧ r.logPath = c.rules.logPath
  /-- The name of the printing call is reported first. -/
  rules_error : ∀ e, c.rules.rules = .error e ↔
    (¬IsName c.rules.macroName.toList ∧ e = ⟨.macroName, c.rules.macroName⟩) ∨
    (IsName c.rules.macroName.toList ∧ ¬IsNamePath c.rules.logPath.toList ∧
      e = ⟨.logPath, c.rules.logPath⟩)
  rules_iff_no_issue : (∃ r, c.rules.rules = .ok r) ↔
    ∀ setting value, .invalidRule setting value ∉ c.ruleIssues
  issues_eq : ∃ files dirs,
    BlankPlaces c.targets.files files ∧ BlankPlaces c.targets.dirs dirs ∧
    c.issues = (if c.targets.files = [] ∧ c.targets.dirs = [] then [.noTargets] else []) ++
      files.map (.blankEntry .files) ++ dirs.map (.blankEntry .dirs) ++ c.ruleIssues
  words : GivenOr c.keywords.error Keywords.defaultError c.keywords.keywords.error ∧
    GivenOr c.keywords.warn Keywords.defaultWarn c.keywords.keywords.warn ∧
    GivenOr c.keywords.info Keywords.defaultInfo c.keywords.keywords.info
  accepted : c.issues = [] ∨ c.ruleIssues = [] →
    (∃ r, c.rules.rules = .ok r) ∧ UsableWords c.keywords.keywords
  /-- Every configuration that was loaded was accepted, by the checks of all or of the rules and
  words only. -/
  loaded : ∀ file text, ofText issues file text = .ok c ∨ ofText ruleIssues file text = .ok c →
    (∃ r, c.rules.rules = .ok r) ∧ UsableWords c.keywords.keywords

theorem checksAgree (c : Config) : ChecksAgree c where
  rules_iff := Rules.exists_of_eq_ok_iff
  rules_names _ := Rules.of_eq_ok_iff
  rules_error _ := Rules.of_eq_error_iff
  rules_iff_no_issue := exists_rules_iff_no_invalidRule
  issues_eq := c.issues_eq_append
  words := ⟨givenOr_getD .., givenOr_getD .., givenOr_getD ..⟩
  accepted h := ruleIssues_eq_nil_iff.1 (h.elim ruleIssues_eq_nil id)
  loaded file text h := by
    refine ruleIssues_eq_nil_iff.1 (h.elim (fun hall => ?_) issues_eq_nil_of_ofText)
    exact ruleIssues_eq_nil (issues_eq_nil_of_ofText hall)

/-- A configuration with blank targets, two invalid names, no words and an empty word, and one that
lacks targets only. -/
theorem checksAgree_faulty :
    let faulty : Config := {
      targets := { files := ["a.rs", "\u3000", ""] }
      rules := { macroName := "print ln", logPath := "log:::x" }
      keywords := { error := some [], info := some ["ok", ""] } }
    let idle : Config := {
      rules := { macroName := "dbg_2", logPath := "crate::log" }
      keywords := { warn := some ["late"] } }
    (¬IsName "print ln".toList ∧ faulty.rules.rules = .error ⟨.macroName, "print ln"⟩ ∧
      faulty.issues = [.blankEntry .files 1, .blankEntry .files 2,
        .invalidRule .macroName "print ln", .invalidRule .logPath "log:::x", .noWords .errorWords,
        .blankEntry .infoWords 1]) ∧
    idle.issues = [.noTargets] ∧ idle.ruleIssues = [] ∧ (∃ r, idle.rules.rules = .ok r) ∧
      UsableWords idle.keywords.keywords := by
  intro faulty idle
  have hname : ¬IsName "print ln".toList := by
    rw [← isIdentifier_iff]
    decide +kernel
  have hidle : idle.ruleIssues = [] := by decide +kernel
  exact ⟨⟨hname, ((checksAgree faulty).rules_error _).2 (.inl ⟨hname, rfl⟩), by decide +kernel⟩,
    by decide +kernel, hidle, (checksAgree idle).accepted (.inr hidle)⟩

end LogLift.Config
