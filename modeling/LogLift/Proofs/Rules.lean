import LogLift.Proofs.Names

/-! Which names give rules.  A name and a path of names are said here by their characters, and two
strings give rules exactly when the first is a name and the second a path of names.  The segments of
a path join to the path again, so that nothing between two names but `::` is passed over. -/

namespace LogLift

/-- An ASCII letter or an underscore. -/
def NameStart (c : Char) : Prop := ('A' ≤ c ∧ c ≤ 'Z') ∨ ('a' ≤ c ∧ c ≤ 'z') ∨ c = '_'

/-- A letter or an underscore, then letters, digits and underscores. -/
def IsName (cs : List Char) : Prop :=
  ∃ c rest, cs = c :: rest ∧ NameStart c ∧ ∀ d ∈ rest, NameStart d ∨ ('0' ≤ d ∧ d ≤ '9')

/-- One or more names with `::` between them. -/
def IsNamePath (cs : List Char) : Prop :=
  ∃ names, names ≠ [] ∧ (∀ name ∈ names, IsName name) ∧ cs = [':', ':'].intercalate names

/-! ### Names -/

theorem isIdentifierStart_iff {c : Char} : isIdentifierStart c = true ↔ NameStart c := by
  delta isIdentifierStart Char.isAlpha Char.isUpper Char.isLower
  simp only [NameStart, Char.le_def, Bool.or_eq_true, Bool.and_eq_true, decide_eq_true_eq,
    beq_iff_eq]
  rw [or_comm, or_assoc]

theorem isIdentifierRest_iff {c : Char} :
    isIdentifierRest c = true ↔ NameStart c ∨ ('0' ≤ c ∧ c ≤ '9') := by
  rw [← isIdentifierStart_iff]
  simp only [isIdentifierRest, isIdentifierStart, Char.isAlphanum, Char.isDigit, Char.le_def,
    Bool.or_eq_true, Bool.and_eq_true, decide_eq_true_eq]
  rw [or_assoc]

theorem isIdentifier_iff {cs : List Char} : isIdentifier cs = true ↔ IsName cs := by
  cases cs with
  | nil => simp [isIdentifier, IsName]
  | cons c rest =>
    simp only [isIdentifier, Bool.and_eq_true, List.all_eq_true, isIdentifierStart_iff,
      isIdentifierRest_iff]
    constructor
    · rintro ⟨hstart, hrest⟩
      exact ⟨c, rest, rfl, hstart, hrest⟩
    · rintro ⟨c', rest', heq, hstart, hrest⟩
      obtain ⟨rfl, rfl⟩ := List.cons.inj heq
      exact ⟨hstart, hrest⟩

theorem colon_not_mem_of_isName {cs : List Char} (h : IsName cs) : ':' ∉ cs :=
  not_mem_of_isIdentifier (isIdentifier_iff.2 h) (by decide)

/-! ### Paths -/

theorem pathSegments_ne_nil (cs : List Char) : pathSegments cs ≠ [] := by
  fun_cases pathSegments cs <;> simp

theorem intercalate_pathSegments (cs : List Char) :
    [':', ':'].intercalate (pathSegments cs) = cs := by
  fun_induction pathSegments cs with
  | case1 => rfl
  | case2 cs ih =>
    obtain ⟨segment, segments, hcons⟩ := List.exists_cons_of_ne_nil (pathSegments_ne_nil cs)
    rw [hcons] at ih ⊢
    rw [List.intercalate_cons_cons, ih]
    rfl
  | case3 c cs _ hnil ih => exact absurd hnil (pathSegments_ne_nil cs)
  | case4 c cs _ segment segments hcons ih =>
    rw [hcons] at ih
    rw [← ih]
    cases segments with
    | nil => rw [List.intercalate_singleton, List.intercalate_singleton]
    | cons next segments => rw [List.intercalate_cons_cons, List.intercalate_cons_cons]; rfl

theorem pathSegments_of_not_mem {name : List Char} (h : ':' ∉ name) :
    pathSegments name = [name] := by
  induction name with
  | nil => rfl
  | cons c name ih =>
    obtain ⟨hc, hname⟩ := not_or.1 (mt List.mem_cons.2 h)
    rw [pathSegments, ih hname]
    exact fun _ hcolon _ => hc hcolon.symm

theorem pathSegments_append {name : List Char} (h : ':' ∉ name) (cs : List Char) :
    pathSegments (name ++ ':' :: ':' :: cs) = name :: pathSegments cs := by
  induction name with
  | nil => rfl
  | cons c name ih =>
    obtain ⟨hc, hname⟩ := not_or.1 (mt List.mem_cons.2 h)
    rw [List.cons_append, pathSegments, ih hname]
    exact fun _ hcolon _ => hc hcolon.symm

/-- The segments of names with `::` between them are the names. -/
theorem pathSegments_intercalate {names : List (List Char)} (hne : names ≠ [])
    (h : ∀ name ∈ names, ':' ∉ name) : pathSegments ([':', ':'].intercalate names) = names := by
  induction names with
  | nil => exact absurd rfl hne
  | cons name names ih =>
    obtain ⟨hname, hnames⟩ := List.forall_mem_cons.1 h
    cases names with
    | nil => rw [List.intercalate_singleton, pathSegments_of_not_mem hname]
    | cons next names =>
      have hsplit := pathSegments_append hname ([':', ':'].intercalate (next :: names))
      rw [ih (List.cons_ne_nil _ _) hnames] at hsplit
      rw [List.intercalate_cons_cons, ← hsplit]
      simp

theorem isIdentifierPath_iff {cs : List Char} : isIdentifierPath cs = true ↔ IsNamePath cs := by
  simp only [isIdentifierPath, List.all_eq_true, isIdentifier_iff]
  constructor
  · exact fun h => ⟨_, pathSegments_ne_nil cs, h, (intercalate_pathSegments cs).symm⟩
  · rintro ⟨names, hne, hnames, rfl⟩
    rwa [pathSegments_intercalate hne fun name hname => colon_not_mem_of_isName (hnames name hname)]

/-! ### Rules -/

namespace Rules

variable {macroName logPath : String}

/-- The rules for two names hold these names. -/
theorem of_eq_ok_iff {r : Rules} :
    Rules.of macroName logPath = .ok r ↔ r.macroName = macroName ∧ r.logPath = logPath := by
  constructor
  · intro h
    rw [Rules.of] at h
    split at h
    · split at h
      · obtain rfl := Except.ok.inj h
        exact ⟨rfl, rfl⟩
      · simp at h
    · simp at h
  · rintro ⟨rfl, rfl⟩
    rw [Rules.of, dif_pos r.isIdentifier_macroName, dif_pos r.isIdentifierPath_logPath]

theorem exists_of_eq_ok_iff :
    (∃ r, Rules.of macroName logPath = .ok r) ↔
      IsName macroName.toList ∧ IsNamePath logPath.toList := by
  simp only [of_eq_ok_iff, ← isIdentifier_iff, ← isIdentifierPath_iff]
  constructor
  · rintro ⟨r, rfl, rfl⟩
    exact ⟨r.isIdentifier_macroName, r.isIdentifierPath_logPath⟩
  · exact fun ⟨hname, hpath⟩ => ⟨⟨macroName, logPath, hname, hpath⟩, rfl, rfl⟩

/-- Of two names at fault, that of the printing call is reported. -/
theorem of_eq_error_iff {e : RuleError} :
    Rules.of macroName logPath = .error e ↔
      (¬IsName macroName.toList ∧ e = ⟨.macroName, macroName⟩) ∨
      (IsName macroName.toList ∧ ¬IsNamePath logPath.toList ∧ e = ⟨.logPath, logPath⟩) := by
  rw [← isIdentifier_iff, ← isIdentifierPath_iff, Rules.of]
  split
  · rename_i hname
    split
    · rename_i hpath
      simp [hname, hpath]
    · rename_i hpath
      simp [hname, hpath, eq_comm (a := e)]
  · rename_i hname
    simp [hname, eq_comm (a := e)]

end Rules

end LogLift
