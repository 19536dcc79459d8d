import LogLift.Proofs.Batch.Effect

/-! A dry run and the real run of one batch.  What becomes of a target depends on where its path
leads, which a batch does not change, and on the file there.  So the two modes give the same entry
for every target whose file no earlier target leads to, unless the host refuses something that only
the real run asks for.  Where a dry run finds no calls, the real run writes nothing and reports the
same. -/

namespace LogLift.Batch

open LogLift.Document LogLift.Storage LogLift.Storage.FileSystem

/-! ### One target in two modes -/

/-- Calls were to be lifted in a file, but the host refuses something that its writing needs. -/
def Hindered (host : Host) (check apply : Outcome) : Prop :=
  ∃ file calls texts request reason, check = .lifted file calls texts ∧
    (∀ path, request ≠ .read path) ∧ host.refusal? request = some reason ∧
    apply = .denied file reason

section Target

variable {options : Options} {guard : Guard} {host : Host} {fs fs' : FileSystem} {target : Target}

theorem not_hindered (h : host.GrantsWrites) (check apply : Outcome) :
    ¬Hindered host check apply := by
  intro hhindered
  obtain ⟨_, _, _, request, reason, _, hread, hrefused, _⟩ := hhindered
  simp [h request hread] at hrefused

/-- The outcome depends on where the path leads, and on the file there. -/
theorem processTarget_outcome_congr (hsame : SameShape fs fs')
    (hget : ∀ file, guard.resolve fs target.path = .ok file → fs'.get? file = fs.get? file) :
    (processTarget options guard host fs target).outcome =
      (processTarget options guard host fs' target).outcome := by
  have hresolve' := guard.resolve_congr hsame target.path
  cases hresolve : guard.resolve fs target.path with
  | error error =>
    rw [hresolve] at hresolve'
    rw [processTarget, processTarget, hresolve, ← hresolve']
    cases error <;> rfl
  | ok file =>
    rw [hresolve] at hresolve'
    obtain ⟨content, bits, hfile⟩ := (Guard.admits_of_resolve hresolve).canonical
    have hget' := (hget file hresolve).trans hfile.get?_eq
    rw [(processTarget_eq hresolve hfile.get?_eq options host).1,
      (processTarget_eq hresolve'.symm hget' options host).1]

/-- A target that comes to nothing in a dry run comes to the same in every mode; the others have
calls to lift. -/
theorem processTarget_cases (options : Options) (guard : Guard) (host : Host) (fs : FileSystem)
    (target : Target) :
    (∃ outcome, outcome.liftedFile? = none ∧ ∀ mode,
      (processTarget (options.inMode mode) guard host fs target).outcome = outcome ∧
      (processTarget (options.inMode mode) guard host fs target).fs = fs) ∨
    ∃ file bits text lifting, ∀ mode,
      (processTarget (options.inMode mode) guard host fs target).outcome =
        (writeVerdict mode host file bits (String.ofList lifting.text)
          (liftedOutcome options file text lifting)).outcome := by
  cases hresolve : guard.resolve fs target.path with
  | error error =>
    simp only [processTarget, hresolve]
    cases error <;> exact .inl ⟨_, rfl, fun _ => ⟨rfl, rfl⟩⟩
  | ok file =>
    obtain ⟨content, bits, hfile⟩ := (Guard.admits_of_resolve hresolve).canonical
    have hstep := fun mode => processTarget_eq hresolve hfile.get?_eq (options.inMode mode) host
    obtain ⟨outcome, hidle, hverdict⟩ | ⟨hread, text, lifting, hlifts⟩ :=
      verdict_cases options host file content bits
    · refine .inl ⟨outcome, hidle, fun mode => ?_⟩
      have hmode := hstep mode
      rwa [hverdict mode] at hmode
    · refine .inr ⟨file, bits, text, lifting, fun mode => ?_⟩
      have hlifts' : Lifts (options.inMode mode) content text lifting :=
        ⟨hlifts.decoded, hlifts.lifted, hlifts.calls⟩
      rw [(hstep mode).1, verdict_of_lifts hlifts' hread]
      rfl

/-- The two modes have one outcome, unless the host refuses to write. -/
theorem processTarget_modes (options : Options) (guard : Guard) (host : Host) (fs : FileSystem)
    (target : Target) :
    let check := (processTarget (options.inMode .check) guard host fs target).outcome
    let apply := (processTarget (options.inMode .apply) guard host fs target).outcome
    check = apply ∨ Hindered host check apply := by
  intro check apply
  obtain ⟨outcome, _, hsame⟩ | ⟨file, bits, text, lifting, hwrite⟩ :=
    processTarget_cases options guard host fs target
  · exact .inl ((hsame .check).1.trans (hsame .apply).1.symm)
  · have hcheck := hwrite .check
    have happly := hwrite .apply
    unfold writeVerdict at hcheck happly
    dsimp only at hcheck happly
    cases hhindrance : host.hindrance? file (String.ofList lifting.text) bits with
    | some reason =>
      obtain ⟨request, hread, hrefused⟩ := Host.exists_of_hindrance? hhindrance
      rw [hhindrance] at happly
      exact .inr ⟨file, _, _, request, reason, hcheck, hread, hrefused, happly⟩
    | none =>
      rw [hhindrance] at happly
      cases htouch : host.refusal? (.touch file.path) with
      | some reason =>
        rw [htouch] at happly
        exact .inr ⟨file, _, _, _, reason, hcheck, by simp, htouch, happly⟩
      | none =>
        rw [htouch] at happly
        exact .inl (hcheck.trans happly.symm)

/-- A target in which a dry run lifts no calls comes to the same in every mode. -/
theorem processTarget_of_idle
    (h : (processTarget (options.inMode .check) guard host fs target).outcome.liftedFile? = none)
    (mode : Mode) :
    (processTarget (options.inMode mode) guard host fs target).outcome =
        (processTarget (options.inMode .check) guard host fs target).outcome ∧
      (processTarget (options.inMode mode) guard host fs target).fs = fs := by
  obtain ⟨outcome, _, hsame⟩ | ⟨file, bits, text, lifting, hwrite⟩ :=
    processTarget_cases options guard host fs target
  · exact ⟨(hsame mode).1.trans (hsame .check).1.symm, (hsame mode).2⟩
  · rw [hwrite .check] at h
    simp [writeVerdict, liftedOutcome, Outcome.liftedFile?] at h

end Target

/-! ### All targets -/

/-- No target before position `i` leads to the file that the target there leads to.  A target that
the guard does not let through leads to none. -/
def Fresh (guard : Guard) (fs : FileSystem) (targets : List Target) (i : Nat) : Prop :=
  ∀ target file, targets[i]? = some target → guard.resolve fs target.path = .ok file →
    ∀ earlier ∈ targets.take i, guard.resolve fs earlier.path ≠ .ok file

section Run

variable {options : Options} {guard : Guard} {hosts : Nat → Host} {fs : FileSystem}
  {targets : List Target}

/-- A file that no target leads to stays as it is. -/
theorem get?_process_of_not_resolved {l : Location}
    (h : ∀ target ∈ targets, guard.resolve fs target.path ≠ .ok l) :
    (process options guard hosts fs targets).fs.get? l = fs.get? l := by
  by_contra hchanged
  obtain ⟨i, target, _, htarget, _, hresolve, _⟩ := exists_target_of_changed hchanged
  exact h target (List.mem_of_getElem? htarget) hresolve

/-- A target whose file no earlier target leads to is dealt with as if it stood alone. -/
theorem entry_of_fresh {i : Nat} (h : Fresh guard fs targets i) (options : Options)
    (hosts : Nat → Host) :
    (process options guard hosts fs targets).entries[i]? =
      targets[i]?.map fun target =>
        ⟨target.name, (processTarget options guard (hosts i) fs target).outcome⟩ := by
  rw [entries_getElem?]
  cases htarget : targets[i]? with
  | none => rfl
  | some target =>
    -- The batch comes to the file of the target as it was at the start.
    have hstart : (processTarget options guard (hosts i) fs target).outcome =
        (processTarget options guard (hosts i)
          (fsAt options guard hosts fs targets i) target).outcome :=
      processTarget_outcome_congr (process_sameShape _ _ _ _ _)
        fun file hfile => get?_process_of_not_resolved (h target file htarget hfile)
    simp only [Option.map_some, hstart]

/-- The entries of the two modes for such a target. -/
theorem entries_of_fresh {i : Nat} (h : Fresh guard fs targets i) (options : Options)
    (hosts : Nat → Host) :
    let check := (process (options.inMode .check) guard hosts fs targets).entries[i]?
    let apply := (process (options.inMode .apply) guard hosts fs targets).entries[i]?
    check = apply ∨ ∃ name outcome outcome', check = some ⟨name, outcome⟩ ∧
      apply = some ⟨name, outcome'⟩ ∧ Hindered (hosts i) outcome outcome' := by
  intro check apply
  have hcheck : check = _ := entry_of_fresh h (options.inMode .check) hosts
  have happly : apply = _ := entry_of_fresh h (options.inMode .apply) hosts
  cases htarget : targets[i]? with
  | none => exact .inl (by rw [hcheck, happly, htarget]; rfl)
  | some target =>
    rw [htarget] at hcheck happly
    obtain hsame | hhindered := processTarget_modes options guard (hosts i) fs target
    · exact .inl (by rw [hcheck, happly, Option.map_some, Option.map_some, hsame])
    · exact .inr ⟨target.name, _, _, hcheck, happly, hhindered⟩

theorem entry_eq_of_fresh {i : Nat} (h : Fresh guard fs targets i) (options : Options)
    (hhost : (hosts i).GrantsWrites) :
    (process (options.inMode .check) guard hosts fs targets).entries[i]? =
      (process (options.inMode .apply) guard hosts fs targets).entries[i]? := by
  obtain hsame | ⟨_, _, _, _, _, hhindered⟩ := entries_of_fresh h options hosts
  · exact hsame
  · exact absurd hhindered (not_hindered hhost _ _)

/-- An entry that lifted calls tells what its file held, and what it holds right after. -/
theorem texts_of_lifted {i : Nat} {name : String} {file : Location} {calls : List LiftedCall}
    {texts : Option (String × String)} (hmode : options.mode = .apply)
    (h : (process options guard hosts fs targets).entries[i]? =
      some ⟨name, .lifted file calls texts⟩) :
    ∃ before after bits bits',
      texts = (if options.keepTexts then some (before, after) else none) ∧
      (fsAt options guard hosts fs targets i).get? file = some (.file before.toUTF8 bits) ∧
      (fsAt options guard hosts fs targets (i + 1)).get? file =
        some (.file after.toUTF8 bits') := by
  obtain ⟨target, step, _, hdoes, hentry, hfs⟩ := exists_target_of_entry h
  have houtcome := congrArg Entry.outcome hentry
  rw [hfs]
  cases hdoes with
  | nothing hidle =>
    obtain rfl : Outcome.lifted file calls texts = _ := houtcome
    simp [Outcome.liftedFile?] at hidle
  | torn => simp [Outcome.denied] at houtcome
  | @lifts file₀ content bits text lifting _ hresolve hfile hlifts =>
    obtain ⟨rfl, rfl, rfl⟩ := Outcome.lifted.inj houtcome
    refine ⟨text, String.ofList lifting.text, bits, (hosts i).modeAfter file bits, rfl, ?_, ?_⟩
    · rw [toUTF8_of_fromUTF8? hlifts.decoded]
      exact hfile.get?_eq
    · dsimp only
      rw [if_pos hmode, get?_set hfile.ne_nil, if_pos rfl]
      rfl

/-! ### Reports without calls -/

theorem Report.total_eq_zero_iff {report : Report} :
    report.total = 0 ↔ ∀ entry ∈ report.entries, entry.outcome.calls = [] := by
  obtain ⟨entries⟩ := report
  induction entries with
  | nil => simp [Report.total]
  | cons entry entries ih =>
    simp only [Report.total, Outcome.replacements] at ih ⊢
    simp [ih]

theorem liftedFile?_of_calls {entry : Entry}
    (hmem : entry ∈ (process options guard hosts fs targets).entries)
    (h : entry.outcome.calls = []) : entry.outcome.liftedFile? = none := by
  obtain ⟨i, hentry⟩ := List.getElem?_of_mem hmem
  obtain ⟨target, step, _, hdoes, rfl, _⟩ := exists_target_of_entry hentry
  cases hdoes with
  | nothing hidle => exact hidle
  | lifts _ _ hlifts => exact absurd h hlifts.calls
  | torn => rfl

/-- Where a dry run lifts no calls, every run does as the dry run did. -/
theorem process_of_idle (mode : Mode)
    (h : ∀ entry ∈ (process (options.inMode .check) guard hosts fs targets).entries,
      entry.outcome.liftedFile? = none) :
    (process (options.inMode mode) guard hosts fs targets).report =
        (process (options.inMode .check) guard hosts fs targets).report ∧
      (process (options.inMode mode) guard hosts fs targets).fs = fs := by
  induction targets generalizing hosts with
  | nil => exact ⟨rfl, rfl⟩
  | cons target rest ih =>
    have hcheck :
        (processTarget (options.inMode .check) guard (hosts 0) fs target).fs = fs :=
      (processTarget_does _ _ _ _ _).fs_eq_of_check rfl
    simp only [process, Run.report, List.forall_mem_cons, hcheck] at h ih ⊢
    obtain ⟨hfirst, hrest⟩ := h
    obtain ⟨houtcome, hkept⟩ := processTarget_of_idle hfirst mode
    rw [houtcome, hkept]
    obtain ⟨hreport, hfs⟩ := ih hrest
    exact ⟨by rw [Report.mk.inj hreport], hfs⟩

theorem process_of_total_eq_zero (mode : Mode)
    (h : (process (options.inMode .check) guard hosts fs targets).report.total = 0) :
    (process (options.inMode mode) guard hosts fs targets).report =
        (process (options.inMode .check) guard hosts fs targets).report ∧
      (process (options.inMode mode) guard hosts fs targets).fs = fs :=
  process_of_idle mode fun entry hmem =>
    liftedFile?_of_calls hmem (Report.total_eq_zero_iff.1 h entry hmem)

end Run

end LogLift.Batch
