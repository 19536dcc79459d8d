import LogLift.Batch.Process
import LogLift.Proofs.Storage.Commit

/-! The effect of a batch on the file system.  A target does one of three things.  It leaves all as
it was; or it lifts the calls of the file that it leads to, and then only that file can change; or
it does change that file, but fails when it touches it.  So the shape of the file system stays the
same from one target to the next, and every target leads to the same file as at the start.  On hosts
that do not refuse to look at and to touch files, the third thing does not happen and modes are
kept: the content of a file at the end is its first content after one pass for each entry that
lifted calls in it, and nothing else changes, whichever targets fail. -/

namespace LogLift.Batch

open LogLift.Document LogLift.Storage LogLift.Storage.FileSystem

/-! ### One file -/

/-- The file in which calls were lifted. -/
def Outcome.liftedFile? : Outcome → Option Location
  | .lifted file _ _ => some file
  | _ => none

/-- The outcome for a file when the host has refused something. -/
def Outcome.denied (file : Location) (reason : String) : Outcome :=
  .failed (.notCommitted (.access file.path (.refused reason)))

/-- What is to become of a file: its outcome, and the text and the mode of the file that takes its
place. -/
structure Verdict where
  outcome : Outcome
  file? : Option (String × Nat)
  deriving DecidableEq

/-- The verdict on a file for which there is a new text.  `lifted` is the outcome when all goes
well. -/
def writeVerdict (mode : Mode) (host : Host) (file : Location) (bits : Nat) (text : String)
    (lifted : Outcome) : Verdict :=
  match mode with
  | .check => ⟨lifted, none⟩
  | .apply =>
    match host.hindrance? file text bits with
    | some reason => ⟨.denied file reason, none⟩
    | none =>
      match host.refusal? (.touch file.path) with
      | some reason => ⟨.denied file reason, some (text, host.modeAfter file bits)⟩
      | none => ⟨lifted, some (text, host.modeAfter file bits)⟩

/-- The verdict on a file by its content and its mode. -/
def verdict (options : Options) (host : Host) (file : Location) (content : ByteArray)
    (bits : Nat) : Verdict :=
  match host.refusal? (.read file.path) with
  | some reason => ⟨.denied file reason, none⟩
  | none =>
    match String.fromUTF8? content with
    | none => ⟨.failed (.notCommitted (.access file.path .notText)), none⟩
    | some text =>
      match lift options.rules options.keywords text.toList with
      | .error error => ⟨.failed (.unreadable file error), none⟩
      | .ok lifting =>
        if lifting.unchanged then ⟨.unchanged file, none⟩
        else
          let new := String.ofList lifting.text
          let texts := if options.keepTexts then some (text, new) else none
          writeVerdict options.mode host file bits new (.lifted file lifting.calls texts)

/-- The file system with another file at `l`, if there is one to put there. -/
def put (fs : FileSystem) (l : Location) : Option (String × Nat) → FileSystem
  | some (text, bits) => fs.set l (.file text.toUTF8 bits)
  | none => fs

section File

variable {options : Options} {host : Host} {fs : FileSystem} {file : Location}
  {content : ByteArray} {bits : Nat}

/-- A file with this content has calls to lift: its text, and the lifting of that. -/
structure Lifts (options : Options) (content : ByteArray) (text : String) (lifting : Lifting) :
    Prop where
  decoded : String.fromUTF8? content = some text
  lifted : lift options.rules options.keywords text.toList = .ok lifting
  calls : lifting.calls ≠ []

/-- The outcome when the calls of a file are lifted. -/
def liftedOutcome (options : Options) (file : Location) (text : String) (lifting : Lifting) :
    Outcome :=
  .lifted file lifting.calls
    (if options.keepTexts then some (text, String.ofList lifting.text) else none)

/-- The file that holds the lifted text. -/
def liftedNode (host : Host) (file : Location) (bits : Nat) (lifting : Lifting) : Node :=
  .file (String.ofList lifting.text).toUTF8 (host.modeAfter file bits)

theorem verdict_of_lifts {text : String} {lifting : Lifting}
    (h : Lifts options content text lifting) (hread : host.refusal? (.read file.path) = none)
    (bits : Nat) :
    verdict options host file content bits =
      writeVerdict options.mode host file bits (String.ofList lifting.text)
        (liftedOutcome options file text lifting) := by
  simp [verdict, hread, h.decoded, h.lifted, Lifting.unchanged, h.calls, liftedOutcome]

/-- A verdict puts nothing in the place of a file, or the file is read and has calls to lift. -/
theorem verdict_cases (options : Options) (host : Host) (file : Location) (content : ByteArray)
    (bits : Nat) :
    (∃ outcome, outcome.liftedFile? = none ∧
      ∀ mode, verdict (options.inMode mode) host file content bits = ⟨outcome, none⟩) ∨
    host.refusal? (.read file.path) = none ∧
      ∃ text lifting, Lifts options content text lifting := by
  unfold verdict Options.inMode
  cases hread : host.refusal? (.read file.path) with
  | some reason => exact .inl ⟨_, rfl, fun _ => rfl⟩
  | none =>
    cases htext : String.fromUTF8? content with
    | none => exact .inl ⟨_, rfl, fun _ => rfl⟩
    | some text =>
      cases hlift : lift options.rules options.keywords text.toList with
      | error error =>
        exact .inl ⟨.failed (.unreadable file error), rfl, fun _ => by simp only [hlift]⟩
      | ok lifting =>
        by_cases hcalls : lifting.calls = []
        · exact .inl ⟨.unchanged file, rfl, fun _ => by simp [hlift, Lifting.unchanged, hcalls]⟩
        · exact .inr ⟨rfl, text, lifting, htext, hlift, hcalls⟩

/-- A canonical file is read, judged and written. -/
theorem processFile_eq (h : fs.FileAt file content bits) (options : Options) (host : Host) :
    (processFile options host fs file).outcome =
        (verdict options host file content bits).outcome ∧
      (processFile options host fs file).fs =
        put fs file (verdict options host file content bits).file? := by
  simp only [processFile, Snapshot.read_path h, verdict]
  cases hread : host.refusal? (.read file.path) with
  | some reason => exact ⟨rfl, rfl⟩
  | none =>
    cases htext : String.fromUTF8? content with
    | none => exact ⟨rfl, rfl⟩
    | some text =>
      cases hlift : lift options.rules options.keywords text.toList with
      | error error => exact ⟨by simp [hlift], by simp [hlift, put]⟩
      | ok lifting =>
        by_cases hcalls : lifting.unchanged
        · exact ⟨by simp [hlift, hcalls], by simp [hlift, hcalls, put]⟩
        · simp only [hlift, hcalls, Bool.false_eq_true, if_false]
          -- The file still holds what was read, so only the host can stand in the way.
          have hcommit := Snapshot.commit_of_content h htext host (String.ofList lifting.text)
          cases hmode : options.mode with
          | check => exact ⟨rfl, rfl⟩
          | apply =>
            simp only [commit, hcommit, writeVerdict]
            cases host.hindrance? file (String.ofList lifting.text) bits with
            | some reason => exact ⟨rfl, rfl⟩
            | none =>
              cases host.refusal? (.touch file.path) with
              | some reason => exact ⟨rfl, rfl⟩
              | none => exact ⟨rfl, rfl⟩

end File

/-! ### One target -/

/-- What a target can do: leave all as it was, or lift the calls of the file that it leads to, or
change that file and fail all the same. -/
inductive Does (options : Options) (guard : Guard) (host : Host) (fs : FileSystem)
    (target : Target) : Step → Prop
  | nothing {outcome : Outcome} {events : List Event} : outcome.liftedFile? = none →
      Does options guard host fs target ⟨fs, outcome, events⟩
  | lifts {file : Location} {content : ByteArray} {bits : Nat} {text : String} {lifting : Lifting}
      {events : List Event} : guard.resolve fs target.path = .ok file →
      fs.FileAt file content bits → Lifts options content text lifting →
      Does options guard host fs target
        ⟨if options.mode = .apply then fs.set file (liftedNode host file bits lifting) else fs,
          liftedOutcome options file text lifting, events⟩
  | torn {file : Location} {content : ByteArray} {bits : Nat} {text : String} {lifting : Lifting}
      {reason : String} {events : List Event} : options.mode = .apply →
      guard.resolve fs target.path = .ok file → fs.FileAt file content bits →
      Lifts options content text lifting → host.refusal? (.touch file.path) = some reason →
      Does options guard host fs target
        ⟨fs.set file (liftedNode host file bits lifting), .denied file reason, events⟩

/-- A target that the guard lets through is judged by what stands at the file it leads to. -/
theorem processTarget_eq {guard : Guard} {fs : FileSystem} {target : Target} {file : Location}
    {content : ByteArray} {bits : Nat} (hresolve : guard.resolve fs target.path = .ok file)
    (hget : fs.get? file = some (.file content bits)) (options : Options) (host : Host) :
    (processTarget options guard host fs target).outcome =
        (verdict options host file content bits).outcome ∧
      (processTarget options guard host fs target).fs =
        put fs file (verdict options host file content bits).file? := by
  have hfile := fileAt_of_resolve (Guard.admits_of_resolve hresolve).resolves hget
  rw [processTarget, hresolve]
  exact processFile_eq hfile options host

theorem processTarget_does (options : Options) (guard : Guard) (host : Host) (fs : FileSystem)
    (target : Target) :
    Does options guard host fs target (processTarget options guard host fs target) := by
  cases hresolve : guard.resolve fs target.path with
  | error error =>
    rw [processTarget, hresolve]
    cases error <;> exact .nothing rfl
  | ok file =>
    obtain ⟨content, bits, hfile⟩ := (Guard.admits_of_resolve hresolve).canonical
    obtain ⟨houtcome, hfs⟩ := processTarget_eq hresolve hfile.get?_eq options host
    generalize processTarget options guard host fs target = step at houtcome hfs ⊢
    obtain ⟨fs', outcome, events⟩ := step
    obtain rfl : outcome = _ := houtcome
    obtain rfl : fs' = _ := hfs
    obtain ⟨outcome, hidle, hverdict⟩ | ⟨hread, text, lifting, hlifts⟩ :=
      verdict_cases options host file content bits
    · have hnothing := hverdict options.mode
      rw [show options.inMode options.mode = options from rfl] at hnothing
      rw [hnothing]
      exact .nothing hidle
    · rw [verdict_of_lifts hlifts hread]
      have hdoes : Does options guard host fs target
          ⟨if options.mode = .apply then fs.set file (liftedNode host file bits lifting) else fs,
            liftedOutcome options file text lifting, events⟩ := .lifts hresolve hfile hlifts
      unfold writeVerdict
      cases hmode : options.mode with
      | check =>
        rw [if_neg (by simp [hmode])] at hdoes
        exact hdoes
      | apply =>
        rw [if_pos hmode] at hdoes
        cases host.hindrance? file (String.ofList lifting.text) bits with
        | some reason => exact .nothing rfl
        | none =>
          cases htouch : host.refusal? (.touch file.path) with
          | some reason => exact .torn hmode hresolve hfile hlifts htouch
          | none => exact hdoes

section Target

variable {options : Options} {guard : Guard} {host : Host} {fs : FileSystem} {target : Target}
  {step : Step}

/-- The file at `l` may be a new one, although its target has failed: the host has refused to touch
it. -/
def Torn (host : Host) (l : Location) (outcome : Outcome) : Prop :=
  ∃ reason, host.refusal? (.touch l.path) = some reason ∧ outcome = .denied l reason

theorem Does.fs_eq_of_check (h : Does options guard host fs target step)
    (hmode : options.mode = .check) : step.fs = fs := by
  cases h with
  | nothing => rfl
  | lifts => simp [hmode]
  | torn happly => simp [hmode] at happly

theorem Does.fs_eq_of_idle (h : Does options guard host fs target step)
    (hidle : step.outcome.liftedFile? = none) (hhost : host.Settles) : step.fs = fs := by
  cases h with
  | nothing => rfl
  | lifts => simp [liftedOutcome, Outcome.liftedFile?] at hidle
  | torn _ _ _ _ htouch => simp [hhost.touch] at htouch

theorem Does.resolve_eq (h : Does options guard host fs target step) {file : Location}
    (hfile : step.outcome.liftedFile? = some file) : guard.resolve fs target.path = .ok file := by
  cases h with
  | nothing hidle => simp [hidle] at hfile
  | lifts hresolve =>
    obtain rfl := Option.some.inj hfile
    exact hresolve
  | torn => simp [Outcome.denied, Outcome.liftedFile?] at hfile

theorem Does.sameShape (h : Does options guard host fs target step) : SameShape fs step.fs := by
  cases h with
  | nothing => exact .refl fs
  | lifts _ hfile _ =>
    dsimp only
    split
    · exact .set hfile.get?_eq _ _
    · exact .refl fs
  | torn _ _ hfile => exact .set hfile.get?_eq _ _

theorem Does.sameTree (h : Does options guard host fs target step) (hhost : host.Settles) :
    SameTree fs step.fs := by
  cases h with
  | nothing => exact .refl fs
  | @lifts file content bits text lifting _ _ hfile _ =>
    dsimp only
    split
    · rw [liftedNode, hhost.modeAfter_eq]
      exact .set hfile.get?_eq _
    · exact .refl fs
  | torn _ _ _ _ htouch => simp [hhost.touch] at htouch

/-- Only the file that a target leads to can change, and then the outcome tells of it. -/
theorem Does.changed (h : Does options guard host fs target step) {l : Location}
    (hchanged : step.fs.get? l ≠ fs.get? l) :
    guard.resolve fs target.path = .ok l ∧
      (step.outcome.liftedFile? = some l ∨ Torn host l step.outcome) := by
  have hset : ∀ {file content bits node}, fs.FileAt file content bits →
      (fs.set file node).get? l ≠ fs.get? l → l = file := by
    intro file content bits node hfile hne
    rw [get?_set hfile.ne_nil] at hne
    by_contra hother
    exact hne (if_neg hother)
  cases h with
  | nothing => exact absurd rfl hchanged
  | lifts hresolve hfile _ =>
    dsimp only at hchanged
    split at hchanged
    · obtain rfl := hset hfile hchanged
      exact ⟨hresolve, .inl rfl⟩
    · exact absurd rfl hchanged
  | torn _ hresolve hfile _ htouch =>
    obtain rfl := hset hfile hchanged
    exact ⟨hresolve, .inr ⟨_, htouch, rfl⟩⟩

end Target

/-! ### All targets -/

section Run

variable {options : Options} {guard : Guard} {hosts : Nat → Host} {fs : FileSystem}
  {targets : List Target}

/-- The file system after the first `i` targets. -/
def fsAt (options : Options) (guard : Guard) (hosts : Nat → Host) (fs : FileSystem)
    (targets : List Target) (i : Nat) : FileSystem :=
  (process options guard hosts fs (targets.take i)).fs

theorem entries_getElem? (options : Options) (guard : Guard) (hosts : Nat → Host)
    (fs : FileSystem) (targets : List Target) (i : Nat) :
    (process options guard hosts fs targets).entries[i]? = targets[i]?.map fun target =>
      ⟨target.name, (processTarget options guard (hosts i)
        (fsAt options guard hosts fs targets i) target).outcome⟩ := by
  induction targets generalizing hosts fs i with
  | nil => rfl
  | cons first rest ih =>
    cases i with
    | zero => rfl
    | succ i =>
      simp only [process, List.getElem?_cons_succ]
      exact ih _ _ i

theorem fsAt_succ {i : Nat} {target : Target} (h : targets[i]? = some target) (options : Options)
    (guard : Guard) (hosts : Nat → Host) (fs : FileSystem) :
    fsAt options guard hosts fs targets (i + 1) =
      (processTarget options guard (hosts i) (fsAt options guard hosts fs targets i) target).fs := by
  induction targets generalizing hosts fs i with
  | nil => simp at h
  | cons first rest ih =>
    cases i with
    | zero =>
      obtain rfl : first = target := by simpa using h
      rfl
    | succ i => exact ih (by simpa using h) _ _

/-- Each entry tells of one step of the batch. -/
theorem exists_target_of_entry {i : Nat} {entry : Entry}
    (h : (process options guard hosts fs targets).entries[i]? = some entry) :
    ∃ target step, targets[i]? = some target ∧
      Does options guard (hosts i) (fsAt options guard hosts fs targets i) target step ∧
      entry = ⟨target.name, step.outcome⟩ ∧
      fsAt options guard hosts fs targets (i + 1) = step.fs := by
  rw [entries_getElem?] at h
  obtain ⟨target, htarget, hentry⟩ := Option.map_eq_some_iff.1 h
  exact ⟨target, _, htarget, processTarget_does .., hentry.symm, fsAt_succ htarget ..⟩

theorem process_names (options : Options) (guard : Guard) (hosts : Nat → Host) (fs : FileSystem)
    (targets : List Target) :
    (process options guard hosts fs targets).entries.map (·.name) = targets.map (·.name) := by
  refine List.ext_getElem? fun i => ?_
  simp only [List.getElem?_map, entries_getElem?, Option.map_map]
  rfl

theorem process_sameShape (options : Options) (guard : Guard) (hosts : Nat → Host)
    (fs : FileSystem) (targets : List Target) :
    SameShape fs (process options guard hosts fs targets).fs := by
  induction targets generalizing hosts fs with
  | nil => exact .refl fs
  | cons target rest ih =>
    exact (processTarget_does options guard (hosts 0) fs target).sameShape.trans (ih _ _)

theorem process_sameTree (hhosts : ∀ i, (hosts i).Settles) (options : Options) (guard : Guard)
    (fs : FileSystem) (targets : List Target) :
    SameTree fs (process options guard hosts fs targets).fs := by
  induction targets generalizing hosts fs with
  | nil => exact .refl fs
  | cons target rest ih =>
    have hstep := (processTarget_does options guard (hosts 0) fs target).sameTree (hhosts 0)
    exact hstep.trans (ih (fun i => hhosts (i + 1)) _)

theorem process_fs_of_check (hmode : options.mode = .check) (guard : Guard) (hosts : Nat → Host)
    (fs : FileSystem) (targets : List Target) :
    (process options guard hosts fs targets).fs = fs := by
  induction targets generalizing hosts fs with
  | nil => rfl
  | cons target rest ih =>
    have hstep := (processTarget_does options guard (hosts 0) fs target).fs_eq_of_check hmode
    exact (ih _ _).trans hstep

/-- The targets lead to the same files all through a batch. -/
theorem resolve_fsAt (options : Options) (guard : Guard) (hosts : Nat → Host) (fs : FileSystem)
    (targets : List Target) (i : Nat) (p : Path) :
    guard.resolve (fsAt options guard hosts fs targets i) p = guard.resolve fs p :=
  (guard.resolve_congr (process_sameShape options guard hosts fs (targets.take i)) p).symm

theorem exists_target_of_lifted {i : Nat} {entry : Entry} {file : Location}
    (h : (process options guard hosts fs targets).entries[i]? = some entry)
    (hfile : entry.outcome.liftedFile? = some file) :
    ∃ target, targets[i]? = some target ∧ guard.resolve fs target.path = .ok file := by
  obtain ⟨target, step, htarget, hdoes, rfl, _⟩ := exists_target_of_entry h
  have hresolve := hdoes.resolve_eq hfile
  rw [resolve_fsAt] at hresolve
  exact ⟨target, htarget, hresolve⟩

/-- Where a batch has changed something, a target leads there, and its entry tells of it. -/
theorem exists_target_of_changed {l : Location}
    (h : (process options guard hosts fs targets).fs.get? l ≠ fs.get? l) :
    ∃ (i : Nat) (target : Target) (entry : Entry), targets[i]? = some target ∧
      (process options guard hosts fs targets).entries[i]? = some entry ∧
      guard.resolve fs target.path = .ok l ∧
      (entry.outcome.liftedFile? = some l ∨ Torn (hosts i) l entry.outcome) := by
  induction targets generalizing hosts fs with
  | nil => exact absurd rfl h
  | cons first rest ih =>
    have hdoes := processTarget_does options guard (hosts 0) fs first
    by_cases hfirst : (processTarget options guard (hosts 0) fs first).fs.get? l = fs.get? l
    · -- The change comes later.
      rw [← hfirst] at h
      obtain ⟨i, target, entry, htarget, hentry, hresolve, htold⟩ := ih h
      rw [← guard.resolve_congr hdoes.sameShape] at hresolve
      exact ⟨i + 1, target, entry, htarget, hentry, hresolve, htold⟩
    · obtain ⟨hresolve, htold⟩ := hdoes.changed hfirst
      exact ⟨0, first, _, rfl, rfl, hresolve, htold⟩

/-- The bytes of a file after one pass over it for each entry that lifted calls in it.  The calls of
each entry are those that its pass lifted. -/
inductive Passed (options : Options) : ByteArray → List (List LiftedCall) → ByteArray → Prop
  | done {content : ByteArray} : Passed options content [] content
  | pass {content content' : ByteArray} {text : String} {lifting : Lifting}
      {later : List (List LiftedCall)} : Lifts options content text lifting →
      Passed options (String.ofList lifting.text).toUTF8 later content' →
      Passed options content (lifting.calls :: later) content'

/-- The calls that the entries tell of for the file at `l`, entry by entry. -/
def callsAt (l : Location) (entries : List Entry) : List (List LiftedCall) :=
  (entries.filter (·.outcome.liftedFile? = some l)).map (·.outcome.calls)

theorem process_passed {l : Location} {content : ByteArray} {bits : Nat}
    (hmode : options.mode = .apply) (hhosts : ∀ i, (hosts i).Settles) (guard : Guard)
    (hget : fs.get? l = some (.file content bits)) (targets : List Target) :
    ∃ content', (process options guard hosts fs targets).fs.get? l =
        some (.file content' bits) ∧
      Passed options content (callsAt l (process options guard hosts fs targets).entries)
        content' := by
  induction targets generalizing hosts fs content with
  | nil => exact ⟨content, hget, .done⟩
  | cons target rest ih =>
    have hdoes := processTarget_does options guard (hosts 0) fs target
    have hlater : ∀ i, (hosts (i + 1)).Settles := fun i => hhosts (i + 1)
    simp only [process]
    generalize processTarget options guard (hosts 0) fs target = step at hdoes ⊢
    cases hdoes with
    | nothing hidle =>
      rw [callsAt, List.filter_cons_of_neg (by simp [hidle])]
      exact ih hlater hget
    | torn _ _ _ _ htouch => simp [(hhosts 0).touch] at htouch
    | @lifts file content₀ bits₀ text lifting _ hresolve hfile hlifts =>
      simp only [hmode, if_true, liftedNode, (hhosts 0).modeAfter_eq]
      by_cases hl : file = l
      · -- Whatever path the target came by, its pass starts from the present content of the file.
        subst hl
        obtain ⟨rfl, rfl⟩ : content₀ = content ∧ bits₀ = bits := by
          simpa [hfile.get?_eq] using hget
        have hnew : (fs.set file (.file (String.ofList lifting.text).toUTF8 bits₀)).get? file =
            some (.file (String.ofList lifting.text).toUTF8 bits₀) := by
          rw [get?_set hfile.ne_nil, if_pos rfl]
        obtain ⟨content', hget', hpassed⟩ := ih hlater hnew
        rw [callsAt, List.filter_cons_of_pos (by simp [liftedOutcome, Outcome.liftedFile?])]
        exact ⟨content', hget', .pass hlifts hpassed⟩
      · have hkept : (fs.set file (.file (String.ofList lifting.text).toUTF8 bits₀)).get? l =
            some (.file content bits) := by
          rw [get?_set hfile.ne_nil, if_neg (Ne.symm hl), hget]
        rw [callsAt,
          List.filter_cons_of_neg (by simp [liftedOutcome, Outcome.liftedFile?, hl])]
        exact ih hlater hkept

end Run

/-- What a batch does to a file system and reports of it. -/
structure Effect (options : Options) (guard : Guard) (hosts : Nat → Host) (fs : FileSystem)
    (targets : List Target) (run : Run) : Prop where
  /-- The report has one entry for each target, in their order. -/
  names : run.entries.map (·.name) = targets.map (·.name)
  /-- A dry run changes nothing. -/
  check : options.mode = .check → run.fs = fs
  /-- The locations, the directories and the links stay as they are. -/
  sameShape : SameShape fs run.fs
  /-- So do the modes, where files can be looked at. -/
  sameTree : (∀ i, (hosts i).Settles) → SameTree fs run.fs
  /-- Only the files of entries that lifted calls change, where files can be touched. -/
  changed : (∀ i, (hosts i).Settles) → ∀ l, run.fs.get? l ≠ fs.get? l →
    ∃ entry ∈ run.entries, entry.outcome.liftedFile? = some l
  /-- Elsewhere, so do the files of entries that failed for no other reason than that. -/
  torn : ∀ l, run.fs.get? l ≠ fs.get? l → ∃ (i : Nat) (entry : Entry),
    run.entries[i]? = some entry ∧
      (entry.outcome.liftedFile? = some l ∨ Torn (hosts i) l entry.outcome)
  /-- A file ends as its first content after a pass for each of its entries, in their order. -/
  passed : options.mode = .apply → (∀ i, (hosts i).Settles) →
    ∀ l content bits, fs.get? l = some (.file content bits) →
      ∃ content', run.fs.get? l = some (.file content' bits) ∧
        Passed options content (callsAt l run.entries) content'
  /-- The file of an entry is the one that its target leads to, links followed. -/
  canonical : ∀ (i : Nat) (entry : Entry) (file : Location), run.entries[i]? = some entry →
    entry.outcome.liftedFile? = some file →
    ∃ target : Target, targets[i]? = some target ∧
      fs.resolve (guard.root.path.join target.path) = .ok file ∧ fs.resolve file.path = .ok file
  /-- The other entries change nothing. -/
  idle : ∀ (i : Nat) (entry : Entry), run.entries[i]? = some entry →
    entry.outcome.liftedFile? = none → (hosts i).Settles →
    fsAt options guard hosts fs targets (i + 1) = fsAt options guard hosts fs targets i

/-- A workspace with one file and a link to it. -/
def linkedWorkspace (text : String) : FileSystem :=
  ⟨[(["w"], .dir 0o755), (["w", "a.rs"], .file text.toUTF8 0o600), (["w", "b.rs"], .link "a.rs")]⟩

/-- The link and the file itself, as seen from the workspace and from the root. -/
def linkedPaths : List Path := [⟨"b.rs"⟩, ⟨"../w/a.rs"⟩, ⟨"/w/b.rs"⟩, ⟨"/w/../w/a.rs"⟩]

theorem resolve_linkedWorkspace (text : String) {p : Path} (hp : p ∈ linkedPaths) :
    Guard.resolve ⟨["w"], []⟩ (linkedWorkspace text) p = .ok ["w", "a.rs"] := by
  simp only [linkedPaths, List.mem_cons, List.not_mem_nil, or_false] at hp
  rcases hp with rfl | rfl | rfl | rfl <;>
    simp [Guard.resolve, Guard.check, isFile, node, linkedWorkspace, resolve, resolveFrom, maxLinks,
      Component.ofSegment?, segments, Path.join, Path.isAbsolute, Location.path, slashed, get?,
      List.lookup_cons, bind, Except.bind, pure, Except.pure]

theorem processTarget_linkedWorkspace {options : Options} {host : Host} {text new : String}
    {outcome : Outcome}
    (hverdict : verdict options host ["w", "a.rs"] text.toUTF8 0o600 =
      ⟨outcome, if options.mode = .apply then some (new, 0o600) else none⟩)
    (target : Target) (htarget : target.path ∈ linkedPaths) :
    (processTarget options ⟨["w"], []⟩ host (linkedWorkspace text) target).outcome = outcome ∧
      (processTarget options ⟨["w"], []⟩ host (linkedWorkspace text) target).fs =
        linkedWorkspace (if options.mode = .apply then new else text) := by
  have hstep := processTarget_eq (resolve_linkedWorkspace text htarget) rfl options host
  rw [hverdict] at hstep
  refine ⟨hstep.1, hstep.2.trans ?_⟩
  cases options.mode <;> rfl

theorem linkedWorkspace_outer (mode : Mode) (target : Target)
    (htarget : target.path ∈ linkedPaths) :
    let step := processTarget ⟨.default, .default, mode, false⟩ ⟨["w"], []⟩ .willing
      (linkedWorkspace "println!(println!(1));") target
    step.outcome = .lifted ["w", "a.rs"] [⟨0, 1, .debug, false⟩] none ∧
      step.fs = linkedWorkspace
        (if mode = .apply then "log::debug!(println!(1));" else "println!(println!(1));") :=
  processTarget_linkedWorkspace (by cases mode <;> decide +kernel) target htarget

theorem linkedWorkspace_inner (mode : Mode) (target : Target)
    (htarget : target.path ∈ linkedPaths) :
    let step := processTarget ⟨.default, .default, mode, false⟩ ⟨["w"], []⟩ .willing
      (linkedWorkspace "log::debug!(println!(1));") target
    step.outcome = .lifted ["w", "a.rs"] [⟨12, 1, .debug, false⟩] none ∧
      step.fs = linkedWorkspace
        (if mode = .apply then "log::debug!(log::debug!(1));" else "log::debug!(println!(1));") :=
  processTarget_linkedWorkspace (by cases mode <;> decide +kernel) target htarget

/-- Where the new file is not touched, its target fails, but the file is a new one. -/
example :
    let host : Host := ⟨fun request =>
      if request = .touch (Location.path ["w", "a.rs"]) then some "" else none⟩
    verdict ⟨.default, .default, .apply, false⟩ host ["w", "a.rs"] "println!(1);".toUTF8 0o600 =
      ⟨.denied ["w", "a.rs"] "", some ("log::debug!(1);", 0o600)⟩ := by
  decide +kernel

end LogLift.Batch
