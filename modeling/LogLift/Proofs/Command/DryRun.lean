import LogLift.Command.Run
import LogLift.Proofs.Batch.DryRun

/-! The commands that check and that write.  Both prepare one batch: what they do to the file
system and the code they exit with are those of that batch, in the mode of the command.  So what a
dry run of a batch tells of the real run, the command that checks tells of the command that
writes. -/

namespace LogLift.Command

open LogLift.Batch LogLift.Document LogLift.Storage LogLift.Storage.FileSystem

/-! ### Parts of commands -/

/-- Whatever was printed before, the part of a command ends with `a`. -/
def Yields {α : Type} (x : Session α) (a : α) : Prop := ∀ t, ∃ t', x.run t = (.ok a, t')

theorem run_bind {α β : Type} (x : Session α) (f : α → Session β) (t : Transcript) :
    (x >>= f).run t =
      match x.run t with
      | (.ok a, t') => (f a).run t'
      | (.error problem, t') => (.error problem, t') := by
  show (match x.run t with | (result, t') => ExceptT.bindCont f result t') = _
  rcases x.run t with ⟨problem | a, t'⟩ <;> rfl

theorem Yields.bind {α β : Type} {x : Session α} {f : α → Session β} {a : α} {b : β}
    (hx : Yields x a) (hf : Yields (f a) b) : Yields (x >>= f) b := by
  intro t
  obtain ⟨t', ht'⟩ := hx t
  rw [run_bind, ht']
  exact hf t'

theorem yields_pure {α : Type} (a : α) : Yields (pure a) a := fun t => ⟨t, rfl⟩

theorem yields_printLine (line : String) : Yields (printLine line) () := fun _ => ⟨_, rfl⟩

theorem yields_warnLines (lines : List String) : Yields (lines.forM warnLine) () := by
  induction lines with
  | nil => exact yields_pure ()
  | cons line lines ih => exact Yields.bind (fun _ => ⟨_, rfl⟩) ih

theorem yields_announce (s : Surroundings) (i : Invocation) (mode : Mode) (workspace : Location) :
    Yields (announce s i mode workspace) () := by
  rw [announce]
  split
  · exact yields_pure ()
  · refine (yields_printLine _).bind ?_
    split
    · exact (yields_printLine _).bind (yields_printLine _)
    · exact yields_printLine _

theorem yields_tell (s : Surroundings) (i : Invocation) (run : Run) : Yields (tell s i run) () := by
  have hreport : Yields (if i.given.json then printLine ((reportJson run.report).render 0)
      else modify (printReport s.colour run.report)) () := by
    split
    · exact yields_printLine _
    · exact fun _ => ⟨_, rfl⟩
  simp only [tell]
  split
  · exact (yields_warnLines _).bind hreport
  · exact hreport

/-! ### The batch of a command -/

section Commands

variable {s : Surroundings} {i : Invocation} {plan : Plan} {problem : Problem} {t t' : Transcript}

/-- A command lifts the targets of the plan that was prepared. -/
theorem liftTargets_of_plan (h : (prepare s i.given).run t = (.ok plan, t')) (mode : Mode)
    (gate : Bool) :
    let run := process (plan.options.inMode mode) plan.guard s.hosts s.fs plan.targets
    ∃ t'', (liftTargets s i mode gate).run t =
      (.ok (run.fs, exitCode gate run.report), t'') := by
  intro run
  obtain ⟨announced, hannounce⟩ := yields_announce s i mode plan.workspace t'
  obtain ⟨told, htell⟩ := yields_tell s i (plan.run s mode) announced
  unfold liftTargets
  simp only [run_bind, h, hannounce, htell]
  exact ⟨told, rfl⟩

/-- Where nothing can be prepared, the problem ends the command. -/
theorem liftTargets_of_problem (h : (prepare s i.given).run t = (.error problem, t')) (mode : Mode)
    (gate : Bool) : (liftTargets s i mode gate).run t = (.error problem, t') := by
  unfold liftTargets
  simp only [run_bind, h]

theorem exitCode_eq_zero_iff {gate : Bool} {report : Report} :
    exitCode gate report = 0 ↔ report.failures = 0 ∧ (gate = true → report.total = 0) := by
  cases gate <;> simp [exitCode]

/-- What the command that checks and the command that writes do with the same arguments. -/
structure Agree (s : Surroundings) (i : Invocation) : Prop where
  /-- The one makes a dry run of the batch that is prepared. -/
  check : ∀ plan t t', (prepare s i.given).run t = (.ok plan, t') →
    let run := process (plan.options.inMode .check) plan.guard s.hosts s.fs plan.targets
    ∃ t'', (perform s { i with verb := .check }).run t =
      (.ok (run.fs, exitCode true run.report), t'')
  /-- The other one makes the real run of that batch, unless it is told to make none. -/
  apply : ∀ plan t t', (prepare s i.given).run t = (.ok plan, t') →
    let mode := if i.given.dryRun then Mode.check else Mode.apply
    let run := process (plan.options.inMode mode) plan.guard s.hosts s.fs plan.targets
    ∃ t'', (perform s { i with verb := .apply }).run t =
      (.ok (run.fs, exitCode false run.report), t'')
  /-- Where no batch can be prepared, both end with the same problem. -/
  stop : ∀ problem t t', (prepare s i.given).run t = (.error problem, t') →
    (perform s { i with verb := .check }).run t = (.error problem, t') ∧
      (perform s { i with verb := .apply }).run t = (.error problem, t')
  /-- After a check that exits with zero, the command that writes leaves all as it is, and exits
  with zero too. -/
  quiet : ∀ fs t t', (perform s { i with verb := .check }).run t = (.ok (fs, 0), t') →
    fs = s.fs ∧ ∃ t'', (perform s { i with verb := .apply }).run t = (.ok (s.fs, 0), t'')

theorem perform_quiet {fs : FileSystem}
    (h : (perform s { i with verb := .check }).run t = (.ok (fs, 0), t')) :
    fs = s.fs ∧ ∃ t'', (perform s { i with verb := .apply }).run t = (.ok (s.fs, 0), t'') := by
  have hcheck : (liftTargets s i .check true).run t = (.ok (fs, 0), t') := h
  cases hprepare : (prepare s i.given).run t with
  | mk result t₁ =>
    cases result with
    | error problem =>
      rw [liftTargets_of_problem hprepare] at hcheck
      cases hcheck
    | ok plan =>
      obtain ⟨_, hlook⟩ := liftTargets_of_plan hprepare .check true
      obtain ⟨hfs, hexit⟩ :=
        Prod.mk.inj (Except.ok.inj (Prod.mk.inj (hlook.symm.trans hcheck)).1)
      obtain ⟨hfailures, htotal⟩ := exitCode_eq_zero_iff.1 hexit
      obtain ⟨hreport, hkept⟩ := process_of_total_eq_zero
        (if i.given.dryRun then .check else .apply) (htotal rfl)
      obtain ⟨t'', hact⟩ :=
        liftTargets_of_plan hprepare (if i.given.dryRun then .check else .apply) false
      rw [hkept, hreport, exitCode_eq_zero_iff.2 ⟨hfailures, by simp⟩] at hact
      rw [process_fs_of_check rfl] at hfs
      exact ⟨hfs.symm, t'', hact⟩

theorem agree (s : Surroundings) (i : Invocation) : Agree s i where
  check _ _ _ hprepare := liftTargets_of_plan hprepare .check true
  apply _ _ _ hprepare :=
    liftTargets_of_plan hprepare (if i.given.dryRun then .check else .apply) false
  stop _ _ _ hprepare :=
    ⟨liftTargets_of_problem hprepare _ _, liftTargets_of_problem hprepare _ _⟩
  quiet _ _ _ h := perform_quiet h

end Commands

/-- A dry run gives the entry of the real run for every target whose file no earlier target leads
to, as long as the host grants what writing needs; the texts of an entry are what the file held
before it and holds right after it.  Where a dry run finds no calls, the real run reports the same
and writes nothing.  The commands run these batches; so a check that exits with zero tells that the
command that writes will change nothing and exit with zero too. -/
theorem check_predicts_apply (options : Options) (guard : Guard) (hosts : Nat → Host)
    (fs : FileSystem) (targets : List Target) :
    let check := process (options.inMode .check) guard hosts fs targets
    let apply := process (options.inMode .apply) guard hosts fs targets
    (∀ i, Fresh guard fs targets i → (hosts i).GrantsWrites →
      check.entries[i]? = apply.entries[i]?) ∧
    (∀ i, Fresh guard fs targets i → check.entries[i]? = apply.entries[i]? ∨
      ∃ name outcome outcome', check.entries[i]? = some ⟨name, outcome⟩ ∧
        apply.entries[i]? = some ⟨name, outcome'⟩ ∧ Hindered (hosts i) outcome outcome') ∧
    (∀ (i : Nat) name file calls texts,
      apply.entries[i]? = some ⟨name, .lifted file calls texts⟩ →
      ∃ before after bits bits',
        texts = (if options.keepTexts then some (before, after) else none) ∧
        (fsAt (options.inMode .apply) guard hosts fs targets i).get? file =
          some (.file before.toUTF8 bits) ∧
        (fsAt (options.inMode .apply) guard hosts fs targets (i + 1)).get? file =
          some (.file after.toUTF8 bits')) ∧
    (exitCode true check.report = 0 ↔ check.report.total = 0 ∧ check.report.failures = 0) ∧
    (check.report.total = 0 → apply.report = check.report ∧ apply.fs = fs) ∧
    ∀ (s : Surroundings) (i : Invocation), Agree s i := by
  intro check apply
  refine ⟨fun i hfresh hhost => entry_eq_of_fresh hfresh options hhost,
    fun i hfresh => entries_of_fresh hfresh options hosts,
    fun i name file calls texts hentry => texts_of_lifted rfl hentry, ?_,
    process_of_total_eq_zero .apply, agree⟩
  rw [exitCode_eq_zero_iff, and_comm]
  simp

/-- The workspace with one file and a link to it, as the current directory. -/
def linkedSurroundings (text : String) : Surroundings where
  fs := linkedWorkspace text
  hosts := fun _ => .willing
  cwd := ["w"]
  home := none
  workspaceVariable := none
  colour := false
  logging := false

/-- The link and the file are given, and no configuration. -/
def linkedInvocation (verb : Verb) : Invocation :=
  ⟨verb, { files := ["b.rs", "../w/a.rs"], workspace := some "/w" }, 0⟩

def linkedTargets : List Target := [⟨"b.rs", ⟨"/w/b.rs"⟩⟩, ⟨"../w/a.rs", ⟨"/w/../w/a.rs"⟩⟩]

theorem prepare_linked (verb : Verb) (text : String) (t : Transcript) :
    (prepare (linkedSurroundings text) (linkedInvocation verb).given).run t =
      (.ok ⟨["w"], ⟨["w"], []⟩, ⟨.default, .default, .check, false⟩, linkedTargets⟩, t) := by
  have hworkspace : (linkedSurroundings text).resolve ⟨"/w"⟩ = .ok ["w"] := by
    simp [Surroundings.resolve, linkedSurroundings, linkedWorkspace, resolve, resolveFrom,
      maxLinks, Component.ofSegment?, segments, Path.join, Path.isAbsolute, get?]
  have hconfig : Config.discover (linkedWorkspace text) (Location.path ["w"])
      (some (Location.path ["w"])) = .error (.noFile [⟨"/w/log-rewriter.toml"⟩]) := by
    have hcandidates : Config.candidates (Location.path ["w"]) (some (Location.path ["w"])) =
        [⟨"/w/log-rewriter.toml"⟩] := by decide +kernel
    rw [Config.discover, hcandidates]
    simp [isFile, node, linkedWorkspace, resolve, resolveFrom, maxLinks, Component.ofSegment?,
      segments, get?, List.lookup_cons, bind, Except.bind]
  have hguard : Guard.of (linkedWorkspace text) ["w"] none (Location.path ["w"]) =
      .ok ⟨["w"], []⟩ := by
    simp [Guard.of, Guard.candidates, linkedWorkspace, resolve, resolveFrom, maxLinks,
      Component.ofSegment?, segments, Path.join, Path.isAbsolute, Location.path, slashed, get?,
      List.lookup_cons, Except.toOption]
  have hfound : (findWorkspace (linkedSurroundings text) (some "/w")).run t = (.ok ["w"], t) := by
    rw [findWorkspace, hworkspace]
    rfl
  have hloaded : (loadConfig (linkedSurroundings text) ["w"] (linkedInvocation verb).given).run t =
      (.ok (.forFiles ["b.rs", "../w/a.rs"]), t) := by
    have hfile : (findConfig (linkedSurroundings text) ["w"] (linkedInvocation verb).given).run t =
        (.ok none, t) := by
      unfold findConfig
      simp only [linkedInvocation, linkedSurroundings, hconfig]
      rfl
    unfold loadConfig
    rw [run_bind, hfile]
    have hissues : (Config.forFiles ["b.rs", "../w/a.rs"]).issues.isEmpty = true := by
      decide +kernel
    simp only [linkedInvocation, loadConfig.checked, hissues]
    rfl
  have hrules : (rulesOf (.forFiles ["b.rs", "../w/a.rs"])).run t = (.ok .default, t) := rfl
  have hguarded : (guardOf (linkedSurroundings text) ["w"]).run t = (.ok ⟨["w"], []⟩, t) := by
    unfold guardOf
    simp only [linkedSurroundings, hguard]
    rfl
  have htargets : ∀ fs cwd, (Config.forFiles ["b.rs", "../w/a.rs"]).allTargets fs
      (Location.path ["w"]) cwd = linkedTargets := by
    intro fs cwd
    have hfirst : Config.firstOfEach [] (["b.rs", "../w/a.rs"].map
        (Config.fileTarget (Location.path ["w"]))) = linkedTargets := by decide +kernel
    rw [← hfirst, Config.allTargets]
    rfl
  unfold prepare
  simp only [run_bind, linkedInvocation] at hloaded ⊢
  rw [hfound]
  simp only [hloaded, hrules, hguarded, htargets]
  rfl

/-- There are no calls left to lift. -/
theorem linkedWorkspace_lifted (target : Target) (htarget : target.path ∈ linkedPaths) :
    let step := processTarget ⟨.default, .default, .check, false⟩ ⟨["w"], []⟩ .willing
      (linkedWorkspace "log::debug!(log::debug!(1));") target
    step.outcome = .unchanged ["w", "a.rs"] ∧
      step.fs = linkedWorkspace "log::debug!(log::debug!(1));" := by
  have hverdict : verdict ⟨.default, .default, .check, false⟩ .willing ["w", "a.rs"]
      "log::debug!(log::debug!(1));".toUTF8 0o600 = ⟨.unchanged ["w", "a.rs"], none⟩ := by
    decide +kernel
  have hstep := processTarget_eq
    (resolve_linkedWorkspace "log::debug!(log::debug!(1));" htarget) rfl
    ⟨.default, .default, .check, false⟩ .willing
  rw [hverdict] at hstep
  exact hstep

/-- What a command does with the link and the file. -/
def performLinked (verb : Verb) (text : String) : Except Problem (FileSystem × Nat) × Transcript :=
  (perform (linkedSurroundings text) (linkedInvocation verb)).run {}

/-- Two targets lead to one file.  The dry run predicts what becomes of the first.  It finds the
first text for the second target too, where the real run finds what the first has left.  The
commands exit with the codes of these runs, and once all calls are lifted with zero. -/
theorem check_predicts_apply_linked :
    let fs := linkedWorkspace "println!(println!(1));"
    let options : Options := ⟨.default, .default, .check, false⟩
    let check := process (options.inMode .check) ⟨["w"], []⟩ (fun _ => .willing) fs linkedTargets
    let apply := process (options.inMode .apply) ⟨["w"], []⟩ (fun _ => .willing) fs linkedTargets
    let lifted := "log::debug!(log::debug!(1));"
    (Fresh ⟨["w"], []⟩ fs linkedTargets 0 ∧ check.entries[0]? = apply.entries[0]?) ∧
    (¬Fresh ⟨["w"], []⟩ fs linkedTargets 1 ∧ check.entries[1]? ≠ apply.entries[1]?) ∧
    (∃ t, performLinked .check "println!(println!(1));" = (.ok (fs, 1), t)) ∧
    (∃ t, performLinked .apply "println!(println!(1));" = (.ok (linkedWorkspace lifted, 0), t)) ∧
    (∃ t, performLinked .check lifted = (.ok (linkedWorkspace lifted, 0), t)) ∧
    ∃ t, performLinked .apply lifted = (.ok (linkedWorkspace lifted, 0), t) := by
  intro fs options check apply lifted
  have hagree := fun text verb => (check_predicts_apply options ⟨["w"], []⟩ (fun _ => .willing) fs
    linkedTargets).2.2.2.2.2 (linkedSurroundings text) (linkedInvocation verb)
  have hlink : (⟨"/w/b.rs"⟩ : Path) ∈ linkedPaths := by simp [linkedPaths]
  have hfile : (⟨"/w/../w/a.rs"⟩ : Path) ∈ linkedPaths := by simp [linkedPaths]
  have houter := fun mode name => linkedWorkspace_outer mode ⟨name, ⟨"/w/b.rs"⟩⟩ hlink
  have houter' := fun mode name => linkedWorkspace_outer mode ⟨name, ⟨"/w/../w/a.rs"⟩⟩ hfile
  have hinner := fun mode name => linkedWorkspace_inner mode ⟨name, ⟨"/w/../w/a.rs"⟩⟩ hfile
  -- both batches, target by target
  have hcheck : check.entries = [⟨"b.rs", .lifted ["w", "a.rs"] [⟨0, 1, .debug, false⟩] none⟩,
      ⟨"../w/a.rs", .lifted ["w", "a.rs"] [⟨0, 1, .debug, false⟩] none⟩] := by
    simp [check, fs, options, Options.inMode, process, linkedTargets, houter, houter']
  have happly : apply.entries = [⟨"b.rs", .lifted ["w", "a.rs"] [⟨0, 1, .debug, false⟩] none⟩,
      ⟨"../w/a.rs", .lifted ["w", "a.rs"] [⟨12, 1, .debug, false⟩] none⟩] := by
    simp [apply, fs, options, Options.inMode, process, linkedTargets, houter, hinner]
  have hleft : apply.fs = linkedWorkspace lifted := by
    simp [apply, fs, options, Options.inMode, process, linkedTargets, houter, hinner, lifted]
  have hfresh : Fresh ⟨["w"], []⟩ fs linkedTargets 0 := by simp [Fresh]
  have hnot : ¬Fresh ⟨["w"], []⟩ fs linkedTargets 1 := by
    intro h
    exact h ⟨"../w/a.rs", ⟨"/w/../w/a.rs"⟩⟩ ["w", "a.rs"] rfl (resolve_linkedWorkspace _ hfile)
      ⟨"b.rs", ⟨"/w/b.rs"⟩⟩ (by simp [linkedTargets]) (resolve_linkedWorkspace _ hlink)
  have hexit : exitCode true check.report = 1 := by
    rw [Run.report, hcheck]
    rfl
  have hexit' : exitCode false apply.report = 0 := by
    rw [Run.report, happly]
    rfl
  have hlook : ∃ t, performLinked .check "println!(println!(1));" = (.ok (fs, 1), t) := by
    obtain ⟨t, ht⟩ := (hagree "println!(println!(1));" .check).check _ {} {} (prepare_linked ..)
    refine ⟨t, ht.trans ?_⟩
    show (Except.ok (check.fs, exitCode true check.report), t) = _
    rw [hexit, process_fs_of_check rfl]
  have hact : ∃ t, performLinked .apply "println!(println!(1));" =
      (.ok (linkedWorkspace lifted, 0), t) := by
    obtain ⟨t, ht⟩ := (hagree "println!(println!(1));" .apply).apply _ {} {} (prepare_linked ..)
    refine ⟨t, ht.trans ?_⟩
    show (Except.ok (apply.fs, exitCode false apply.report), t) = _
    rw [hexit', hleft]
  -- a second check finds nothing, so that the command that writes need not be run to know
  have hagain : ∃ t, performLinked .check lifted = (.ok (linkedWorkspace lifted, 0), t) := by
    obtain ⟨t, ht⟩ := (hagree lifted .check).check _ {} {} (prepare_linked ..)
    refine ⟨t, ht.trans ?_⟩
    have hlifted := fun name => linkedWorkspace_lifted ⟨name, ⟨"/w/b.rs"⟩⟩ hlink
    have hlifted' := fun name => linkedWorkspace_lifted ⟨name, ⟨"/w/../w/a.rs"⟩⟩ hfile
    simp [linkedSurroundings, lifted, Options.inMode, process, linkedTargets, hlifted, hlifted',
      Run.report, exitCode, Report.total, Report.failures, Outcome.replacements, Outcome.calls,
      Outcome.isFailure]
  obtain ⟨t, ht⟩ := hagain
  exact ⟨⟨hfresh, (check_predicts_apply options ⟨["w"], []⟩ (fun _ => .willing) fs
      linkedTargets).1 0 hfresh fun _ _ => rfl⟩,
    ⟨hnot, by simp [hcheck, happly]⟩, hlook, hact, ⟨t, ht⟩,
    ((hagree lifted .check).quiet _ {} t ht).2⟩

end LogLift.Command
