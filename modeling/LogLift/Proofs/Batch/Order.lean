import Mathlib.Data.List.Perm.Basic
import LogLift.Proofs.Batch.DryRun

/-! The order of targets.  Targets lead to the same files all through a batch, so a batch is one
pass over a file for each target that leads to one.  On a host that answers every target alike,
passes over different files touch different nodes, and passes over one file all do the same to it;
so the file system at the end is the same in every order of the targets.  Where no two targets lead
to one file, so are their outcomes. -/

namespace LogLift.Storage.FileSystem

variable {l l' : Location}

/-- Two nodes that stand in a list are replaced in either order. -/
theorem setNode_comm (hne : l ≠ l') {nodes : List (Location × Node)}
    (h : nodes.lookup l ≠ none) (h' : nodes.lookup l' ≠ none) (node node' : Node) :
    setNode l' node' (setNode l node nodes) = setNode l node (setNode l' node' nodes) := by
  induction nodes with
  | nil => exact absurd rfl h
  | cons entry rest ih =>
    obtain ⟨k, n⟩ := entry
    by_cases hk : k = l
    · subst hk
      simp [setNode, hne]
    · by_cases hk' : k = l'
      · subst hk'
        simp [setNode, hk]
      · have hb : (l == k) = false := by simpa using Ne.symm hk
        have hb' : (l' == k) = false := by simpa using Ne.symm hk'
        rw [List.lookup_cons, hb] at h
        rw [List.lookup_cons, hb'] at h'
        simp [setNode, hk, hk', ih h h']

theorem set_comm {fs : FileSystem} (hne : l ≠ l') (hl : l ≠ []) (hl' : l' ≠ [])
    (h : fs.get? l ≠ none) (h' : fs.get? l' ≠ none) (node node' : Node) :
    (fs.set l node).set l' node' = (fs.set l' node').set l node := by
  rw [get?, if_neg hl] at h
  rw [get?, if_neg hl'] at h'
  exact congrArg FileSystem.mk (setNode_comm hne h h' node node')

end LogLift.Storage.FileSystem

namespace LogLift.Batch

open LogLift.Document LogLift.Storage LogLift.Storage.FileSystem

/-! ### Passes over files -/

/-- The text and the mode of what takes the place of the node at `file`, if anything does. -/
def revised? (options : Options) (host : Host) (file : Location) :
    Option Node → Option (String × Nat)
  | some (.file content bits) => (verdict options host file content bits).file?
  | _ => none

/-- The file system after a pass over the file at `file`. -/
def passOver (options : Options) (host : Host) (fs : FileSystem) (file : Location) : FileSystem :=
  put fs file (revised? options host file (fs.get? file))

section Pass

variable {options : Options} {host : Host} {fs : FileSystem} {file other : Location}

/-- Only a file is revised, and so never the root. -/
theorem ne_of_revised? {revised : String × Nat}
    (h : revised? options host file (fs.get? file) = some revised) :
    file ≠ [] ∧ fs.get? file ≠ none := by
  constructor
  · rintro rfl
    simp [get?, revised?] at h
  · intro hnone
    simp [hnone, revised?] at h

theorem get?_passOver (hne : other ≠ file) :
    (passOver options host fs file).get? other = fs.get? other := by
  unfold passOver
  cases hrevised : revised? options host file (fs.get? file) with
  | none => rfl
  | some revised => rw [put, get?_set (ne_of_revised? hrevised).1, if_neg hne]

/-- Passes over two files can be made in either order. -/
theorem passOver_comm (options : Options) (host : Host) (fs : FileSystem)
    (file other : Location) :
    passOver options host (passOver options host fs file) other =
      passOver options host (passOver options host fs other) file := by
  by_cases hne : file = other
  · rw [hne]
  · -- Neither pass changes what the other one finds.
    have hother : passOver options host (passOver options host fs file) other =
        put (passOver options host fs file) other
          (revised? options host other (fs.get? other)) := by
      rw [passOver, get?_passOver (Ne.symm hne)]
    have hfile : passOver options host (passOver options host fs other) file =
        put (passOver options host fs other) file
          (revised? options host file (fs.get? file)) := by
      rw [passOver, get?_passOver hne]
    rw [hother, hfile, passOver, passOver]
    cases hfile : revised? options host file (fs.get? file) with
    | none => rfl
    | some revised =>
      cases hother : revised? options host other (fs.get? other) with
      | none => rfl
      | some revised' =>
        obtain ⟨hl, hget⟩ := ne_of_revised? hfile
        obtain ⟨hl', hget'⟩ := ne_of_revised? hother
        exact set_comm hne hl hl' hget hget' _ _

instance (options : Options) (host : Host) : RightCommutative (passOver options host) :=
  ⟨passOver_comm options host⟩

theorem processTarget_fs_of_ok {guard : Guard} {target : Target}
    (h : guard.resolve fs target.path = .ok file) :
    (processTarget options guard host fs target).fs = passOver options host fs file := by
  obtain ⟨content, bits, hfile⟩ := (Guard.admits_of_resolve h).canonical
  rw [(processTarget_eq h hfile.get?_eq options host).2, passOver, hfile.get?_eq, revised?]

theorem processTarget_fs_of_error {guard : Guard} {target : Target} {error : GuardError}
    (h : guard.resolve fs target.path = .error error) :
    (processTarget options guard host fs target).fs = fs := by
  rw [processTarget, h]
  cases error <;> rfl

end Pass

/-! ### All targets -/

/-- The files that targets lead to, in the order of the targets.  A target that the guard does not
let through leads to none. -/
def files (guard : Guard) (fs : FileSystem) (targets : List Target) : List Location :=
  targets.filterMap fun target => (guard.resolve fs target.path).toOption

section Run

variable {options : Options} {guard : Guard} {fs fs' : FileSystem} {targets targets' : List Target}

theorem files_congr (h : SameShape fs fs') (guard : Guard) (targets : List Target) :
    files guard fs targets = files guard fs' targets := by
  simp only [files, guard.resolve_congr h]

theorem files_cons_of_ok {file : Location} {target : Target}
    (h : guard.resolve fs target.path = .ok file) :
    files guard fs (target :: targets) = file :: files guard fs targets := by
  simp [files, h, Except.toOption]

theorem files_cons_of_error {error : GuardError} {target : Target}
    (h : guard.resolve fs target.path = .error error) :
    files guard fs (target :: targets) = files guard fs targets := by
  simp [files, h, Except.toOption]

theorem mem_files {file : Location} {target : Target} (hmem : target ∈ targets)
    (h : guard.resolve fs target.path = .ok file) : file ∈ files guard fs targets :=
  List.mem_filterMap.2 ⟨target, hmem, by rw [h]; rfl⟩

/-- A batch on a host that stays as it is makes one pass for each target that leads to a file.  The
files are those that the targets lead to at the start. -/
theorem process_fs_eq_foldl (options : Options) (guard : Guard) (host : Host) (fs : FileSystem)
    (targets : List Target) :
    (process options guard (fun _ => host) fs targets).fs =
      (files guard fs targets).foldl (passOver options host) fs := by
  induction targets generalizing fs with
  | nil => rfl
  | cons target rest ih =>
    have hsame := (processTarget_does options guard host fs target).sameShape
    rw [process, ih, ← files_congr hsame]
    cases hresolve : guard.resolve fs target.path with
    | error error => rw [processTarget_fs_of_error hresolve, files_cons_of_error hresolve]
    | ok file => rw [processTarget_fs_of_ok hresolve, files_cons_of_ok hresolve, List.foldl_cons]

theorem process_fs_perm (h : targets.Perm targets') (options : Options) (guard : Guard)
    (host : Host) (fs : FileSystem) :
    (process options guard (fun _ => host) fs targets).fs =
      (process options guard (fun _ => host) fs targets').fs := by
  rw [process_fs_eq_foldl, process_fs_eq_foldl]
  exact (h.filterMap _).foldl_eq fs

theorem fresh_of_nodup (h : (files guard fs targets).Nodup) (i : Nat) :
    Fresh guard fs targets i := by
  intro target file htarget hfile earlier hmem hearlier
  have hsplit : targets = targets.take i ++ target :: targets.drop (i + 1) := by
    obtain ⟨hi, rfl⟩ := List.getElem?_eq_some_iff.1 htarget
    rw [← List.drop_eq_getElem_cons hi, List.take_append_drop]
  rw [hsplit, files, List.filterMap_append] at h
  exact (List.nodup_append.1 h).2.2 file (mem_files hmem hearlier) file
    (mem_files List.mem_cons_self hfile) rfl

/-- Where no two targets lead to one file, each is dealt with as if it stood alone. -/
theorem entries_of_nodup (h : (files guard fs targets).Nodup) (options : Options) (host : Host) :
    (process options guard (fun _ => host) fs targets).entries =
      targets.map fun target =>
        ⟨target.name, (processTarget options guard host fs target).outcome⟩ := by
  apply List.ext_getElem?
  intro i
  rw [List.getElem?_map]
  exact entry_of_fresh (fresh_of_nodup h i) options _

end Run

/-! ### Reports -/

theorem Report.counts_perm {report report' : Report} (h : report.entries.Perm report'.entries) :
    report.total = report'.total ∧ report.failures = report'.failures ∧
      report.skipped = report'.skipped := by
  have hcomm : LeftCommutative fun (entry : Entry) n => entry.outcome.replacements + n :=
    ⟨fun _ _ _ => Nat.add_left_comm ..⟩
  exact ⟨h.foldr_eq 0, h.countP_eq _, h.countP_eq _⟩

/-- A path to nothing in the workspace with the link. -/
theorem resolve_linkedWorkspace_missing (text : String) :
    Guard.resolve ⟨["w"], []⟩ (linkedWorkspace text) ⟨"c.rs"⟩ =
      .error (.missingSource ⟨"/w/c.rs"⟩) := by
  simp [Guard.resolve, isFile, node, linkedWorkspace, resolve, resolveFrom, maxLinks,
    Component.ofSegment?, segments, Path.join, Path.isAbsolute, Location.path, slashed, get?,
    List.lookup_cons, bind, Except.bind]

end LogLift.Batch
