import LogLift.Proofs.Batch.Effect

/-! What a batch changes lies in its workspace.  The guard compares canonical locations, and targets
lead to the same files all through a batch, so neither links nor dots in the path of a target lead
out of the workspace, or into a protected directory that is itself a link. -/

namespace LogLift.Batch

open LogLift.Document LogLift.Storage LogLift.Storage.FileSystem

/-- A directory that is protected in the workspace at `top`, which `root` leads to from `cwd`: the
canonical form of a place for build output, version control or installed dependencies. -/
inductive Protected (fs : FileSystem) (cwd : Location) (home : Option Path) (root : Path)
    (top : Location) : Location → Prop
  | workspace {base : Path} {name : String} {dir : Location} :
      base ∈ [cwd.path.join root, top.path] → name ∈ ["target", ".git"] →
      fs.resolve (base.join ⟨name⟩) = .ok dir → Protected fs cwd home root top dir
  | home {place : Path} {name : String} {dir : Location} : home = some place →
      name ∈ [".cargo/registry", ".cargo/git", ".rustup"] →
      fs.resolve (cwd.path.join (place.join ⟨name⟩)) = .ok dir →
      Protected fs cwd home root top dir

section

variable {fs : FileSystem} {cwd : Location} {home : Option Path} {root : Path} {guard : Guard}

theorem resolve_of_guard (h : Guard.of fs cwd home root = .ok guard) :
    fs.resolve (cwd.path.join root) = .ok guard.root := by
  rw [Guard.of] at h
  split at h
  · simp at h
  · rename_i top hroot
    rw [hroot, ← Except.ok.inj h]

theorem mem_forbidden_of_candidate (h : Guard.of fs cwd home root = .ok guard) {p : Path}
    {dir : Location} (hp : p ∈ Guard.candidates guard.root home)
    (hresolve : fs.resolve (cwd.path.join p) = .ok dir) : dir ∈ guard.forbidden := by
  rw [Guard.of, resolve_of_guard h] at h
  have hforbidden := congrArg Guard.forbidden (Except.ok.inj h)
  rw [← hforbidden, List.mem_filterMap]
  exact ⟨p, hp, by rw [hresolve]; rfl⟩

/-- A path below a location is absolute, wherever it is seen from. -/
theorem join_path_join (cwd top : Location) {p : Path} (hp : p.isAbsolute = false) :
    cwd.path.join (top.path.join p) = top.path.join p := by
  have habsolute : (top.path.join p).isAbsolute = true := by
    rw [Path.join, if_neg (by simp [hp])]
    split <;> simp [Path.isAbsolute, Location.path]
  rw [Path.join, if_pos habsolute]

/-- Every protected directory is among those that the guard forbids. -/
theorem Protected.mem_forbidden (h : Guard.of fs cwd home root = .ok guard) {dir : Location}
    (hdir : Protected fs cwd home root guard.root dir) : dir ∈ guard.forbidden := by
  cases hdir with
  | @workspace base name _ hbase hname hresolve =>
    have hrelative : (⟨name⟩ : Path).isAbsolute = false := by
      rcases List.mem_pair.1 hname with rfl | rfl <;> decide
    -- The guard asks below the canonical root only.
    have hcanonical : fs.resolve (guard.root.path.join ⟨name⟩) = .ok dir := by
      rcases List.mem_pair.1 hbase with rfl | rfl
      · exact resolve_join_of_resolve (resolve_of_guard h) hrelative hresolve
      · exact hresolve
    refine mem_forbidden_of_candidate h (List.mem_append_left _ ?_)
      ((join_path_join cwd guard.root hrelative).symm ▸ hcanonical)
    exact List.mem_map.2 ⟨⟨name⟩, by simpa using hname, rfl⟩
  | @home place name _ hhome hname hresolve =>
    subst hhome
    refine mem_forbidden_of_candidate h (List.mem_append_right _ ?_) hresolve
    exact List.mem_map.2 ⟨⟨name⟩, by simpa using hname, rfl⟩

/-- Wherever the paths of the targets go and whatever the hosts refuse, the files that a batch
changes are in the workspace, and in none of the directories that are protected there. -/
theorem process_confined (h : Guard.of fs cwd home root = .ok guard) (options : Options)
    (hosts : Nat → Host) (targets : List Target) {l : Location}
    (hchanged : (process options guard hosts fs targets).fs.get? l ≠ fs.get? l) :
    ∃ top, fs.resolve (cwd.path.join root) = .ok top ∧ fs.resolve l.path = .ok l ∧ top <+: l ∧
      ∀ dir, Protected fs cwd home root top dir → ¬dir <+: l := by
  obtain ⟨_, _, _, _, _, hresolve, _⟩ := exists_target_of_changed hchanged
  have hadmits := Guard.admits_of_resolve hresolve
  obtain ⟨content, bits, hfile⟩ := hadmits.canonical
  refine ⟨guard.root, resolve_of_guard h, hfile.resolve_path, hadmits.inside, fun dir hdir => ?_⟩
  exact hadmits.allowed dir (hdir.mem_forbidden h)

end

/-- The workspace at `w`, which the link `r` leads to.  Its build output is a link to `w/out`. -/
def guardedWorkspace : FileSystem :=
  ⟨[(["w"], .dir 0o755), (["w", "a.rs"], .file "println!(1);".toUTF8 0o644),
    (["w", "out"], .dir 0o755), (["w", "target"], .link "out"), (["r"], .link "w"),
    (["h"], .dir 0o755), (["h", ".rustup"], .dir 0o755)]⟩

/-- A path with dots and a link leads to a file of the workspace, which is changed.  The workspace
and the home directory are given as seen from the home directory. -/
theorem process_confined_linked :
    let guard : Guard := ⟨["w"], [["w", "out"], ["h", ".rustup"]]⟩
    let run := process ⟨.default, .default, .apply, false⟩ guard (fun _ => .willing)
      guardedWorkspace [⟨"a", ⟨"out/../../r/a.rs"⟩⟩]
    Guard.of guardedWorkspace ["h"] (some ⟨"."⟩) ⟨"../r"⟩ = .ok guard ∧
    run.fs.get? ["w", "a.rs"] = some (.file "log::debug!(1);".toUTF8 0o644) ∧
    ∃ top, guardedWorkspace.resolve ((Location.path ["h"]).join ⟨"../r"⟩) = .ok top ∧
      guardedWorkspace.resolve (Location.path ["w", "a.rs"]) = .ok ["w", "a.rs"] ∧
      top <+: ["w", "a.rs"] ∧
      ∀ dir, Protected guardedWorkspace ["h"] (some ⟨"."⟩) ⟨"../r"⟩ top dir →
        ¬dir <+: ["w", "a.rs"] := by
  intro guard run
  have hguard : Guard.of guardedWorkspace ["h"] (some ⟨"."⟩) ⟨"../r"⟩ = .ok guard := by
    simp [guard, Guard.of, Guard.candidates, guardedWorkspace, resolve, resolveFrom, maxLinks,
      Component.ofSegment?, segments, Path.join, Path.isAbsolute, Location.path, slashed, get?,
      List.lookup_cons, Except.toOption]
  let target : Target := ⟨"a", ⟨"out/../../r/a.rs"⟩⟩
  have hresolve : guard.resolve guardedWorkspace target.path = .ok ["w", "a.rs"] := by
    simp [guard, target, Guard.resolve, Guard.check, isFile, node, guardedWorkspace, resolve,
      resolveFrom, maxLinks, Component.ofSegment?, segments, Path.join, Path.isAbsolute,
      Location.path, slashed, get?, List.lookup_cons, bind, Except.bind, pure, Except.pure]
  have hverdict : (verdict ⟨.default, .default, .apply, false⟩ .willing ["w", "a.rs"]
      "println!(1);".toUTF8 0o644).file? = some ("log::debug!(1);", 0o644) := by
    decide +kernel
  have hget : run.fs.get? ["w", "a.rs"] = some (.file "log::debug!(1);".toUTF8 0o644) := by
    obtain ⟨_, hfs⟩ :=
      processTarget_eq hresolve rfl ⟨.default, .default, .apply, false⟩ .willing
    rw [hverdict] at hfs
    simp only [run, process]
    rw [hfs]
    rfl
  refine ⟨hguard, hget, process_confined hguard ⟨.default, .default, .apply, false⟩
    (fun _ => .willing) [target] ?_⟩
  show run.fs.get? _ ≠ _
  rw [hget]
  intro hsame
  have hbytes := (Node.file.inj (Option.some.inj hsame)).1
  revert hbytes
  decide +kernel

end LogLift.Batch
