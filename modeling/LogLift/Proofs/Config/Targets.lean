import Mathlib.Data.List.Forall2
import Mathlib.Data.List.Induction
import LogLift.Config.Targets
import LogLift.Proofs.Storage.Walk

/-! The list of targets: the files of the configuration as they are listed, then the sources of its
directories, the first target of each path kept.  `KeepsFirst` says which targets those are by
going through the list from its front, and `SourcesBelow` says what an entry for a directory stands
for without the walk that finds it. -/

namespace LogLift.Storage

/-! ### The order of paths -/

instance : Std.TransCmp Component.order :=
  inferInstanceAs (Std.TransCmp (compareLex (compareOn Component.rank) (compareOn Component.text)))

namespace Path

theorem le_trans (a b c : Path) (hab : a.le b = true) (hbc : b.le c = true) : a.le c = true :=
  Std.TransCmp.isLE_trans hab hbc

theorem le_total (a b : Path) : (a.le b || b.le a) = true := by
  have hswap : List.compareLex Component.order b.components a.components =
      (List.compareLex Component.order a.components b.components).swap :=
    Std.OrientedCmp.eq_swap
  rw [Path.le, Path.le, hswap]
  cases List.compareLex Component.order a.components b.components <;> rfl

theorem pairwise_le_mergeSort (ps : List Path) :
    (ps.mergeSort Path.le).Pairwise fun a b => a.le b = true :=
  List.pairwise_mergeSort le_trans le_total ps

/-! ### Absolute paths and the names of sources -/

theorem isAbsolute_join {base : Path} (h : base.isAbsolute = true) (p : Path) :
    (base.join p).isAbsolute = true := by
  have hhead : base.text.toList.head? = some '/' := by simpa [isAbsolute] using h
  rw [join]
  split
  · assumption
  · split <;> simp [isAbsolute, List.head?_append, hhead]

/-- The last name of the path ends in `.rs`, with something in front of it. -/
def NamesSource (p : Path) : Prop :=
  ∃ stem ≠ [], p.components.getLast? = some (.name (String.ofList (stem ++ ['.', 'r', 's'])))

theorem namesSource_of_extension? {p : Path} (h : p.extension? = some "rs") : p.NamesSource := by
  rw [extension?] at h
  split at h
  · rename_i name hlast
    simp only at h
    split at h
    · rename_i dot first rest hdrop
      have hdot : dot = '.' := by
        have hstop := List.head?_dropWhile_not (· != '.') name.toList.reverse
        simpa [hdrop] using hstop
      have hending : name.toList.reverse.takeWhile (· != '.') = ['s', 'r'] := by
        have htext := congrArg String.toList (Option.some.inj h)
        rw [String.toList_ofList] at htext
        exact List.reverse_eq_iff.1 htext
      have hname : name.toList.reverse = ['s', 'r'] ++ '.' :: first :: rest := by
        rw [← List.takeWhile_append_dropWhile (p := (· != '.')) (l := name.toList.reverse),
          hending, hdrop, hdot]
      refine ⟨(first :: rest).reverse, by simp, ?_⟩
      have htext : name.toList = (first :: rest).reverse ++ ['.', 'r', 's'] := by
        simpa using List.reverse_eq_iff.1 hname
      rw [← htext, String.ofList_toList]
      exact hlast
    · simp at h
  · simp at h

theorem extension?_of_namesSource {p : Path} (h : p.NamesSource) : p.extension? = some "rs" := by
  obtain ⟨stem, hstem, hlast⟩ := h
  obtain ⟨first, rest, hfirst⟩ := List.exists_cons_of_ne_nil (mt List.reverse_eq_nil_iff.1 hstem)
  rw [extension?, hlast]
  simp [hfirst]

end Path

end LogLift.Storage

namespace LogLift

open LogLift.Storage

/-- Two targets for one file: their paths have the same components. -/
def Target.SamePath (s t : Target) : Prop := s.path.components = t.path.components

namespace Config

variable {base : Path} {listed kept : List Target} {s t : Target}

/-! ### The first of each path -/

/-- `kept` is `listed` less the targets with the path of an earlier one. -/
inductive KeepsFirst : (listed kept : List Target) → Prop
  | nil : KeepsFirst [] []
  | fresh {listed kept : List Target} {t : Target} : KeepsFirst listed kept →
      (∀ s ∈ listed, ¬s.SamePath t) → KeepsFirst (listed ++ [t]) (kept ++ [t])
  | seen {listed kept : List Target} {s t : Target} : KeepsFirst listed kept → s ∈ listed →
      s.SamePath t → KeepsFirst (listed ++ [t]) kept

/-- The keys that a list is compared by. -/
def keys (listed : List Target) : List (List Component) := listed.map fun t => t.path.components

theorem mem_keys_iff : t.path.components ∈ keys listed ↔ ∃ s ∈ listed, s.SamePath t :=
  List.mem_map

theorem firstOfEach_concat (seen : List (List Component)) (listed : List Target) (t : Target) :
    firstOfEach seen (listed ++ [t]) = firstOfEach seen listed ++
      if t.path.components ∈ seen ++ keys listed then [] else [t] := by
  induction listed generalizing seen with
  | nil => simp [firstOfEach, keys]
  | cons s rest ih =>
    simp only [List.cons_append, firstOfEach]
    by_cases hs : s.path.components ∈ seen
    · have hmem : t.path.components ∈ seen ++ keys (s :: rest) ↔
          t.path.components ∈ seen ++ keys rest := by
        simp only [keys, List.map_cons, List.mem_append, List.mem_cons]
        constructor
        · rintro (ht | ht | ht)
          · exact .inl ht
          · exact .inl (ht ▸ hs)
          · exact .inr ht
        · rintro (ht | ht)
          · exact .inl ht
          · exact .inr (.inr ht)
      simp only [hs, if_true, ih, hmem]
    · have hmem : t.path.components ∈ seen ++ keys (s :: rest) ↔
          t.path.components ∈ s.path.components :: seen ++ keys rest := by
        simp only [keys, List.map_cons, List.cons_append, List.mem_append, List.mem_cons]
        exact or_left_comm
      simp only [hs, if_false, ih, List.cons_append, hmem]

theorem keepsFirst_firstOfEach (listed : List Target) :
    KeepsFirst listed (firstOfEach [] listed) := by
  induction listed using List.reverseRecOn with
  | nil => exact .nil
  | append_singleton listed t ih =>
    rw [firstOfEach_concat, List.nil_append]
    split
    · rename_i hseen
      obtain ⟨s, hs, hsame⟩ := mem_keys_iff.1 hseen
      rw [List.append_nil]
      exact .seen ih hs hsame
    · rename_i hfresh
      exact .fresh ih fun s hs hsame => hfresh (mem_keys_iff.2 ⟨s, hs, hsame⟩)

namespace KeepsFirst

theorem sublist (h : KeepsFirst listed kept) : kept.Sublist listed := by
  induction h with
  | nil => exact .slnil
  | fresh _ _ ih => exact ih.append (.refl _)
  | seen _ _ _ ih => exact ih.trans (List.sublist_append_left ..)

/-- No path is lost. -/
theorem exists_samePath (h : KeepsFirst listed kept) (ht : t ∈ listed) :
    ∃ s ∈ kept, s.SamePath t := by
  induction h generalizing t with
  | nil => simp at ht
  | @fresh listed kept u _ _ ih =>
    rcases List.mem_append.1 ht with ht | ht
    · obtain ⟨s, hs, hsame⟩ := ih ht
      exact ⟨s, List.mem_append_left [u] hs, hsame⟩
    · exact ⟨t, List.mem_append_right kept ht, rfl⟩
  | seen _ hs hsame ih =>
    rcases List.mem_append.1 ht with ht | ht
    · exact ih ht
    · obtain rfl := List.mem_singleton.1 ht
      obtain ⟨r, hr, hrs⟩ := ih hs
      exact ⟨r, hr, hrs.trans hsame⟩

/-- No path is kept twice. -/
theorem pairwise (h : KeepsFirst listed kept) : kept.Pairwise fun s t => ¬s.SamePath t := by
  induction h with
  | nil => exact .nil
  | fresh hkept hfresh ih =>
    refine List.pairwise_append.2 ⟨ih, List.pairwise_singleton .., fun s hs u hu => ?_⟩
    obtain rfl := List.mem_singleton.1 hu
    exact hfresh s (hkept.sublist.subset hs)
  | seen _ _ _ ih => exact ih

theorem concat_cases (h : KeepsFirst (listed ++ [t]) kept) :
    ∃ kept', KeepsFirst listed kept' ∧
      (kept = kept' ++ [t] ∧ (∀ s ∈ listed, ¬s.SamePath t) ∨ kept = kept') := by
  generalize hall : listed ++ [t] = all at h
  cases h with
  | nil => simp at hall
  | fresh hkept hfresh =>
    obtain ⟨rfl, ht⟩ := List.append_inj' hall rfl
    obtain rfl := List.singleton_inj.1 ht
    exact ⟨_, hkept, .inl ⟨rfl, hfresh⟩⟩
  | seen hkept _ _ =>
    obtain ⟨rfl, _⟩ := List.append_inj' hall rfl
    exact ⟨_, hkept, .inr rfl⟩

/-- What is kept of a first part stays in front, and what is kept of the second has other paths. -/
theorem append_cases {first second : List Target} (h : KeepsFirst (first ++ second) kept) :
    ∃ front back, kept = front ++ back ∧ KeepsFirst first front ∧
      ∀ t ∈ back, t ∈ second ∧ ∀ s ∈ first, ¬s.SamePath t := by
  induction second using List.reverseRecOn generalizing kept with
  | nil => exact ⟨kept, [], by simp, by simpa using h, by simp⟩
  | append_singleton second t ih =>
    rw [← List.append_assoc] at h
    obtain ⟨kept', hkept', hlast⟩ := h.concat_cases
    obtain ⟨front, back, rfl, hfront, hback⟩ := ih hkept'
    have hold : ∀ u ∈ back, u ∈ second ++ [t] ∧ ∀ s ∈ first, ¬s.SamePath u := fun u hu =>
      ⟨List.mem_append_left [t] (hback u hu).1, (hback u hu).2⟩
    rcases hlast with ⟨rfl, hfresh⟩ | rfl
    · refine ⟨front, back ++ [t], List.append_assoc .., hfront, fun u hu => ?_⟩
      rcases List.mem_append.1 hu with hu | hu
      · exact hold u hu
      · obtain rfl := List.mem_singleton.1 hu
        exact ⟨List.mem_append_right second hu,
          fun s hs => hfresh s (List.mem_append_left second hs)⟩
    · exact ⟨front, back, rfl, hfront, hold⟩

end KeepsFirst

/-! ### The sources of a directory -/

theorem isSource_iff {p : Path} : isSource p = true ↔ p.NamesSource := by
  rw [isSource, beq_iff_eq]
  exact ⟨Path.namesSource_of_extension?, Path.extension?_of_namesSource⟩

/-- The targets of an entry for a directory: the sources that a walk from there comes to, in
order, each called by its path from the base on. -/
structure SourcesBelow (fs : FileSystem) (base : Path) (entry : String) (group : List Target) :
    Prop where
  sorted : group.Pairwise fun s t => s.path.le t.path = true
  mem_iff : ∀ t, t ∈ group ↔ fs.Found (base.join ⟨entry⟩) t.path ∧ t.path.NamesSource ∧
    t.name = t.path.nameBelow base

theorem sourcesBelow_dirTargets (fs : FileSystem) (base : Path) (entry : String) :
    SourcesBelow fs base entry (dirTargets fs base entry) where
  sorted := List.pairwise_map.2 (Path.pairwise_le_mergeSort _)
  mem_iff t := by
    simp only [dirTargets, List.mem_map, List.mem_mergeSort, List.mem_filter, isSource_iff,
      FileSystem.mem_walk_iff]
    constructor
    · rintro ⟨p, ⟨hfound, hsource⟩, rfl⟩
      exact ⟨hfound, hsource, rfl⟩
    · rintro ⟨hfound, hsource, hname⟩
      exact ⟨t.path, ⟨hfound, hsource⟩, by rw [← hname]⟩

theorem isAbsolute_of_found {fs : FileSystem} {root p : Path} (h : fs.Found root p)
    (hroot : root.isAbsolute = true) : p.isAbsolute = true := by
  cases h with
  | below => exact Path.isAbsolute_join hroot _
  | itself => exact hroot

/-! ### All targets -/

/-- What the targets of a configuration are, with `base` as the directory that entries count
from. -/
structure Expands (c : Config) (fs : FileSystem) (base : Path) (targets : List Target) : Prop where
  /-- The files in their order, then the sources of each directory, the first of each path kept. -/
  listing : ∃ groups, List.Forall₂ (SourcesBelow fs base) c.targets.dirs groups ∧
    KeepsFirst ((c.targets.files.map fun entry => ⟨entry, base.join ⟨entry⟩⟩) ++ groups.flatten)
      targets
  distinct : targets.Pairwise fun s t => ¬s.SamePath t
  absolute : ∀ t ∈ targets, t.path.isAbsolute = true
  /-- No file is lost, whether it exists or not. -/
  file_kept : ∀ entry ∈ c.targets.files, ∃ t ∈ targets,
    t.path.components = (base.join ⟨entry⟩).components
  source_kept : ∀ entry ∈ c.targets.dirs, ∀ p, fs.Found (base.join ⟨entry⟩) p → p.NamesSource →
    ∃ t ∈ targets, t.path.components = p.components
  nothing_else : ∀ t ∈ targets, (t.name ∈ c.targets.files ∧ t.path = base.join ⟨t.name⟩) ∨
    ∃ entry ∈ c.targets.dirs, fs.Found (base.join ⟨entry⟩) t.path ∧ t.path.NamesSource ∧
      t.name = t.path.nameBelow base
  /-- The files come first, with their own names, and none of them comes again. -/
  files_first : ∃ front back, targets = front ++ back ∧
    KeepsFirst (c.targets.files.map fun entry => ⟨entry, base.join ⟨entry⟩⟩) front ∧
    ∀ t ∈ back, ∀ entry ∈ c.targets.files, t.path.components ≠ (base.join ⟨entry⟩).components

section

variable {c : Config} {fs : FileSystem} {targets : List Target} {groups : List (List Target)}

/-- What is listed before anything is left out. -/
theorem mem_listing_iff (h : List.Forall₂ (SourcesBelow fs base) c.targets.dirs groups) :
    t ∈ (c.targets.files.map fun entry => (⟨entry, base.join ⟨entry⟩⟩ : Target)) ++
        groups.flatten ↔
      (t.name ∈ c.targets.files ∧ t.path = base.join ⟨t.name⟩) ∨
        ∃ entry ∈ c.targets.dirs, fs.Found (base.join ⟨entry⟩) t.path ∧ t.path.NamesSource ∧
          t.name = t.path.nameBelow base := by
  have hfile : t ∈ (c.targets.files.map fun entry => (⟨entry, base.join ⟨entry⟩⟩ : Target)) ↔
      t.name ∈ c.targets.files ∧ t.path = base.join ⟨t.name⟩ := by
    rw [List.mem_map]
    constructor
    · rintro ⟨entry, hentry, rfl⟩
      exact ⟨hentry, rfl⟩
    · rintro ⟨hentry, hpath⟩
      exact ⟨t.name, hentry, by rw [← hpath]⟩
  have hsource : t ∈ groups.flatten ↔ ∃ entry ∈ c.targets.dirs,
      fs.Found (base.join ⟨entry⟩) t.path ∧ t.path.NamesSource ∧
        t.name = t.path.nameBelow base := by
    generalize c.targets.dirs = dirs at h
    induction h with
    | nil => simp
    | cons hgroup _ ih => simp [hgroup.mem_iff, ih]
  rw [List.mem_append, hfile, hsource]

/-- All that is said of the targets follows from how they are listed. -/
theorem expands_of_listing (hbase : base.isAbsolute = true)
    (hgroups : List.Forall₂ (SourcesBelow fs base) c.targets.dirs groups)
    (hkept : KeepsFirst ((c.targets.files.map fun entry => ⟨entry, base.join ⟨entry⟩⟩) ++
      groups.flatten) targets) : Expands c fs base targets where
  listing := ⟨groups, hgroups, hkept⟩
  distinct := hkept.pairwise
  absolute t ht := by
    rcases (mem_listing_iff hgroups).1 (hkept.sublist.subset ht) with
      ⟨_, hpath⟩ | ⟨entry, _, hfound, _⟩
    · rw [hpath]
      exact Path.isAbsolute_join hbase _
    · exact isAbsolute_of_found hfound (Path.isAbsolute_join hbase _)
  file_kept entry hentry :=
    hkept.exists_samePath (t := ⟨entry, base.join ⟨entry⟩⟩)
      ((mem_listing_iff hgroups).2 (.inl ⟨hentry, rfl⟩))
  source_kept entry hentry p hfound hsource :=
    hkept.exists_samePath (t := ⟨p.nameBelow base, p⟩)
      ((mem_listing_iff hgroups).2 (.inr ⟨entry, hentry, hfound, hsource, rfl⟩))
  nothing_else t ht := (mem_listing_iff hgroups).1 (hkept.sublist.subset ht)
  files_first := by
    obtain ⟨front, back, hsplit, hfront, hback⟩ := hkept.append_cases
    refine ⟨front, back, hsplit, hfront, fun t ht entry hentry hsame => ?_⟩
    exact (hback t ht).2 ⟨entry, base.join ⟨entry⟩⟩ (List.mem_map.2 ⟨entry, hentry, rfl⟩) hsame.symm

end

/-- The targets of a configuration, read from the workspace or from the current directory as it
says. -/
theorem allTargets_expands (c : Config) (fs : FileSystem) {workspace cwd : Path}
    (hworkspace : workspace.isAbsolute = true) (hcwd : cwd.isAbsolute = true) :
    Expands c fs (if c.about.workspaceRelative then workspace else cwd)
      (c.allTargets fs workspace cwd) := by
  have hbase : (c.base workspace cwd).isAbsolute = true := by
    rw [Config.base]
    split <;> assumption
  have hgroups : List.Forall₂ (SourcesBelow fs (c.base workspace cwd)) c.targets.dirs
      (c.targets.dirs.map (dirTargets fs (c.base workspace cwd))) := by
    rw [List.forall₂_map_right_iff, List.forall₂_same]
    exact fun entry _ => sourcesBelow_dirTargets fs _ entry
  refine expands_of_listing hbase hgroups ?_
  rw [← List.flatMap_def]
  exact keepsFirst_firstOfEach _

/-- A file that two directories hold as well, spelled in another way, and one that is missing. -/
def overlapping : Config where
  about := { workspaceRelative := true }
  targets := { files := ["sub//b.rs", "gone.rs", "/w/./gone.rs"], dirs := ["sub", "."] }

def overlappingTree : FileSystem :=
  ⟨[(["w"], .dir dirMode), (["w", "sub"], .dir dirMode),
    (["w", "sub", "b.rs"], .file .empty fileMode), (["w", "sub", "b.txt"], .file .empty fileMode),
    (["w", "a.rs"], .file .empty fileMode)]⟩

theorem walk_overlappingTree :
    overlappingTree.walk ⟨"/w/sub"⟩ = [⟨"/w/sub/b.rs"⟩, ⟨"/w/sub/b.txt"⟩] ∧
    overlappingTree.walk ⟨"/w/."⟩ = [⟨"/w/./sub/b.rs"⟩, ⟨"/w/./sub/b.txt"⟩, ⟨"/w/./a.rs"⟩] := by
  have hsub (followLast : Bool) : overlappingTree.resolveFrom followLast FileSystem.maxLinks []
      (segments "/w/sub".toList) = .ok ["w", "sub"] := by
    simp [overlappingTree, FileSystem.resolveFrom, Component.ofSegment?, segments, FileSystem.get?,
      List.lookup_cons]
  have hhere (followLast : Bool) : overlappingTree.resolveFrom followLast FileSystem.maxLinks []
      (segments "/w/.".toList) = .ok ["w"] := by
    simp [overlappingTree, FileSystem.resolveFrom, Component.ofSegment?, segments, FileSystem.get?]
  constructor
  · rw [FileSystem.walk, FileSystem.locate, FileSystem.resolve, hsub, hsub]
    decide +kernel
  · rw [FileSystem.walk, FileSystem.locate, FileSystem.resolve, hhere, hhere]
    decide +kernel

theorem allTargets_overlapping : overlapping.allTargets overlappingTree ⟨"/w"⟩ ⟨"/"⟩ =
    [⟨"sub//b.rs", ⟨"/w/sub//b.rs"⟩⟩, ⟨"gone.rs", ⟨"/w/gone.rs"⟩⟩, ⟨"a.rs", ⟨"/w/./a.rs"⟩⟩] := by
  obtain ⟨hsub, hhere⟩ := walk_overlappingTree
  have hjoin : (Storage.Path.mk "/w").join ⟨"sub"⟩ = ⟨"/w/sub"⟩ ∧
      (Storage.Path.mk "/w").join ⟨"."⟩ = ⟨"/w/."⟩ := by decide
  have hsubSources : (overlappingTree.walk ⟨"/w/sub"⟩).filter isSource = [⟨"/w/sub/b.rs"⟩] := by
    rw [hsub]
    decide +kernel
  have hhereSources : (overlappingTree.walk ⟨"/w/."⟩).filter isSource =
      [⟨"/w/./sub/b.rs"⟩, ⟨"/w/./a.rs"⟩] := by
    rw [hhere]
    decide +kernel
  have hle : (Storage.Path.mk "/w/./sub/b.rs").le ⟨"/w/./a.rs"⟩ = false := by decide +kernel
  have hsorted : [Storage.Path.mk "/w/./sub/b.rs", ⟨"/w/./a.rs"⟩].mergeSort Path.le =
      [⟨"/w/./a.rs"⟩, ⟨"/w/./sub/b.rs"⟩] := by
    simp [List.mergeSort, hle]
  simp only [allTargets, Config.base, overlapping, if_true, List.flatMap_cons, List.flatMap_nil,
    dirTargets, hjoin, hsubSources, hhereSources, List.mergeSort_singleton, hsorted]
  decide +kernel

theorem allTargets_expands_overlapping :
    (Storage.Path.mk "/w").isAbsolute = true ∧ (Storage.Path.mk "/").isAbsolute = true ∧
    Expands overlapping overlappingTree ⟨"/w"⟩
      [⟨"sub//b.rs", ⟨"/w/sub//b.rs"⟩⟩, ⟨"gone.rs", ⟨"/w/gone.rs"⟩⟩, ⟨"a.rs", ⟨"/w/./a.rs"⟩⟩] := by
  have hworkspace : (Storage.Path.mk "/w").isAbsolute = true := by decide
  have hcwd : (Storage.Path.mk "/").isAbsolute = true := by decide
  refine ⟨hworkspace, hcwd, ?_⟩
  rw [← allTargets_overlapping]
  exact allTargets_expands overlapping overlappingTree hworkspace hcwd

end Config

end LogLift
