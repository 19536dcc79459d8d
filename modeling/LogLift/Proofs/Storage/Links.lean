import LogLift.Storage.Edit
import LogLift.Proofs.Storage.Commit

/-! Ways without links.  Where no link stands on the way down to a location, its path leads there or
nowhere, so that a commit replaces what stands there or nothing.  Writing a file, making a
directory, removing a node, setting a mode and committing a snapshot make no links, so such a way
stays one through all of them. -/

namespace LogLift.Storage.FileSystem

variable {fs fs' fs'' : FileSystem} {l : Location} {content : ByteArray} {mode : Nat}

/-! ### Ways without links -/

/-- Neither the location nor anything above it is a link. -/
def Linkless (fs : FileSystem) (l : Location) : Prop :=
  ∀ l', l' <+: l → ∀ target, fs.get? l' ≠ some (.link target)

theorem Linkless.concat {here : Location} {name : String} {node : Node} (h : fs.Linkless here)
    (hget : fs.get? (here ++ [name]) = some node) (hnode : ∀ target, node ≠ .link target) :
    fs.Linkless (here ++ [name]) := by
  intro l' hprefix target hlink
  rcases List.prefix_concat_iff.1 hprefix with rfl | hprefix
  · exact hnode target (Option.some.inj (hget.symm.trans hlink))
  · exact h l' hprefix target hlink

theorem DirAt.linkless (h : fs.DirAt l) : fs.Linkless l := by
  induction h with
  | root =>
    intro l' hprefix target
    simp [List.prefix_nil.1 hprefix, get?]
  | dir _ _ hget ih => exact ih.concat hget (by simp)

theorem FileAt.linkless (h : fs.FileAt l content mode) : fs.Linkless l := by
  cases h with
  | file hhere _ hget => exact hhere.linkless.concat hget (by simp)

/-- Names with no link among them lead to where they name, or nowhere. -/
theorem Linkless.eq_of_resolveFrom {here l' : Location} {names : List String} {links : Nat}
    (h : fs.Linkless (here ++ names)) (hnames : ∀ name ∈ names, IsName name)
    (hresolve : fs.resolveFrom true links here (names.map String.toList) = .ok l') :
    l' = here ++ names := by
  induction names generalizing here with
  | nil =>
    rw [List.map_nil, resolveFrom] at hresolve
    rw [List.append_nil, Except.ok.inj hresolve]
  | cons name rest ih =>
    obtain ⟨hname, hrest⟩ := List.forall_mem_cons.1 hnames
    have hlink : ∀ target, fs.get? (here ++ [name]) ≠ some (.link target) := h _ ⟨rest, by simp⟩
    rw [List.map_cons, resolveFrom, hname.component] at hresolve
    cases hget : fs.get? (here ++ [name]) with
    | none => simp [hget] at hresolve
    | some node =>
      simp only [hget] at hresolve
      cases node with
      | link target => exact absurd hget (hlink target)
      | dir mode =>
        rw [← List.singleton_append, ← List.append_assoc] at h ⊢
        exact ih h hrest hresolve
      | file content mode =>
        -- A file is the end of the way.
        cases rest with
        | nil => exact (Except.ok.inj hresolve).symm
        | cons _ _ => simp at hresolve

/-- A location that is not the root, with no link on the way down to it. -/
structure Plain (fs : FileSystem) (l : Location) : Prop where
  ne_nil : l ≠ []
  isName : ∀ name ∈ l, IsName name
  linkless : fs.Linkless l

theorem FileAt.plain (h : fs.FileAt l content mode) : fs.Plain l :=
  ⟨h.ne_nil, h.isName, h.linkless⟩

/-- The path of a plain location leads to no file but the one there. -/
theorem Plain.fileAt_of_node {l' : Location} (h : fs.Plain l)
    (hnode : fs.node l.path = .ok (l', .file content mode)) : fs.FileAt l content mode := by
  obtain ⟨hresolve, hget⟩ := node_eq_ok_iff.1 hnode
  have hfile := fileAt_of_resolve hresolve hget
  rw [resolve, segments_path h.ne_nil h.isName, resolveFrom_nil_cons] at hresolve
  obtain rfl := @Linkless.eq_of_resolveFrom fs [] l' l maxLinks h.linkless h.isName hresolve
  exact hfile

/-! ### Changes that make no links -/

/-- All links of `fs'` are links of `fs`. -/
def NoNewLinks (fs fs' : FileSystem) : Prop :=
  ∀ l target, fs'.get? l = some (.link target) → fs.get? l = some (.link target)

namespace NoNewLinks

theorem refl (fs : FileSystem) : NoNewLinks fs fs := fun _ _ h => h

theorem trans (h : NoNewLinks fs fs') (h' : NoNewLinks fs' fs'') : NoNewLinks fs fs'' :=
  fun l target hget => h l target (h' l target hget)

theorem plain (h : NoNewLinks fs fs') (hl : fs.Plain l) : fs'.Plain l :=
  ⟨hl.ne_nil, hl.isName,
    fun l' hprefix target hget => hl.linkless l' hprefix target (h l' target hget)⟩

/-- A node takes the place of another, and is a link only if that was the same one. -/
theorem set {node : Node} (h : ∀ target, node = .link target → fs.get? l = some (.link target)) :
    NoNewLinks fs (fs.set l node) := by
  intro l' target hget
  by_cases hl' : l' = []
  · simp [hl', get?] at hget
  · rw [get?, if_neg hl', FileSystem.set, lookup_setNode] at hget
    split at hget
    · rename_i heq
      exact heq ▸ h target (Option.some.inj hget)
    · rw [get?, if_neg hl', hget]

theorem setFile (fs : FileSystem) (l : Location) (content : ByteArray) (mode : Nat) :
    NoNewLinks fs (fs.set l (.file content mode)) :=
  set (by simp)

end NoNewLinks

/-- Entries are left out by their locations. -/
theorem lookup_filter (p : Location → Bool) (nodes : List (Location × Node)) (l : Location) :
    (nodes.filter fun entry => p entry.1).lookup l = if p l then nodes.lookup l else none := by
  induction nodes with
  | nil => simp
  | cons entry rest ih =>
    obtain ⟨k, n⟩ := entry
    by_cases hk : l = k
    · subst hk
      cases hp : p l <;> simp [hp, ih]
    · have hb : (l == k) = false := by simpa using hk
      cases hp : p k <;> simp [hp, List.lookup_cons, hb, ih]

theorem NoNewLinks.erase (fs : FileSystem) (l : Location) : NoNewLinks fs (fs.erase l) := by
  intro l' target hget
  by_cases hl' : l' = []
  · simp [hl', get?] at hget
  · rw [get?, if_neg hl', FileSystem.erase, lookup_filter fun k => !l.isPrefixOf k] at hget
    split at hget
    · rw [get?, if_neg hl', hget]
    · simp at hget

theorem NoNewLinks.of_makeDirsFrom {here dir : Location} {parts : List (List Char)}
    (h : fs.makeDirsFrom here parts = .ok (fs', dir)) : NoNewLinks fs fs' := by
  fun_induction makeDirsFrom fs here parts with
  | case1 fs here =>
    obtain ⟨rfl, rfl⟩ := Prod.mk.inj (Except.ok.inj h)
    exact refl _
  | case2 fs here part rest name _ _ ih => exact (set (by simp)).trans (ih h)
  | case3 fs here part rest _ _ _ _ l _ ih => exact ih h
  | case4 => simp at h
  | case5 fs here part rest _ ih => exact ih h
  | case6 fs here part rest _ _ ih => exact ih h

theorem NoNewLinks.of_makeDir {p : Path} (h : fs.makeDir p = .ok fs') : NoNewLinks fs fs' := by
  obtain ⟨⟨made, dir⟩, hdirs, rfl⟩ := exists_of_map_eq_ok h
  exact of_makeDirsFrom hdirs

theorem NoNewLinks.of_place {p : Path} (h : fs.place p (.file content mode) = .ok fs') :
    NoNewLinks fs fs' := by
  obtain ⟨⟨made, dir⟩, hdirs, hset⟩ := exists_of_bind_eq_ok h
  obtain rfl := Except.ok.inj hset
  exact (of_makeDirsFrom hdirs).trans (setFile _ _ _ _)

theorem NoNewLinks.of_write {p : Path} (h : fs.write p content = .ok fs') : NoNewLinks fs fs' := by
  rw [write] at h
  split at h
  · obtain rfl := Except.ok.inj h
    exact setFile _ _ _ _
  · simp at h
  · exact of_place h

theorem NoNewLinks.of_remove {p : Path} (h : fs.remove p = .ok fs') : NoNewLinks fs fs' := by
  obtain ⟨l, _, rfl⟩ := exists_of_map_eq_ok h
  exact erase fs l

theorem NoNewLinks.of_setMode {p : Path} (h : fs.setMode p mode = .ok fs') :
    NoNewLinks fs fs' := by
  obtain ⟨⟨l, node⟩, hnode, hset⟩ := exists_of_bind_eq_ok h
  obtain rfl := Except.ok.inj hset
  refine set fun target htarget => ?_
  rw [(node_eq_ok_iff.1 hnode).2]
  cases node with
  | link _ => exact congrArg some htarget
  | file _ _ | dir _ => simp [Node.withMode] at htarget

end LogLift.Storage.FileSystem

/-! ### Commits -/

namespace LogLift.Storage.Snapshot

open FileSystem

variable {fs : FileSystem} {s : Snapshot}

/-- Whatever is refused in its course, a commit makes no link. -/
theorem noNewLinks_of_commit (s : Snapshot) (host : Host) (text : String) (fs : FileSystem) :
    NoNewLinks fs ((s.commit host text).leaves fs) := by
  obtain hfs | ⟨place, mode, hfs⟩ := s.leaves_commit host text fs
  · rw [hfs]
    exact .refl fs
  · rw [hfs]
    exact .setFile fs place text.toUTF8 mode

/-- A commit to a plain location is one to the file there, or there is nothing to read. -/
theorem commit_plain {l : Location} (hl : fs.Plain l) (hpath : s.path = l.path) (host : Host)
    (text : String) :
    (∃ content mode, fs.FileAt l content mode ∧
      s.CommitsTo host text fs l content mode ((s.commit host text).run fs)) ∨
    (∃ error, (s.commit host text).run fs = .error error fs) ∧
      ∀ content, fs.read s.path ≠ .ok content := by
  cases hread : fs.read s.path with
  | ok content =>
    obtain ⟨_, mode, hnode⟩ := read_eq_ok_iff.1 hread
    have hfile := hl.fileAt_of_node (hpath ▸ hnode)
    exact .inl ⟨content, mode, hfile, commit_commitsTo hfile hpath host text⟩
  | error error =>
    refine .inr ⟨?_, by simp⟩
    unfold commit
    simp only [EStateM.run_bind, Work.run_ask, Work.run_look]
    cases host.refusal? (.compare s.path) with
    | some reason => exact ⟨_, rfl⟩
    | none =>
      dsimp only
      rw [hread]
      exact ⟨_, rfl⟩

end LogLift.Storage.Snapshot
