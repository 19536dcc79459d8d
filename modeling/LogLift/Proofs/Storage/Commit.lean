import LogLift.Proofs.Storage.Access

/-! Commits.  A new text is written to a file of its own, whose name nothing else has.  Whatever the
host refuses, that file is gone in the end: it was removed, or it stands where the old file stood.
So a commit leaves the file system as it was, or with the new text in one place; and of a canonical
file it replaces that file and nothing else. -/

namespace LogLift.Storage

/-! ### Files that are made and moved -/

namespace FileSystem

variable {fs : FileSystem} {l l' : Location} {content : ByteArray} {mode : Nat}

theorem filter_setNode {nodes : List (Location × Node)} (h : nodes.lookup l = none) (node : Node) :
    (setNode l node nodes).filter (fun entry => entry.1 ≠ l) = nodes := by
  induction nodes with
  | nil => simp [setNode]
  | cons entry rest ih =>
    obtain ⟨k, n⟩ := entry
    by_cases hk : k = l
    · subst hk
      simp at h
    · have hb : (l == k) = false := by simpa using Ne.symm hk
      rw [List.lookup_cons, hb] at h
      rw [setNode, if_neg hk, List.filter_cons_of_pos (by simpa using hk), ih h]

theorem setNode_setNode (nodes : List (Location × Node)) (node node' : Node) :
    setNode l node' (setNode l node nodes) = setNode l node' nodes := by
  induction nodes with
  | nil => simp [setNode]
  | cons entry rest ih =>
    by_cases hk : entry.1 = l
    · simp [setNode, hk]
    · simp [setNode, hk, ih]

/-- What was made where nothing stood can be taken away again. -/
theorem unlink_set (hl : l ≠ []) (h : fs.get? l = none) (node : Node) :
    (fs.set l node).unlink l = fs := by
  rw [get?, if_neg hl] at h
  exact congrArg FileSystem.mk (filter_setNode h node)

theorem set_set (node node' : Node) : (fs.set l node).set l node' = fs.set l node' :=
  congrArg FileSystem.mk (setNode_setNode fs.nodes node node')

/-- A node that was made where nothing stood is moved. -/
theorem move_set (hl : l ≠ []) (h : fs.get? l = none) (node : Node) (l' : Location) :
    (fs.set l node).move l l' = fs.set l' node := by
  rw [move, get?_set hl, if_pos rfl]
  show ((fs.set l node).unlink l).set l' node = _
  rw [unlink_set hl h]

theorem length_le_longest {nodes : List (Location × Node)} {entry : Location × Node}
    (h : entry ∈ nodes) : (entry.1.getLastD "").length ≤
      nodes.foldr (fun entry n => max (entry.1.getLastD "").length n) 0 := by
  induction nodes with
  | nil => simp at h
  | cons first rest ih =>
    rw [List.foldr_cons]
    rcases List.mem_cons.1 h with rfl | h
    · exact Nat.le_max_left _ _
    · exact Nat.le_trans (ih h) (Nat.le_max_right _ _)

theorem unused_ne_nil (fs : FileSystem) (dir : Location) : fs.unused dir ≠ [] := by
  simp [unused]

theorem get?_unused (fs : FileSystem) (dir : Location) : fs.get? (fs.unused dir) = none := by
  rw [get?, if_neg (unused_ne_nil fs dir), List.lookup_eq_none_iff]
  intro entry hmem
  have hle := length_le_longest hmem
  simp only [bne_iff_ne, ne_eq]
  intro heq
  rw [← heq, unused, List.getLastD_concat, String.length_append] at hle
  simp only [String.length_ofList, List.length_replicate] at hle
  have hprefix : 0 < ".tmp".length := by decide
  omega

/-- A directory is still there when something else has changed. -/
theorem DirAt.congr {fs' : FileSystem} (h : fs.DirAt l)
    (hget : ∀ l' node, fs.get? l' = some node → fs'.get? l' = some node) : fs'.DirAt l := by
  induction h with
  | root => exact .root
  | dir _ hname hdir ih => exact .dir ih hname (hget _ _ hdir)

/-- A file keeps its place when another one is made. -/
theorem FileAt.set_new (h : fs.FileAt l content mode) (hl' : l' ≠ []) (hnone : fs.get? l' = none)
    (node : Node) : (fs.set l' node).FileAt l content mode := by
  have hget : ∀ l₀ node₀, fs.get? l₀ = some node₀ → (fs.set l' node).get? l₀ = some node₀ := by
    intro l₀ node₀ h₀
    rw [get?_set hl', if_neg, h₀]
    rintro rfl
    simp [hnone] at h₀
  cases h with
  | file hdir hname hfile => exact .file (hdir.congr hget) hname (hget _ _ hfile)

/-- A file is replaced by another one. -/
theorem FileAt.set (h : fs.FileAt l content mode) (content' : ByteArray) (mode' : Nat) :
    (fs.set l (.file content' mode')).FileAt l content' mode' := by
  have hresolve := (SameShape.set h.get?_eq content' mode').resolve_eq l.path
  refine fileAt_of_resolve (hresolve.symm.trans h.resolve_path) ?_
  rw [get?_set h.ne_nil, if_pos rfl]

theorem DirAt.resolve_path (h : fs.DirAt l) : fs.resolve l.path = .ok l := by
  by_cases hl : l = []
  · subst hl
    simp [resolve, Location.path, slashed, segments, resolveFrom, Component.ofSegment?]
  · have hfrom := h.resolveFrom_eq true maxLinks []
    rw [List.append_nil, resolveFrom] at hfrom
    rw [resolve, segments_path hl h.isName, resolveFrom_nil_cons, hfrom]

theorem FileAt.dirAt_dropLast (h : fs.FileAt l content mode) : fs.DirAt l.dropLast := by
  cases h with
  | file hdir _ _ =>
    rw [List.dropLast_concat]
    exact hdir

end FileSystem

/-! ### The directory of a file -/

theorem components_path {l : Location} (hne : l ≠ []) (h : ∀ name ∈ l, IsName name) :
    l.path.components = .root :: l.map .name := by
  have habsolute : l.path.isAbsolute = true := by simp [Path.isAbsolute, Location.path]
  rw [Path.components, FileSystem.segments_path hne h]
  simp only [habsolute, if_true, Option.toList_some, List.filterMap_map, List.singleton_append,
    List.cons.injEq, true_and]
  rw [← List.filterMap_eq_map]
  exact List.filterMap_congr fun name hname => (h name hname).component

theorem parent?_path {l : Location} (hne : l ≠ []) (h : ∀ name ∈ l, IsName name) :
    l.path.parent? = some (Location.path l.dropLast) := by
  have hlast : (l.map Component.name).getLast? = some (.name (l.getLast hne)) := by
    rw [List.getLast?_map, List.getLast?_eq_some_getLast hne]
    rfl
  rw [Path.parent?, components_path hne h, List.getLast?_cons, hlast,
    List.dropLast_cons_of_ne_nil (by simpa using hne), ← List.map_dropLast]
  simp only [Option.getD_some, Path.ofComponents, List.map_map]
  rfl

/-! ### The steps of a commit -/

namespace Work

variable {host : Host} {path : Path} {fs : FileSystem}

theorem run_ask (host : Host) (path : Path) (request : Request) (fs : FileSystem) :
    (ask host path request).run fs =
      match host.refusal? request with
      | none => .ok () fs
      | some reason => .error (.access path (.refused reason)) fs := by
  unfold ask
  cases host.refusal? request <;> rfl

theorem run_look {α : Type} (path : Path) (f : FileSystem → Except AccessError α)
    (fs : FileSystem) :
    (look path f).run fs =
      match f fs with
      | .ok a => .ok a fs
      | .error error => .error (.access path error) fs := by
  simp only [look, EStateM.run_bind, EStateM.run_get]
  cases f fs <;> rfl

theorem run_create (host : Host) (path dir : Path) (fs : FileSystem) :
    (create host path dir).run fs =
      match host.refusal? (.create dir) with
      | some reason => .error (.access path (.refused reason)) fs
      | none =>
        match fs.resolve dir with
        | .error error => .error (.access path error) fs
        | .ok here => .ok (fs.unused here)
          (fs.set (fs.unused here) (.file .empty privateMode)) := by
  simp only [create, EStateM.run_bind, run_ask, run_look]
  cases host.refusal? (.create dir) with
  | some reason => rfl
  | none =>
    dsimp only
    cases fs.resolve dir <;> rfl

section Temporary

variable {temporary : Location} {node : Node}

theorem run_fill (host : Host) (path : Path) (text : String) (fs : FileSystem) :
    (fill host path text temporary).run (fs.set temporary node) =
      match host.refusal? (.fill path text), host.refusal? (.sync path) with
      | some reason, _ => .error (.access path (.refused reason)) (fs.set temporary node)
      | none, some reason => .error (.access path (.refused reason))
          (fs.set temporary (.file text.toUTF8 privateMode))
      | none, none => .ok () (fs.set temporary (.file text.toUTF8 privateMode)) := by
  simp only [fill, EStateM.run_bind, run_ask, EStateM.run_modify]
  cases host.refusal? (.fill path text) with
  | some reason => rfl
  | none =>
    dsimp only
    rw [FileSystem.set_set]
    cases host.refusal? (.sync path) <;> rfl

theorem run_copyMode (host : Host) (path : Path) (text : String) (fs : FileSystem) :
    (copyMode host path text temporary).run (fs.set temporary node) =
      match host.refusal? (.stat path), (fs.set temporary node).mode path with
      | none, .ok mode =>
        match host.refusal? (.setMode path mode) with
        | some reason => .error (.access path (.refused reason)) (fs.set temporary node)
        | none => .ok () (fs.set temporary (.file text.toUTF8 mode))
      | _, _ => .ok () (fs.set temporary node) := by
  simp only [copyMode, EStateM.run_bind, EStateM.run_get]
  cases host.refusal? (.stat path) with
  | some reason => rfl
  | none =>
    cases (fs.set temporary node).mode path with
    | error error => rfl
    | ok mode =>
      simp only [EStateM.run_bind, run_ask, EStateM.run_modify]
      cases host.refusal? (.setMode path mode) with
      | some reason => rfl
      | none =>
        dsimp only
        rw [FileSystem.set_set]

theorem run_putInPlace (htemporary : temporary ≠ []) (hnone : fs.get? temporary = none)
    (host : Host) (path : Path) (node : Node) :
    (putInPlace host path temporary).run (fs.set temporary node) =
      match host.refusal? (.rename path) with
      | some reason => .error (.access path (.refused reason)) (fs.set temporary node)
      | none =>
        match (fs.set temporary node).locate path with
        | .error error => .error (.access path error) (fs.set temporary node)
        | .ok place => .ok () (fs.set place node) := by
  simp only [putInPlace, EStateM.run_bind, run_ask, run_look, EStateM.run_modify]
  cases host.refusal? (.rename path) with
  | some reason => rfl
  | none =>
    dsimp only
    cases (fs.set temporary node).locate path with
    | error error => rfl
    | ok place =>
      dsimp only
      rw [FileSystem.move_set htemporary hnone]

/-- The new file is put in one place, or it is still where it was made. -/
theorem putInPlace_cases (htemporary : temporary ≠ []) (hnone : fs.get? temporary = none)
    (host : Host) (path : Path) (content : ByteArray) (mode : Nat) :
    (∃ error node', (putInPlace host path temporary).run
      (fs.set temporary (.file content mode)) = .error error (fs.set temporary node')) ∨
    ∃ place mode', (putInPlace host path temporary).run
      (fs.set temporary (.file content mode)) = .ok () (fs.set place (.file content mode')) := by
  rw [run_putInPlace htemporary hnone]
  cases host.refusal? (.rename path) with
  | some reason => exact .inl ⟨_, _, rfl⟩
  | none =>
    dsimp only
    cases (fs.set temporary (.file content mode)).locate path with
    | error error => exact .inl ⟨_, _, rfl⟩
    | ok place => exact .inr ⟨place, mode, rfl⟩

/-- The text is put in one place, or the new file is still where it was made. -/
theorem write_cases (htemporary : temporary ≠ []) (hnone : fs.get? temporary = none)
    (host : Host) (path : Path) (text : String) (node : Node) :
    (∃ error node', (write host path text temporary).run (fs.set temporary node) =
      .error error (fs.set temporary node')) ∨
    ∃ place mode, (write host path text temporary).run (fs.set temporary node) =
      .ok () (fs.set place (.file text.toUTF8 mode)) := by
  -- what is left once the new file has its mode
  have hplace := putInPlace_cases htemporary hnone host path text.toUTF8
  simp only [write, EStateM.run_bind, run_fill]
  cases host.refusal? (.fill path text) with
  | some reason => exact .inl ⟨_, _, rfl⟩
  | none =>
    cases host.refusal? (.sync path) with
    | some reason => exact .inl ⟨_, _, rfl⟩
    | none =>
      dsimp only
      rw [run_copyMode]
      cases host.refusal? (.stat path) with
      | some reason => exact hplace _
      | none =>
        cases (fs.set temporary (.file text.toUTF8 privateMode)).mode path with
        | error error => exact hplace _
        | ok mode =>
          dsimp only
          cases host.refusal? (.setMode path mode) with
          | some reason => exact .inl ⟨_, _, rfl⟩
          | none => exact hplace mode

end Temporary

theorem run_try {α : Type} (x : Work α) (handle : CommitError → Work α) (fs : FileSystem) :
    (tryCatch x handle : Work α).run fs =
      match x.run fs with
      | .ok a fs' => .ok a fs'
      | .error error fs' => (handle error).run fs' := by
  show EStateM.tryCatch x handle fs = _
  unfold EStateM.tryCatch EStateM.run
  cases x fs <;> rfl

/-- The text is put in one place, or all is as it was. -/
theorem replace_cases (host : Host) (path : Path) (text : String) (fs : FileSystem) :
    (∃ error, (replace host path text).run fs = .error error fs) ∨
    ∃ place mode, (replace host path text).run fs =
      .ok () (fs.set place (.file text.toUTF8 mode)) := by
  unfold replace
  cases path.parent? with
  | none => exact .inl ⟨_, rfl⟩
  | some dir =>
    simp only [EStateM.run_bind, run_create]
    cases host.refusal? (.create dir) with
    | some reason => exact .inl ⟨_, rfl⟩
    | none =>
      dsimp only
      cases fs.resolve dir with
      | error error => exact .inl ⟨_, rfl⟩
      | ok here =>
        have hne := FileSystem.unused_ne_nil fs here
        have hnone := FileSystem.get?_unused fs here
        dsimp only
        rw [run_try]
        obtain ⟨error, node', hwrite⟩ | ⟨place, mode, hwrite⟩ :=
          write_cases hne hnone host path text (.file .empty privateMode)
        · rw [hwrite]
          refine .inl ⟨error, ?_⟩
          show EStateM.Result.error error ((fs.set _ node').unlink _) = _
          rw [FileSystem.unlink_set hne hnone]
        · rw [hwrite]
          exact .inr ⟨place, mode, rfl⟩

/-- The file system that is left when work was done or has failed. -/
def left {α : Type} : EStateM.Result CommitError FileSystem α → FileSystem
  | .ok _ fs => fs
  | .error _ fs => fs

/-- The file system that work leaves behind. -/
def leaves {α : Type} (work : Work α) (fs : FileSystem) : FileSystem := left (work.run fs)

end Work

/-- Wherever the path of a snapshot leads, a commit puts its text in one place or nowhere. -/
theorem Snapshot.leaves_commit (s : Snapshot) (host : Host) (text : String) (fs : FileSystem) :
    (s.commit host text).leaves fs = fs ∨
    ∃ place mode, (s.commit host text).leaves fs = fs.set place (.file text.toUTF8 mode) := by
  unfold Work.leaves Snapshot.commit
  simp only [EStateM.run_bind, Work.run_ask, Work.run_look]
  cases host.refusal? (.compare s.path) with
  | some reason => exact .inl rfl
  | none =>
    dsimp only
    cases fs.read s.path with
    | error error => exact .inl rfl
    | ok content =>
      dsimp only
      by_cases hdigest : digest content = s.hash
      · rw [if_pos hdigest]
        simp only [EStateM.run_bind, Work.run_ask]
        obtain ⟨error, hreplace⟩ | ⟨place, mode, hreplace⟩ :=
          Work.replace_cases host s.path text fs
        · rw [hreplace]
          exact .inl rfl
        · rw [hreplace]
          refine .inr ⟨place, mode, ?_⟩
          dsimp only
          cases host.refusal? (.touch s.path) <;> rfl
      · rw [if_neg hdigest]
        exact .inl rfl

/-! ### Commits to canonical files -/

namespace Host

/-- What a host is asked for, in order, to put a text in the file at `l`, which has the mode `mode`.
When the mode cannot be looked up, it is not copied. -/
def writing (host : Host) (l : Location) (text : String) (mode : Nat) : List Request :=
  [.create (Location.path l.dropLast), .fill l.path text, .sync l.path] ++
    (if host.refusal? (.stat l.path) = none then [.setMode l.path mode] else []) ++
    [.rename l.path]

/-- The mode of the file in the end. -/
def modeAfter (host : Host) (l : Location) (mode : Nat) : Nat :=
  if host.refusal? (.stat l.path) = none then mode else Work.privateMode

theorem Settles.modeAfter_eq {host : Host} (h : host.Settles) (l : Location) (mode : Nat) :
    host.modeAfter l mode = mode := if_pos (h.stat l.path)

theorem GrantsWrites.settles {host : Host} (h : host.GrantsWrites) : host.Settles where
  stat _ := h _ (by simp)
  touch _ := h _ (by simp)

end Host

section Canonical

variable {fs : FileSystem} {l : Location} {content : ByteArray} {mode : Nat}

/-- The first refusal is reported, and otherwise the file is replaced. -/
theorem Work.replace_path (h : fs.FileAt l content mode) (host : Host) (text : String) :
    (Work.replace host l.path text).run fs =
      match (host.writing l text mode).findSome? host.refusal? with
      | some reason => .error (.access l.path (.refused reason)) fs
      | none => .ok () (fs.set l (.file text.toUTF8 (host.modeAfter l mode))) := by
  have hne := FileSystem.unused_ne_nil fs l.dropLast
  have hnone := FileSystem.get?_unused fs l.dropLast
  -- the new file does not stand in the way to the old one
  have hlocate : ∀ node, (fs.set (fs.unused l.dropLast) node).locate l.path = .ok l :=
    fun node => (h.set_new hne hnone node).locate_path
  have hmode : ∀ node, (fs.set (fs.unused l.dropLast) node).mode l.path = .ok mode :=
    fun node => (h.set_new hne hnone node).mode_path
  have hundo : ∀ node, (fs.set (fs.unused l.dropLast) node).unlink (fs.unused l.dropLast) = fs :=
    fun node => FileSystem.unlink_set hne hnone node
  unfold Work.replace
  rw [parent?_path h.ne_nil h.isName]
  simp only [EStateM.run_bind, Work.run_create, h.dirAt_dropLast.resolve_path, Host.writing,
    Host.modeAfter]
  cases hcreate : host.refusal? (.create (Location.path l.dropLast)) with
  | some reason => simp [hcreate]
  | none =>
    dsimp only
    simp only [Work.run_try, Work.write, EStateM.run_bind, Work.run_fill]
    cases hfill : host.refusal? (.fill l.path text) with
    | some reason => simp [hcreate, hfill, hundo]
    | none =>
      cases hsync : host.refusal? (.sync l.path) with
      | some reason => simp [hcreate, hfill, hsync, hundo]
      | none =>
        dsimp only
        rw [Work.run_copyMode, hmode]
        cases hstat : host.refusal? (.stat l.path) with
        | some reason =>
          dsimp only
          rw [Work.run_putInPlace hne hnone, hlocate]
          cases hrename : host.refusal? (.rename l.path) <;>
            simp [hcreate, hfill, hsync, hrename, hundo]
        | none =>
          dsimp only
          cases hset : host.refusal? (.setMode l.path mode) with
          | some reason => simp [hcreate, hfill, hsync, hset, hundo]
          | none =>
            dsimp only
            rw [Work.run_putInPlace hne hnone, hlocate]
            cases hrename : host.refusal? (.rename l.path) <;>
              simp [hcreate, hfill, hsync, hset, hrename, hundo]

theorem Snapshot.commit_path {s : Snapshot} (h : fs.FileAt l content mode) (hpath : s.path = l.path)
    (host : Host) (text : String) :
    (s.commit host text).run fs =
      match host.refusal? (.compare l.path) with
      | some reason => .error (.access l.path (.refused reason)) fs
      | none =>
        if digest content = s.hash then
          match (host.writing l text mode).findSome? host.refusal? with
          | some reason => .error (.access l.path (.refused reason)) fs
          | none =>
            let fs' := fs.set l (.file text.toUTF8 (host.modeAfter l mode))
            match host.refusal? (.touch l.path) with
            | some reason => .error (.access l.path (.refused reason)) fs'
            | none => .ok () fs'
        else .error (.changed l.path) fs := by
  unfold Snapshot.commit
  simp only [EStateM.run_bind, Work.run_ask, Work.run_look, hpath]
  cases host.refusal? (.compare l.path) with
  | some reason => rfl
  | none =>
    dsimp only
    rw [h.read_path]
    dsimp only
    by_cases hdigest : digest content = s.hash
    · rw [if_pos hdigest, if_pos hdigest]
      simp only [EStateM.run_bind, Work.run_ask, Work.replace_path h]
      cases (host.writing l text mode).findSome? host.refusal? with
      | some reason => rfl
      | none =>
        dsimp only
        cases host.refusal? (.touch l.path) <;> rfl
    · rw [if_neg hdigest, if_neg hdigest]
      rfl

/-- What a commit to the file at `l` can come to. -/
inductive Snapshot.CommitsTo (s : Snapshot) (host : Host) (text : String) (fs : FileSystem)
    (l : Location) (content : ByteArray) (mode : Nat) :
    EStateM.Result CommitError FileSystem Unit → Prop
  /-- The file holds something else by now. -/
  | changed : digest content ≠ s.hash →
      CommitsTo s host text fs l content mode (.error (.changed l.path) fs)
  /-- A request was refused before the new file was in its place. -/
  | kept {request : Request} {reason : String} : (∀ path, request ≠ .read path) →
      host.refusal? request = some reason →
      CommitsTo s host text fs l content mode (.error (.access l.path (.refused reason)) fs)
  /-- The new file is in its place, but it could not be touched. -/
  | torn {reason : String} : digest content = s.hash →
      host.refusal? (.touch l.path) = some reason →
      CommitsTo s host text fs l content mode (.error (.access l.path (.refused reason))
        (fs.set l (.file text.toUTF8 (host.modeAfter l mode))))
  | replaced : digest content = s.hash →
      CommitsTo s host text fs l content mode
        (.ok () (fs.set l (.file text.toUTF8 (host.modeAfter l mode))))

theorem Host.not_read_of_mem_writing {host : Host} {text : String} {request : Request}
    (h : request ∈ host.writing l text mode) (path : Path) : request ≠ .read path := by
  unfold Host.writing at h
  rintro rfl
  split at h <;> simp at h

theorem Snapshot.commit_commitsTo {s : Snapshot} (h : fs.FileAt l content mode)
    (hpath : s.path = l.path) (host : Host) (text : String) :
    s.CommitsTo host text fs l content mode ((s.commit host text).run fs) := by
  rw [Snapshot.commit_path h hpath]
  cases hcompare : host.refusal? (.compare l.path) with
  | some reason => exact .kept (by simp) hcompare
  | none =>
    dsimp only
    split
    · rename_i hdigest
      cases hwriting : (host.writing l text mode).findSome? host.refusal? with
      | some reason =>
        obtain ⟨request, hmem, hrefused⟩ := List.exists_of_findSome?_eq_some hwriting
        exact .kept (Host.not_read_of_mem_writing hmem) hrefused
      | none =>
        dsimp only
        cases htouch : host.refusal? (.touch l.path) with
        | some reason => exact .torn hdigest htouch
        | none => exact .replaced hdigest
    · rename_i hdigest
      exact .changed hdigest

/-- Where nothing of a commit is refused, the digest decides. -/
theorem Snapshot.commit_of_grantsWrites {s : Snapshot} {host : Host} (hhost : host.GrantsWrites)
    (h : fs.FileAt l content mode) (hpath : s.path = l.path) (text : String) :
    (s.commit host text).run fs =
      if digest content = s.hash then .ok () (fs.set l (.file text.toUTF8 mode))
      else .error (.changed l.path) fs := by
  have hwriting : (host.writing l text mode).findSome? host.refusal? = none :=
    List.findSome?_eq_none_iff.2 fun request hmem =>
      hhost request (Host.not_read_of_mem_writing hmem)
  have hmode := hhost.settles.modeAfter_eq l mode
  rw [Snapshot.commit_path h hpath, hhost _ (by simp), hwriting, hmode, hhost.settles.touch]

/-- Why the new file is not put in its place, if it is not. -/
def Host.hindrance? (host : Host) (l : Location) (text : String) (mode : Nat) : Option String :=
  (.compare l.path :: host.writing l text mode).findSome? host.refusal?

/-- A snapshot is committed while the file still holds what was read. -/
theorem Snapshot.commit_of_content {old : String} (h : fs.FileAt l content mode)
    (htext : String.fromUTF8? content = some old) (host : Host) (text : String) :
    ((⟨l.path, old⟩ : Snapshot).commit host text).run fs =
      match host.hindrance? l text mode with
      | some reason => .error (.access l.path (.refused reason)) fs
      | none =>
        let fs' := fs.set l (.file text.toUTF8 (host.modeAfter l mode))
        match host.refusal? (.touch l.path) with
        | some reason => .error (.access l.path (.refused reason)) fs'
        | none => .ok () fs' := by
  have hhash : digest content = (⟨l.path, old⟩ : Snapshot).hash := by
    rw [hash, toUTF8_of_fromUTF8? htext]
  rw [Snapshot.commit_path h rfl, if_pos hhash, Host.hindrance?, List.findSome?_cons]
  cases host.refusal? (.compare l.path) <;> rfl

theorem Host.exists_of_hindrance? {host : Host} {text reason : String}
    (h : host.hindrance? l text mode = some reason) :
    ∃ request, (∀ path, request ≠ .read path) ∧ host.refusal? request = some reason := by
  obtain ⟨request, hmem, hrefused⟩ := List.exists_of_findSome?_eq_some h
  rcases List.mem_cons.1 hmem with rfl | hmem
  · exact ⟨_, by simp, hrefused⟩
  · exact ⟨request, Host.not_read_of_mem_writing hmem, hrefused⟩

end Canonical

end LogLift.Storage
