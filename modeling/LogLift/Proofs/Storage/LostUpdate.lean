import Mathlib.Data.Set.Function
import LogLift.Proofs.Storage.Links

/-! No update is lost.  A run mixes changes that come from elsewhere with the taking and the
committing of snapshots, in any order and any number, and the host may refuse any step of any
commit.  No action of a run makes a link, so the path of a snapshot leads to the file that was read
for as long as it leads to any.  A commit then replaces a content that has the digest of the
snapshot, or nothing; and where digests tell the contents apart, that content is the text of the
snapshot.  If the file held anything else in between, the text has come back since.  A commit that
fails has changed nothing, unless the host refused no more than the touching of the new file. -/

namespace LogLift.Storage

open FileSystem

/-! ### Runs -/

/-- A file system, and the snapshots that were taken so far, the first one first. -/
structure World where
  fs : FileSystem
  held : List Snapshot

inductive Action where
  | write (path : Path) (content : ByteArray)
  | makeDir (path : Path)
  | remove (path : Path)
  | setMode (path : Path) (mode : Nat)
  | read (path : Path)
  /-- A commit of the snapshot at a position among those that were taken. -/
  | commit (position : Nat) (text : String)

/-- The file system after a change, or as it was when the change failed. -/
def FileSystem.changed {ε : Type} (fs : FileSystem) : Except ε FileSystem → FileSystem
  | .ok fs' => fs'
  | .error _ => fs

/-- The world after an action on a host. -/
def World.after (host : Host) (w : World) : Action → World
  | .write path content => { w with fs := w.fs.changed (w.fs.write path content) }
  | .makeDir path => { w with fs := w.fs.changed (w.fs.makeDir path) }
  | .remove path => { w with fs := w.fs.changed (w.fs.remove path) }
  | .setMode path mode => { w with fs := w.fs.changed (w.fs.setMode path mode) }
  | .read path =>
    match Snapshot.read host w.fs path with
    | .ok snapshot => { w with held := w.held ++ [snapshot] }
    | .error _ => w
  | .commit position text =>
    match w.held[position]? with
    | some snapshot => { w with fs := (snapshot.commit host text).leaves w.fs }
    | none => w

section Run

variable (hosts : Nat → Host) (fs : FileSystem) (actions : List Action)

/-- The world after the first `n` actions.  `hosts` are the host as it is for the first action, for
the second, and so on. -/
def worldAt : Nat → World
  | 0 => ⟨fs, []⟩
  | n + 1 =>
    match actions[n]? with
    | some action => (worldAt n).after (hosts n) action
    | none => worldAt n

/-- Every path that is read leads to the location that it names. -/
def CanonicalReads : Prop :=
  ∀ (n : Nat) path l, actions[n]? = some (.read path) →
    (worldAt hosts fs actions n).fs.resolve path = .ok l → path = l.path

/-- Action `n` takes the snapshot `s`. -/
def TakenAt (n : Nat) (s : Snapshot) : Prop :=
  actions[n]? = some (.read s.path) ∧
    Snapshot.read (hosts n) (worldAt hosts fs actions n).fs s.path = .ok s

/-- Action `n` is a commit of `text` for the snapshot `s`, with this result. -/
def CommitAt (n : Nat) (s : Snapshot) (text : String)
    (result : EStateM.Result CommitError FileSystem Unit) : Prop :=
  ∃ position : Nat, actions[n]? = some (.commit position text) ∧
    (worldAt hosts fs actions n).held[position]? = some s ∧
    (s.commit (hosts n) text).run (worldAt hosts fs actions n).fs = result

end Run

/-! ### One action -/

theorem FileSystem.NoNewLinks.changed {ε : Type} {fs : FileSystem} {result : Except ε FileSystem}
    (h : ∀ fs', result = .ok fs' → fs.NoNewLinks fs') : fs.NoNewLinks (fs.changed result) := by
  cases result with
  | error _ => exact .refl fs
  | ok fs' => exact h fs' rfl

/-- No action makes a link. -/
theorem World.after_noNewLinks (host : Host) (w : World) (action : Action) :
    w.fs.NoNewLinks (w.after host action).fs := by
  cases action with
  | write path content => exact .changed fun _ => .of_write
  | makeDir path => exact .changed fun _ => .of_makeDir
  | remove path => exact .changed fun _ => .of_remove
  | setMode path mode => exact .changed fun _ => .of_setMode
  | read path =>
    rw [after]
    split <;> exact .refl w.fs
  | commit position text =>
    rw [after]
    split
    · exact Snapshot.noNewLinks_of_commit _ host text w.fs
    · exact .refl w.fs

/-- A snapshot that is held after an action was held before it, or the action took it. -/
theorem World.mem_held_after {host : Host} {w : World} {action : Action} {s : Snapshot}
    (h : s ∈ (w.after host action).held) :
    s ∈ w.held ∨ ∃ path, action = .read path ∧ Snapshot.read host w.fs path = .ok s := by
  cases action with
  | write | makeDir | remove | setMode => exact .inl h
  | read path =>
    rw [after] at h
    split at h
    · rename_i snapshot hread
      rcases List.mem_append.1 h with h | h
      · exact .inl h
      · obtain rfl := List.mem_singleton.1 h
        exact .inr ⟨path, rfl, hread⟩
    · exact .inl h
  | commit position text =>
    rw [after] at h
    split at h <;> exact .inl h

/-! ### All actions -/

section Run

variable {hosts : Nat → Host} {fs : FileSystem} {actions : List Action} {m n : Nat} {s : Snapshot}
  {text : String} {result : EStateM.Result CommitError FileSystem Unit}

theorem worldAt_succ {action : Action} (h : actions[n]? = some action) :
    worldAt hosts fs actions (n + 1) = (worldAt hosts fs actions n).after (hosts n) action := by
  rw [worldAt, h]

theorem worldAt_noNewLinks (hle : m ≤ n) :
    (worldAt hosts fs actions m).fs.NoNewLinks (worldAt hosts fs actions n).fs := by
  induction n, hle using Nat.le_induction with
  | base => exact .refl _
  | succ n _ ih =>
    rw [worldAt]
    split
    · exact ih.trans (World.after_noNewLinks _ _ _)
    · exact ih

/-- Every snapshot that is held was taken. -/
theorem exists_takenAt (h : s ∈ (worldAt hosts fs actions n).held) :
    ∃ m < n, TakenAt hosts fs actions m s := by
  induction n with
  | zero => simp [worldAt] at h
  | succ n ih =>
    have hearlier : s ∈ (worldAt hosts fs actions n).held →
        ∃ m < n + 1, TakenAt hosts fs actions m s := by
      intro hmem
      obtain ⟨m, hlt, htaken⟩ := ih hmem
      exact ⟨m, Nat.lt_succ_of_lt hlt, htaken⟩
    rw [worldAt] at h
    split at h
    · rename_i action haction
      rcases World.mem_held_after h with h | ⟨path, rfl, hread⟩
      · exact hearlier h
      · obtain rfl := (Snapshot.read_eq_ok hread).1
        exact ⟨n, Nat.lt_succ_self n, haction, hread⟩
    · exact hearlier h

/-- What a commit leaves behind is there before the next action. -/
theorem CommitAt.fs_succ (h : CommitAt hosts fs actions n s text result) :
    (worldAt hosts fs actions (n + 1)).fs = Work.left result := by
  obtain ⟨position, haction, hheld, rfl⟩ := h
  rw [worldAt_succ haction, World.after, hheld]
  rfl

/-- A snapshot has the text of the file that its path names. -/
theorem TakenAt.fileAt (hreads : CanonicalReads hosts fs actions)
    (h : TakenAt hosts fs actions m s) :
    ∃ l mode, s.path = l.path ∧
      (worldAt hosts fs actions m).fs.FileAt l s.text.toUTF8 mode := by
  obtain ⟨l, mode, hnode⟩ := read_eq_ok_iff.1 (Snapshot.read_eq_ok h.2).2
  obtain ⟨hresolve, hget⟩ := node_eq_ok_iff.1 hnode
  exact ⟨l, mode, hreads m s.path l h.1 hresolve, fileAt_of_resolve hresolve hget⟩

/-- No link has come onto the path of a snapshot since it was taken. -/
theorem TakenAt.plain (hreads : CanonicalReads hosts fs actions)
    (h : TakenAt hosts fs actions m s) (hle : m ≤ n) :
    ∃ l, s.path = l.path ∧ (worldAt hosts fs actions n).fs.Plain l := by
  obtain ⟨l, mode, hpath, hfile⟩ := h.fileAt hreads
  -- The directories above the file may be gone by now, but none of them is a link.
  exact ⟨l, hpath, (worldAt_noNewLinks hle).plain hfile.plain⟩

theorem CommitAt.plain (hreads : CanonicalReads hosts fs actions)
    (h : CommitAt hosts fs actions n s text result) :
    ∃ l, s.path = l.path ∧ (worldAt hosts fs actions n).fs.Plain l := by
  obtain ⟨position, _, hheld, _⟩ := h
  obtain ⟨m, hlt, htaken⟩ := exists_takenAt (List.mem_of_getElem? hheld)
  exact htaken.plain hreads (Nat.le_of_lt hlt)

end Run

/-! ### Lost updates -/

/-- The new text takes the place of the file at `l`, which had the digest of the snapshot.  Nothing
else changes. -/
structure Replaces (s : Snapshot) (text : String) (fs fs' : FileSystem) (l : Location)
    (mode mode' : Nat) : Prop where
  path : s.path = l.path
  digest : ∃ content, fs.FileAt l content mode ∧ Storage.digest content = s.hash
  text : fs'.FileAt l text.toUTF8 mode'
  others : ∀ l', l' ≠ l → fs'.get? l' = fs.get? l'

/-- Before action `n`, the path of the snapshot leads to a file that holds the snapshot's text. -/
def HoldsTextAt (hosts : Nat → Host) (fs : FileSystem) (actions : List Action) (s : Snapshot)
    (n : Nat) : Prop :=
  (worldAt hosts fs actions n).fs.read s.path = .ok s.text.toUTF8

/-- No commit of a run overwrites an update that its snapshot has not seen. -/
structure NoLostUpdate (hosts : Nat → Host) (fs : FileSystem) (actions : List Action) :
    Prop where
  /-- A commit that goes through replaces a content that has the digest of the snapshot.  The file
  keeps its mode, unless the host does not tell it, and nothing else changes. -/
  replaced : ∀ n s text fs', CommitAt hosts fs actions n s text (.ok () fs') →
    (worldAt hosts fs actions (n + 1)).fs = fs' ∧
      ∃ l mode mode', Replaces s text (worldAt hosts fs actions n).fs fs' l mode mode' ∧
        ((hosts n).Settles → mode' = mode)
  /-- A commit that fails changes nothing, as long as a new file can be touched. -/
  failed : ∀ n s text error fs', CommitAt hosts fs actions n s text (.error error fs') →
    (worldAt hosts fs actions (n + 1)).fs = fs' ∧
      ((hosts n).Settles → fs' = (worldAt hosts fs actions n).fs)
  /-- Otherwise it may have replaced a content that has the digest of the snapshot.  Even then it
  has done nothing else. -/
  torn : ∀ n s text error fs', CommitAt hosts fs actions n s text (.error error fs') →
    fs' ≠ (worldAt hosts fs actions n).fs →
    ∃ l mode mode' reason, Replaces s text (worldAt hosts fs actions n).fs fs' l mode mode' ∧
      (hosts n).refusal? (.touch l.path) = some reason ∧
      error = .access l.path (.refused reason)
  /-- A commit does not fail without a cause: the path leads to no content with the digest of the
  snapshot, or the host has refused something. -/
  refused : ∀ n s text error fs' content,
    CommitAt hosts fs actions n s text (.error error fs') →
    (worldAt hosts fs actions n).fs.read s.path = .ok content → digest content = s.hash →
    ∃ request reason, (hosts n).refusal? request = some reason ∧
      error = .access s.path (.refused reason)
  /-- Where digests tell the contents of the file apart, a commit that goes through, or changes
  anything, finds the text of its snapshot.  If the file held anything else at `k`, the text has
  come back since. -/
  returned : ∀ contents, Set.InjOn digest contents →
    ∀ m n s text result, TakenAt hosts fs actions m s → m < n →
      CommitAt hosts fs actions n s text result →
      (∀ k content, m ≤ k → k ≤ n →
        (worldAt hosts fs actions k).fs.read s.path = .ok content → content ∈ contents) →
      ((∃ fs', result = .ok () fs') ∨
        (worldAt hosts fs actions (n + 1)).fs ≠ (worldAt hosts fs actions n).fs) →
      HoldsTextAt hosts fs actions s n ∧
        ∀ k, m ≤ k → k ≤ n → ¬HoldsTextAt hosts fs actions s k →
          ∃ back, k ≤ back ∧ back < n ∧ ¬HoldsTextAt hosts fs actions s back ∧
            ∀ j, back < j → j ≤ n → HoldsTextAt hosts fs actions s j

section LostUpdate

variable {hosts : Nat → Host} {fs : FileSystem} {actions : List Action} {m k n : Nat}
  {s : Snapshot} {text : String} {result : EStateM.Result CommitError FileSystem Unit}

theorem FileSystem.FileAt.replaces {l : Location} {content : ByteArray} {mode : Nat}
    (h : fs.FileAt l content mode) (hpath : s.path = l.path) (hdigest : digest content = s.hash)
    (text : String) (mode' : Nat) :
    Replaces s text fs (fs.set l (.file text.toUTF8 mode')) l mode mode' where
  path := hpath
  digest := ⟨content, h, hdigest⟩
  text := h.set text.toUTF8 mode'
  others l' hne := by rw [get?_set h.ne_nil, if_neg hne]

/-- What a commit of a run can come to. -/
theorem CommitAt.cases (hreads : CanonicalReads hosts fs actions)
    (h : CommitAt hosts fs actions n s text result) :
    (∃ l content mode, s.path = l.path ∧ (worldAt hosts fs actions n).fs.FileAt l content mode ∧
      s.CommitsTo (hosts n) text (worldAt hosts fs actions n).fs l content mode result) ∨
    (∃ error, result = .error error (worldAt hosts fs actions n).fs) ∧
      ∀ content, (worldAt hosts fs actions n).fs.read s.path ≠ .ok content := by
  obtain ⟨l, hpath, hplain⟩ := h.plain hreads
  obtain ⟨_, _, _, rfl⟩ := h
  obtain ⟨content, mode, hfile, hcommit⟩ | hnothing :=
    Snapshot.commit_plain hplain hpath (hosts n) text
  · exact .inl ⟨l, content, mode, hpath, hfile, hcommit⟩
  · exact .inr hnothing

/-- A file holds the text of a snapshot at the end: there is a last time at which it did not. -/
theorem exists_last_not_holdsTextAt (hk : ¬HoldsTextAt hosts fs actions s k)
    (hn : HoldsTextAt hosts fs actions s n) (hle : k ≤ n) :
    ∃ back, k ≤ back ∧ back < n ∧ ¬HoldsTextAt hosts fs actions s back ∧
      ∀ j, back < j → j ≤ n → HoldsTextAt hosts fs actions s j := by
  induction n, hle using Nat.le_induction with
  | base => exact absurd hn hk
  | succ n hle ih =>
    by_cases hlast : HoldsTextAt hosts fs actions s n
    · obtain ⟨back, hkback, hback, hnot, hall⟩ := ih hlast
      refine ⟨back, hkback, Nat.lt_succ_of_lt hback, hnot, fun j hj hjn => ?_⟩
      rcases Nat.le_succ_iff.1 hjn with hjn | rfl
      · exact hall j hj hjn
      · exact hn
    · refine ⟨n, hle, Nat.lt_succ_self n, hlast, fun j hj hjn => ?_⟩
      obtain rfl : j = n + 1 := by omega
      exact hn

/-- A commit that goes through, or changes anything, has read a content with the digest of its
snapshot. -/
theorem CommitAt.read_of_effective (hreads : CanonicalReads hosts fs actions)
    (h : CommitAt hosts fs actions n s text result)
    (heffect : (∃ fs', result = .ok () fs') ∨
      (worldAt hosts fs actions (n + 1)).fs ≠ (worldAt hosts fs actions n).fs) :
    ∃ content, (worldAt hosts fs actions n).fs.read s.path = .ok content ∧
      digest content = s.hash := by
  rw [h.fs_succ] at heffect
  obtain ⟨l, content, mode, hpath, hfile, hcommit⟩ | ⟨⟨error, rfl⟩, _⟩ := h.cases hreads
  · refine ⟨content, hpath ▸ hfile.read_path, ?_⟩
    cases hcommit with
    | changed | kept => simp [Work.left] at heffect
    | torn hdigest | replaced hdigest => exact hdigest
  · simp [Work.left] at heffect

theorem holdsTextAt_of_commit {contents : Set ByteArray} (hinj : Set.InjOn digest contents)
    (hreads : CanonicalReads hosts fs actions) (htaken : TakenAt hosts fs actions m s)
    (hle : m ≤ n)
    (hcontents : ∀ k content, m ≤ k → k ≤ n →
      (worldAt hosts fs actions k).fs.read s.path = .ok content → content ∈ contents)
    (hcommit : CommitAt hosts fs actions n s text result)
    (heffect : (∃ fs', result = .ok () fs') ∨
      (worldAt hosts fs actions (n + 1)).fs ≠ (worldAt hosts fs actions n).fs) :
    HoldsTextAt hosts fs actions s n := by
  obtain ⟨content, hnow, hdigest⟩ := hcommit.read_of_effective hreads heffect
  have hthen := (Snapshot.read_eq_ok htaken.2).2
  -- Both are contents of the file between `m` and `n`, with one digest.
  have hsame : content = s.text.toUTF8 :=
    hinj (hcontents n content hle (Nat.le_refl n) hnow)
      (hcontents m _ (Nat.le_refl m) hle hthen) hdigest
  rw [HoldsTextAt, hnow, hsame]

end LostUpdate

/-! ### A file that two snapshots are taken of -/

/-- A file system with one file. -/
def oneFile (text : String) : FileSystem := ⟨[(["a"], .file text.toUTF8 0o600)]⟩

theorem fileAt_oneFile (text : String) : (oneFile text).FileAt ["a"] text.toUTF8 0o600 :=
  .file .root ⟨by decide, by decide⟩ rfl

theorem read_oneFile (text : String) :
    (oneFile text).read (Location.path ["a"]) = .ok text.toUTF8 :=
  read_eq_ok_iff.2 ⟨_, _, (fileAt_oneFile text).node_path⟩

/-- The snapshot of the file while it holds its first text. -/
def firstText : Snapshot := ⟨Location.path ["a"], "a"⟩

theorem read_firstText :
    Snapshot.read .willing (oneFile "a") firstText.path = .ok firstText := by
  have htext : String.fromUTF8? "a".toUTF8 = some "a" := by decide
  rw [firstText, Snapshot.read_path (fileAt_oneFile "a"), htext]
  rfl

theorem commit_firstText (text new : String) :
    (firstText.commit .willing new).run (oneFile text) =
      if digest text.toUTF8 = digest "a".toUTF8 then .ok () (oneFile new)
      else .error (.changed firstText.path) (oneFile text) :=
  Snapshot.commit_of_grantsWrites (fun _ _ => rfl) (fileAt_oneFile text) rfl new

/-- Two snapshots are taken.  The first one is committed, and so the second one is refused.  Then
the old text is written again, and the second snapshot is committed after all. -/
def rivalry : List Action :=
  [.read firstText.path, .read firstText.path, .commit 0 "b", .commit 1 "c",
    .write firstText.path "a".toUTF8, .commit 1 "c"]

/-- The run on a host that refuses nothing. -/
def rivalryAt (n : Nat) : World := worldAt (fun _ => .willing) (oneFile "a") rivalry n

theorem rivalryAt_eq {n : Nat} (h : n ≤ 5) :
    rivalryAt n =
      ⟨oneFile (if n = 3 ∨ n = 4 then "b" else "a"), List.replicate (min n 2) firstText⟩ := by
  have hcommit : (firstText.commit .willing "b").leaves (oneFile "a") = oneFile "b" := by
    rw [Work.leaves, commit_firstText, if_pos rfl]
    rfl
  have hrefused : (firstText.commit .willing "c").leaves (oneFile "b") = oneFile "b" := by
    rw [Work.leaves, commit_firstText, if_neg (by decide +kernel)]
    rfl
  have hwrite : (oneFile "b").write firstText.path "a".toUTF8 = .ok (oneFile "a") := by
    rw [FileSystem.write, firstText, (fileAt_oneFile "b").node_path]
    rfl
  rcases n with _ | _ | _ | _ | _ | _ | n
  case succ.succ.succ.succ.succ.succ => omega
  all_goals
    simp only [rivalryAt, worldAt, rivalry, World.after, read_firstText, List.nil_append,
      List.cons_append, List.getElem?_cons_zero, List.getElem?_cons_succ, hcommit, hrefused,
      hwrite, FileSystem.changed]
    rfl

theorem canonicalReads_rivalry : CanonicalReads (fun _ => .willing) (oneFile "a") rivalry := by
  intro n path l haction hresolve
  obtain ⟨hn, rfl⟩ : n < 2 ∧ path = firstText.path := by
    rcases n with _ | _ | _ | _ | _ | _ | n <;> simp_all [rivalry]
  change (rivalryAt n).fs.resolve firstText.path = .ok l at hresolve
  rw [rivalryAt_eq (by omega), if_neg (by omega), firstText,
    (fileAt_oneFile "a").resolve_path] at hresolve
  rw [firstText, Except.ok.inj hresolve]

/-- Where the new file is not touched, the commit fails too late to leave the old one. -/
example :
    (firstText.commit ⟨fun request => if request = .touch firstText.path then some "" else none⟩
      "b").run (oneFile "a") =
      .error (.access firstText.path (.refused "")) (oneFile "b") :=
  (Snapshot.commit_path (fileAt_oneFile "a") rfl _ "b").trans (if_pos rfl)

end LogLift.Storage
