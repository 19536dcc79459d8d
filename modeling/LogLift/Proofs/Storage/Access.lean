import LogLift.Storage.Guard
import LogLift.Storage.Snapshot
import LogLift.Proofs.Storage.Resolution

/-! Reading and guarding canonical files.  A file that a guard lets through is canonical and lies
where the guard allows it.  A snapshot of a canonical file holds what stands at its location. -/

namespace LogLift.Storage

open FileSystem

/-! ### Computations that can fail -/

theorem exists_of_bind_eq_ok {ε α β : Type} {x : Except ε α} {f : α → Except ε β} {b : β}
    (h : (x >>= f) = .ok b) : ∃ a, x = .ok a ∧ f a = .ok b := by
  cases x with
  | error error => cases h
  | ok a => exact ⟨a, rfl, h⟩

theorem exists_of_map_eq_ok {ε α β : Type} {x : Except ε α} {f : α → β} {b : β}
    (h : x.map f = .ok b) : ∃ a, x = .ok a ∧ f a = b := by
  cases x with
  | error error => cases h
  | ok a => exact ⟨a, rfl, Except.ok.inj h⟩

/-! ### Guards -/

namespace Guard

variable {g : Guard} {fs fs' : FileSystem} {p : Path} {file : Location}

theorem check_eq_ok_iff :
    g.check file = .ok () ↔ g.root <+: file ∧ ∀ dir ∈ g.forbidden, ¬dir <+: file := by
  rw [check]
  split
  · rename_i hroot
    rw [List.isPrefixOf_iff_prefix] at hroot
    cases hfind : g.forbidden.find? (·.isPrefixOf file) with
    | none =>
      simp only [List.find?_eq_none, List.isPrefixOf_iff_prefix] at hfind
      simpa [hroot] using hfind
    | some dir =>
      have hdir := List.find?_some hfind
      have hmem := List.mem_of_find?_eq_some hfind
      rw [List.isPrefixOf_iff_prefix] at hdir
      simp only [reduceCtorEq, false_iff, not_and, not_forall, not_not]
      exact fun _ => ⟨dir, hmem, hdir⟩
  · rename_i hroot
    rw [List.isPrefixOf_iff_prefix] at hroot
    simp [hroot]

/-- A file that a guard lets through. -/
structure Admits (g : Guard) (fs : FileSystem) (p : Path) (file : Location) : Prop where
  resolves : fs.resolve (g.root.path.join p) = .ok file
  canonical : ∃ content mode, fs.FileAt file content mode
  inside : g.root <+: file
  allowed : ∀ dir ∈ g.forbidden, ¬dir <+: file

theorem admits_of_resolve (h : g.resolve fs p = .ok file) : g.Admits fs p file := by
  simp only [resolve] at h
  split at h
  · rename_i hfile
    obtain ⟨l, content, mode, hresolve, hget⟩ := isFile_iff.1 hfile
    rw [hresolve] at h
    simp only at h
    split at h
    · simp at h
    · rename_i hcheck
      obtain rfl := Except.ok.inj h
      obtain ⟨hinside, hallowed⟩ := check_eq_ok_iff.1 hcheck
      exact ⟨hresolve, ⟨content, mode, fileAt_of_resolve hresolve hget⟩, hinside, hallowed⟩
  · simp at h

theorem resolve_congr (h : SameShape fs fs') (g : Guard) (p : Path) :
    g.resolve fs p = g.resolve fs' p := by
  simp only [resolve, h.isFile_eq, h.resolve_eq]

end Guard

/-! ### Text and bytes -/

theorem toUTF8_of_fromUTF8? {content : ByteArray} {text : String}
    (h : String.fromUTF8? content = some text) : text.toUTF8 = content := by
  unfold String.fromUTF8? at h
  split at h
  · rw [← Option.some.inj h]
    rfl
  · simp at h

/-! ### Snapshots -/

variable {fs : FileSystem} {l : Location} {content : ByteArray} {mode : Nat}

theorem FileSystem.FileAt.node_path (h : fs.FileAt l content mode) :
    fs.node l.path = .ok (l, .file content mode) :=
  node_eq_ok_iff.2 ⟨h.resolve_path, h.get?_eq⟩

theorem FileSystem.read_eq_ok_iff {p : Path} :
    fs.read p = .ok content ↔ ∃ l mode, fs.node p = .ok (l, .file content mode) := by
  cases hnode : fs.node p with
  | error error => simp [FileSystem.read, hnode, bind, Except.bind]
  | ok found =>
    obtain ⟨l, node⟩ := found
    cases node <;>
      simp [FileSystem.read, hnode, bind, Except.bind, pure, Except.pure, throw, throwThe,
        MonadExceptOf.throw]

theorem FileSystem.FileAt.read_path (h : fs.FileAt l content mode) :
    fs.read l.path = .ok content := by
  rw [FileSystem.read, h.node_path]
  rfl

theorem FileSystem.FileAt.mode_path (h : fs.FileAt l content mode) :
    fs.mode l.path = .ok mode := by
  rw [FileSystem.mode, h.node_path]
  rfl

namespace Snapshot

/-- A snapshot has the path that was read and the text of the file that the path leads to. -/
theorem read_eq_ok {host : Host} {s : Snapshot} {p : Path} (h : Snapshot.read host fs p = .ok s) :
    s.path = p ∧ fs.read p = .ok s.text.toUTF8 := by
  rw [Snapshot.read] at h
  split at h
  · simp at h
  · split at h
    · rename_i text htext
      obtain ⟨content, hread, hdecode⟩ := exists_of_bind_eq_ok htext
      obtain rfl := Except.ok.inj h
      split at hdecode
      · rename_i text' hdecoded
        obtain rfl := Except.ok.inj hdecode
        exact ⟨rfl, by rw [hread, toUTF8_of_fromUTF8? hdecoded]⟩
      · simp [throw, throwThe, MonadExceptOf.throw] at hdecode
    · simp at h

theorem read_path (h : fs.FileAt l content mode) (host : Host) :
    Snapshot.read host fs l.path =
      match host.refusal? (.read l.path) with
      | some reason => .error (.access l.path (.refused reason))
      | none =>
        match String.fromUTF8? content with
        | some text => .ok ⟨l.path, text⟩
        | none => .error (.access l.path .notText) := by
  have htext : fs.readText l.path =
      match String.fromUTF8? content with
      | some text => .ok text
      | none => .error .notText := by
    rw [FileSystem.readText, h.read_path]
    rfl
  rw [Snapshot.read, htext]
  cases String.fromUTF8? content <;> rfl

end Snapshot

end LogLift.Storage
