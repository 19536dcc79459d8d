import LogLift.Proofs.Storage.Resolution

/-! What a walk comes to.  The rules of `Below` go down one name at a time: a file ends the way, a
directory is entered, and a link does neither.  A walk lists the files that these rules reach from
its root, and the root itself when it is a file. -/

namespace LogLift.Storage.FileSystem

variable {fs : FileSystem} {here top l : Location} {name : String} {names : List String}

/-- From the directory `here`, directories alone lead down over `names` to a file. -/
inductive Below (fs : FileSystem) : (here : Location) → (names : List String) → Prop
  | file {here : Location} {name : String} {content : ByteArray} {mode : Nat} :
      fs.get? (here ++ [name]) = some (.file content mode) → Below fs here [name]
  | dir {here : Location} {name : String} {names : List String} {mode : Nat} :
      fs.get? (here ++ [name]) = some (.dir mode) → Below fs (here ++ [name]) names →
      Below fs here (name :: names)

/-- A file that a walk from `root` comes to.  A root that is a link leads into a directory, but not
to a file. -/
inductive Found (fs : FileSystem) (root : Path) : Path → Prop
  | below {top : Location} {names : List String} {mode : Nat} : fs.resolve root = .ok top →
      fs.get? top = some (.dir mode) → Below fs top names →
      Found fs root (root.join ⟨String.ofList (slashed names)⟩)
  | itself {place : Location} {content : ByteArray} {mode : Nat} : fs.locate root = .ok place →
      fs.get? place = some (.file content mode) → Found fs root root

/-! ### The files below a directory -/

/-- There are directories from the first name on to the last but one. -/
def DirsAlong (fs : FileSystem) (here : Location) (name : String) (names : List String) : Prop :=
  ∀ k < names.length, ∃ mode, fs.get? (here ++ name :: names.take k) = some (.dir mode)

theorem dirsAlong_cons {next : String} : fs.DirsAlong here name (next :: names) ↔
    (∃ mode, fs.get? (here ++ [name]) = some (.dir mode)) ∧
      fs.DirsAlong (here ++ [name]) next names := by
  constructor
  · intro h
    refine ⟨h 0 (Nat.succ_pos _), fun k hk => ?_⟩
    obtain ⟨mode, hget⟩ := h (k + 1) (Nat.succ_lt_succ hk)
    exact ⟨mode, by simpa using hget⟩
  · rintro ⟨⟨mode, hget⟩, hrest⟩ k hk
    cases k with
    | zero => exact ⟨mode, hget⟩
    | succ k =>
      obtain ⟨mode, hget⟩ := hrest k (Nat.lt_of_succ_lt_succ hk)
      exact ⟨mode, by simpa using hget⟩

theorem below_cons_iff : fs.Below here (name :: names) ↔
    (∃ content mode, fs.get? (here ++ name :: names) = some (.file content mode)) ∧
      fs.DirsAlong here name names := by
  induction names generalizing here name with
  | nil =>
    constructor
    · intro h
      cases h with
      | file hget => exact ⟨⟨_, _, hget⟩, fun k hk => absurd hk (Nat.not_lt_zero k)⟩
      | dir _ hempty => cases hempty
    · rintro ⟨⟨content, mode, hget⟩, _⟩
      exact .file hget
  | cons next names ih =>
    have hassoc : here ++ name :: next :: names = here ++ [name] ++ next :: names := by simp
    rw [dirsAlong_cons, hassoc]
    constructor
    · intro h
      cases h with
      | dir hget hbelow =>
        obtain ⟨hfile, hdirs⟩ := ih.1 hbelow
        exact ⟨hfile, ⟨_, hget⟩, hdirs⟩
    · rintro ⟨hfile, ⟨mode, hget⟩, hdirs⟩
      exact .dir hget (ih.2 ⟨hfile, hdirs⟩)

theorem isBelow_append_cons :
    fs.isBelow top (top ++ name :: names) = true ↔ fs.DirsAlong top name names := by
  have htake (k : Nat) : (top ++ name :: names).take (top.length + 1 + k) =
      top ++ name :: names.take k := by
    rw [Nat.add_assoc, List.take_length_add_append, Nat.add_comm 1 k, List.take_succ_cons]
  have hlength : (top ++ name :: names).length - top.length - 1 = names.length := by
    simp
  have hlt : top.length < (top ++ name :: names).length := by simp
  simp only [isBelow, List.isPrefixOf_iff_prefix.2 (List.prefix_append ..), hlt, decide_true,
    Bool.and_self, Bool.true_and, hlength, List.all_eq_true, List.mem_range, htake]
  refine forall_congr' fun k => imp_congr_right fun _ => ?_
  split
  · rename_i mode hget
    simp [hget]
  · rename_i hother
    simpa using hother

theorem exists_cons_of_isBelow (h : fs.isBelow top l = true) :
    ∃ name names, l = top ++ name :: names := by
  simp only [isBelow, Bool.and_eq_true, decide_eq_true_eq] at h
  obtain ⟨⟨hstart, hlt⟩, _⟩ := h
  obtain ⟨rest, rfl⟩ := List.isPrefixOf_iff_prefix.1 hstart
  cases rest with
  | nil => simp at hlt
  | cons name names => exact ⟨name, names, rfl⟩

theorem mem_filesBelow_iff : names ∈ fs.filesBelow top ↔ fs.Below top names := by
  have hmem : names ∈ fs.filesBelow top ↔ ∃ l node, (l, node) ∈ fs.nodes ∧
      (∃ content mode, fs.get? l = some (.file content mode)) ∧ fs.isBelow top l = true ∧
      l.drop top.length = names := by
    simp only [filesBelow, List.mem_filterMap, Prod.exists]
    refine exists_congr fun l => exists_congr fun node => and_congr_right fun _ => ?_
    split
    · rename_i content mode hget
      simp [hget]
    · rename_i hother
      simpa using fun content mode hget => absurd hget (hother content mode)
  rw [hmem]
  constructor
  · rintro ⟨l, node, _, hfile, hbelow, rfl⟩
    obtain ⟨name, names, rfl⟩ := exists_cons_of_isBelow hbelow
    rw [List.drop_left]
    exact below_cons_iff.2 ⟨hfile, isBelow_append_cons.1 hbelow⟩
  · intro h
    cases names with
    | nil => cases h
    | cons name names =>
      obtain ⟨⟨content, mode, hget⟩, hdirs⟩ := below_cons_iff.1 h
      have hlookup : fs.nodes.lookup (top ++ name :: names) = some (.file content mode) := by
        rwa [get?, if_neg (by simp)] at hget
      obtain ⟨before, after, hnodes, _⟩ := List.lookup_eq_some_iff.1 hlookup
      refine ⟨top ++ name :: names, .file content mode, ?_, ⟨content, mode, hget⟩,
        isBelow_append_cons.2 hdirs, List.drop_left⟩
      rw [hnodes]
      exact List.mem_append_right before List.mem_cons_self

/-! ### The root of a walk -/

variable {links : Nat} {parts : List (List Char)} {root p : Path}

/-- Where the last link can be followed, it can be left alone. -/
theorem Leads.exists_locate (h : fs.Leads links here parts l) :
    ∃ place, fs.resolveFrom false links here parts = .ok place := by
  induction h with
  | done => exact ⟨_, by rw [resolveFrom]⟩
  | dir hpart hget _ ih =>
    obtain ⟨place, hplace⟩ := ih
    refine ⟨place, ?_⟩
    rw [resolveFrom, hpart]
    simpa [hget] using hplace
  | @file links mode here part name content hpart hget =>
    refine ⟨here ++ [name], ?_⟩
    rw [resolveFrom, hpart]
    simp [hget]
  | @link links here l part rest name target hpart hget _ ih =>
    obtain ⟨place, hplace⟩ := ih
    rw [resolveFrom, hpart]
    simp only [hget]
    split
    · exact ⟨_, rfl⟩
    · exact ⟨place, hplace⟩
  | up hpart _ ih | skip hpart _ ih =>
    rw [resolveFrom, hpart]
    exact ih

/-- A way that ends at a file has no link at its end to leave alone. -/
theorem resolveFrom_of_file {content : ByteArray} {mode : Nat}
    (h : fs.resolveFrom false links here parts = .ok l)
    (hget : fs.get? l = some (.file content mode)) :
    fs.resolveFrom true links here parts = .ok l := by
  fun_induction resolveFrom fs false links here parts with
  | case1 links here => rwa [resolveFrom]
  | case2 => simp at h
  | case3 _ _ _ _ _ hpart next _ hdir ih =>
    rw [resolveFrom, hpart]
    simpa [next, hdir] using ih h
  | case4 _ _ _ _ _ hpart next _ _ hfile hrest =>
    rw [resolveFrom, hpart]
    simpa [next, hfile, hrest] using h
  | case5 => simp at h
  | case6 _ _ _ _ _ hpart next _ hlink _ =>
    obtain rfl := Except.ok.inj h
    simp [hlink] at hget
  | case7 => simp at h
  | case8 _ _ _ _ hpart next _ hlink _ _ ih =>
    rw [resolveFrom, hpart]
    simpa [next, hlink] using ih h
  | case9 _ _ _ _ hpart ih =>
    rw [resolveFrom, hpart]
    exact ih h
  | case10 _ _ _ _ hname hup ih =>
    rw [resolveFrom, ofSegment?_eq_none hname hup]
    exact ih h

theorem mem_walk_iff : p ∈ fs.walk root ↔ fs.Found root p := by
  constructor
  · intro h
    rw [walk] at h
    split at h
    · rename_i place top hlocate hresolve
      split at h
      · rename_i mode hget
        obtain ⟨names, hnames, rfl⟩ := List.mem_map.1 h
        exact .below hresolve hget (mem_filesBelow_iff.1 hnames)
      · rename_i content mode hget
        split at h
        · rename_i hplace
          obtain rfl := List.mem_singleton.1 h
          exact .itself hlocate (hplace ▸ hget)
        · simp at h
      · simp at h
    · simp at h
  · intro h
    cases h with
    | below hresolve hget hbelow =>
      obtain ⟨place, hlocate⟩ := (leads_of_resolveFrom hresolve).exists_locate
      rw [walk, show fs.locate root = _ from hlocate, hresolve]
      simp only [hget]
      exact List.mem_map.2 ⟨_, mem_filesBelow_iff.2 hbelow, rfl⟩
    | itself hlocate hget =>
      rw [walk, hlocate, show fs.resolve root = _ from resolveFrom_of_file hlocate hget]
      simp [hget]

end LogLift.Storage.FileSystem
