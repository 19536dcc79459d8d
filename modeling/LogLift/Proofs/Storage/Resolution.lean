import Mathlib.Data.List.Basic
import LogLift.Storage.FileSystem

/-! How paths lead to locations.  `Leads` has one rule for each thing that a part of a path can be.
The location that a path leads to is canonical: directories alone lead down to it, so that its own
path leads back to it over no link.  Where a path leads depends on the shape of the file system, its
directories and links, and not on what the files hold or which modes they have. -/

namespace LogLift.Storage

/-! ### The segments of a path -/

theorem segments_ne_nil (cs : List Char) : segments cs ≠ [] := by
  fun_cases segments cs <;> simp [*]

theorem slash_not_mem_of_mem_segments {cs part : List Char} (h : part ∈ segments cs) :
    '/' ∉ part := by
  fun_induction segments cs generalizing part with
  | case1 =>
    obtain rfl := List.mem_singleton.1 h
    exact List.not_mem_nil
  | case2 cs ih =>
    rcases List.mem_cons.1 h with rfl | h
    · exact List.not_mem_nil
    · exact ih h
  | case3 c cs hslash hnil _ => exact absurd hnil (segments_ne_nil cs)
  | case4 c cs hslash segment rest hcons ih =>
    rw [hcons] at ih
    rcases List.mem_cons.1 h with rfl | h
    · have hc : c ≠ '/' := by simpa using hslash
      have hrest := ih List.mem_cons_self
      simp [hc.symm, hrest]
    · exact ih (List.mem_cons_of_mem segment h)

theorem segments_append_slash (a b : List Char) :
    segments (a ++ '/' :: b) = segments a ++ segments b := by
  fun_induction segments a with
  | case1 => rfl
  | case2 cs ih => simp [segments, ih]
  | case3 c cs hslash hnil _ => exact absurd hnil (segments_ne_nil cs)
  | case4 c cs hslash segment rest hcons ih =>
    rw [List.cons_append, segments, ih, hcons]
    · rfl
    · exact hslash

theorem segments_of_not_mem {cs : List Char} (h : '/' ∉ cs) : segments cs = [cs] := by
  induction cs with
  | nil => rfl
  | cons c cs ih =>
    have hc : c ≠ '/' := fun hc => h (by simp [hc])
    rw [segments, ih fun hmem => h (List.mem_cons_of_mem c hmem)]
    exact hc

/-- The segments of a joined path are those of the base, less an empty one at its end, and those of
the other path. -/
theorem exists_segments_join (base : Path) {p : Path} (hp : p.isAbsolute = false) :
    ∃ parts, segments (base.join p).text.toList = parts ++ segments p.text.toList ∧
      (segments base.text.toList = parts ∨ segments base.text.toList = parts ++ [[]]) := by
  simp only [Path.join, hp, Bool.false_eq_true, if_false]
  split
  · rename_i hend
    rcases List.eq_nil_or_concat base.text.toList with hnil | ⟨front, last, hconcat⟩
    · exact ⟨[], by simp [hnil], .inr (by rw [hnil]; rfl)⟩
    · rw [List.concat_eq_append] at hconcat
      have hlast : last = '/' := by
        have hne : base.text ≠ "" := by
          intro hempty
          simp [hempty] at hconcat
        simpa [hconcat, hne] using hend
      subst hlast
      refine ⟨segments front, ?_, .inr ?_⟩
      · rw [String.toList_append, hconcat, List.append_assoc]
        exact segments_append_slash front p.text.toList
      · rw [hconcat]
        exact segments_append_slash front []
  · refine ⟨segments base.text.toList, ?_, .inl rfl⟩
    rw [← segments_append_slash]
    simp

theorem slashed_cons_cons (a b : String) (l : List String) :
    slashed (a :: b :: l) = a.toList ++ '/' :: slashed (b :: l) := by
  simp [slashed, List.intercalate]

theorem segments_slashed {l : List String} (hne : l ≠ []) (h : ∀ name ∈ l, '/' ∉ name.toList) :
    segments (slashed l) = l.map String.toList := by
  induction l with
  | nil => exact absurd rfl hne
  | cons a l ih =>
    have ha := segments_of_not_mem (h a List.mem_cons_self)
    cases l with
    | nil => simpa [slashed] using ha
    | cons b l =>
      rw [slashed_cons_cons, segments_append_slash, ha,
        ih (by simp) fun name hname => h name (List.mem_cons_of_mem a hname)]
      rfl

/-! ### Canonical locations -/

/-- A name that can stand in a location: no slash in it, and no dots that lead elsewhere. -/
structure IsName (name : String) : Prop where
  component : Component.ofSegment? name.toList = some (.name name)
  slash : '/' ∉ name.toList

theorem IsName.ne_nil {name : String} (h : IsName name) : name.toList ≠ [] := by
  intro hnil
  have hname := h.component
  rw [hnil] at hname
  simp [Component.ofSegment?] at hname

theorem toList_of_ofSegment? {part : List Char} {name : String}
    (h : Component.ofSegment? part = some (.name name)) : name.toList = part := by
  unfold Component.ofSegment? at h
  split at h
  · simp at h
  · split at h
    · simp at h
    · simp only [Option.some.injEq, Component.name.injEq] at h
      rw [← h, String.toList_ofList]

theorem isName_of_ofSegment? {part : List Char} {name : String}
    (h : Component.ofSegment? part = some (.name name)) (hslash : '/' ∉ part) : IsName name := by
  have hpart := toList_of_ofSegment? h
  exact ⟨by rwa [hpart], by rwa [hpart]⟩

theorem ofSegment?_eq_none {part : List Char}
    (hname : ∀ name, Component.ofSegment? part = some (.name name) → False)
    (hup : Component.ofSegment? part = some .up → False) : Component.ofSegment? part = none := by
  unfold Component.ofSegment? at hname hup ⊢
  split
  · rfl
  · rename_i hdot
    rw [if_neg hdot] at hname hup
    split at hup
    · exact absurd rfl hup
    · rename_i hdots
      exact absurd (if_neg hdots) (hname _)

namespace FileSystem

/-- A directory that directories alone lead down to. -/
inductive DirAt (fs : FileSystem) : Location → Prop
  | root : DirAt fs []
  | dir {here : Location} {name : String} {mode : Nat} : DirAt fs here → IsName name →
      fs.get? (here ++ [name]) = some (.dir mode) → DirAt fs (here ++ [name])

/-- A file that directories alone lead down to. -/
inductive FileAt (fs : FileSystem) : Location → ByteArray → Nat → Prop
  | file {here : Location} {name : String} {content : ByteArray} {mode : Nat} : DirAt fs here →
      IsName name → fs.get? (here ++ [name]) = some (.file content mode) →
      FileAt fs (here ++ [name]) content mode

variable {fs : FileSystem} {l : Location} {content : ByteArray} {mode : Nat}

theorem FileAt.get?_eq (h : fs.FileAt l content mode) : fs.get? l = some (.file content mode) := by
  cases h with
  | file _ _ hget => exact hget

theorem FileAt.ne_nil (h : fs.FileAt l content mode) : l ≠ [] := by
  cases h with
  | file => simp

theorem DirAt.dropLast (h : fs.DirAt l) : fs.DirAt l.dropLast := by
  cases h with
  | root => exact .root
  | dir hhere _ _ =>
    rw [List.dropLast_concat]
    exact hhere

theorem DirAt.isName (h : fs.DirAt l) : ∀ name ∈ l, IsName name := by
  induction h with
  | root => simp
  | dir _ hname _ ih =>
    intro name hmem
    rcases List.mem_append.1 hmem with hmem | hmem
    · exact ih name hmem
    · rwa [List.mem_singleton.1 hmem]

/-! ### Where parts lead -/

/-- From the directory `here`, `parts` lead to `l` over at most `links` links. -/
inductive Leads (fs : FileSystem) :
    (links : Nat) → (here : Location) → (parts : List (List Char)) → Location → Prop
  | done {links : Nat} {here : Location} : Leads fs links here [] here
  | dir {links mode : Nat} {here l : Location} {part : List Char} {rest : List (List Char)}
      {name : String} : Component.ofSegment? part = some (.name name) →
      fs.get? (here ++ [name]) = some (.dir mode) → Leads fs links (here ++ [name]) rest l →
      Leads fs links here (part :: rest) l
  | file {links mode : Nat} {here : Location} {part : List Char} {name : String}
      {content : ByteArray} : Component.ofSegment? part = some (.name name) →
      fs.get? (here ++ [name]) = some (.file content mode) →
      Leads fs links here [part] (here ++ [name])
  | link {links : Nat} {here l : Location} {part : List Char} {rest : List (List Char)}
      {name target : String} : Component.ofSegment? part = some (.name name) →
      fs.get? (here ++ [name]) = some (.link target) →
      Leads fs links (if (Path.mk target).isAbsolute then [] else here)
        (segments target.toList ++ rest) l →
      Leads fs (links + 1) here (part :: rest) l
  | up {links : Nat} {here l : Location} {part : List Char} {rest : List (List Char)} :
      Component.ofSegment? part = some .up → Leads fs links here.dropLast rest l →
      Leads fs links here (part :: rest) l
  | skip {links : Nat} {here l : Location} {part : List Char} {rest : List (List Char)} :
      Component.ofSegment? part = none → Leads fs links here rest l →
      Leads fs links here (part :: rest) l

variable {links : Nat} {here : Location} {parts more : List (List Char)}

theorem leads_of_resolveFrom (h : fs.resolveFrom true links here parts = .ok l) :
    fs.Leads links here parts l := by
  fun_induction resolveFrom fs true links here parts with
  | case1 links here =>
    obtain rfl := Except.ok.inj h
    exact .done
  | case2 => simp at h
  | case3 links here part rest name hpart next mode hget ih => exact .dir hpart hget (ih h)
  | case4 links here part rest name hpart next content mode hget hrest =>
    obtain rfl := Except.ok.inj h
    obtain rfl := List.isEmpty_iff.1 hrest
    exact .file hpart hget
  | case5 => simp at h
  | case6 _ _ _ _ _ _ _ _ _ hlast => simp at hlast
  | case7 => simp at h
  | case8 here part rest name hpart next target hget _ links ih => exact .link hpart hget (ih h)
  | case9 links here part rest hpart ih => exact .up hpart (ih h)
  | case10 links here part rest hname hup ih =>
    exact .skip (ofSegment?_eq_none hname hup) (ih h)

theorem Leads.resolveFrom_eq (h : fs.Leads links here parts l) :
    fs.resolveFrom true links here parts = .ok l := by
  induction h with
  | done => rw [resolveFrom]
  | dir hpart hget _ ih | link hpart hget _ ih =>
    rw [resolveFrom, hpart]
    simpa [hget] using ih
  | file hpart hget =>
    rw [resolveFrom, hpart]
    simp [hget]
  | up hpart _ ih | skip hpart _ ih =>
    rw [resolveFrom, hpart]
    exact ih

theorem Leads.unique {l' : Location} (h : fs.Leads links here parts l)
    (h' : fs.Leads links here parts l') : l = l' :=
  Except.ok.inj (h.resolveFrom_eq.symm.trans h'.resolveFrom_eq)

theorem Leads.mono (h : fs.Leads links here parts l) {links' : Nat} (hle : links ≤ links') :
    fs.Leads links' here parts l := by
  induction h generalizing links' with
  | done => exact .done
  | dir hpart hget _ ih => exact .dir hpart hget (ih hle)
  | file hpart hget => exact .file hpart hget
  | link hpart hget _ ih =>
    cases links' with
    | zero => omega
    | succ n => exact .link hpart hget (ih (Nat.le_of_succ_le_succ hle))
  | up hpart _ ih => exact .up hpart (ih hle)
  | skip hpart _ ih => exact .skip hpart (ih hle)

/-- The directory that a link is read from. -/
theorem DirAt.linkStart (h : fs.DirAt here) (target : String) :
    fs.DirAt (if (Path.mk target).isAbsolute then [] else here) := by
  split
  · exact .root
  · exact h

theorem slash_not_mem_of_link {target : String} {rest : List (List Char)}
    (h : ∀ part ∈ rest, '/' ∉ part) : ∀ part ∈ segments target.toList ++ rest, '/' ∉ part := by
  intro part hpart
  rcases List.mem_append.1 hpart with hpart | hpart
  · exact slash_not_mem_of_mem_segments hpart
  · exact h part hpart

/-- What a path leads to is canonical. -/
theorem Leads.dirAt_or_fileAt (h : fs.Leads links here parts l) (hhere : fs.DirAt here)
    (hparts : ∀ part ∈ parts, '/' ∉ part) :
    fs.DirAt l ∨ ∃ content mode, fs.FileAt l content mode := by
  induction h with
  | done => exact .inl hhere
  | dir hpart hget _ ih =>
    obtain ⟨hslash, hrest⟩ := List.forall_mem_cons.1 hparts
    exact ih (.dir hhere (isName_of_ofSegment? hpart hslash) hget) hrest
  | file hpart hget =>
    obtain ⟨hslash, _⟩ := List.forall_mem_cons.1 hparts
    exact .inr ⟨_, _, .file hhere (isName_of_ofSegment? hpart hslash) hget⟩
  | link hpart hget _ ih =>
    obtain ⟨_, hrest⟩ := List.forall_mem_cons.1 hparts
    exact ih (hhere.linkStart _) (slash_not_mem_of_link hrest)
  | up _ _ ih => exact ih hhere.dropLast (List.forall_mem_cons.1 hparts).2
  | skip _ _ ih => exact ih hhere (List.forall_mem_cons.1 hparts).2

/-- From `here`, `parts` lead to a place from which `more` lead on to `l`.  That place is a
directory, unless it is the end of the way. -/
def TwoStages (fs : FileSystem) (links : Nat) (here : Location) (parts more : List (List Char))
    (l : Location) : Prop :=
  ∃ middle links', fs.Leads links here parts middle ∧ links' ≤ links ∧
    fs.Leads links' middle more l ∧ (more = [] ∨ fs.DirAt middle)

theorem TwoStages.of_nil {all : List (List Char)} (h : fs.Leads links here all l)
    (hhere : fs.DirAt here) (hall : [] ++ more = all) : fs.TwoStages links here [] more l := by
  subst hall
  exact ⟨here, links, .done, Nat.le_refl _, h, .inr hhere⟩

/-- Every way can be cut in two. -/
theorem Leads.twoStages (h : fs.Leads links here (parts ++ more) l) (hhere : fs.DirAt here)
    (hparts : ∀ part ∈ parts ++ more, '/' ∉ part) : fs.TwoStages links here parts more l := by
  generalize hall : parts ++ more = all at h hparts
  induction h generalizing parts with
  | done =>
    obtain ⟨rfl, rfl⟩ := List.append_eq_nil_iff.1 hall
    exact ⟨_, _, .done, Nat.le_refl _, .done, .inl rfl⟩
  | dir hpart hget hlater ih =>
    obtain ⟨hslash, hrest⟩ := List.forall_mem_cons.1 hparts
    cases parts with
    | nil => exact .of_nil (.dir hpart hget hlater) hhere hall
    | cons _ parts =>
      obtain ⟨rfl, hcut⟩ := List.cons.inj hall
      obtain ⟨middle, links', hfirst, hsecond⟩ :=
        ih (.dir hhere (isName_of_ofSegment? hpart hslash) hget) hcut hrest
      exact ⟨middle, links', .dir hpart hget hfirst, hsecond⟩
  | file hpart hget =>
    cases parts with
    | nil => exact .of_nil (.file hpart hget) hhere hall
    | cons _ parts =>
      obtain ⟨rfl, hnil⟩ := List.cons.inj hall
      obtain ⟨rfl, rfl⟩ := List.append_eq_nil_iff.1 hnil
      exact ⟨_, _, .file hpart hget, Nat.le_refl _, .done, .inl rfl⟩
  | link hpart hget hlater ih =>
    obtain ⟨_, hrest⟩ := List.forall_mem_cons.1 hparts
    cases parts with
    | nil => exact .of_nil (.link hpart hget hlater) hhere hall
    | cons _ parts =>
      obtain ⟨rfl, rfl⟩ := List.cons.inj hall
      obtain ⟨middle, links', hfirst, hle, hsecond⟩ :=
        ih (hhere.linkStart _) (List.append_assoc _ _ _) (slash_not_mem_of_link hrest)
      exact ⟨middle, links', .link hpart hget hfirst, by omega, hsecond⟩
  | up hpart hlater ih =>
    cases parts with
    | nil => exact .of_nil (.up hpart hlater) hhere hall
    | cons _ parts =>
      obtain ⟨rfl, hcut⟩ := List.cons.inj hall
      obtain ⟨middle, links', hfirst, hsecond⟩ :=
        ih hhere.dropLast hcut (List.forall_mem_cons.1 hparts).2
      exact ⟨middle, links', .up hpart hfirst, hsecond⟩
  | skip hpart hlater ih =>
    cases parts with
    | nil => exact .of_nil (.skip hpart hlater) hhere hall
    | cons _ parts =>
      obtain ⟨rfl, hcut⟩ := List.cons.inj hall
      obtain ⟨middle, links', hfirst, hsecond⟩ :=
        ih hhere hcut (List.forall_mem_cons.1 hparts).2
      exact ⟨middle, links', .skip hpart hfirst, hsecond⟩

/-! ### The paths of canonical locations -/

/-- The names of a directory lead down to it, over no link. -/
theorem DirAt.resolveFrom_eq (h : fs.DirAt l) (followLast : Bool) (links : Nat)
    (rest : List (List Char)) :
    fs.resolveFrom followLast links [] (l.map String.toList ++ rest) =
      fs.resolveFrom followLast links l rest := by
  induction h generalizing rest with
  | root => rfl
  | @dir here name mode _ hname hget ih =>
    rw [List.map_append, List.append_assoc, ih]
    show resolveFrom fs followLast links here (name.toList :: rest) = _
    rw [resolveFrom, hname.component]
    simp only [hget]

theorem FileAt.resolveFrom_eq (h : fs.FileAt l content mode) (followLast : Bool) (links : Nat) :
    fs.resolveFrom followLast links [] (l.map String.toList) = .ok l := by
  cases h with
  | @file here name _ _ hhere hname hget =>
    rw [List.map_append, hhere.resolveFrom_eq]
    show resolveFrom fs followLast links here [name.toList] = _
    rw [resolveFrom, hname.component]
    simp [hget]

theorem FileAt.isName (h : fs.FileAt l content mode) : ∀ name ∈ l, IsName name := by
  cases h with
  | file hhere hname _ =>
    intro name hmem
    rcases List.mem_append.1 hmem with hmem | hmem
    · exact hhere.isName name hmem
    · rwa [List.mem_singleton.1 hmem]

theorem segments_path {l : Location} (hne : l ≠ []) (h : ∀ name ∈ l, IsName name) :
    segments l.path.text.toList = [] :: l.map String.toList := by
  have hsplit := segments_append_slash [] (slashed l)
  rw [segments_slashed hne fun name hname => (h name hname).slash] at hsplit
  simpa [Location.path, segments] using hsplit

theorem resolveFrom_nil_cons (followLast : Bool) (links : Nat) (here : Location)
    (rest : List (List Char)) :
    fs.resolveFrom followLast links here ([] :: rest) =
      fs.resolveFrom followLast links here rest := by
  rw [resolveFrom]
  rfl

theorem FileAt.resolve_path (h : fs.FileAt l content mode) : fs.resolve l.path = .ok l := by
  rw [resolve, segments_path h.ne_nil h.isName, resolveFrom_nil_cons, h.resolveFrom_eq]

theorem FileAt.locate_path (h : fs.FileAt l content mode) : fs.locate l.path = .ok l := by
  rw [locate, segments_path h.ne_nil h.isName, resolveFrom_nil_cons, h.resolveFrom_eq]

theorem node_eq_ok_iff {p : Path} {node : Node} :
    fs.node p = .ok (l, node) ↔ fs.resolve p = .ok l ∧ fs.get? l = some node := by
  cases hresolve : fs.resolve p with
  | error error => simp [FileSystem.node, hresolve, bind, Except.bind]
  | ok l' =>
    have hnode : fs.node p = (fs.get? l').elim (.error .missing) fun node => .ok (l', node) := by
      cases hget : fs.get? l' <;>
        simp [FileSystem.node, hresolve, hget, bind, Except.bind, pure, Except.pure, throw,
          throwThe, MonadExceptOf.throw]
    rw [hnode]
    constructor
    · intro h
      cases hget : fs.get? l' with
      | none => simp [hget] at h
      | some node' =>
        rw [hget] at h
        obtain ⟨rfl, rfl⟩ := Prod.mk.inj (Except.ok.inj h)
        exact ⟨rfl, hget⟩
    · rintro ⟨h, hget⟩
      obtain rfl := Except.ok.inj h
      rw [hget]
      rfl

theorem isFile_iff {p : Path} :
    fs.isFile p = true ↔
      ∃ l content mode, fs.resolve p = .ok l ∧ fs.get? l = some (.file content mode) := by
  simp only [← node_eq_ok_iff]
  rw [isFile]
  constructor
  · intro h
    split at h
    · rename_i l content mode hnode
      exact ⟨l, content, mode, hnode⟩
    · simp at h
  · rintro ⟨l, content, mode, hnode⟩
    rw [hnode]

theorem dirAt_or_fileAt_of_resolve {p : Path} (h : fs.resolve p = .ok l) :
    fs.DirAt l ∨ ∃ content mode, fs.FileAt l content mode :=
  (leads_of_resolveFrom h).dirAt_or_fileAt .root fun _ => slash_not_mem_of_mem_segments

theorem fileAt_of_resolve {p : Path} (h : fs.resolve p = .ok l)
    (hget : fs.get? l = some (.file content mode)) : fs.FileAt l content mode := by
  rcases dirAt_or_fileAt_of_resolve h with hdir | ⟨content', mode', hfile⟩
  · cases hdir with
    | root => simp [get?] at hget
    | dir _ _ hget' => simp [hget'] at hget
  · have hsame := hfile.get?_eq
    rw [hget] at hsame
    obtain ⟨rfl, rfl⟩ := Node.file.inj (Option.some.inj hsame)
    exact hfile

/-! ### Joined paths -/

variable {top : Location}

/-- A path that is joined to a directory counts from there. -/
theorem DirAt.resolve_join (h : fs.DirAt top) {p : Path} (hp : p.isAbsolute = false) :
    fs.resolve (top.path.join p) = fs.resolveFrom true maxLinks top (segments p.text.toList) := by
  obtain ⟨parts, hjoin, hbase⟩ := exists_segments_join top.path hp
  rw [resolve, hjoin]
  cases h with
  | root =>
    have hroot : segments (Location.path []).text.toList = [[]] ++ [[]] := by decide
    rw [hroot] at hbase
    rcases hbase with rfl | hbase
    · exact (resolveFrom_nil_cons ..).trans (resolveFrom_nil_cons ..)
    · rw [← List.append_cancel_right hbase]
      exact resolveFrom_nil_cons ..
  | @dir here name mode hhere hname hget =>
    have hdir := DirAt.dir hhere hname hget
    rw [segments_path (by simp) hdir.isName] at hbase
    rcases hbase with rfl | hbase
    · exact (resolveFrom_nil_cons ..).trans (hdir.resolveFrom_eq true maxLinks _)
    · -- The last name of the directory is not empty.
      rw [List.map_append, ← List.cons_append] at hbase
      have hlast := (List.append_inj' hbase rfl).2
      exact absurd (by simpa using hlast) hname.ne_nil

/-- An empty part at the end changes nothing. -/
theorem leads_of_append_empty (h : fs.Leads maxLinks [] (parts ++ [[]]) l)
    (hparts : ∀ part ∈ parts ++ [[]], '/' ∉ part) :
    fs.Leads maxLinks [] parts l := by
  obtain ⟨middle, links', hfirst, _, hsecond, _⟩ := h.twoStages .root hparts
  have hend := hsecond.resolveFrom_eq
  rw [resolveFrom_nil_cons, resolveFrom] at hend
  obtain rfl := Except.ok.inj hend
  exact hfirst

/-- What a path leads to from another path, it leads to from the location of that path.  The other
way round is wrong: the links on the way to the base count as well. -/
theorem resolve_join_of_resolve {base p : Path} (hbase : fs.resolve base = .ok top)
    (hp : p.isAbsolute = false) (h : fs.resolve (base.join p) = .ok l) :
    fs.resolve (top.path.join p) = .ok l := by
  obtain ⟨parts, hjoin, hparts⟩ := exists_segments_join base hp
  have hslash : ∀ part ∈ segments (base.join p).text.toList, '/' ∉ part :=
    fun _ => slash_not_mem_of_mem_segments
  have hway := leads_of_resolveFrom h
  rw [hjoin] at hslash hway
  obtain ⟨middle, links', hfirst, hle, hsecond, hend⟩ := hway.twoStages .root hslash
  have htop : fs.Leads maxLinks [] parts top := by
    have htop := leads_of_resolveFrom hbase
    have hslash : ∀ part ∈ segments base.text.toList, '/' ∉ part :=
      fun _ => slash_not_mem_of_mem_segments
    rcases hparts with hparts | hparts
    · rwa [hparts] at htop
    · rw [hparts] at htop hslash
      exact leads_of_append_empty htop hslash
  obtain rfl := htop.unique hfirst
  have hdir : fs.DirAt top := hend.resolve_left (segments_ne_nil _)
  rw [hdir.resolve_join hp]
  exact (hsecond.mono hle).resolveFrom_eq

end FileSystem

/-! ### The same shape -/

/-- The node without what it holds and without its mode, if it is a file. -/
def Node.bare : Node → Node
  | .file _ _ => .file .empty 0
  | node => node

namespace FileSystem

/-- The same locations with the same directories and links: all that may differ is what the files
hold, and their modes. -/
def SameShape (fs fs' : FileSystem) : Prop :=
  ∀ l, (fs.get? l).map Node.bare = (fs'.get? l).map Node.bare

namespace SameShape

variable {fs fs' fs'' : FileSystem} {l : Location} {content : ByteArray} {mode : Nat}

theorem refl (fs : FileSystem) : SameShape fs fs := fun _ => rfl

theorem symm (h : SameShape fs fs') : SameShape fs' fs := fun l => (h l).symm

theorem trans (h : SameShape fs fs') (h' : SameShape fs' fs'') : SameShape fs fs'' :=
  fun l => (h l).trans (h' l)

theorem get?_file (h : SameShape fs fs') (hget : fs.get? l = some (.file content mode)) :
    ∃ content' mode', fs'.get? l = some (.file content' mode') := by
  have hl := h l
  rw [hget] at hl
  obtain ⟨node, hnode, hbare⟩ := Option.map_eq_some_iff.1 hl.symm
  cases node with
  | file content' mode' => exact ⟨content', mode', hnode⟩
  | link target => simp [Node.bare] at hbare
  | dir mode' => simp [Node.bare] at hbare

/-- A node that is no file is the same. -/
theorem get?_eq (h : SameShape fs fs')
    (hfile : ∀ content mode, fs.get? l ≠ some (.file content mode)) : fs'.get? l = fs.get? l := by
  cases hnode' : fs'.get? l with
  | none =>
    have hl := h l
    rw [hnode'] at hl
    exact (Option.map_eq_none_iff.1 hl).symm
  | some node' =>
    cases node' with
    | file content mode =>
      obtain ⟨content', mode', hget⟩ := h.symm.get?_file hnode'
      exact absurd hget (hfile content' mode')
    | link target | dir mode =>
      have hl := h l
      rw [hnode'] at hl
      obtain ⟨node, hnode, hbare⟩ := Option.map_eq_some_iff.1 hl
      rw [hnode]
      cases node with
      | file content mode' => exact absurd hnode (hfile content mode')
      | link _ | dir _ => exact congrArg some hbare.symm

theorem get?_link (h : SameShape fs fs') {target : String} (hget : fs.get? l = some (.link target)) :
    fs'.get? l = some (.link target) := by
  rw [h.get?_eq (by simp [hget]), hget]

theorem get?_dir (h : SameShape fs fs') (hget : fs.get? l = some (.dir mode)) :
    fs'.get? l = some (.dir mode) := by
  rw [h.get?_eq (by simp [hget]), hget]

theorem get?_none (h : SameShape fs fs') (hget : fs.get? l = none) : fs'.get? l = none := by
  rw [h.get?_eq (by simp [hget]), hget]

theorem resolveFrom_eq (h : SameShape fs fs') (followLast : Bool) (links : Nat) (here : Location)
    (parts : List (List Char)) :
    fs.resolveFrom followLast links here parts = fs'.resolveFrom followLast links here parts := by
  fun_induction resolveFrom fs followLast links here parts with
  | case1 => rw [resolveFrom]
  | case2 _ _ _ _ _ hpart next hget =>
    rw [resolveFrom, hpart]
    simp [next, h.get?_none hget]
  | case3 _ _ _ _ _ hpart next _ hget ih =>
    rw [resolveFrom, hpart]
    simp [next, h.get?_dir hget, ih]
  | case4 _ _ _ _ _ hpart next _ _ hget hrest | case5 _ _ _ _ _ hpart next _ _ hget hrest =>
    obtain ⟨content', mode', hget'⟩ := h.get?_file hget
    rw [resolveFrom, hpart]
    simp [next, hget', hrest]
  | case6 _ _ _ _ _ hpart next _ hget hlast =>
    rw [resolveFrom, hpart]
    simp [next, h.get?_link hget, hlast]
  | case7 _ _ _ _ hpart next _ hget hlast =>
    rw [resolveFrom, hpart]
    simp [next, h.get?_link hget, hlast]
  | case8 _ _ _ _ hpart next _ hget hlast _ ih =>
    rw [resolveFrom, hpart]
    simpa [next, h.get?_link hget, hlast] using ih
  | case9 _ _ _ _ hpart ih =>
    rw [resolveFrom, hpart]
    exact ih
  | case10 _ _ _ _ hname hup ih =>
    rw [resolveFrom, ofSegment?_eq_none hname hup]
    exact ih

theorem resolve_eq (h : SameShape fs fs') (p : Path) : fs.resolve p = fs'.resolve p :=
  h.resolveFrom_eq true maxLinks [] (segments p.text.toList)

theorem isFile_eq (h : SameShape fs fs') (p : Path) : fs.isFile p = fs'.isFile p := by
  rw [Bool.eq_iff_iff, isFile_iff, isFile_iff, h.resolve_eq]
  constructor
  · rintro ⟨l, content, mode, hresolve, hget⟩
    obtain ⟨content', mode', hget'⟩ := h.get?_file hget
    exact ⟨l, content', mode', hresolve, hget'⟩
  · rintro ⟨l, content, mode, hresolve, hget⟩
    obtain ⟨content', mode', hget'⟩ := h.symm.get?_file hget
    exact ⟨l, content', mode', hresolve, hget'⟩

/-- A file is replaced by another one. -/
theorem set (hget : fs.get? l = some (.file content mode)) (content' : ByteArray) (mode' : Nat) :
    SameShape fs (fs.set l (.file content' mode')) := by
  intro l'
  have hne : l ≠ [] := by
    rintro rfl
    simp [get?] at hget
  rw [get?_set hne]
  split
  · rename_i heq
    subst heq
    rw [hget]
    rfl
  · rfl

end SameShape

/-- The same shape, and the files have their modes still. -/
structure SameTree (fs fs' : FileSystem) : Prop where
  shape : SameShape fs fs'
  mode : ∀ l content mode, fs.get? l = some (.file content mode) →
    ∃ content', fs'.get? l = some (.file content' mode)

namespace SameTree

variable {fs fs' fs'' : FileSystem}

theorem refl (fs : FileSystem) : SameTree fs fs := ⟨.refl fs, fun _ content _ h => ⟨content, h⟩⟩

theorem trans (h : SameTree fs fs') (h' : SameTree fs' fs'') : SameTree fs fs'' where
  shape := h.shape.trans h'.shape
  mode l content mode hget := by
    obtain ⟨content', hget'⟩ := h.mode l content mode hget
    exact h'.mode l content' mode hget'

/-- A file whose content is replaced keeps its place and its mode. -/
theorem set {l : Location} {content : ByteArray} {mode : Nat}
    (hget : fs.get? l = some (.file content mode)) (content' : ByteArray) :
    SameTree fs (fs.set l (.file content' mode)) where
  shape := .set hget content' mode
  mode l' content₀ mode₀ hget₀ := by
    have hne : l ≠ [] := by
      rintro rfl
      simp [get?] at hget
    rw [get?_set hne]
    split
    · rename_i heq
      subst heq
      obtain ⟨rfl, rfl⟩ := Node.file.inj (Option.some.inj (hget₀.symm.trans hget))
      exact ⟨content', rfl⟩
    · exact ⟨content₀, hget₀⟩

end SameTree

end FileSystem

end LogLift.Storage
