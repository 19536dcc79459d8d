import LogLift.Storage.Path

/-! A file system as a value: which node stands at which location, and the rule by which a path
leads to a location through links. -/

namespace LogLift.Storage

/-- A location: the names on the way down from the root, with no links among them but the last. -/
abbrev Location := List String

/-- Names with a slash between each two. -/
def slashed (names : List String) : List Char := ['/'].intercalate (names.map String.toList)

/-- The only path to a location that has no links, dots or doubled slashes in it. -/
def Location.path (l : Location) : Path := ⟨String.ofList ('/' :: slashed l)⟩

inductive Node where
  | file (content : ByteArray) (mode : Nat)
  | link (target : String)
  | dir (mode : Nat)

/-- The node with another mode.  A link has none of its own. -/
def Node.withMode (mode : Nat) : Node → Node
  | file content _ => file content mode
  | link target => link target
  | dir _ => dir mode

def fileMode : Nat := 0o644

def dirMode : Nat := 0o755

/-- The nodes below the root. -/
structure FileSystem where
  nodes : List (Location × Node)

inductive AccessError where
  | missing
  | notDirectory
  | isDirectory
  | linkLoop
  | notText
  /-- The host refused, for a reason of its own. -/
  | refused (reason : String)
  deriving Repr, DecidableEq

def AccessError.message : AccessError → String
  | missing => "No such file or directory (os error 2)"
  | notDirectory => "Not a directory (os error 20)"
  | isDirectory => "Is a directory (os error 21)"
  | linkLoop => "Too many levels of symbolic links (os error 40)"
  | notText => "stream did not contain valid UTF-8"
  | refused reason => reason

namespace FileSystem

def empty : FileSystem := ⟨[]⟩

/-- The node at a location.  The root is a directory. -/
def get? (fs : FileSystem) (l : Location) : Option Node :=
  if l = [] then some (.dir dirMode) else fs.nodes.lookup l

/-- The nodes with `node` at `l` and the others as they were. -/
def setNode (l : Location) (node : Node) : List (Location × Node) → List (Location × Node)
  | [] => [(l, node)]
  | entry :: rest => if entry.1 = l then (l, node) :: rest else entry :: setNode l node rest

def set (fs : FileSystem) (l : Location) (node : Node) : FileSystem := ⟨setNode l node fs.nodes⟩

/-- The file system without `l` and all that is below it. -/
def erase (fs : FileSystem) (l : Location) : FileSystem :=
  ⟨fs.nodes.filter fun entry => !l.isPrefixOf entry.1⟩

/-- The file system without the node at `l` itself. -/
def unlink (fs : FileSystem) (l : Location) : FileSystem :=
  ⟨fs.nodes.filter fun entry => entry.1 ≠ l⟩

/-- The file system with the node of `source` at `l`, in place of what stood there. -/
def move (fs : FileSystem) (source l : Location) : FileSystem :=
  match fs.get? source with
  | some node => (fs.unlink source).set l node
  | none => fs

/-- A location in a directory that nothing stands at: its name is longer than all that are in
use. -/
def unused (fs : FileSystem) (dir : Location) : Location :=
  let longest := fs.nodes.foldr (fun entry n => max (entry.1.getLastD "").length n) 0
  dir ++ [".tmp" ++ String.ofList (List.replicate longest '0')]

theorem lookup_setNode (l l' : Location) (node : Node) (nodes : List (Location × Node)) :
    (setNode l node nodes).lookup l' = if l' = l then some node else nodes.lookup l' := by
  induction nodes with
  | nil =>
    by_cases h : l' = l
    · simp [setNode, h]
    · have hb : (l' == l) = false := by simpa using h
      simp [setNode, List.lookup_cons, hb, h]
  | cons entry rest ih =>
    obtain ⟨k, n⟩ := entry
    by_cases hk : k = l
    · subst hk
      by_cases h : l' = k
      · simp [setNode, h]
      · have hb : (l' == k) = false := by simpa using h
        simp [setNode, List.lookup_cons, hb, h]
    · by_cases h : l' = k
      · subst h
        simp [setNode, hk]
      · have hb : (l' == k) = false := by simpa using h
        simp [setNode, hk, List.lookup_cons, hb, ih]

theorem get?_set {l : Location} (h : l ≠ []) (fs : FileSystem) (node : Node) (l' : Location) :
    (fs.set l node).get? l' = if l' = l then some node else fs.get? l' := by
  by_cases h' : l' = []
  · subst h'
    simp [get?, Ne.symm h]
  · simp [get?, set, h', lookup_setNode]

/-- The number of links that may be followed on one way. -/
def maxLinks : Nat := 40

/-- The location that `parts` lead to from the directory `here`.  A name must lead to a directory
when more parts follow.  A link is followed, from the directory it stands in, except when it is the
last part and `followLast` does not hold. -/
def resolveFrom (fs : FileSystem) (followLast : Bool) (links : Nat) (here : Location)
    (parts : List (List Char)) : Except AccessError Location :=
  match parts with
  | [] => .ok here
  | part :: rest =>
    match Component.ofSegment? part with
    | some (.name name) =>
      let next := here ++ [name]
      match fs.get? next with
      | none => .error .missing
      | some (.dir _) => fs.resolveFrom followLast links next rest
      | some (.file _ _) => if rest.isEmpty then .ok next else .error .notDirectory
      | some (.link target) =>
        if rest.isEmpty && !followLast then .ok next
        else
          match links with
          | 0 => .error .linkLoop
          | links + 1 =>
            fs.resolveFrom followLast links (if (Path.mk target).isAbsolute then [] else here)
              (segments target.toList ++ rest)
    | some .up => fs.resolveFrom followLast links here.dropLast rest
    | _ => fs.resolveFrom followLast links here rest
termination_by (links, parts.length)

/-- The location of an absolute path, links followed. -/
def resolve (fs : FileSystem) (p : Path) : Except AccessError Location :=
  fs.resolveFrom true maxLinks [] (segments p.text.toList)

/-- The location of an absolute path, which may be a link itself. -/
def locate (fs : FileSystem) (p : Path) : Except AccessError Location :=
  fs.resolveFrom false maxLinks [] (segments p.text.toList)

def node (fs : FileSystem) (p : Path) : Except AccessError (Location × Node) := do
  let l ← fs.resolve p
  match fs.get? l with
  | some node => return (l, node)
  | none => throw .missing

def isFile (fs : FileSystem) (p : Path) : Bool :=
  match fs.node p with
  | .ok (_, .file _ _) => true
  | _ => false

def read (fs : FileSystem) (p : Path) : Except AccessError ByteArray := do
  match ← fs.node p with
  | (_, .file content _) => return content
  | _ => throw .isDirectory

def readText (fs : FileSystem) (p : Path) : Except AccessError String := do
  match String.fromUTF8? (← fs.read p) with
  | some text => return text
  | none => throw .notText

def mode (fs : FileSystem) (p : Path) : Except AccessError Nat := do
  match ← fs.node p with
  | (_, .file _ mode) => return mode
  | (_, .dir mode) => return mode
  | (_, .link _) => throw .missing

/-- The location is reached from the directory `top` through directories alone. -/
def isBelow (fs : FileSystem) (top l : Location) : Bool :=
  top.isPrefixOf l && top.length < l.length &&
    (List.range (l.length - top.length - 1)).all fun k =>
      match fs.get? (l.take (top.length + 1 + k)) with
      | some (.dir _) => true
      | _ => false

/-- The files below `top`, by their names from there on. -/
def filesBelow (fs : FileSystem) (top : Location) : List Location :=
  fs.nodes.filterMap fun entry =>
    match fs.get? entry.1 with
    | some (.file _ _) => if fs.isBelow top entry.1 then some (entry.1.drop top.length) else none
    | _ => none

/-- The files that a walk from `root` comes to.  Links are not followed, but the root may be a link
to a directory. -/
def walk (fs : FileSystem) (root : Path) : List Path :=
  match fs.locate root, fs.resolve root with
  | .ok place, .ok top =>
    match fs.get? top with
    | some (.dir _) => (fs.filesBelow top).map fun names => root.join ⟨String.ofList (slashed names)⟩
    | some (.file _ _) => if place = top then [root] else []
    | _ => []
  | _, _ => []

end FileSystem

end LogLift.Storage
