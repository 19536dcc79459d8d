import LogLift.Storage.FileSystem

/-! Changes to a file system that come from elsewhere: files written, links and directories made,
nodes removed, modes set. -/

namespace LogLift.Storage.FileSystem

/-- The directory that `parts` lead to from `here`, made where it is missing. -/
def makeDirsFrom (fs : FileSystem) (here : Location) :
    (parts : List (List Char)) → Except AccessError (FileSystem × Location)
  | [] => .ok (fs, here)
  | part :: rest =>
    match Component.ofSegment? part with
    | some (.name name) =>
      match fs.get? (here ++ [name]) with
      | none =>
        (fs.set (here ++ [name]) (.dir dirMode)).makeDirsFrom (here ++ [name]) rest
      | some _ =>
        match fs.resolveFrom true maxLinks here [part, []] with
        | .ok l => fs.makeDirsFrom l rest
        | .error error => .error error
    | some .up => fs.makeDirsFrom here.dropLast rest
    | _ => fs.makeDirsFrom here rest

def makeDir (fs : FileSystem) (p : Path) : Except AccessError FileSystem :=
  (fs.makeDirsFrom [] (segments p.text.toList)).map (·.1)

/-- The file system with `node` at `p` itself, whatever stood there. -/
def place (fs : FileSystem) (p : Path) (node : Node) : Except AccessError FileSystem := do
  let parts := segments p.text.toList
  let (fs, dir) ← fs.makeDirsFrom [] parts.dropLast
  return fs.set (dir ++ [String.ofList (parts.getLastD [])]) node

def makeLink (fs : FileSystem) (p : Path) (target : String) : Except AccessError FileSystem :=
  fs.place p (.link target)

/-- The file system with `content` in the file that `p` leads to.  A file that exists keeps its
mode. -/
def write (fs : FileSystem) (p : Path) (content : ByteArray) : Except AccessError FileSystem :=
  match fs.node p with
  | .ok (l, .file _ mode) => .ok (fs.set l (.file content mode))
  | .ok _ => .error .isDirectory
  | .error _ => fs.place p (.file content fileMode)

def remove (fs : FileSystem) (p : Path) : Except AccessError FileSystem :=
  (fs.locate p).map fs.erase

def setMode (fs : FileSystem) (p : Path) (mode : Nat) : Except AccessError FileSystem := do
  let (l, node) ← fs.node p
  return fs.set l (node.withMode mode)

end LogLift.Storage.FileSystem
