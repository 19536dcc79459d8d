import LogLift.Command.Needs

/-! The program: it loads what a command needs, runs the command on that, prints, and writes the
files that were changed. -/

open LogLift.Storage LogLift.Command

/-- The file system with what `parts` lead to from `here`, and all that is below it if `deep`
holds.  A link is kept as a link to where it leads. -/
partial def loadParts (deep : Bool) (here : Location) (parts : List (List Char))
    (fs : FileSystem) : IO FileSystem := do
  match parts with
  | [] =>
    if !deep then return fs
    let mut fs := fs
    for entry in ← (← IO.FS.realPath here.path.text).readDir do
      let place := here ++ [entry.fileName]
      match (← entry.path.symlinkMetadata).type with
      | .dir => fs ← loadParts true place [] (fs.set place (.dir dirMode))
      | .file => fs := fs.set place (.file (← IO.FS.readBinFile place.path.text) fileMode)
      | _ => pure ()
    return fs
  | part :: rest =>
    match Component.ofSegment? part with
    | some (.name name) =>
      let place := here ++ [name]
      let target ← IO.FS.realPath place.path.text
      if target.toString != place.path.text then
        loadParts deep [] (segments target.toString.toList ++ rest)
          (fs.set place (.link target.toString))
      else
        match (← target.metadata).type with
        | .dir => loadParts deep place rest (fs.set place (.dir dirMode))
        | _ => return fs.set place (.file (← IO.FS.readBinFile place.path.text) fileMode)
    | some .up => loadParts deep here.dropLast rest fs
    | _ => loadParts deep here rest fs

/-- The file system with what is needed.  What cannot be read is left out. -/
def loadNeed (fs : FileSystem) (need : Need) : IO FileSystem :=
  match need with
  | .node path => attempt false path
  | .tree path => attempt true path
where
  attempt (deep : Bool) (path : Path) : IO FileSystem :=
    try loadParts deep [] (segments path.text.toList) fs catch _ => return fs

/-- The surroundings with all that a command needs.  Each round shows what the next one needs. -/
def load (s : Surroundings) (g : Given) : (rounds : Nat) → IO Surroundings
  | 0 => return s
  | rounds + 1 => do
    let fs ← (needs s g).foldlM loadNeed s.fs
    load { s with fs := fs } g rounds

def bytesAt (fs : FileSystem) (l : Location) : Option (Array UInt8) :=
  match fs.get? l with
  | some (.file content _) => some content.data
  | _ => none

def save (before after : FileSystem) : IO Unit :=
  after.nodes.forM fun (l, node) => do
    if let .file content _ := node then
      if bytesAt before l != some content.data then IO.FS.writeBinFile l.path.text content

/-- Text is coloured: always or never where a variable says so, and otherwise on a terminal. -/
def wantsColour : IO Bool := do
  let forced := (← IO.getEnv "CLICOLOR_FORCE").any (· != "0")
  let refused := (← IO.getEnv "NO_COLOR").isSome || (← IO.getEnv "CLICOLOR") == some "0"
  if forced then return true
  if refused then return false
  (← IO.getStdout).isTty

/-- The surroundings of the program, with nothing loaded. -/
def surroundings : IO Surroundings := do
  let cwd := (⟨(← IO.currentDir).toString⟩ : Path)
  return {
    fs := .empty
    hosts := fun _ => .willing
    cwd := cwd.components.filterMap fun
      | .name name => some name
      | _ => none
    home := (← IO.getEnv "HOME").map fun text => ⟨text⟩
    workspaceVariable := ← IO.getEnv workspaceVariableName
    colour := ← wantsColour
    logging := (← IO.getEnv "RUST_LOG") != some "off" }

def main (args : List String) : IO UInt32 := do
  let mut s ← surroundings
  if let .ok invocation := readInvocation 0 args then
    s ← load s invocation.given 3
  let result := LogLift.Command.run s args
  IO.print result.transcript.out
  IO.eprint result.transcript.err
  save s.fs result.fs
  return result.exitCode.toUInt32
