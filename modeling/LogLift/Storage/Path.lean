/-! Paths.  A path is kept as it was written, but two paths are compared by their components, so
that doubled slashes and dots in between make no difference. -/

namespace LogLift.Storage

/-- The parts of a text between its slashes.  Two slashes in a row have an empty part between
them. -/
def segments : List Char → List (List Char)
  | [] => [[]]
  | '/' :: cs => [] :: segments cs
  | c :: cs =>
    match segments cs with
    | [] => [[c]]
    | segment :: rest => (c :: segment) :: rest

structure Path where
  text : String
  deriving Repr, DecidableEq

/-- A part of a path that counts in a comparison. -/
inductive Component where
  | root
  | here
  | up
  | name (text : String)
  deriving Repr, DecidableEq

namespace Component

/-- The place of the kinds of components in their order. -/
def rank : Component → Nat
  | root => 0
  | here => 1
  | up => 2
  | name _ => 3

def text : Component → String
  | root => "/"
  | here => "."
  | up => ".."
  | name text => text

/-- Components in order: by their kind, and names by their characters. -/
def order (a b : Component) : Ordering := (compare a.rank b.rank).then (compare a.text b.text)

/-- The component of a segment that is not the first.  An empty one and a single dot have none. -/
def ofSegment? (segment : List Char) : Option Component :=
  if segment = [] ∨ segment = ['.'] then none
  else if segment = ['.', '.'] then some .up
  else some (.name (String.ofList segment))

end Component

namespace Path

def isAbsolute (p : Path) : Bool := p.text.toList.head? == some '/'

def components (p : Path) : List Component :=
  match segments p.text.toList with
  | [] => []
  | first :: rest =>
    let head : Option Component :=
      if p.isAbsolute then some .root
      else if first = ['.'] then some .here
      else Component.ofSegment? first
    head.toList ++ rest.filterMap Component.ofSegment?

def same (a b : Path) : Bool := a.components == b.components

/-- Paths in order, component by component. -/
def le (a b : Path) : Bool := (List.compareLex Component.order a.components b.components).isLE

/-- `other` as seen from `base`.  An absolute path stands for itself. -/
def join (base other : Path) : Path :=
  if other.isAbsolute then other
  else if base.text.isEmpty || base.text.toList.getLast? == some '/' then
    ⟨base.text ++ other.text⟩
  else ⟨base.text ++ "/" ++ other.text⟩

/-- The path of the given components, with one slash between each two. -/
def ofComponents (components : List Component) : Path :=
  let slashed (components : List Component) : List Char :=
    ['/'].intercalate (components.map (·.text.toList))
  match components with
  | .root :: rest => ⟨String.ofList ('/' :: slashed rest)⟩
  | components => ⟨String.ofList (slashed components)⟩

/-- The path without its last component.  The root has no parent, and neither has the empty path. -/
def parent? (p : Path) : Option Path :=
  match p.components.getLast? with
  | none => none
  | some .root => none
  | some _ => some (ofComponents p.components.dropLast)

/-- The text of a path without its first `count` components. -/
def dropComponents (count : Nat) (parts : List (List Char)) : List (List Char) :=
  match parts with
  | [] => []
  | part :: rest =>
    match count, Component.ofSegment? part with
    | _, none => dropComponents count rest
    | 0, some _ => part :: rest
    | count + 1, some _ => dropComponents count rest

/-- The path as it is written below `base`: what is left of the text after the components of
`base`, or the whole text when it is not below. -/
def nameBelow (p base : Path) : String :=
  if p.isAbsolute && base.components.isPrefixOf p.components then
    let rest := dropComponents (base.components.length - 1) (segments p.text.toList)
    String.ofList (['/'].intercalate rest)
  else p.text

/-- The part of the last component after its last dot.  A name that has no other dot than its
first character has no such part. -/
def extension? (p : Path) : Option String :=
  match p.components.getLast? with
  | some (.name text) =>
    let reversed := text.toList.reverse
    match reversed.dropWhile (· != '.') with
    | _ :: _ :: _ => some (String.ofList (reversed.takeWhile (· != '.')).reverse)
    | _ => none
  | _ => none

end Path

end LogLift.Storage
