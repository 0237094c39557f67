/-!
# Paths

A path is kept as the text that was given.  Two paths are the same if their components are: doubled
slashes and single points do not count, except for a point at the start.  Paths are in the order of
their components.
-/

namespace RpcContract

structure Path where
  text : String
deriving DecidableEq, Repr, Inhabited

namespace Path

inductive Component where
  | root
  | here
  | up
  | name (name : String)
deriving DecidableEq, Repr

def splitSlash : List Char → List (List Char)
  | [] => [[]]
  | c :: rest =>
      if c = '/' then [] :: splitSlash rest
      else
        match splitSlash rest with
        | [] => [[c]]
        | piece :: pieces => (c :: piece) :: pieces

/-- The pieces of a path between its slashes, also empty ones. -/
def pieces (path : Path) : List String := (splitSlash path.text.toList).map String.ofList

def stem (path : Path) : List String := (path.pieces.reverse.dropWhile String.isEmpty).reverse

def inner? (piece : String) : Option Component :=
  if piece = "" ∨ piece = "." then none
  else if piece = ".." then some .up
  else some (.name piece)

def components (path : Path) : List Component :=
  match path.pieces with
  | [] => []
  | first :: rest =>
      let head : List Component :=
        if first = "" then (if rest.isEmpty then [] else [.root])
        else if first = "." then [.here]
        else (inner? first).toList
      head ++ rest.filterMap inner?

def same (a b : Path) : Bool := a.components = b.components

def isAbsolute (path : Path) : Bool := path.text.toList.head? == some '/'

/-- A path below another one; an absolute path stays as it is. -/
def join (base rest : Path) : Path :=
  if rest.isAbsolute then rest
  else if base.text.isEmpty || base.text.toList.getLast? == some '/' then
    ⟨base.text ++ rest.text⟩
  else ⟨base.text ++ "/" ++ rest.text⟩

/-! ## From the end -/

def dropTail : List Char → List Char
  | '/' :: c :: rest => dropTail (c :: rest)
  | '.' :: '/' :: rest => dropTail ('/' :: rest)
  | cs => cs

/-- The path without its last component; none for a root or an empty path. -/
def parent? (path : Path) : Option Path :=
  match dropTail path.text.toList.reverse with
  | [] => none
  | ['/'] => none
  | cs => some ⟨String.ofList (dropTail (cs.dropWhile (· != '/'))).reverse⟩

def fileName? (path : Path) : Option String :=
  match path.components.getLast? with
  | some (.name name) => some name
  | _ => none

def extension? (path : Path) : Option String :=
  match path.fileName? with
  | none => none
  | some name =>
      let cs := name.toList.reverse
      let tail := cs.takeWhile (· != '.')
      match cs.dropWhile (· != '.') with
      | [] | ['.'] => none
      | _ => some (String.ofList tail.reverse)

/-! ## Order -/

def Component.rank : Component → Nat
  | .root => 0
  | .here => 1
  | .up => 2
  | .name _ => 3

def Component.order : Component → Component → Ordering
  | .name a, .name b => compare a b
  | a, b => compare a.rank b.rank

def orderComponents : List Component → List Component → Ordering
  | [], [] => .eq
  | [], _ :: _ => .lt
  | _ :: _, [] => .gt
  | a :: as, b :: bs => (a.order b).then (orderComponents as bs)

def order (a b : Path) : Ordering := orderComponents a.components b.components

def insertSorted (path : Path) : List Path → List Path
  | [] => [path]
  | other :: rest =>
      match path.order other with
      | .lt => path :: other :: rest
      | .eq => other :: rest
      | .gt => other :: insertSorted path rest

/-- Paths in ascending order; of several that are the same the first is kept. -/
def sortDistinct (paths : List Path) : List Path :=
  paths.foldl (fun sorted path => insertSorted path sorted) []

def distinct (paths : List Path) : List Path :=
  paths.foldl (fun kept path => if kept.any (same path) then kept else kept ++ [path]) []

end Path

end RpcContract
