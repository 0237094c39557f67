import RpcContract.Files.Path

/-!
# Trees of files

`FileTree` is a file system as a value: which files, directories and links there are.  Reading
follows links; writing and making directories give a new tree.  An operation that fails says why and
changes nothing.
-/

namespace RpcContract

inductive Content where
  | text (text : String)
  | bytes (bytes : List UInt8)
deriving DecidableEq, Repr, Inhabited

inductive FileNode where
  | file (content : Content)
  | dir
  | link (target : Path)
deriving DecidableEq, Repr, Inhabited

inductive FileFault where
  | notFound
  | exists
  | notDirectory
  | isDirectory
  | nameTooLong
  | tooManyLinks
  | nullInName
  | notText
deriving DecidableEq, Repr

def FileFault.message : FileFault → String
  | .notFound => "No such file or directory (os error 2)"
  | .exists => "File exists (os error 17)"
  | .notDirectory => "Not a directory (os error 20)"
  | .isDirectory => "Is a directory (os error 21)"
  | .nameTooLong => "File name too long (os error 36)"
  | .tooManyLinks => "Too many levels of symbolic links (os error 40)"
  | .nullInName => "file name contained an unexpected NUL byte"
  | .notText => "stream did not contain valid UTF-8"

abbrev Location := List String

/-- Nodes by their locations, and the location that relative paths start from. -/
structure FileTree where
  nodes : List (Location × FileNode)
  current : Location
deriving DecidableEq, Repr, Inhabited

namespace FileTree

def lookupNode (at_ : Location) : List (Location × FileNode) → Option FileNode
  | [] => none
  | (location, node) :: rest => if location = at_ then some node else lookupNode at_ rest

/-- The node at a location; the root is always a directory. -/
def node? (tree : FileTree) (location : Location) : Option FileNode :=
  if location.isEmpty then some .dir else lookupNode location tree.nodes

def insertNode (at_ : Location) (node : FileNode) :
    List (Location × FileNode) → List (Location × FileNode)
  | [] => [(at_, node)]
  | (location, old) :: rest =>
      if location = at_ then (at_, node) :: rest else (location, old) :: insertNode at_ node rest

def insert (tree : FileTree) (location : Location) (node : FileNode) : FileTree :=
  { tree with nodes := insertNode location node tree.nodes }

def remove (tree : FileTree) (location : Location) : FileTree :=
  { tree with nodes := tree.nodes.filter fun entry => !location.isPrefixOf entry.1 }

/-! ## Following a path -/

inductive Found where
  | node (location : Location) (node : FileNode)
  | nothing (location : Location) (slash : Bool)
deriving DecidableEq, Repr

def longestName : Nat := 255

/-- Follows the pieces of a path from a directory; `again` follows the pieces of a link. -/
def follow (again : Location → List String → Except FileFault Found) (tree : FileTree)
    (final : Bool) : Location → List String → Except FileFault Found
  | location, [] => .ok (.node location .dir)
  | location, piece :: rest =>
      if piece = "" ∨ piece = "." then follow again tree final location rest
      else if piece = ".." then follow again tree final location.dropLast rest
      else if longestName < piece.utf8ByteSize then .error .nameTooLong
      else
        let location' := location ++ [piece]
        match tree.node? location' with
        | none =>
            if rest.all String.isEmpty then .ok (.nothing location' !rest.isEmpty)
            else .error .notFound
        | some .dir => follow again tree final location' rest
        | some (.file content) =>
            if rest = [] then .ok (.node location' (.file content)) else .error .notDirectory
        | some (.link target) =>
            if rest = [] ∧ !final then .ok (.node location' (.link target))
            else again (if target.isAbsolute then [] else location) (target.pieces ++ rest)

def linkLimit : Nat := 40

def walk (tree : FileTree) (final : Bool) : (links : Nat) → Location → List String →
    Except FileFault Found
  | 0 => follow (fun _ _ => .error .tooManyLinks) tree final
  | links + 1 => follow (walk tree final links) tree final

/-- Follows pieces from where a path starts; a link at their end is followed if `final`. -/
def findPieces (tree : FileTree) (final : Bool) (path : Path) (pieces : List String) :
    Except FileFault Found :=
  if path.text.isEmpty then .error .notFound
  else if path.text.toList.contains '\x00' then .error .nullInName
  else walk tree final linkLimit (if path.isAbsolute then [] else tree.current) pieces

def find (tree : FileTree) (final : Bool) (path : Path) : Except FileFault Found :=
  tree.findPieces final path path.pieces

/-- Where the last name of a path stands; a link there is not followed, also before slashes. -/
def findEntry (tree : FileTree) (path : Path) : Except FileFault Found :=
  tree.findPieces false path path.stem

def has (tree : FileTree) (path : Path) : Bool :=
  match tree.find true path with
  | .ok (.node _ _) => true
  | _ => false

def isDirectory (tree : FileTree) (path : Path) : Bool :=
  match tree.find true path with
  | .ok (.node _ .dir) => true
  | _ => false

/-! ## Reading and writing -/

def read (tree : FileTree) (path : Path) : Except FileFault Content := do
  match ← tree.find true path with
  | .node _ (.file content) => return content
  | .node _ .dir => throw .isDirectory
  | .node _ (.link _) => throw .tooManyLinks
  | .nothing _ _ => throw .notFound

def readText (tree : FileTree) (path : Path) : Except FileFault String := do
  match ← tree.read path with
  | .text text => return text
  | .bytes _ => throw .notText

def write (tree : FileTree) (path : Path) (content : Content) : Except FileFault FileTree := do
  if path.text.toList.getLast? = some '/' then
    let _ ← tree.findEntry path
    throw .isDirectory
  match ← tree.find true path with
  | .node location (.file _) | .nothing location false =>
      return tree.insert location (.file content)
  | _ => throw .isDirectory

def makeDirectory (tree : FileTree) (path : Path) : Except FileFault FileTree := do
  match ← tree.findEntry path with
  | .node _ _ => throw .exists
  | .nothing location _ => return tree.insert location .dir

/-- Makes a directory and those above it that are missing; what has been made stays when it fails.
-/
def makeDirectoriesAt : (fuel : Nat) → FileTree → Path → FileTree × Except FileFault Unit
  | 0, tree, _ => (tree, .error .notFound)
  | fuel + 1, tree, path =>
      let orThere (tree : FileTree) (fault : FileFault) : FileTree × Except FileFault Unit :=
        (tree, if tree.isDirectory path then .ok () else .error fault)
      if path.text.isEmpty then (tree, .ok ())
      else
        match tree.makeDirectory path with
        | .ok tree => (tree, .ok ())
        | .error .notFound =>
            match path.parent? with
            | none => (tree, .error .notFound)
            | some above =>
                match makeDirectoriesAt fuel tree above with
                | (tree, .error fault) => (tree, .error fault)
                | (tree, .ok ()) =>
                    match tree.makeDirectory path with
                    | .ok tree => (tree, .ok ())
                    | .error fault => orThere tree fault
        | .error fault => orThere tree fault

def makeDirectories (tree : FileTree) (path : Path) : FileTree × Except FileFault Unit :=
  makeDirectoriesAt (path.text.length + 1) tree path

/-! ## Listing -/

def insertByName (entry : String × FileNode) :
    List (String × FileNode) → List (String × FileNode)
  | [] => [entry]
  | other :: rest =>
      if entry.1 < other.1 then entry :: other :: rest else other :: insertByName entry rest

def children (tree : FileTree) (location : Location) : List (String × FileNode) :=
  (tree.nodes.filterMap fun (at_, node) =>
    match at_.getLast? with
    | some name => if at_.dropLast = location then some (name, node) else none
    | none => none).foldr insertByName []

/-- Everything below a directory that is no directory, by the names that lead there. -/
def filesBelow (tree : FileTree) : (depth : Nat) → Location → List (List String)
  | 0, _ => []
  | depth + 1, location =>
      (tree.children location).flatMap fun (name, node) =>
        match node with
        | .dir => (filesBelow tree depth (location ++ [name])).map (name :: ·)
        | _ => [[name]]

def depth (tree : FileTree) : Nat := (tree.nodes.map (·.1.length)).foldl max 0

/-! ## Comparing -/

def changesFrom (tree before : FileTree) : List (Location × FileNode) :=
  tree.nodes.filter fun (location, node) => before.node? location != some node

end FileTree

end RpcContract
