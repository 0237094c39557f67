import RpcContract.Files.Path
import RpcContract.Reading.Record

/-!
# Dumps of the contract

A run may write the contract itself beside the clients.  Where it goes is written as `false`,
`true` or a file name.  `dumpPaths` gives the paths of a run: first its own, then those of its
templates, each path once.
-/

namespace RpcContract.Generation

inductive DumpTarget where
  | disabled
  | standard
  | file (name : String)
deriving DecidableEq, Repr, Inhabited

namespace DumpTarget

def standardName : String := "full-schema.json"

def fileName? : DumpTarget → Option String
  | .disabled => none
  | .standard => some standardName
  | .file name => some name

def isEnabled (target : DumpTarget) : Bool := target.fileName?.isSome

def read : Reading.Reader DumpTarget := fun form tree =>
  match Reading.flag form tree with
  | .ok true => pure .standard
  | .ok false => pure .disabled
  | .error _ =>
      match Reading.string form tree with
      | .ok name => pure (.file name)
      | .error _ => throw (.noVariant "FullSchemaRepr")

def toJson : DumpTarget → Json
  | .disabled => .bool false
  | .standard => .bool true
  | .file name => .str name

end DumpTarget

def dumpPath? (directory : Path) (target : DumpTarget) : Option Path :=
  target.fileName?.map fun name => directory.join ⟨name⟩

/-- The paths that the contract is written to: in the output directory, and beside the output of
every template that wants it. -/
def dumpPaths (outDir : Path) (target : DumpTarget) (templates : List (Path × DumpTarget)) :
    List Path :=
  let own := (dumpPath? outDir target).toList
  let beside := templates.filterMap fun (out, target) =>
    dumpPath? (outDir.join (out.parent?.getD ⟨""⟩)) target
  Path.distinct (own ++ beside)

def parentDirectories (paths : List Path) : List Path :=
  Path.sortDistinct ((paths.filterMap Path.parent?).filter fun path => !path.text.isEmpty)

end RpcContract.Generation
