import RpcContract.Client.Builtin
import RpcContract.Generation.Error
import RpcContract.Generation.Target

/-!
# Selected templates

A `Selection` names templates; templates of one's own stand before built-in ones of the same name.
`Selection.resolve` expands the names into files, in the order of the names and, below a directory,
of the file names.  No two of them write the same output.
-/

namespace RpcContract.Generation

inductive TemplateSource where
  | builtin (text : String)
  | file (path : Path)
deriving DecidableEq, Repr

/-- A file to be rendered: the name it was selected by, its own path, the output relative to the
output directory, the dump it wants beside it, and where its text is. -/
structure TemplateFile where
  name : String
  path : String
  out : Path
  dump : DumpTarget
  source : TemplateSource
deriving DecidableEq, Repr

structure Override where
  path : Path
  dump : DumpTarget := .disabled
deriving DecidableEq, Repr, Inhabited

structure Selection where
  names : List String := []
  overrides : Dict Override := {}
deriving DecidableEq, Repr

def noTemplates : String := "none"

def standardTemplate : String := "ts"

namespace Override

private structure Draft where
  path : Path := ⟨""⟩
  dump : DumpTarget := .disabled

private def format : Reading.RecordFormat Draft where
  name := "TemplateOverride"
  fields := [("path", false), ("full_schema", true)]
  empty := {}
  read form key tree draft :=
    if key = "path" then do return { draft with path := ⟨← Reading.path form tree⟩ }
    else do return { draft with dump := ← DumpTarget.read form tree }

def read : Reading.Reader Override := fun form tree => do
  let draft ← format.run form tree
  return ⟨draft.path, draft.dump⟩

def toJson (override : Override) : Json :=
  .obj [("path", .str override.path.text), ("full_schema", override.dump.toJson)]

end Override

def outputPath (relative : String) : Path :=
  if Client.isTemplate relative then
    ⟨(relative.dropEnd Client.templateSuffix.length).toString⟩
  else ⟨relative⟩

namespace Selection

def ofBuiltin (builtin : Client.Builtin) : TemplateFile where
  name := builtin.name
  path := builtin.path
  out := outputPath builtin.path
  dump := if builtin.dumps then .standard else .disabled
  source := .builtin builtin.text

private def fileOf (name : String) (dump : DumpTarget) (path : Path) (relative : String) :
    TemplateFile :=
  ⟨name, path.text, outputPath relative, dump, .file path⟩

/-- The files of a template of one's own.  A directory that is reached by a link counts itself as
one of them. -/
def ofOverride (tree : FileTree) (name : String) (override : Override) :
    Except Error (List TemplateFile) :=
  match tree.find true override.path with
  | .error fault => .error (.missingTemplate name override.path fault)
  | .ok (.nothing _ _) => .error (.missingTemplate name override.path .notFound)
  | .ok (.node location .dir) =>
      let linked := match tree.find false override.path with
        | .ok (.node _ (.link _)) => [[]]
        | _ => []
      let below := linked ++ tree.filesBelow (tree.depth + 1) location
      .ok (below.map fun names =>
        let relative := "/".intercalate names
        fileOf name override.dump (override.path.join ⟨relative⟩) relative)
  | .ok (.node _ _) =>
      match override.path.fileName? with
      | none => .error (.unnamedTemplate override.path)
      | some file => .ok [fileOf name override.dump override.path file]

def expand (selection : Selection) (tree : FileTree) (name : String) :
    Except Error (List TemplateFile) :=
  match selection.overrides.get? name with
  | some override => ofOverride tree name override
  | none =>
      match Client.builtin? name with
      | some builtin => .ok [ofBuiltin builtin]
      | none =>
          .error (.unknownTemplate name
            (Client.builtins.map (·.name) ++ selection.overrides.keys))

/-- Fails on the first file that writes the same output as an earlier one. -/
def checkOutputs : (before after : List TemplateFile) → Except Error Unit
  | _, [] => .ok ()
  | before, file :: rest =>
      match before.find? fun other => other.out.same file.out with
      | some other => .error (.sameOutput other.name file.name file.out)
      | none => checkOutputs (before ++ [file]) rest

def resolve (selection : Selection) (tree : FileTree) : Except Error (List TemplateFile) := do
  let names := if selection.names.isEmpty then [standardTemplate] else selection.names
  if names.contains noTemplates then
    if 1 < names.length then throw .noneCombined
    return []
  let files := (← names.mapM (selection.expand tree)).flatten
  checkOutputs [] files
  return files

end Selection

end RpcContract.Generation
