import RpcContract.Generation.Plan
import RpcContract.Settings.Environment
import RpcContract.Toml.Document

/-!
# Settings

The settings of the generator are read from a file: the one that is named, else the one beside the
contract.  Two of them can be set by variables, which count more than the file unless they are
empty.
-/

namespace RpcContract

structure Settings where
  outDir : Path := ⟨".rpcforge"⟩
  apiRoot : String := "/api"
  imports : List String := []
  templates : List String := []
  overrides : Dict Generation.Override := {}
  dump : Generation.DumpTarget := .disabled
  formatter : Option (List String) := none
  metadata : Dict (Dict Json) := {}
deriving DecidableEq, Repr

inductive SettingsError where
  | unreadable (path : Path) (fault : FileFault)
  | malformed (path : Path)
deriving DecidableEq, Repr

/-- The wording of a failure; what is wrong with the form of a file is said elsewhere. -/
def SettingsError.message (formText : String) : SettingsError → String
  | .unreadable path fault =>
      "Failed to read generator config: " ++ path.text ++ ": " ++ fault.message
  | .malformed path => "Failed to parse generator config: " ++ path.text ++ ": " ++ formText

namespace Settings

def fileName : String := "rpcforge.toml"

def readField (form : Notation) (key : String) (tree : Tree) (settings : Settings) :
    Except ReadError Settings := do
  match key with
  | "out_dir" => return { settings with outDir := ⟨← Reading.path form tree⟩ }
  | "api_root" => return { settings with apiRoot := ← Reading.string form tree }
  | "imports" => return { settings with imports := ← Reading.list Reading.string form tree }
  | "templates" => return { settings with templates := ← Reading.list Reading.string form tree }
  | "template_overrides" =>
      return { settings with overrides := ← Reading.dict Generation.Override.read form tree }
  | "full_schema" => return { settings with dump := ← Generation.DumpTarget.read form tree }
  | "formatter" =>
      let command ← Reading.optional (Reading.list Reading.string) form tree
      return { settings with formatter := command }
  | _ => return { settings with metadata := ← Reading.dict (Reading.object 2) form tree }

def format : Reading.RecordFormat Settings where
  name := "GeneratorConfig"
  fields := ["out_dir", "api_root", "imports", "templates", "template_overrides", "full_schema",
    "formatter", "segment_meta"].map fun name => (name, true)
  empty := {}
  read := readField

def ofText (text : String) : Option Settings := do
  let tree ← Toml.read? text
  (format.run .jsonValue tree).toOption

def toJson (settings : Settings) : Json :=
  .obj [
    ("out_dir", .str settings.outDir.text),
    ("api_root", .str settings.apiRoot),
    ("imports", .arr (settings.imports.map .str)),
    ("templates", .arr (settings.templates.map .str)),
    ("template_overrides", .ofDict (settings.overrides.mapWithKey fun _ o => o.toJson)),
    ("full_schema", settings.dump.toJson),
    ("formatter", .ofOption (settings.formatter.map fun words => .arr (words.map .str))),
    ("segment_meta", .ofDict (settings.metadata.mapWithKey fun _ fields => .ofDict fields))
  ]

/-- Templates of one's own are found from the directory of the file that names them. -/
def relativeTo (base : Path) (settings : Settings) : Settings :=
  { settings with overrides := settings.overrides.mapWithKey fun _ override =>
      { override with path := base.join override.path } }

def load (tree : FileTree) (path : Path) : Except SettingsError (Option Settings) :=
  if !tree.has path then .ok none
  else
    match tree.readText path with
    | .error fault => .error (.unreadable path fault)
    | .ok text =>
        match ofText text with
        | none => .error (.malformed path)
        | some settings => .ok (some (settings.relativeTo (path.parent?.getD ⟨""⟩)))

def detect (tree : FileTree) (contractPath : Path) : Option Path :=
  (contractPath.parent?.map fun directory => directory.join ⟨fileName⟩).filter tree.has

/-- The file that is named if it is there, else the one beside the contract. -/
def choose (tree : FileTree) (explicit : Option Path) (contractPath : Path) : Option Path :=
  (explicit.filter tree.has).orElse fun _ => detect tree contractPath

def applyEnvironment (environment : Environment) (settings : Settings) : Settings :=
  { settings with
    outDir := ((environment.nonEmpty? outDirVariable).map Path.mk).getD settings.outDir
    apiRoot := (environment.nonEmpty? apiRootVariable).getD settings.apiRoot }

/-- The settings of a run: those of the chosen file, or the standard ones, under the variables. -/
def resolve (tree : FileTree) (environment : Environment) (explicit : Option Path)
    (contractPath : Path) : Except SettingsError Settings := do
  let found ← match choose tree explicit contractPath with
    | some path => load tree path
    | none => pure none
  return applyEnvironment environment (found.getD {})

def selection (settings : Settings) : Generation.Selection :=
  ⟨settings.templates, settings.overrides⟩

def options (settings : Settings) : Generation.Options where
  outDir := settings.outDir
  apiRoot := settings.apiRoot
  imports := settings.imports
  dump := settings.dump
  formatter := settings.formatter
  metadata := settings.metadata

end Settings

end RpcContract
