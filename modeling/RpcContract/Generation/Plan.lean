import RpcContract.Contract.Format
import RpcContract.Generation.Output

/-!
# Runs

`generate` renders the selected templates for segments of a contract and writes what has changed.
Everything is rendered before anything is written: `plan` decides, on the files as they are, what
is to be written, and `Plan.carryOut` writes it.
-/

namespace RpcContract.Generation

structure Options where
  outDir : Path := ⟨".rpcforge"⟩
  apiRoot : String := "/api"
  imports : List String := []
  dump : DumpTarget := .disabled
  formatter : Option (List String) := none
  metadata : Dict (Dict Json) := {}
  forceLog : Bool := false
deriving DecidableEq, Repr

structure Report where
  written : Bool
  path : Path
  /-- Names of templates with a changed output, each once. -/
  changed : List String
deriving DecidableEq, Repr

/-- What a run writes: first the dumps, all with one text, then the outputs that have changed. -/
structure Plan where
  outDir : Path
  dumps : List Path
  dumpText : String
  outputs : List Output
deriving DecidableEq, Repr

def withMetadata (segments : List Segment) (metadata : Dict (Dict Json)) : List Segment :=
  segments.map fun segment =>
    match metadata.get? segment.name with
    | none => segment
    | some more =>
        let fields := more.toList.foldl (fun fields entry => fields.insert entry.1 entry.2)
          (segment.metadata.getD {})
        { segment with metadata := some fields }

def distinctNames (names : List String) : List String :=
  names.foldl (fun kept name => if kept.contains name then kept else kept ++ [name]) []

def plan (tree : FileTree) (contract : Contract) (segments : List Segment) (selection : Selection)
    (options : Options) (banner : String) (format : Formatting := Formatter.format) :
    Except Error Plan := do
  let files ← selection.resolve tree
  let assembled ← (contract.assemble (segments.map (·.name))).mapError .missingSegment
  let context := Client.Context.ofSegments options.apiRoot options.imports assembled
    (withMetadata segments options.metadata) banner
  let outputs ← files.mapM fun file =>
    file.render tree context options.formatter options.outDir format
  return {
    outDir := options.outDir
    dumps := dumpPaths options.outDir options.dump (files.map fun file => (file.out, file.dump))
    dumpText := assembled.emitted.dump
    outputs := outputs.filter (·.changed) }

namespace Plan

def isEmpty (plan : Plan) : Bool := plan.dumps.isEmpty && plan.outputs.isEmpty

def paths (plan : Plan) : List Path := plan.dumps ++ plan.outputs.map (·.path)

def writeDumps (text : String) : FileTree → List Path → FileTree × Except Error Unit
  | tree, [] => (tree, .ok ())
  | tree, path :: rest =>
      match tree.write path (.text text) with
      | .ok tree => writeDumps text tree rest
      | .error fault => (tree, .error (.noDump path fault))

/-- Writes all outputs; of those that fail the first one is reported. -/
def writeOutputs : FileTree → List Output → FileTree × Except Error Unit
  | tree, [] => (tree, .ok ())
  | tree, output :: rest =>
      match tree.write output.path (.text output.text) with
      | .ok tree => writeOutputs tree rest
      | .error fault => ((writeOutputs tree rest).1, .error (.noOutput output.path fault))

def makeParents : FileTree → List Path → FileTree × Except Error Unit
  | tree, [] => (tree, .ok ())
  | tree, path :: rest =>
      match tree.makeDirectories path with
      | (tree, .ok ()) => makeParents tree rest
      | (tree, .error fault) => (tree, .error (.noDirectory path fault))

def carryOut (plan : Plan) (tree : FileTree) : FileTree × Except Error Unit :=
  match tree.makeDirectories plan.outDir with
  | (tree, .error fault) => (tree, .error (.noOutputDirectory plan.outDir fault))
  | (tree, .ok ()) =>
      match makeParents tree (parentDirectories plan.paths) with
      | (tree, .error error) => (tree, .error error)
      | (tree, .ok ()) =>
          match writeDumps plan.dumpText tree plan.dumps with
          | (tree, .error error) => (tree, .error error)
          | (tree, .ok ()) => writeOutputs tree plan.outputs

def report (plan : Plan) : Report :=
  ⟨!plan.isEmpty, plan.outDir, distinctNames (plan.outputs.map (·.name))⟩

end Plan

def generate (tree : FileTree) (contract : Contract) (segments : List Segment)
    (selection : Selection) (options : Options) (banner : String)
    (format : Formatting := Formatter.format) : FileTree × Except Error Report :=
  match plan tree contract segments selection options banner format with
  | .error error => (tree, .error error)
  | .ok plan =>
      if plan.isEmpty then (tree, .ok plan.report)
      else
        let (tree, result) := plan.carryOut tree
        (tree, result.map fun _ => plan.report)

end RpcContract.Generation
