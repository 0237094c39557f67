import RpcContract.Contract.Basic
import RpcContract.Json.Text
import RpcContract.Yaml.Document

/-!
# Reading and writing contracts

How contracts and segments are written as JSON, field by field in a fixed order, and how they are
read back from a tree.  Absent data is left out; names, prefixes, lists and the emission flag may
be left out of what is read.
-/

namespace RpcContract

namespace HandlerSpec

structure Draft where
  method : Option HttpMethod := none
  path : Option String := none
  openapi : Option Json := none
  validation : Option Models := none

def format (depth : Nat) : Reading.RecordFormat Draft where
  name := "HandlerSchema"
  fields := [("httpMethod", false), ("path", false), ("openapi", true), ("validation", true)]
  empty := {}
  read form name tree draft := do
    match name with
    | "httpMethod" => return { draft with method := some (← HttpMethod.read form tree) }
    | "path" => return { draft with path := some (← Reading.string form tree) }
    | "openapi" =>
        return { draft with openapi := ← Reading.optional (Reading.any depth) form tree }
    | "validation" =>
        return { draft with validation := ← Reading.optional (Models.read (depth + 1)) form tree }
    | _ => return draft

/-- A handler whose record stands inside `depth - 1` containers. -/
def read (depth : Nat) : Reading.Reader HandlerSpec := fun form tree => do
  let draft ← (format depth).run form tree
  match draft.method, draft.path with
  | some method, some path =>
      return { method, path, openapi := draft.openapi, validation := draft.validation }
  | none, _ => throw (.missingField "httpMethod")
  | _, none => throw (.missingField "path")

def toJson (handler : HandlerSpec) : Json :=
  .record [("httpMethod", some handler.method.toJson), ("path", some (.str handler.path)),
    ("openapi", handler.openapi), ("validation", handler.validation.map Models.toJson)]

end HandlerSpec

namespace ControllerSpec

def format (depth : Nat) : Reading.RecordFormat ControllerSpec where
  name := "ControllerSchema"
  fields := [("controllerName", true), ("prefix", true), ("handlers", true)]
  empty := {}
  read form name tree c := do
    match name with
    | "controllerName" => return { c with name := ← Reading.string form tree }
    | "prefix" => return { c with pathPrefix := ← Reading.string form tree }
    | "handlers" =>
        return { c with handlers := ← Reading.dict (HandlerSpec.read (depth + 2)) form tree }
    | _ => return c

def read (depth : Nat) : Reading.Reader ControllerSpec := (format depth).run

def toJson (c : ControllerSpec) : Json :=
  .obj [("controllerName", .str c.name), ("prefix", .str c.pathPrefix),
    ("handlers", .ofDict (c.handlers.mapWithKey fun _ h => h.toJson))]

end ControllerSpec

namespace SegmentSpec

def format (depth : Nat) : Reading.RecordFormat SegmentSpec where
  name := "SegmentSchema"
  fields := [("segmentName", true), ("controllers", true), ("emitSchema", true)]
  empty := {}
  read form name tree s := do
    match name with
    | "segmentName" => return { s with name := ← Reading.string form tree }
    | "controllers" =>
        return { s with controllers := ← Reading.dict (ControllerSpec.read (depth + 2)) form tree }
    | "emitSchema" => return { s with emit := ← Reading.flag form tree }
    | _ => return s

def read (depth : Nat) : Reading.Reader SegmentSpec := (format depth).run

def toJson (s : SegmentSpec) : Json :=
  .obj [("segmentName", .str s.name),
    ("controllers", .ofDict (s.controllers.mapWithKey fun _ c => c.toJson)),
    ("emitSchema", .bool s.emit)]

end SegmentSpec

namespace Contract

def read : Reading.Reader Contract := fun form tree =>
  (⟨·⟩) <$> Reading.dict (SegmentSpec.read 2) form tree

def readJson (text : String) : Except ReadError Contract := Json.readText read text

def readYaml (text : String) : Except ReadError Contract := do
  match Yaml.read? text with
  | some tree => read .yaml tree
  | none => throw (.fault .malformed)

def toJson (contract : Contract) : Json :=
  .ofDict (contract.segments.mapWithKey fun _ s => s.toJson)

def dump (contract : Contract) : String := contract.toJson.pretty

end Contract

namespace Segment

private structure Draft where
  name : Option String := none
  controllers : List String := []
  metadata : Option (Dict Json) := none

private def format : Reading.RecordFormat Draft where
  name := "Segment"
  fields := [("segmentName", false), ("controllers", true), ("meta", true)]
  empty := {}
  read form name tree s := do
    match name with
    | "segmentName" => return { s with name := some (← Reading.string form tree) }
    | "controllers" => return { s with controllers := ← Reading.list Reading.string form tree }
    | "meta" =>
        return { s with metadata := ← Reading.optional (Reading.object 1) form tree }
    | _ => return s

def read : Reading.Reader Segment := fun form tree => do
  let draft ← format.run form tree
  match draft.name with
  | some name => return { name, controllers := draft.controllers, metadata := draft.metadata }
  | none => throw (.missingField "segmentName")

def toJson (s : Segment) : Json :=
  .record [("segmentName", some (.str s.name)),
    ("controllers", some (.arr (s.controllers.map .str))),
    ("meta", s.metadata.map .ofDict)]

end Segment

end RpcContract
