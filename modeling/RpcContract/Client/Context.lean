import RpcContract.Contract.Format
import RpcContract.Template.Evaluate

/-!
# What templates see

A template whose name ends in `.tpl` is evaluated over one variable, `t`; the text of every other
one is copied.
-/

namespace RpcContract.Client

structure Context where
  apiRoot : String
  imports : List String
  contract : Contract
  /-- Metadata of the segments by their names, without the name itself. -/
  metadata : Dict (Dict Json)
  /-- The first line of every generated file, without its comment mark. -/
  banner : String
deriving DecidableEq, Repr

structure TemplateError where
  template : String
  cause : Template.Fault
deriving DecidableEq, Repr

namespace Context

/-- Metadata of segments; of two segments with one name the later one counts. -/
def metadataOf (segments : List Segment) : Dict (Dict Json) :=
  Dict.ofList (segments.filterMap fun segment =>
    segment.metadata.map fun fields => (segment.name, fields.erase "segmentName"))

def ofSegments (apiRoot : String) (imports : List String) (contract : Contract)
    (segments : List Segment) (banner : String) : Context :=
  ⟨apiRoot, imports, contract, metadataOf segments, banner⟩

def contractText (context : Context) : String := context.contract.toJson.compact

def toJson (context : Context) : Json :=
  .obj [
    ("apiRoot", .str context.apiRoot),
    ("imports", .arr (context.imports.map .str)),
    ("schema", context.contract.toJson),
    ("segmentMeta", .ofDict (context.metadata.mapWithKey fun _ fields => .ofDict fields)),
    ("banner", .str context.banner),
    ("schemaJson", .str context.contractText)
  ]

end Context

def templateSuffix : String := ".tpl"

def isTemplate (path : String) : Bool := templateSuffix.toList.isSuffixOf path.toList

def render (path text : String) (context : Context) : Except TemplateError String :=
  if isTemplate path then
    match Template.renderText text [("t", .ofJson context.toJson)] with
    | .ok out => .ok out
    | .error cause => .error ⟨path, cause⟩
  else .ok text

end RpcContract.Client
