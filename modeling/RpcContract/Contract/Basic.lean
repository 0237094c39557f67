import RpcContract.Contract.Models

/-!
# The contract tree

A `Contract` maps segment names to segments, a segment holds controllers by name, a controller
handlers by key.  Names inside a segment or a controller usually repeat the keys;
`Contract.normalize` fills in those that were left out.  `Segment` is what is known of a segment
apart from its schema: its name, the names of its controllers, and metadata.
-/

namespace RpcContract

structure HandlerSpec where
  method : HttpMethod
  path : String
  openapi : Option Json := none
  validation : Option Models := none
deriving DecidableEq, Repr, Inhabited

namespace HandlerSpec

def withValidation (handler : HandlerSpec) (models : Models) : HandlerSpec :=
  { handler with validation := if models.isEmpty then none else some models }

def model (handler : HandlerSpec) (part : CallPart) : Option Json :=
  handler.validation.bind (·.get part)

/-- A handler with a model for items streams its result. -/
def isStreaming (handler : HandlerSpec) : Bool := (handler.model .iteration).isSome

end HandlerSpec

structure ControllerSpec where
  name : String := ""
  pathPrefix : String := ""
  handlers : Dict HandlerSpec := ∅
deriving DecidableEq, Repr, Inhabited

structure SegmentSpec where
  name : String := ""
  controllers : Dict ControllerSpec := ∅
  emit : Bool := true
deriving DecidableEq, Repr, Inhabited

namespace SegmentSpec

def handlerCount (segment : SegmentSpec) : Nat :=
  segment.controllers.values.foldl (fun count controller => count + controller.handlers.size) 0

end SegmentSpec

structure Contract where
  segments : Dict SegmentSpec := ∅
deriving DecidableEq, Repr, Inhabited

structure Segment where
  name : String
  controllers : List String := []
  metadata : Option (Dict Json) := none
deriving DecidableEq, Repr, Inhabited

structure Placed where
  segment : String
  controller : String
  key : String
  handler : HandlerSpec
deriving DecidableEq, Repr

namespace Contract

def get? (contract : Contract) (name : String) : Option SegmentSpec := contract.segments.get? name

def contains (contract : Contract) (name : String) : Bool := contract.segments.contains name

def size (contract : Contract) : Nat := contract.segments.size

def isEmpty (contract : Contract) : Bool := contract.segments.isEmpty

def names (contract : Contract) : List String := contract.segments.keys

def insert (contract : Contract) (segment : SegmentSpec) : Contract :=
  ⟨contract.segments.insert segment.name segment⟩

/-- The segment of a name, or an empty one where there is none. -/
def segment (contract : Contract) (name : String) : SegmentSpec :=
  (contract.get? name).getD { name := name }

/-- Change the segment of a name, which is created empty where it is missing. -/
def modifySegment (contract : Contract) (name : String) (f : SegmentSpec → SegmentSpec) :
    Contract :=
  ⟨contract.segments.insert name (f (contract.segment name))⟩

def handlers (contract : Contract) : List Placed :=
  contract.segments.toList.flatMap fun (segment, s) =>
    s.controllers.toList.flatMap fun (controller, c) =>
      c.handlers.toList.map fun (key, handler) => ⟨segment, controller, key, handler⟩

def emitted (contract : Contract) : Contract := ⟨contract.segments.filter fun _ s => s.emit⟩

/-- Names that are empty are filled in from the keys. -/
def normalize (contract : Contract) : Contract :=
  ⟨contract.segments.mapWithKey fun key s =>
    { s with
      name := if s.name.isEmpty then key else s.name
      controllers := s.controllers.mapWithKey fun key c =>
        { c with name := if c.name.isEmpty then key else c.name } }⟩

/-- The segments of a contract, in key order and without metadata. -/
def toSegments (contract : Contract) : List Segment :=
  contract.segments.toList.map fun (name, s) => { name := name, controllers := s.controllers.keys }

end Contract

end RpcContract
