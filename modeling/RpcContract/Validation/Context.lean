import RpcContract.Http.Error

/-!
# The request that a handler sees

Each input of a request keeps the value that came in beside the one that a validator put in its
place.  A handler reads the replacement where there is one; checks always read what came in.
-/

namespace RpcContract

structure RequestInfo where
  method : HttpMethod
  url : String
deriving DecidableEq, Repr, Inhabited

structure Field where
  raw : Json
  validated : Option Json := none
deriving DecidableEq, Repr, Inhabited

namespace Field

def value (field : Field) : Json := field.validated.getD field.raw

/-- A replacement put over the value; without one the field stays as it is. -/
def replace (field : Field) (replacement : Option Json) : Field :=
  match replacement with
  | some value => { field with validated := some value }
  | none => field

end Field

structure RequestContext where
  info : RequestInfo
  params : Field := ⟨.null, none⟩
  query : Field := ⟨.null, none⟩
  body : Field := ⟨.null, none⟩
deriving DecidableEq, Repr, Inhabited

namespace RequestContext

/-- The input that a part of a call names; results have none. -/
def field? (context : RequestContext) : CallPart → Option Field
  | .params => some context.params
  | .query => some context.query
  | .body => some context.body
  | .output | .iteration => none

def modifyField (context : RequestContext) (part : CallPart) (f : Field → Field) :
    RequestContext :=
  match part with
  | .params => { context with params := f context.params }
  | .query => { context with query := f context.query }
  | .body => { context with body := f context.body }
  | .output | .iteration => context

end RequestContext

end RpcContract
