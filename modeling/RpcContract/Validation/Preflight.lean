import RpcContract.Address.Endpoint
import RpcContract.Contract.Basic
import RpcContract.Validation.Check

/-!
# Checks before a call is sent

The calling side checks body and query against the models of a handler.  Rejections are reported as
they are; any other failure means that nothing could be sent.
-/

namespace RpcContract.Preflight

variable {σ : Type}

/-- The parts that are checked, in this order. -/
def order : List CallPart := [.body, .query]

def report (e : HttpError) : HttpError :=
  if e.part?.isSome || e.status = 0 then e else .client e.message

def checkPart (handler : HandlerSpec) (validator : Validator σ) (request : RequestInfo)
    (data : CallPart → Json) (part : CallPart) : Call σ Unit :=
  match handler.model part with
  | none => return ()
  | some model => do
      tryCatch (do let _ ← validator (data part) model { part, request }) fun e => throw (report e)

/-- Check body and query before a call to an address. -/
def check (handler : HandlerSpec) (body query : Json) (validator : Validator σ)
    (endpoint : Endpoint) : Call σ Unit :=
  let request : RequestInfo := { method := handler.method, url := endpoint.url }
  let data : CallPart → Json := fun part => if part = .body then body else query
  order.forM (checkPart handler validator request data)

end RpcContract.Preflight
