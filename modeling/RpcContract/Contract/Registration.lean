import RpcContract.Contract.Basic

/-!
# Registering handlers

A contract that grows as controllers are declared and handlers registered.  Whatever a step names
and is not there yet is created; a handler registered again is replaced.
-/

namespace RpcContract

structure Contribution where
  validation : Models := {}
  openapi : Option Json := none
deriving DecidableEq, Repr, Inhabited

namespace Contract

def modifyController (contract : Contract) (segment controller : String)
    (f : ControllerSpec → ControllerSpec) : Contract :=
  contract.modifySegment segment fun s =>
    let c := (s.controllers.get? controller).getD { name := controller }
    { s with controllers := s.controllers.insert controller (f c) }

def declareController (contract : Contract) (segment controller pathPrefix : String) : Contract :=
  contract.modifyController segment controller fun c => { c with pathPrefix := pathPrefix }

def register (contract : Contract) (segment controller key : String) (method : HttpMethod)
    (path : String) (contribution : Contribution) : Contract :=
  let handler : HandlerSpec :=
    { ({ method, path : HandlerSpec }.withValidation contribution.validation) with
      openapi := contribution.openapi }
  contract.modifyController segment controller fun c =>
    { c with handlers := c.handlers.insert key handler }

def setEmit (contract : Contract) (segment : String) (emit : Bool) : Contract :=
  contract.modifySegment segment fun s => { s with emit := emit }

end Contract

end RpcContract
