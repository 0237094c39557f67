import RpcContract.Contract.Basic

/-!
# Issues of a contract

Declarations that would fail when a request comes in: a handler with models for a single result and
for streamed items is an error, a model that is neither an object nor a truth value a warning.
-/

namespace RpcContract

inductive Severity where
  | error
  | warning
deriving DecidableEq, Repr

def Severity.name : Severity → String
  | .error => "Error"
  | .warning => "Warning"

structure Issue where
  location : String
  severity : Severity
  message : String
deriving DecidableEq, Repr

/-- The issues of one handler: its conflict first, then its models in their fixed order. -/
def Placed.issues (placed : Placed) : List Issue :=
  let location := placed.segment ++ "/" ++ placed.controller ++ "." ++ placed.key
  match placed.handler.validation with
  | none => []
  | some models =>
      (if models.hasConflict then
        [⟨location, .error, "output and iteration models are mutually exclusive"⟩] else []) ++
      CallPart.all.filterMap fun part =>
        match models.get part with
        | some model =>
            if model.isObject || model.isBool then none
            else some ⟨location, .warning, part.name ++ " model is not a JSON schema object"⟩
        | none => none

def Contract.issues (contract : Contract) : List Issue := contract.handlers.flatMap Placed.issues

end RpcContract
