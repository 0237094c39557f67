import RpcContract.Validation.Context

/-!
# Checks of data against models

A `Validator` answers for one datum and one model: the datum is rejected, kept, or replaced.
Validators and handlers may read and change a state of the surroundings, whose type `σ` is left
open; a call is a step on that state which succeeds or fails.
-/

namespace RpcContract

abbrev Call (σ : Type) := ExceptT HttpError (StateM σ)

structure CheckInfo where
  part : CallPart
  request : RequestInfo
  /-- The status of the response that the datum belongs to, for streamed items. -/
  status : Option Nat := none
deriving DecidableEq, Repr

abbrev Validator (σ : Type) := (data model : Json) → CheckInfo → Call σ (Option Json)

end RpcContract
