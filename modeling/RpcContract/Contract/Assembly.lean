import RpcContract.Contract.Basic

/-!
# Assembling a contract

The part of a contract for a list of segments.  It fails on the first segment that the contract
does not have; an entry is renamed to the name it was asked for.
-/

namespace RpcContract

structure MissingSegment where
  name : String
deriving DecidableEq, Repr

def MissingSegment.message (missing : MissingSegment) : String :=
  "Schema is missing for segment \"" ++ missing.name ++
    "\". Make sure the segment is registered and exports its controllers."

namespace Contract

def assembleOnto (contract : Contract) : Contract → List String → Except MissingSegment Contract
  | assembled, [] => pure assembled
  | assembled, name :: names =>
      match contract.get? name with
      | none => throw ⟨name⟩
      | some entry => assembleOnto contract (assembled.insert { entry with name := name }) names

def assemble (contract : Contract) (names : List String) : Except MissingSegment Contract :=
  contract.assembleOnto {} names

end Contract

end RpcContract
