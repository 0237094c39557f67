import RpcContract.Contract.Method

/-!
# Errors of a call

An `HttpError` says who is to blame: a model that was not met, a setup that cannot work, the
calling side before anything was sent, or the handler itself.  The status follows from the cause,
except where a handler chooses it.
-/

namespace RpcContract

structure StatusCode where
  code : Nat
  inRange : 100 ≤ code ∧ code ≤ 999
deriving DecidableEq, Repr

def StatusCode.ofNat? (code : Nat) : Option StatusCode :=
  if h : 100 ≤ code ∧ code ≤ 999 then some ⟨code, h⟩ else none

inductive HttpError where
  | validation (part : CallPart) (message : String)
  | configuration (message : String)
  | client (message : String)
  | handler (status : StatusCode) (message : String)
deriving DecidableEq, Repr

namespace HttpError

instance : Inhabited HttpError := ⟨.configuration ""⟩

/-- Inputs that are rejected are the caller's fault, data that a handler made is not; zero stands
for a failure before anything was sent. -/
def status : HttpError → Nat
  | .validation part _ => if part.isRequestSide then 400 else 500
  | .configuration _ => 500
  | .client _ => 0
  | .handler status _ => status.code

def message : HttpError → String
  | .validation _ message | .configuration message | .client message | .handler _ message =>
      message

def part? : HttpError → Option CallPart
  | .validation part _ => some part
  | _ => none

def isConfiguration : HttpError → Bool
  | .configuration _ => true
  | _ => false

/-- The status as one of a response, which zero is not. -/
def statusCode? (e : HttpError) : Option StatusCode := StatusCode.ofNat? e.status

def display (e : HttpError) : String := "[" ++ toString e.status ++ "] " ++ e.message

def toJson (e : HttpError) : Json :=
  .ofEntries [("statusCode", .int e.status), ("message", .str e.message), ("isError", .bool true)]

end HttpError

abbrev Item := Except HttpError Json

end RpcContract
