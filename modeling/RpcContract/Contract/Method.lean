import RpcContract.Reading.Record

/-!
# Request methods and parts of a call

`HttpMethod` is the method a handler is bound to.  `CallPart` names what a validation model applies
to: one of the three inputs of a request, the result of a handler, or the items that it streams.
-/

namespace RpcContract

inductive HttpMethod where
  | get | post | put | patch | delete | head | options
deriving DecidableEq, Repr, Inhabited

namespace HttpMethod

def name : HttpMethod → String
  | .get => "GET"
  | .post => "POST"
  | .put => "PUT"
  | .patch => "PATCH"
  | .delete => "DELETE"
  | .head => "HEAD"
  | .options => "OPTIONS"

def all : List HttpMethod := [.get, .post, .put, .patch, .delete, .head, .options]

def read : Reading.Reader HttpMethod :=
  Reading.oneOf "HttpMethod" (all.map fun m => (m.name, m))

def toJson (m : HttpMethod) : Json := .str m.name

end HttpMethod

inductive CallPart where
  | body | query | params | output | iteration
deriving DecidableEq, Repr, Inhabited

namespace CallPart

def name : CallPart → String
  | .body => "body"
  | .query => "query"
  | .params => "params"
  | .output => "output"
  | .iteration => "iteration"

def all : List CallPart := [.body, .query, .params, .output, .iteration]

theorem mem_all (part : CallPart) : part ∈ all := by cases part <;> decide

def isRequestSide : CallPart → Bool
  | .body | .query | .params => true
  | .output | .iteration => false

def read : Reading.Reader CallPart :=
  Reading.oneOf "ValidationType" (all.map fun part => (part.name, part))

def toJson (part : CallPart) : Json := .str part.name

end CallPart

end RpcContract
