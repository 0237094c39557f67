import RpcContract.JsonSchema.Model
import RpcContract.Validation.Check

/-!
# Checks by JSON schemas

Models are JSON schemas.  `ModelCache` keeps what was compiled under a digest of the text of the
model, so that a model that many handlers share is compiled once; what a check answers does not
depend on it.  A digest that is not given is the text itself.
-/

namespace RpcContract

namespace SchemaCheck

/-- A model that is no schema is a mistake in the setup. -/
def compile (model : Json) : Except HttpError JsonSchema.Model :=
  match JsonSchema.Model.compile model with
  | .ok compiled => .ok compiled
  | .error problem => .error (.configuration ("Invalid validation model: " ++ problem))

def rejection (info : CheckInfo) (violations : List JsonSchema.Violation) : HttpError :=
  .validation info.part ("Validation failed. Invalid " ++ info.part.name ++ " on server for " ++
    info.request.method.name ++ " " ++ info.request.url ++ ". " ++
    ", ".intercalate (violations.map JsonSchema.Violation.report))

def judge (compiled : JsonSchema.Model) (data : Json) (info : CheckInfo) : Except HttpError Unit :=
  match compiled.violations data with
  | [] => .ok ()
  | violations => .error (rejection info violations)

/-- A check that compiles its model anew. -/
def check (data model : Json) (info : CheckInfo) : Except HttpError Unit := do
  judge (← compile model) data info

/-- Checks by JSON schemas as a validator; it never replaces what it is given. -/
def validator {σ : Type} : Validator σ := fun data model info =>
  match check data model info with
  | .ok _ => return none
  | .error e => throw e

end SchemaCheck

structure ModelCache where
  enabled : Bool := true
  compiled : Dict JsonSchema.Model := ∅
deriving DecidableEq, Repr

namespace ModelCache

def size (cache : ModelCache) : Nat := cache.compiled.size

def clear (cache : ModelCache) : ModelCache := { cache with compiled := ∅ }

/-- A compiled model, from the cache if it is there; what compiles is kept under the digest of the
text of its model. -/
def compile (cache : ModelCache) (model : Json) (digest : String → String := id) :
    Except HttpError JsonSchema.Model × ModelCache :=
  if cache.enabled then
    let key := digest model.compact
    match cache.compiled.get? key with
    | some compiled => (.ok compiled, cache)
    | none =>
        match SchemaCheck.compile model with
        | .ok compiled =>
            (.ok compiled, { cache with compiled := cache.compiled.insert key compiled })
        | .error e => (.error e, cache)
  else (SchemaCheck.compile model, cache)

def check (cache : ModelCache) (data model : Json) (info : CheckInfo)
    (digest : String → String := id) : Except HttpError Unit × ModelCache :=
  match cache.compile model digest with
  | (.ok compiled, cache) => (SchemaCheck.judge compiled data info, cache)
  | (.error e, cache) => (.error e, cache)

end ModelCache

end RpcContract
