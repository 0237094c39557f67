import RpcContract.Contract.Skip

/-!
# Validation models

`Models` holds at most one model for each part of a call.  A model is free data whose meaning is
up to the validator that is given it; a model that is the value null is present all the same.
-/

namespace RpcContract

structure Models where
  body : Option Json := none
  query : Option Json := none
  params : Option Json := none
  output : Option Json := none
  iteration : Option Json := none
deriving DecidableEq, Repr, Inhabited

namespace Models

def get (models : Models) : CallPart → Option Json
  | .body => models.body
  | .query => models.query
  | .params => models.params
  | .output => models.output
  | .iteration => models.iteration

def put (models : Models) (part : CallPart) (model : Option Json) : Models :=
  match part with
  | .body => { models with body := model }
  | .query => { models with query := model }
  | .params => { models with params := model }
  | .output => { models with output := model }
  | .iteration => { models with iteration := model }

@[simp] theorem get_put (models : Models) (a b : CallPart) (model : Option Json) :
    (models.put a model).get b = if a = b then model else models.get b := by
  cases a <;> cases b <;> simp [get, put]

theorem ext_get {a b : Models} (h : ∀ part, a.get part = b.get part) : a = b := by
  cases a; cases b
  have hb := h .body; have hq := h .query; have hp := h .params
  have ho := h .output; have hi := h .iteration
  simp_all [get]

def set (models : Models) (part : CallPart) (model : Json) : Models := models.put part (some model)

def isEmpty (models : Models) : Bool := CallPart.all.all fun part => (models.get part).isNone

def without (models : Models) (skip : SkipList) : Models :=
  skip.toList.foldl (fun rest part => rest.put part none) models

/-- A result cannot be one value and a stream. -/
def hasConflict (models : Models) : Bool := models.output.isSome && models.iteration.isSome

def format (depth : Nat) : Reading.RecordFormat Models where
  name := "ValidationModels"
  fields := CallPart.all.map fun part => (part.name, true)
  empty := {}
  read form name tree models := do
    match CallPart.all.find? (·.name = name) with
    | some part => return models.put part (← Reading.optional (Reading.any depth) form tree)
    | none => return models

def read (depth : Nat) : Reading.Reader Models := (format depth).run

def toJson (models : Models) : Json :=
  .record (CallPart.all.map fun part => (part.name, models.get part))

end Models

end RpcContract
