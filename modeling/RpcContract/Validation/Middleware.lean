import RpcContract.Contract.Registration
import RpcContract.Reading.Record
import RpcContract.Validation.ItemStream

/-!
# Handlers with checks around them

`Handler.wrap` puts checks of the inputs and of the result around a handler.  A call fails at once
if the setup cannot work; then parameters, query and body are checked in this order, the handler
runs, and its result is checked.  The first failure ends the call.
-/

namespace RpcContract

inductive Output (σ : Type) where
  | empty
  | json (value : Json)
  | stream (items : ItemStream σ)

namespace Output

variable {σ : Type}

/-- No value at all, or the value null. -/
def isEmpty : Output σ → Bool
  | .empty | .json .null => true
  | _ => false

theorem isEmpty_json {value : Json} (h : value ≠ .null) :
    (json value : Output σ).isEmpty = false := by
  cases value <;> simp [isEmpty] at h ⊢

def isStream : Output σ → Bool
  | .stream _ => true
  | _ => false

theorem isStream_eq_false_iff {output : Output σ} :
    output.isStream = false ↔ ∀ items, output ≠ .stream items := by
  cases output <;> simp [isStream]

end Output

abbrev Handler (σ : Type) := RequestContext → Call σ (Output σ)

structure ValidationOptions where
  skipChecks : SkipSetting := .flag false
  skipEmission : SkipSetting := .flag false
  checkEveryItem : Bool := false
deriving DecidableEq, Repr, Inhabited

namespace ValidationOptions

private def format : Reading.RecordFormat ValidationOptions where
  name := "ValidationOptions"
  fields := [("skipServerSideValidation", true), ("skipSchemaEmission", true),
    ("validateEveryIteration", true)]
  empty := {}
  read form name tree options := do
    match name with
    | "skipServerSideValidation" =>
        return { options with skipChecks := ← SkipSetting.read form tree }
    | "skipSchemaEmission" => return { options with skipEmission := ← SkipSetting.read form tree }
    | "validateEveryIteration" =>
        return { options with checkEveryItem := ← Reading.flag form tree }
    | _ => return options

def read : Reading.Reader ValidationOptions := format.run

def toJson (options : ValidationOptions) : Json :=
  .obj [("skipServerSideValidation", options.skipChecks.toJson),
    ("skipSchemaEmission", options.skipEmission.toJson),
    ("validateEveryIteration", .bool options.checkEveryItem)]

end ValidationOptions

/-- What a wrapped handler publishes: its models without those that are not to be emitted. -/
def contributionOf (models : Models) (options : ValidationOptions) : Contribution :=
  { validation := models.without options.skipEmission.resolve }

namespace Handler

variable {σ : Type}

/-- A setup that fails every call. -/
def misconfiguration (models : Models) (options : ValidationOptions) : Option HttpError :=
  if models.hasConflict then
    some (.configuration
      "Output and iteration are mutually exclusive. You can't use them together.")
  else if options.checkEveryItem && models.iteration.isNone then
    some (.configuration "validateEveryIteration is set but iteration is not defined.")
  else none

def inputOrder : List CallPart := [.params, .query, .body]

def activeModel (models : Models) (options : ValidationOptions) (part : CallPart) : Option Json :=
  if options.skipChecks.resolve.contains part then none else models.get part

/-- Check one input as it came in, and put the validator's replacement into the context. -/
def checkInput (models : Models) (validator : Validator σ) (options : ValidationOptions)
    (context : RequestContext) (part : CallPart) : Call σ RequestContext :=
  match activeModel models options part, context.field? part with
  | some model, some field => do
      let replacement ← validator field.raw model { part, request := context.info }
      return context.modifyField part (·.replace replacement)
  | _, _ => return context

/-- Check a result; a stream is checked as it is read. -/
def checkOutput (models : Models) (validator : Validator σ) (options : ValidationOptions)
    (request : RequestInfo) (output : Output σ) : Call σ (Output σ) :=
  match activeModel models options .output, activeModel models options .iteration with
  | some model, _ =>
      if output.isEmpty then
        throw (.configuration
          "Output is required. You probably forgot to return something from your handler.")
      else
        match output with
        | .json value => do
            let _ ← validator value model { part := .output, request }
            return output
        | _ => throw (.configuration
            "Output validation is defined but the handler returned a stream.")
  | none, some model =>
      match output with
      | .stream items =>
          return .stream (items.validate
            { model, validator, request, every := options.checkEveryItem })
      | _ => throw (.configuration
          "Data is not a stream but iteration validation is defined.")
  | none, none => return output

/-- A handler with checks around it. -/
def wrap (models : Models) (validator : Validator σ) (options : ValidationOptions)
    (handle : Handler σ) : Handler σ := fun context => do
  match misconfiguration models options with
  | some e => throw e
  | none =>
      let context ← inputOrder.foldlM (checkInput models validator options) context
      let output ← handle context
      checkOutput models validator options context.info output

end Handler

end RpcContract
