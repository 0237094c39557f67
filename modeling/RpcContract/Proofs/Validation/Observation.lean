import RpcContract.Validation.Middleware

/-!
# Observed calls

An observed run keeps, beside the state of the surroundings, what has happened so far: every
question to a validator, every run of a handler and every reading of a source, each with its answer.
Observing adds nothing to a call and takes nothing from it.  Layers of checks are told apart by
numbers.
-/

namespace RpcContract

variable {σ α β : Type}

/-! ## Running a call -/

namespace Call

def runFrom (call : Call σ α) (state : σ) : Except HttpError α × σ := call.run.run state

@[simp] theorem runFrom_pure (value : α) (state : σ) :
    runFrom (pure value : Call σ α) state = (.ok value, state) := rfl

@[simp] theorem runFrom_throw (e : HttpError) (state : σ) :
    runFrom (throw e : Call σ α) state = (.error e, state) := rfl

@[simp] theorem ofExcept_ok (value : α) : (ofExcept (.ok value) : Call σ α) = pure value := rfl

@[simp] theorem ofExcept_error (e : HttpError) : (ofExcept (.error e) : Call σ α) = throw e := rfl

@[simp] theorem runFrom_throw_bind (e : HttpError) (next : α → Call σ β) (state : σ) :
    runFrom ((throw e : Call σ α) >>= next) state = (.error e, state) := rfl

theorem runFrom_bind (call : Call σ α) (next : α → Call σ β) (state : σ) :
    runFrom (call >>= next) state =
      match (call.runFrom state).1 with
      | .ok value => (next value).runFrom (call.runFrom state).2
      | .error e => (.error e, (call.runFrom state).2) := by
  simp only [runFrom, ExceptT.run_bind, StateT.run_bind]
  generalize call.run.run state = outcome
  obtain ⟨answer, state⟩ := outcome
  cases answer <;> rfl

theorem runFrom_bind_ok {call : Call σ α} {value : α} {state state' : σ}
    (h : call.runFrom state = (.ok value, state')) (next : α → Call σ β) :
    runFrom (call >>= next) state = (next value).runFrom state' := by
  rw [runFrom_bind, h]

theorem runFrom_bind_error {call : Call σ α} {e : HttpError} {state state' : σ}
    (h : call.runFrom state = (.error e, state')) (next : α → Call σ β) :
    runFrom (call >>= next) state = (.error e, state') := by
  rw [runFrom_bind, h]

theorem runFrom_bind_congr {call call' : Call σ α} {state state' : σ}
    (h : call.runFrom state = call'.runFrom state') (next : α → Call σ β) :
    runFrom (call >>= next) state = runFrom (call' >>= next) state' := by
  rw [runFrom_bind, runFrom_bind, h]

end Call

/-! ## Questions and events -/

/-- What a validator is asked: a datum, the model it has to meet, and the circumstances. -/
structure Question where
  data : Json
  model : Json
  info : CheckInfo
deriving DecidableEq, Repr

def Validator.ask (validator : Validator σ) (question : Question) : Call σ (Option Json) :=
  validator question.data question.model question.info

inductive Event where
  | asked (layer : Nat) (question : Question) (answer : Except HttpError (Option Json))
  | handled (context : RequestContext) (failure : Option HttpError)
  | polled (answer : Option Item)

structure Observed (σ : Type) where
  state : σ
  events : List Event

namespace Observed

def start (state : σ) : Observed σ := ⟨state, []⟩

def add (observed : Observed σ) (state : σ) (events : List Event) : Observed σ :=
  ⟨state, observed.events ++ events⟩

@[simp] theorem add_add (observed : Observed σ) (first second : σ) (events later : List Event) :
    (observed.add first events).add second later = observed.add second (events ++ later) := by
  simp [add]

@[simp] theorem add_nil (observed : Observed σ) : observed.add observed.state [] = observed := by
  simp [add]

@[simp] theorem state_add (observed : Observed σ) (state : σ) (events : List Event) :
    (observed.add state events).state = state := rfl

end Observed

def observe (step : StateM σ α) (event : α → Event) : StateM (Observed σ) α := fun observed =>
  let (answer, state) := step observed.state
  (answer, observed.add state [event answer])

theorem run_observe {step : StateM σ α} {answer : α} {state : σ} (observed : Observed σ)
    (event : α → Event) (h : step.run observed.state = (answer, state)) :
    (observe step event).run observed = (answer, observed.add state [event answer]) := by
  change ((step.run observed.state).1,
    observed.add (step.run observed.state).2 [event (step.run observed.state).1]) = _
  rw [h]

def Validator.observed (validator : Validator σ) (layer : Nat) : Validator (Observed σ) :=
  fun data model info =>
    ExceptT.mk (observe (validator data model info).run (.asked layer ⟨data, model, info⟩))

theorem Validator.runFrom_observed {validator : Validator σ} {question : Question}
    {observed : Observed σ} {answer : Except HttpError (Option Json)} {state : σ} (layer : Nat)
    (h : (validator.ask question).runFrom observed.state = (answer, state)) :
    ((validator.observed layer).ask question).runFrom observed =
      (answer, observed.add state [.asked layer question answer]) := by
  change (((validator.ask question).runFrom observed.state).1, observed.add
    ((validator.ask question).runFrom observed.state).2
    [.asked layer question ((validator.ask question).runFrom observed.state).1]) = _
  rw [h]

def ItemCheck.observed (check : ItemCheck σ) (layer : Nat) : ItemCheck (Observed σ) :=
  { model := check.model, validator := check.validator.observed layer,
    request := check.request, every := check.every }

/-- A stream of which every reading of its source is an event. -/
def ItemStream.observed (layer : Nat) : ItemStream σ → ItemStream (Observed σ)
  | .source next => .source (observe next .polled)
  | .checked check index done inner =>
      .checked (check.observed layer) index done (inner.observed layer)

def Output.observed (layer : Nat) : Output σ → Output (Observed σ)
  | .empty => .empty
  | .json value => .json value
  | .stream items => .stream (items.observed layer)

def failure? : Except HttpError α → Option HttpError
  | .ok _ => none
  | .error e => some e

/-- A handler of which every run is an event. -/
def Handler.observed (handle : Handler σ) (layer : Nat) : Handler (Observed σ) := fun context =>
  ExceptT.mk (Except.map (Output.observed layer) <$>
    observe (handle context).run fun answer => .handled context (failure? answer))

private theorem Handler.runFrom_observed (handle : Handler σ) (layer : Nat)
    (context : RequestContext) (observed : Observed σ) :
    (handle.observed layer context).runFrom observed =
      (((handle context).runFrom observed.state).1.map (Output.observed layer),
        observed.add ((handle context).runFrom observed.state).2
          [.handled context (failure? ((handle context).runFrom observed.state).1)]) := rfl

theorem Handler.runFrom_observed_ok {handle : Handler σ} {context : RequestContext}
    {observed : Observed σ} {output : Output σ} {state : σ} (layer : Nat)
    (h : (handle context).runFrom observed.state = (.ok output, state)) :
    (handle.observed layer context).runFrom observed =
      (.ok (output.observed layer), observed.add state [.handled context none]) := by
  rw [Handler.runFrom_observed, h]
  rfl

theorem Handler.runFrom_observed_error {handle : Handler σ} {context : RequestContext}
    {observed : Observed σ} {e : HttpError} {state : σ} (layer : Nat)
    (h : (handle context).runFrom observed.state = (.error e, state)) :
    (handle.observed layer context).runFrom observed =
      (.error e, observed.add state [.handled context (some e)]) := by
  rw [Handler.runFrom_observed, h]
  rfl

end RpcContract
