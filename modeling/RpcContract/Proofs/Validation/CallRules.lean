import RpcContract.Proofs.Validation.Observation

/-!
# The rules of one call

A layer of checks stands around a handler.  This file says by rules what one call does: which
questions it asks in which order, when the handler runs and what it sees, and how the call ends.
An observed call has exactly the events and the end that the rules give.
-/

namespace RpcContract

variable {σ α : Type}

/-! ## Layers -/

/-- Models with the validator and the options that they are checked by. -/
structure Layer (σ : Type) where
  models : Models
  validator : Validator σ
  options : ValidationOptions

namespace Layer

def observed (layer : Layer σ) (number : Nat) : Layer (Observed σ) :=
  ⟨layer.models, layer.validator.observed number, layer.options⟩

def wrap (layer : Layer σ) (handle : Handler σ) : Handler σ :=
  Handler.wrap layer.models layer.validator layer.options handle

end Layer

/-- Whether a setting leaves a part out. -/
def SkipSetting.Covers : SkipSetting → CallPart → Prop
  | .flag all, _ => all = true
  | .list parts, part => part ∈ parts

instance (setting : SkipSetting) (part : CallPart) : Decidable (setting.Covers part) := by
  cases setting <;> unfold SkipSetting.Covers <;> infer_instance

@[simp] theorem SkipSetting.contains_resolve (setting : SkipSetting) (part : CallPart) :
    setting.resolve.contains part = decide (setting.Covers part) := by
  cases setting with
  | flag all => cases all <;> simp [resolve, SkipList.contains, Covers, CallPart.mem_all]
  | list parts => simp [Covers]

namespace Layer

def model? (layer : Layer σ) : CallPart → Option Json
  | .params => layer.models.params
  | .query => layer.models.query
  | .body => layer.models.body
  | .output => layer.models.output
  | .iteration => layer.models.iteration

theorem get_models (layer : Layer σ) (part : CallPart) :
    layer.models.get part = layer.model? part := by
  cases part <;> rfl

def Checks (layer : Layer σ) (part : CallPart) (model : Json) : Prop :=
  layer.model? part = some model ∧ ¬ layer.options.skipChecks.Covers part

theorem activeModel_eq_some_iff (layer : Layer σ) (part : CallPart) (model : Json) :
    Handler.activeModel layer.models layer.options part = some model ↔
      layer.Checks part model := by
  by_cases h : layer.options.skipChecks.Covers part <;>
    simp [Handler.activeModel, Checks, get_models, h]

theorem activeModel_eq_none_iff (layer : Layer σ) (part : CallPart) :
    Handler.activeModel layer.models layer.options part = none ↔
      ∀ model, ¬ layer.Checks part model := by
  simp only [← activeModel_eq_some_iff, Option.eq_none_iff_forall_ne_some, ne_eq]

/-- Setups that cannot work; every call is refused with the error. -/
inductive Refuses (layer : Layer σ) : HttpError → Prop
  | conflict {output iteration : Json} :
      layer.models.output = some output → layer.models.iteration = some iteration →
      Refuses layer (.configuration
        "Output and iteration are mutually exclusive. You can't use them together.")
  | everyItem :
      layer.options.checkEveryItem = true → layer.models.iteration = none →
      Refuses layer (.configuration
        "validateEveryIteration is set but iteration is not defined.")

def Admits (layer : Layer σ) : Prop := ∀ e, ¬ layer.Refuses e

theorem misconfiguration_eq_some_iff (layer : Layer σ) (e : HttpError) :
    Handler.misconfiguration layer.models layer.options = some e ↔ layer.Refuses e := by
  constructor
  · intro h
    unfold Handler.misconfiguration at h
    split at h
    · next conflict =>
        simp only [Models.hasConflict, Bool.and_eq_true, Option.isSome_iff_exists] at conflict
        obtain ⟨⟨output, ho⟩, ⟨iteration, hi⟩⟩ := conflict
        cases h
        exact .conflict ho hi
    · split at h
      · next every =>
          simp only [Bool.and_eq_true, Option.isNone_iff_eq_none] at every
          cases h
          exact .everyItem every.1 every.2
      · contradiction
  · intro h
    cases h with
    | conflict ho hi => simp [Handler.misconfiguration, Models.hasConflict, ho, hi]
    | everyItem he hi => simp [Handler.misconfiguration, Models.hasConflict, he, hi]

theorem misconfiguration_eq_none_iff (layer : Layer σ) :
    Handler.misconfiguration layer.models layer.options = none ↔ layer.Admits := by
  simp only [Admits, ← misconfiguration_eq_some_iff, Option.eq_none_iff_forall_ne_some, ne_eq]

end Layer

/-! ## Questions about the inputs -/

/-- What came in as one of the inputs; results do not come in. -/
def RequestContext.raw? (context : RequestContext) : CallPart → Option Json
  | .params => some context.params.raw
  | .query => some context.query.raw
  | .body => some context.body.raw
  | .output | .iteration => none

namespace Layer

/-- What is asked about one input: always about the value that came in. -/
def inputQuestion? (layer : Layer σ) (context : RequestContext) (part : CallPart) :
    Option Question :=
  if layer.options.skipChecks.Covers part then none
  else
    match layer.model? part, context.raw? part with
    | some model, some data => some ⟨data, model, { part, request := context.info }⟩
    | _, _ => none

/-- Parameters come first, then the query, then the body. -/
def inputQuestions (layer : Layer σ) (context : RequestContext) : List Question :=
  [.params, .query, .body].filterMap (layer.inputQuestion? context)

theorem of_inputQuestion? {layer : Layer σ} {context : RequestContext} {part : CallPart}
    {question : Question} (h : layer.inputQuestion? context part = some question) :
    context.raw? part = some question.data ∧
      question.info = { part, request := context.info } := by
  unfold inputQuestion? at h
  split at h
  · contradiction
  · split at h
    · next hdata =>
        cases h
        exact ⟨hdata, rfl⟩
    · contradiction

end Layer

/-! ## What the handler sees -/

abbrev Answers := List (CallPart × Option Json)

def Answers.replacements (answers : Answers) (part : CallPart) : List Json :=
  answers.filterMap fun answer => if answer.1 = part then answer.2 else none

def Answers.last? (answers : Answers) (part : CallPart) : Option Json :=
  (answers.replacements part).getLast?

theorem Answers.last?_append (first later : Answers) (part : CallPart) :
    Answers.last? (first ++ later) part = (later.last? part).or (first.last? part) := by
  simp [last?, replacements, List.filterMap_append, List.getLast?_append]

/-- The request with the last replacement of each input over what came in. -/
def RequestContext.seen (context : RequestContext) (answers : Answers) : RequestContext where
  info := context.info
  params := ⟨context.params.raw, (answers.last? .params).or context.params.validated⟩
  query := ⟨context.query.raw, (answers.last? .query).or context.query.validated⟩
  body := ⟨context.body.raw, (answers.last? .body).or context.body.validated⟩

namespace RequestContext

@[simp] theorem seen_nil (context : RequestContext) : context.seen [] = context := rfl

@[simp] theorem info_seen (context : RequestContext) (answers : Answers) :
    (context.seen answers).info = context.info := rfl

theorem seen_seen (context : RequestContext) (first later : Answers) :
    (context.seen first).seen later = context.seen (first ++ later) := by
  simp only [seen, Answers.last?_append, Option.or_assoc]

theorem seen_singleton (context : RequestContext) (part : CallPart) (replacement : Option Json) :
    context.modifyField part (·.replace replacement) = context.seen [(part, replacement)] := by
  cases part <;> cases replacement <;>
    simp [modifyField, seen, Answers.last?, Answers.replacements, Field.replace]

@[simp] theorem raw?_seen (context : RequestContext) (answers : Answers) (part : CallPart) :
    (context.seen answers).raw? part = context.raw? part := by
  cases part <;> rfl

/-- What an outer layer has put in place is not what a check is about. -/
@[simp] theorem inputQuestion?_seen (layer : Layer σ) (context : RequestContext)
    (answers : Answers) :
    layer.inputQuestion? (context.seen answers) = layer.inputQuestion? context := by
  funext part
  simp only [Layer.inputQuestion?, raw?_seen, info_seen]

@[simp] theorem inputQuestions_seen (layer : Layer σ) (context : RequestContext)
    (answers : Answers) :
    layer.inputQuestions (context.seen answers) = layer.inputQuestions context := by
  simp [Layer.inputQuestions]

theorem map_seen_cons (context : RequestContext) (answer : CallPart × Option Json)
    (answers : Except HttpError Answers) :
    (answers.map (answer :: ·)).map context.seen = answers.map (context.seen [answer]).seen := by
  cases answers with
  | error e => rfl
  | ok answers => simp [Except.map, seen_seen]

end RequestContext

/-! ## The rules -/

/-- Questions are asked one after the other; the first rejection ends them. -/
inductive Asks (number : Nat) (validator : Validator σ) :
    List Question → σ → List Event → Except HttpError Answers → σ → Prop
  | none (state : σ) : Asks number validator [] state [] (.ok []) state
  | rejected {question : Question} {e : HttpError} {state state₁ : σ} (rest : List Question) :
      (validator.ask question).runFrom state = (.error e, state₁) →
      Asks number validator (question :: rest) state
        [.asked number question (.error e)] (.error e) state₁
  | accepted {question : Question} (replacement : Option Json) {state state₁ state₂ : σ}
      {rest : List Question} {events : List Event} {answers : Except HttpError Answers} :
      (validator.ask question).runFrom state = (.ok replacement, state₁) →
      Asks number validator rest state₁ events answers state₂ →
      Asks number validator (question :: rest) state
        (.asked number question (.ok replacement) :: events)
        (answers.map ((question.info.part, replacement) :: ·)) state₂

/-- How a layer treats what its handler has returned. -/
inductive Judges (number : Nat) (layer : Layer σ) (request : RequestInfo) :
    Output (Observed σ) → σ → List Event → Except HttpError (Output (Observed σ)) → σ → Prop
  | missing {model : Json} {output : Output (Observed σ)} (state : σ) :
      layer.Checks .output model → output = .empty ∨ output = .json .null →
      Judges number layer request output state [] (.error (.configuration
        "Output is required. You probably forgot to return something from your handler.")) state
  | notOneValue {model : Json} (items : ItemStream (Observed σ)) (state : σ) :
      layer.Checks .output model →
      Judges number layer request (.stream items) state [] (.error (.configuration
        "Output validation is defined but the handler returned a stream.")) state
  | rejected {model value : Json} {e : HttpError} {state state₁ : σ} :
      layer.Checks .output model → value ≠ .null →
      (layer.validator.ask ⟨value, model, { part := .output, request }⟩).runFrom state =
        (.error e, state₁) →
      Judges number layer request (.json value) state
        [.asked number ⟨value, model, { part := .output, request }⟩ (.error e)] (.error e) state₁
  | accepted {model value : Json} {replacement : Option Json} {state state₁ : σ} :
      layer.Checks .output model → value ≠ .null →
      (layer.validator.ask ⟨value, model, { part := .output, request }⟩).runFrom state =
        (.ok replacement, state₁) →
      Judges number layer request (.json value) state
        [.asked number ⟨value, model, { part := .output, request }⟩ (.ok replacement)]
        (.ok (.json value)) state₁
  | notItems {model : Json} {output : Output (Observed σ)} (state : σ) :
      (∀ model, ¬ layer.Checks .output model) → layer.Checks .iteration model →
      (∀ items, output ≠ .stream items) →
      Judges number layer request output state [] (.error (.configuration
        "Data is not a stream but iteration validation is defined.")) state
  | items {model : Json} (items : ItemStream (Observed σ)) (state : σ) :
      (∀ model, ¬ layer.Checks .output model) → layer.Checks .iteration model →
      Judges number layer request (.stream items) state []
        (.ok (.stream (.checked
          { model, validator := layer.validator.observed number, request,
            every := layer.options.checkEveryItem } 0 false items))) state
  | unchecked (output : Output (Observed σ)) (state : σ) :
      (∀ model, ¬ layer.Checks .output model) → (∀ model, ¬ layer.Checks .iteration model) →
      Judges number layer request output state [] (.ok output) state

/-- One call of a handler with one layer around it. -/
inductive CallRun (layer : Layer σ) (handle : Handler σ) (context : RequestContext) (state : σ) :
    List Event → Except HttpError (Output (Observed σ)) → σ → Prop
  | refused {e : HttpError} :
      layer.Refuses e → CallRun layer handle context state [] (.error e) state
  | rejected {events : List Event} {e : HttpError} {state₁ : σ} :
      layer.Admits →
      Asks 0 layer.validator (layer.inputQuestions context) state events (.error e) state₁ →
      CallRun layer handle context state events (.error e) state₁
  | failed {events : List Event} {answers : Answers} {e : HttpError} {state₁ state₂ : σ} :
      layer.Admits →
      Asks 0 layer.validator (layer.inputQuestions context) state events (.ok answers) state₁ →
      (handle (context.seen answers)).runFrom state₁ = (.error e, state₂) →
      CallRun layer handle context state
        (events ++ [.handled (context.seen answers) (some e)]) (.error e) state₂
  | returned {events later : List Event} {answers : Answers} {output : Output σ}
      {result : Except HttpError (Output (Observed σ))} {state₁ state₂ state₃ : σ} :
      layer.Admits →
      Asks 0 layer.validator (layer.inputQuestions context) state events (.ok answers) state₁ →
      (handle (context.seen answers)).runFrom state₁ = (.ok output, state₂) →
      Judges 0 layer context.info (output.observed 1) state₂ later result state₃ →
      CallRun layer handle context state
        (events ++ .handled (context.seen answers) none :: later) result state₃

/-! ## The rules cover every case -/

theorem Asks.exists (number : Nat) (validator : Validator σ) (questions : List Question)
    (state : σ) :
    ∃ events answers state₁, Asks number validator questions state events answers state₁ := by
  induction questions generalizing state with
  | nil => exact ⟨[], .ok [], state, .none state⟩
  | cons question rest ih =>
      rcases h : (validator.ask question).runFrom state with ⟨answer, state₁⟩
      cases answer with
      | error e => exact ⟨_, _, _, .rejected rest h⟩
      | ok replacement =>
          obtain ⟨events, answers, state₂, tail⟩ := ih state₁
          exact ⟨_, _, _, .accepted replacement h tail⟩

theorem Judges.exists (number : Nat) (layer : Layer σ) (request : RequestInfo)
    (output : Output (Observed σ)) (state : σ) :
    ∃ events result state₁, Judges number layer request output state events result state₁ := by
  by_cases ho : ∃ model, layer.Checks .output model
  · obtain ⟨model, hmodel⟩ := ho
    cases output with
    | empty => exact ⟨_, _, _, .missing state hmodel (.inl rfl)⟩
    | stream items => exact ⟨_, _, _, .notOneValue items state hmodel⟩
    | json value =>
        by_cases hnull : value = .null
        · subst value
          exact ⟨_, _, _, .missing state hmodel (.inr rfl)⟩
        rcases h : (layer.validator.ask ⟨value, model, { part := .output, request }⟩).runFrom state
          with ⟨answer, state₁⟩
        cases answer with
        | error e => exact ⟨_, _, _, .rejected hmodel hnull h⟩
        | ok replacement => exact ⟨_, _, _, .accepted hmodel hnull h⟩
  · have houtput : ∀ model, ¬ layer.Checks .output model := not_exists.mp ho
    by_cases hi : ∃ model, layer.Checks .iteration model
    · obtain ⟨model, hmodel⟩ := hi
      cases output with
      | empty => exact ⟨_, _, _, .notItems state houtput hmodel
          (Output.isStream_eq_false_iff.mp rfl)⟩
      | json value => exact ⟨_, _, _, .notItems state houtput hmodel
          (Output.isStream_eq_false_iff.mp rfl)⟩
      | stream items => exact ⟨_, _, _, .items items state houtput hmodel⟩
    · exact ⟨_, _, _, .unchecked output state houtput (not_exists.mp hi)⟩

theorem CallRun.exists (layer : Layer σ) (handle : Handler σ) (context : RequestContext)
    (state : σ) :
    ∃ events result state₁, CallRun layer handle context state events result state₁ := by
  by_cases hrefuses : ∃ e, layer.Refuses e
  · obtain ⟨e, he⟩ := hrefuses
    exact ⟨_, _, _, .refused he⟩
  have hadmits : layer.Admits := not_exists.mp hrefuses
  obtain ⟨events, answers, state₁, hasks⟩ :=
    Asks.exists 0 layer.validator (layer.inputQuestions context) state
  cases answers with
  | error e => exact ⟨_, _, _, .rejected hadmits hasks⟩
  | ok answers =>
      rcases h : (handle (context.seen answers)).runFrom state₁ with ⟨answer, state₂⟩
      cases answer with
      | error e => exact ⟨_, _, _, .failed hadmits hasks h⟩
      | ok output =>
          obtain ⟨later, result, state₃, hjudges⟩ :=
            Judges.exists 0 layer context.info (output.observed 1) state₂
          exact ⟨_, _, _, .returned hadmits hasks h hjudges⟩

/-! ## A call goes by the rules -/

theorem checkInput_eq (layer : Layer σ) (validator : Validator α) (context : RequestContext)
    (part : CallPart) :
    Handler.checkInput layer.models validator layer.options context part =
      match layer.inputQuestion? context part with
      | none => pure context
      | some question => do
          let replacement ← validator.ask question
          return context.seen [(part, replacement)] := by
  by_cases hcovers : layer.options.skipChecks.Covers part
  · simp [Handler.checkInput, Handler.activeModel, Layer.inputQuestion?, hcovers]
  cases hmodel : layer.model? part with
  | none => simp [Handler.checkInput, Handler.activeModel, Layer.inputQuestion?,
      Layer.get_models, hcovers, hmodel]
  | some model =>
      cases part <;>
        simp [Handler.checkInput, Handler.activeModel, Layer.inputQuestion?, Layer.get_models,
          hcovers, hmodel, RequestContext.field?, RequestContext.raw?,
          RequestContext.seen_singleton, Validator.ask]

theorem Asks.runFrom {number : Nat} {layer : Layer σ} {parts : List CallPart}
    {context : RequestContext} {events : List Event} {answers : Except HttpError Answers}
    {state : σ} (observed : Observed σ)
    (h : Asks number layer.validator (parts.filterMap (layer.inputQuestion? context))
      observed.state events answers state) :
    Call.runFrom (parts.foldlM (Handler.checkInput layer.models
      (layer.validator.observed number) layer.options) context) observed =
      (answers.map context.seen, observed.add state events) := by
  induction parts generalizing context observed events answers state with
  | nil =>
      cases h
      simp [Except.map]
  | cons part rest ih =>
      rw [List.foldlM_cons, checkInput_eq]
      rw [List.filterMap_cons] at h
      cases hquestion : layer.inputQuestion? context part with
      | none =>
          rw [hquestion] at h
          simpa using ih observed h
      | some question =>
          rw [hquestion] at h
          have hpart : question.info.part = part := by
            rw [(Layer.of_inputQuestion? hquestion).2]
          cases h with
          | rejected _ hask =>
              have hobserved := Validator.runFrom_observed number hask
              simp only [bind_assoc]
              exact Call.runFrom_bind_error hobserved _
          | accepted replacement hask tail =>
              have hobserved := Validator.runFrom_observed number hask
              simp only [bind_assoc, pure_bind]
              rw [Call.runFrom_bind_ok hobserved]
              refine (ih _ (by simpa using tail)).trans ?_
              rw [hpart, RequestContext.map_seen_cons]
              simp

theorem Judges.runFrom {number : Nat} {layer : Layer σ} {request : RequestInfo}
    {output : Output (Observed σ)} {observed : Observed σ} {events : List Event}
    {result : Except HttpError (Output (Observed σ))} {state : σ}
    (h : Judges number layer request output observed.state events result state) :
    Call.runFrom (Handler.checkOutput layer.models (layer.validator.observed number)
      layer.options request output) observed = (result, observed.add state events) := by
  cases h with
  | missing _ hmodel hempty =>
      rcases hempty with rfl | rfl <;>
        simp [Handler.checkOutput, (layer.activeModel_eq_some_iff _ _).mpr hmodel, Output.isEmpty]
  | notOneValue items _ hmodel =>
      simp [Handler.checkOutput, (layer.activeModel_eq_some_iff _ _).mpr hmodel, Output.isEmpty]
  | rejected hmodel hnull hask =>
      have hobserved := Validator.runFrom_observed number hask
      simp only [Handler.checkOutput, (layer.activeModel_eq_some_iff _ _).mpr hmodel,
        Output.isEmpty_json hnull]
      exact Call.runFrom_bind_error hobserved _
  | accepted hmodel hnull hask =>
      have hobserved := Validator.runFrom_observed number hask
      simp only [Handler.checkOutput, (layer.activeModel_eq_some_iff _ _).mpr hmodel,
        Output.isEmpty_json hnull]
      exact Call.runFrom_bind_ok hobserved _
  | notItems _ houtput hmodel hstream =>
      simp only [Handler.checkOutput, (layer.activeModel_eq_none_iff _).mpr houtput,
        (layer.activeModel_eq_some_iff _ _).mpr hmodel]
      cases output with
      | stream items => exact absurd rfl (hstream items)
      | empty => simp
      | json value => simp
  | items items _ houtput hmodel =>
      simp [Handler.checkOutput, (layer.activeModel_eq_none_iff _).mpr houtput,
        (layer.activeModel_eq_some_iff _ _).mpr hmodel, ItemStream.validate]
  | unchecked output _ houtput hiteration =>
      simp [Handler.checkOutput, (layer.activeModel_eq_none_iff _).mpr houtput,
        (layer.activeModel_eq_none_iff _).mpr hiteration]

section Wrap

variable {number : Nat} {layer : Layer σ} {handle : Handler (Observed σ)}
  {context : RequestContext} {observed : Observed σ} {events : List Event} {state : σ}

theorem wrap_refused {e : HttpError} (h : layer.Refuses e) :
    ((layer.observed number).wrap handle context).runFrom observed = (.error e, observed) := by
  simp [Layer.wrap, Layer.observed, Handler.wrap, (layer.misconfiguration_eq_some_iff e).mpr h]

theorem wrap_rejected {e : HttpError} (hadmits : layer.Admits)
    (h : Asks number layer.validator (layer.inputQuestions context) observed.state events
      (.error e) state) :
    ((layer.observed number).wrap handle context).runFrom observed =
      (.error e, observed.add state events) := by
  simp only [Layer.wrap, Layer.observed, Handler.wrap,
    layer.misconfiguration_eq_none_iff.mpr hadmits]
  exact Call.runFrom_bind_error (h.runFrom observed) _

theorem wrap_asked {answers : Answers} (hadmits : layer.Admits)
    (h : Asks number layer.validator (layer.inputQuestions context) observed.state events
      (.ok answers) state) :
    ((layer.observed number).wrap handle context).runFrom observed =
      Call.runFrom (do
        let output ← handle (context.seen answers)
        Handler.checkOutput layer.models (layer.validator.observed number) layer.options
          context.info output) (observed.add state events) := by
  simp only [Layer.wrap, Layer.observed, Handler.wrap,
    layer.misconfiguration_eq_none_iff.mpr hadmits]
  exact Call.runFrom_bind_ok (h.runFrom observed) _

end Wrap

theorem CallRun.runFrom {layer : Layer σ} {handle : Handler σ} {context : RequestContext}
    {state state₁ : σ} {events : List Event} {result : Except HttpError (Output (Observed σ))}
    (h : CallRun layer handle context state events result state₁) :
    ((layer.observed 0).wrap (handle.observed 1) context).runFrom (.start state) =
      (result, (Observed.start state).add state₁ events) := by
  cases h with
  | refused h => exact wrap_refused h
  | rejected hadmits hasks => exact wrap_rejected hadmits hasks
  | failed hadmits hasks hhandle =>
      rw [wrap_asked hadmits hasks]
      refine Eq.trans (Call.runFrom_bind_error (Handler.runFrom_observed_error 1 hhandle) _) ?_
      simp
  | returned hadmits hasks hhandle hjudges =>
      rw [wrap_asked hadmits hasks]
      refine Eq.trans (Call.runFrom_bind_ok (Handler.runFrom_observed_ok 1 hhandle) _) ?_
      refine Eq.trans (Judges.runFrom hjudges) ?_
      simp

/-- The rules give no second outcome to a call. -/
theorem CallRun.of_runFrom {layer : Layer σ} {handle : Handler σ} {context : RequestContext}
    {state state₁ : σ} {events : List Event} {result : Except HttpError (Output (Observed σ))}
    (h : ((layer.observed 0).wrap (handle.observed 1) context).runFrom (.start state) =
      (result, ⟨state₁, events⟩)) :
    CallRun layer handle context state events result state₁ := by
  obtain ⟨events', result', state', hrun⟩ := CallRun.exists layer handle context state
  have hcall := hrun.runFrom
  rw [h] at hcall
  cases hcall
  exact hrun

/-! ## What the events show -/

namespace Event

def isHandled : Event → Bool
  | .handled _ _ => true
  | _ => false

def AboutInput (context : RequestContext) : Event → Prop
  | .asked _ question _ =>
      context.raw? question.info.part = some question.data ∧
        question.info = { part := question.info.part, request := context.info }
  | _ => False

def AboutOutput : Event → Prop
  | .asked _ question _ => question.info.part = .output
  | _ => False

end Event

theorem Asks.aboutInput {number : Nat} {layer : Layer σ} {context : RequestContext}
    {questions : List Question} {state state₁ : σ} {events : List Event}
    {answers : Except HttpError Answers}
    (h : Asks number layer.validator questions state events answers state₁)
    (hquestions : ∀ question ∈ questions, question ∈ layer.inputQuestions context) :
    ∀ event ∈ events, event.AboutInput context := by
  have about (question : Question) (answer : Except HttpError (Option Json))
      (hmem : question ∈ layer.inputQuestions context) :
      (Event.asked number question answer).AboutInput context := by
    obtain ⟨part, -, hpart⟩ := List.mem_filterMap.mp hmem
    obtain ⟨hdata, hinfo⟩ := Layer.of_inputQuestion? hpart
    refine ⟨?_, ?_⟩ <;> rw [hinfo]
    exact hdata
  induction h with
  | none => simp
  | rejected rest _ =>
      intro event hevent
      rw [List.mem_singleton.mp hevent]
      exact about _ _ (hquestions _ (by simp))
  | accepted replacement _ _ ih =>
      intro event hevent
      rcases List.mem_cons.mp hevent with rfl | hrest
      · exact about _ _ (hquestions _ (by simp))
      · exact ih (fun question hquestion => hquestions question (by simp [hquestion])) event hrest

theorem Judges.aboutOutput {number : Nat} {layer : Layer σ} {request : RequestInfo}
    {output : Output (Observed σ)} {state state₁ : σ} {events : List Event}
    {result : Except HttpError (Output (Observed σ))}
    (h : Judges number layer request output state events result state₁) :
    ∀ event ∈ events, event.AboutOutput := by
  cases h <;> simp [Event.AboutOutput]

theorem Event.countP_isHandled_eq_zero {events : List Event} (context : RequestContext)
    (h : ∀ event ∈ events, event.AboutInput context ∨ event.AboutOutput) :
    events.countP Event.isHandled = 0 := by
  rw [List.countP_eq_zero]
  intro event hevent
  cases event with
  | asked => simp [isHandled]
  | handled => exact absurd (h _ hevent) (by simp [AboutInput, AboutOutput])
  | polled => simp [isHandled]

/-- The handler runs once if the setup works and all inputs are accepted, and else never. -/
theorem CallRun.countP_isHandled {layer : Layer σ} {handle : Handler σ}
    {context : RequestContext} {state state₁ : σ} {events : List Event}
    {result : Except HttpError (Output (Observed σ))}
    (h : CallRun layer handle context state events result state₁) :
    events.countP Event.isHandled ≤ 1 ∧
      (events.countP Event.isHandled = 1 ↔
        layer.Admits ∧ ∃ questions answers state₂,
          Asks 0 layer.validator (layer.inputQuestions context) state questions
            (.ok answers) state₂) := by
  have hasked {state state₁ : σ} {events : List Event} {answers : Except HttpError Answers}
      (h : Asks 0 layer.validator (layer.inputQuestions context) state events answers state₁) :
      events.countP Event.isHandled = 0 :=
    Event.countP_isHandled_eq_zero context fun event hevent =>
      .inl (h.aboutInput (fun _ => id) event hevent)
  cases h with
  | refused hrefuses =>
      refine ⟨by simp, fun hone => by simp at hone, ?_⟩
      rintro ⟨hadmits, -⟩
      exact absurd hrefuses (hadmits _)
  | rejected hadmits hasks =>
      have hcount := hasked hasks
      refine ⟨by omega, fun hone => by omega, ?_⟩
      rintro ⟨-, questions, answers, state₂, haccepted⟩
      -- Both runs of the checks are the same run, which cannot end in two ways.
      have hsame := (hasks.runFrom (.start state)).symm.trans (haccepted.runFrom _)
      simp [Except.map] at hsame
  | failed hadmits hasks _ =>
      simp only [List.countP_append, hasked hasks]
      exact ⟨by simp [Event.isHandled], fun _ => ⟨hadmits, _, _, _, hasks⟩, fun _ => rfl⟩
  | returned hadmits hasks _ hjudges =>
      have hlater := Event.countP_isHandled_eq_zero context fun event hevent =>
        .inr (hjudges.aboutOutput event hevent)
      simp only [List.countP_append, List.countP_cons, hasked hasks, hlater]
      exact ⟨by simp [Event.isHandled], fun _ => ⟨hadmits, _, _, _, hasks⟩, fun _ => rfl⟩

/-- A call has the events and the end that the rules give, and no others; its handler runs once
if the setup works and all inputs are accepted, and else never. -/
theorem wrap_runFrom_iff (layer : Layer σ) (handle : Handler σ) (context : RequestContext)
    (state : σ) :
    let call := (layer.observed 0).wrap (handle.observed 1) context
    (∀ events result state₁,
      call.runFrom (.start state) = (result, ⟨state₁, events⟩) ↔
        CallRun layer handle context state events result state₁) ∧
    (call.runFrom (.start state)).2.events.countP Event.isHandled ≤ 1 ∧
    ((call.runFrom (.start state)).2.events.countP Event.isHandled = 1 ↔
      layer.Admits ∧ ∃ questions answers state₁,
        Asks 0 layer.validator (layer.inputQuestions context) state questions
          (.ok answers) state₁) := by
  intro call
  have hrun : CallRun layer handle context state (call.runFrom (.start state)).2.events
      (call.runFrom (.start state)).1 (call.runFrom (.start state)).2.state := .of_runFrom rfl
  exact ⟨fun _ _ _ => ⟨.of_runFrom, CallRun.runFrom⟩, hrun.countP_isHandled⟩

/-! A layer that refuses the query null and has every body replaced by the number two, around a
handler that returns the body it sees. -/

def strict (skip : List CallPart) : Layer Unit where
  models := { params := some (.str "P"), query := some (.str "Q"), body := some (.str "B"),
              output := some (.str "O") }
  validator data _ info :=
    match info.part, data with
    | .query, .null => throw (.validation .query "No query.")
    | .body, _ => pure (some (.int 2))
    | _, _ => pure none
  options := { skipChecks := .list skip }

def echo : Handler Unit := fun context => pure (.json context.body.value)

def posted : RequestContext where
  info := ⟨.post, "/one"⟩
  params := ⟨.int 0, none⟩
  body := ⟨.int 1, none⟩

def answered (number : Nat) (part : CallPart) (data : Json) (model : String)
    (answer : Except HttpError (Option Json)) : Event :=
  .asked number ⟨data, .str model, { part, request := posted.info }⟩ answer

/-- With the query left unchecked the handler runs, on the replaced body; else the call ends with
the query. -/
theorem wrap_runFrom_iff_strict :
    (((strict [.query]).observed 0).wrap (echo.observed 1) posted).runFrom (.start ()) =
      (.ok (.json (.int 2)), ⟨(),
        [answered 0 .params (.int 0) "P" (.ok none),
          answered 0 .body (.int 1) "B" (.ok (some (.int 2))),
          .handled { posted with body := ⟨.int 1, some (.int 2)⟩ } none,
          answered 0 .output (.int 2) "O" (.ok none)]⟩) ∧
    (((strict []).observed 0).wrap (echo.observed 1) posted).runFrom (.start ()) =
      (.error (.validation .query "No query."), ⟨(),
        [answered 0 .params (.int 0) "P" (.ok none),
          answered 0 .query .null "Q" (.error (.validation .query "No query."))]⟩) := by
  have hadmits (skip : List CallPart) : (strict skip).Admits :=
    (strict skip).misconfiguration_eq_none_iff.mp rfl
  have hreturned : Judges 0 (strict [.query]) posted.info (.json (.int 2)) ()
      [answered 0 .output (.int 2) "O" (.ok none)] (.ok (.json (.int 2))) () :=
    .accepted ⟨rfl, by decide⟩ (by simp) rfl
  have haccepted : Asks 0 (strict [.query]).validator ((strict [.query]).inputQuestions posted) ()
      [answered 0 .params (.int 0) "P" (.ok none),
        answered 0 .body (.int 1) "B" (.ok (some (.int 2)))]
      (.ok [(.params, none), (.body, some (.int 2))]) () :=
    .accepted none rfl (.accepted (some (.int 2)) rfl (.none ()))
  have hrejected : Asks 0 (strict []).validator ((strict []).inputQuestions posted) ()
      [answered 0 .params (.int 0) "P" (.ok none),
        answered 0 .query .null "Q" (.error (.validation .query "No query."))]
      (.error (.validation .query "No query.")) () :=
    .accepted none rfl (.rejected _ rfl)
  exact ⟨((wrap_runFrom_iff (strict [.query]) echo posted ()).1 _ _ _).mpr
      (CallRun.returned (hadmits _) haccepted rfl hreturned),
    ((wrap_runFrom_iff (strict []) echo posted ()).1 _ _ _).mpr (.rejected (hadmits _) hrejected)⟩

end RpcContract
