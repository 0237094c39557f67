import RpcContract.Proofs.Contract.Models
import RpcContract.Proofs.Data.Except
import RpcContract.Proofs.Validation.CallRules
import RpcContract.Validation.Preflight

/-!
# Checks on both sides of a call

The calling side checks body and query against the models that a wrapped handler publishes.  Where
the verdicts of a validator do not depend on the circumstances, both sides come to the same answer:
what the calling side lets through is not refused for its body or query, and what it refuses would
not have reached the handler.
-/

namespace RpcContract

variable {σ : Type}

/-! ## Verdicts -/

/-- Whether a datum is accepted depends on the datum, the model and the part alone. -/
def Validator.Decides (validator : Validator σ) (accepts : Json → Json → CallPart → Bool) : Prop :=
  ∀ (question : Question) (state : σ), ((validator.ask question).runFrom state).1.isOk =
    accepts question.data question.model question.info.part

/-- A check of a part of the call has ended it. -/
def Event.Rejects (part : CallPart) : Event → Prop
  | .asked _ question (.error _) => question.info.part = part
  | _ => False

section Decides

variable {number : Nat} {validator : Validator σ} {accepts : Json → Json → CallPart → Bool}
  {questions : List Question} {events : List Event} {answers : Except HttpError Answers}
  {state state₁ : σ}

theorem Asks.isOk_iff (h : Asks number validator questions state events answers state₁)
    (hdecides : validator.Decides accepts) : answers.isOk = true ↔
      ∀ question ∈ questions, accepts question.data question.model question.info.part = true := by
  induction h with
  | none state => simp [Except.isOk, Except.toBool]
  | @rejected question e state state₁ rest hask =>
      have hverdict := hdecides question state
      rw [hask] at hverdict
      simp [← hverdict, Except.isOk, Except.toBool]
  | @accepted question replacement state state₁ state₂ rest events answers hask _ ih =>
      have hverdict := hdecides question state
      rw [hask] at hverdict
      have hmap : (answers.map ((question.info.part, replacement) :: ·)).isOk = answers.isOk := by
        cases answers <;> rfl
      rw [hmap, ih, List.forall_mem_cons, ← hverdict]
      simp [Except.isOk, Except.toBool]

theorem Asks.not_rejects {part : CallPart}
    (h : Asks number validator questions state events answers state₁)
    (hdecides : validator.Decides accepts)
    (hpart : ∀ question ∈ questions, question.info.part = part →
      accepts question.data question.model part = true) :
    ∀ event ∈ events, ¬ event.Rejects part := by
  induction h with
  | none state => simp
  | @rejected question e state state₁ rest hask =>
      have hverdict := hdecides question state
      rw [hask] at hverdict
      intro event hevent hrejects
      rw [List.mem_singleton.mp hevent] at hrejects
      rw [hrejects, hpart question (.head _) hrejects] at hverdict
      cases hverdict
  | accepted replacement _ _ ih =>
      intro event hevent
      rcases List.mem_cons.mp hevent with rfl | hlater
      · exact id
      · exact ih (fun question hquestion => hpart question (.tail _ hquestion)) event hlater

end Decides

/-! ## The wrapped handler -/

namespace Layer

variable {layer : Layer σ} {context : RequestContext} {part : CallPart}

theorem inputQuestion?_eq_some_iff {question : Question} :
    layer.inputQuestion? context part = some question ↔
      ∃ model data, layer.Checks part model ∧ context.raw? part = some data ∧
        question = ⟨data, model, { part, request := context.info }⟩ := by
  unfold inputQuestion? Checks
  by_cases hcovers : layer.options.skipChecks.Covers part
  · simp [hcovers]
  cases hmodel : layer.model? part <;> cases hraw : context.raw? part <;>
    simp [hcovers, eq_comm]

/-- What came in for a part meets the model that it is checked by. -/
def Meets (layer : Layer σ) (accepts : Json → Json → CallPart → Bool) (context : RequestContext)
    (part : CallPart) : Prop :=
  ∀ model data, layer.Checks part model → context.raw? part = some data →
    accepts data model part = true

theorem forall_inputQuestion?_iff {accepts : Json → Json → CallPart → Bool} :
    (∀ question, layer.inputQuestion? context part = some question →
      accepts question.data question.model question.info.part = true) ↔
      layer.Meets accepts context part := by
  constructor
  · intro h model data hchecks hraw
    exact h _ (inputQuestion?_eq_some_iff.mpr ⟨model, data, hchecks, hraw, rfl⟩)
  · intro h question hquestion
    obtain ⟨model, data, hchecks, hraw, rfl⟩ := inputQuestion?_eq_some_iff.mp hquestion
    exact h model data hchecks hraw

theorem forall_inputQuestions_iff {accepts : Json → Json → CallPart → Bool} :
    (∀ question ∈ layer.inputQuestions context,
      accepts question.data question.model question.info.part = true) ↔
      layer.Meets accepts context .params ∧ layer.Meets accepts context .query ∧
        layer.Meets accepts context .body := by
  simp only [← forall_inputQuestion?_iff, inputQuestions, List.mem_filterMap, List.mem_cons,
    List.not_mem_nil, or_false]
  constructor
  · intro h
    exact ⟨fun question hquestion => h question ⟨_, .inl rfl, hquestion⟩,
      fun question hquestion => h question ⟨_, .inr (.inl rfl), hquestion⟩,
      fun question hquestion => h question ⟨_, .inr (.inr rfl), hquestion⟩⟩
  · rintro ⟨hparams, hquery, hbody⟩ question ⟨part, rfl | rfl | rfl, hquestion⟩
    · exact hparams question hquestion
    · exact hquery question hquestion
    · exact hbody question hquestion

theorem admits_of_noConflict (hconflict : layer.models.hasConflict = false)
    (hevery : layer.options.checkEveryItem = false) : layer.Admits := by
  rw [← misconfiguration_eq_none_iff, Handler.misconfiguration, hconflict, hevery]
  rfl

end Layer

namespace CallRun

variable {layer : Layer σ} {handle : Handler σ} {context : RequestContext} {state state₁ : σ}
  {events : List Event} {result : Except HttpError (Output (Observed σ))}
  {accepts : Json → Json → CallPart → Bool}

theorem countP_isHandled_iff (h : CallRun layer handle context state events result state₁)
    (hadmits : layer.Admits) (hdecides : layer.validator.Decides accepts) :
    events.countP Event.isHandled = 1 ↔
      layer.Meets accepts context .params ∧ layer.Meets accepts context .query ∧
        layer.Meets accepts context .body := by
  rw [h.countP_isHandled.2, ← Layer.forall_inputQuestions_iff]
  constructor
  · rintro ⟨-, _, _, _, hasks⟩
    exact (hasks.isOk_iff hdecides).mp rfl
  · intro hmeets
    obtain ⟨questions, answers, state₂, hasks⟩ :=
      Asks.exists 0 layer.validator (layer.inputQuestions context) state
    have hok := (hasks.isOk_iff hdecides).mpr hmeets
    cases answers with
    | error e => cases hok
    | ok answers => exact ⟨hadmits, _, _, _, hasks⟩

theorem not_rejects {part : CallPart} (h : CallRun layer handle context state events result state₁)
    (hdecides : layer.validator.Decides accepts) (hmeets : layer.Meets accepts context part)
    (hinput : part ≠ .output) : ∀ event ∈ events, ¬ event.Rejects part := by
  have hasked {asked : List Event} {answers : Except HttpError Answers} {state₂ : σ}
      (hasks : Asks 0 layer.validator (layer.inputQuestions context) state asked answers state₂) :
      ∀ event ∈ asked, ¬ event.Rejects part := by
    refine hasks.not_rejects hdecides fun question hquestion hpart => ?_
    obtain ⟨other, -, hother⟩ := List.mem_filterMap.mp hquestion
    have hinfo := congrArg CheckInfo.part (Layer.of_inputQuestion? hother).2
    rw [hpart] at hinfo
    subst hinfo
    rw [← hpart]
    exact Layer.forall_inputQuestion?_iff.mpr hmeets question hother
  have hhandled (seen : RequestContext) (failure : Option HttpError) :
      ¬ (Event.handled seen failure).Rejects part := id
  cases h with
  | refused => simp
  | rejected _ hasks => exact hasked hasks
  | failed _ hasks _ =>
      exact List.forall_mem_append.mpr ⟨hasked hasks, by simpa using hhandled _ _⟩
  | returned _ hasks _ hjudges =>
      refine List.forall_mem_append.mpr ⟨hasked hasks, List.forall_mem_cons.mpr ⟨hhandled _ _, ?_⟩⟩
      intro event hevent hrejects
      have habout := hjudges.aboutOutput event hevent
      cases event with
      | asked layer question answer =>
          cases answer with
          | ok replacement => exact hrejects
          | error e => exact hinput (hrejects.symm.trans habout)
      | handled | polled => exact hrejects

end CallRun

/-! ## The calling side -/

theorem Call.runFrom_tryCatch_throw {α : Type} (call : Call σ α) (f : HttpError → HttpError)
    (state : σ) : (tryCatch call fun e => throw (f e)).runFrom state =
      ((call.runFrom state).1.mapError f, (call.runFrom state).2) := by
  simp only [Call.runFrom, ExceptT.run_tryCatch, StateT.run_bind]
  generalize call.run.run state = outcome
  obtain ⟨answer, state⟩ := outcome
  cases answer <;> rfl

namespace Preflight

/-- What is asked before a call to an address is sent: first about the body, then about the
query. -/
def questions (handler : HandlerSpec) (body query : Json) (endpoint : Endpoint) : List Question :=
  [(.body, body), (.query, query)].filterMap fun (part, data) =>
    (handler.model part).map fun model =>
      ⟨data, model, { part, request := { method := handler.method, url := endpoint.url } }⟩

def question? (handler : HandlerSpec) (request : RequestInfo) (data : CallPart → Json)
    (part : CallPart) : Option Question :=
  (handler.model part).map fun model => ⟨data part, model, { part, request }⟩

variable {number : Nat} {validator : Validator σ} {handler : HandlerSpec} {request : RequestInfo}
  {data : CallPart → Json} {events : List Event} {answers : Except HttpError Answers} {state : σ}

theorem checkPart_eq (validator : Validator σ) (part : CallPart) :
    checkPart handler validator request data part =
      match question? handler request data part with
      | none => pure ()
      | some question =>
          tryCatch (do let _ ← validator.ask question) fun e => throw (report e) := by
  cases h : handler.model part <;> simp [checkPart, question?, h, Validator.ask]

theorem runFrom_asked {question : Question} {answer : Except HttpError (Option Json)}
    (observed : Observed σ)
    (h : (validator.ask question).runFrom observed.state = (answer, state)) :
    (tryCatch (do let _ ← (validator.observed number).ask question)
      fun e => throw (report e)).runFrom observed =
      ((answer.map fun _ => ()).mapError report,
        observed.add state [.asked number question answer]) := by
  have hobserved := Validator.runFrom_observed number h
  rw [Call.runFrom_tryCatch_throw]
  cases answer with
  | error e => rw [Call.runFrom_bind_error hobserved, Except.map]
  | ok replacement => rw [Call.runFrom_bind_ok hobserved, Call.runFrom_pure, Except.map]

theorem runFrom_checkParts {parts : List CallPart} (observed : Observed σ)
    (h : Asks number validator (parts.filterMap (question? handler request data))
      observed.state events answers state) :
    (parts.forM (checkPart handler (validator.observed number) request data)).runFrom observed =
      ((answers.map fun _ => ()).mapError report, observed.add state events) := by
  induction parts generalizing observed events answers with
  | nil =>
      cases h
      simp [Except.map, Except.mapError]
  | cons part rest ih =>
      rw [List.forM_eq_forM, List.forM_cons, checkPart_eq]
      rw [List.filterMap_cons] at h
      cases hquestion : question? handler request data part with
      | none =>
          rw [hquestion] at h
          simpa using ih observed h
      | some question =>
          rw [hquestion] at h
          cases h with
          | rejected _ hask =>
              exact Call.runFrom_bind_error (runFrom_asked observed hask) _
          | @accepted _ _ _ state₁ _ _ later rest' hask tail =>
              rw [Call.runFrom_bind_ok (runFrom_asked observed hask)]
              refine (ih (observed.add state₁ _) tail).trans ?_
              cases rest' <;> simp [Except.map, Except.mapError]

theorem questions_eq (handler : HandlerSpec) (body query : Json) (endpoint : Endpoint) :
    questions handler body query endpoint =
      order.filterMap (question? handler { method := handler.method, url := endpoint.url }
        fun part => if part = .body then body else query) := rfl

theorem runFrom_check (handler : HandlerSpec) (body query : Json) (validator : Validator σ)
    (endpoint : Endpoint) (state : σ) :
    ∃ events answers state₁,
      Asks 0 validator (questions handler body query endpoint) state events answers state₁ ∧
      (check handler body query (validator.observed 0) endpoint).runFrom (.start state) =
        ((answers.map fun _ => ()).mapError report, ⟨state₁, events⟩) := by
  obtain ⟨events, answers, state₁, hasks⟩ :=
    Asks.exists 0 validator (questions handler body query endpoint) state
  refine ⟨events, answers, state₁, hasks, ?_⟩
  rw [questions_eq] at hasks
  exact runFrom_checkParts (.start state) hasks

theorem report_cases (e : HttpError) : (e.part?.isSome = true ∧ report e = e) ∨
    ((report e).status = 0 ∧ (report e).message = e.message) := by
  by_cases hpart : e.part?.isSome = true
  · exact .inl ⟨hpart, by simp [report, hpart]⟩
  · by_cases hstatus : e.status = 0
    · exact .inr (by simp [report, hstatus])
    · have hreport : report e = .client e.message := by simp [report, hpart, hstatus]
      exact .inr ⟨hreport ▸ rfl, hreport ▸ rfl⟩

theorem model_published (layer : Layer σ) (handler : HandlerSpec) {part : CallPart}
    (hskip : layer.options.skipChecks.Covers part ↔ layer.options.skipEmission.Covers part)
    (model : Json) :
    (handler.withValidation (contributionOf layer.models layer.options).validation).model part =
      some model ↔ layer.Checks part model := by
  rw [HandlerSpec.model_withValidation, contributionOf, Models.get_without,
    SkipSetting.contains_resolve, layer.get_models, Layer.Checks, hskip]
  by_cases h : layer.options.skipEmission.Covers part <;> simp [h]

theorem forall_questions_iff {layer : Layer σ} {handler : HandlerSpec} {body query : Json}
    {endpoint : Endpoint} {context : RequestContext} {accepts : Json → Json → CallPart → Bool}
    (hmodel : ∀ part ∈ [CallPart.body, .query], ∀ model,
      handler.model part = some model ↔ layer.Checks part model)
    (hbody : context.body.raw = body) (hquery : context.query.raw = query) :
    (∀ question ∈ questions handler body query endpoint,
      accepts question.data question.model question.info.part = true) ↔
      layer.Meets accepts context .body ∧ layer.Meets accepts context .query := by
  have hpart (part : CallPart) (data : Json) (hin : part ∈ [CallPart.body, .query])
      (hraw : context.raw? part = some data) : (∀ model, handler.model part = some model →
        accepts data model part = true) ↔ layer.Meets accepts context part := by
    simp [hmodel part hin, Layer.Meets, hraw]
  rw [← hpart .body body (by simp) (hbody ▸ rfl), ← hpart .query query (by simp) (hquery ▸ rfl)]
  cases hb : handler.model .body <;> cases hq : handler.model .query <;>
    simp [questions, hb, hq]

theorem isOk_map_mapError {answers : Except HttpError Answers} :
    (answers.map fun _ => ()).mapError report = .ok () ↔ answers.isOk = true := by
  rw [mapError_eq_ok_iff]
  cases answers <;> simp [Except.map, Except.isOk, Except.toBool]

end Preflight

/-- What a calling side lets through is not refused for its body or its query, and what it refuses
would not have reached the handler.  It asks about the body first, goes on while it is told yes, and
reports a rejection as it is and anything else as a failure to send. -/
theorem preflight_agrees (layer : Layer σ) (handle : Handler σ) (handler : HandlerSpec)
    (body query : Json) (endpoint : Endpoint) :
    (∀ accepts, layer.validator.Decides accepts → layer.models.hasConflict = false →
      layer.options.checkEveryItem = false →
      (∀ part ∈ [CallPart.body, .query],
        layer.options.skipChecks.Covers part ↔ layer.options.skipEmission.Covers part) →
      let published := handler.withValidation (contributionOf layer.models layer.options).validation
      let client := Preflight.check published body query (layer.validator.observed 0) endpoint
      let server := (layer.observed 0).wrap (handle.observed 1)
      ∀ (context : RequestContext) (before during : σ),
        context.body.raw = body → context.query.raw = query →
        let events := ((server context).runFrom (.start during)).2.events
        ((client.runFrom (.start before)).1 = .ok () →
          (∀ event ∈ events, ¬ event.Rejects .body ∧ ¬ event.Rejects .query) ∧
          (layer.Meets accepts context .params → events.countP Event.isHandled = 1)) ∧
        ∀ e, (client.runFrom (.start before)).1 = .error e →
          events.countP Event.isHandled = 0) ∧
    ∀ (validator : Validator σ) (state : σ),
      let run := (Preflight.check handler body query (validator.observed 0) endpoint).runFrom
        (.start state)
      ∃ answers, Asks 0 validator (Preflight.questions handler body query endpoint) state
          run.2.events answers run.2.state ∧
        (run.1 = .ok () ↔ answers.isOk = true) ∧
        ∀ reported, run.1 = .error reported → ∃ e, answers = .error e ∧
          ((e.part?.isSome = true ∧ reported = e) ∨
            (reported.status = 0 ∧ reported.message = e.message)) := by
  constructor
  · intro accepts hdecides hconflict hevery hskip published client server context before during
      hbody hquery events
    obtain ⟨asked, answers, state₁, hasks, hclient⟩ := Preflight.runFrom_check published body query
      layer.validator endpoint before
    have hmeets : answers.isOk = true ↔
        layer.Meets accepts context .body ∧ layer.Meets accepts context .query :=
      (hasks.isOk_iff hdecides).trans (Preflight.forall_questions_iff
        (fun part hpart => Preflight.model_published layer handler (hskip part hpart))
        hbody hquery)
    obtain ⟨happened, result, state₂, hrun⟩ := CallRun.exists layer handle context during
    have hevents : events = happened := congrArg (fun run => run.2.events) hrun.runFrom
    have hhandled := hrun.countP_isHandled_iff (Layer.admits_of_noConflict hconflict hevery)
      hdecides
    have hclient : (client.runFrom (.start before)).1 = (answers.map fun _ => ()).mapError
      Preflight.report := congrArg Prod.fst hclient
    rw [hevents, hclient, Preflight.isOk_map_mapError]
    refine ⟨fun hok => ?_, fun e herror => ?_⟩
    · obtain ⟨hbodyMeets, hqueryMeets⟩ := hmeets.mp hok
      refine ⟨fun event hevent => ?_, fun hparams => ?_⟩
      · exact ⟨hrun.not_rejects hdecides hbodyMeets nofun event hevent,
          hrun.not_rejects hdecides hqueryMeets nofun event hevent⟩
      · exact hhandled.mpr ⟨hparams, hqueryMeets, hbodyMeets⟩
    · have hnot : ¬ answers.isOk = true := fun hok => by
        cases (Preflight.isOk_map_mapError.mpr hok).symm.trans herror
      have hle := hrun.countP_isHandled.1
      have hne : happened.countP Event.isHandled ≠ 1 := fun hone =>
        hnot (hmeets.mpr ⟨(hhandled.mp hone).2.2, (hhandled.mp hone).2.1⟩)
      omega
  · intro validator state run
    obtain ⟨events, answers, state₁, hasks, hrun⟩ := Preflight.runFrom_check handler body query
      validator endpoint state
    have hrun : run =
        ((answers.map fun _ => ()).mapError Preflight.report, ⟨state₁, events⟩) := hrun
    rw [hrun]
    refine ⟨answers, hasks, Preflight.isOk_map_mapError, fun reported hreported => ?_⟩
    cases answers with
    | ok replaced => cases hreported
    | error e =>
        cases hreported
        exact ⟨e, rfl, Preflight.report_cases e⟩

def sameValidator : Validator Unit := fun data model info =>
  if data = model then return none else throw (.validation info.part "not the same")

def sameLayer : Layer Unit where
  models := { body := some (.int 1), query := some (.str "all") }
  validator := sameValidator
  options := { skipChecks := .list [.params], skipEmission := .list [.output] }

def sameContext : RequestContext :=
  { info := { method := .post, url := "/api" }
    query := ⟨.str "all", none⟩
    body := ⟨.int 1, none⟩ }

theorem preflight_agrees_same :
    let published := ({ method := .post, path := "" } : HandlerSpec).withValidation
      (contributionOf sameLayer.models sameLayer.options).validation
    let client := Preflight.check published (.int 1) (.str "all")
      (sameLayer.validator.observed 0) { path := "/api", query := "" }
    let call := (sameLayer.observed 0).wrap (Handler.observed (fun _ => pure .empty) 1) sameContext
    sameLayer.validator.Decides (fun data model _ => decide (data = model)) ∧
    (client.runFrom (.start ())).1 = .ok () ∧
    (call.runFrom (.start ())).2.events.countP Event.isHandled = 1 := by
  intro published client call
  have hdecides : sameLayer.validator.Decides (fun data model _ => decide (data = model)) := by
    intro question state
    by_cases h : question.data = question.model <;>
      simp [Validator.ask, sameLayer, sameValidator, h, Except.isOk, Except.toBool]
  have hsent : (client.runFrom (.start ())).1 = .ok () := by rfl
  have hparams :
      sameLayer.Meets (fun data model _ => decide (data = model)) sameContext .params := by
    intro model data hchecks _
    cases hchecks.1
  have hagree := (preflight_agrees sameLayer (fun _ => pure .empty) { method := .post, path := "" }
    (.int 1) (.str "all") { path := "/api", query := "" }).1 _ hdecides rfl rfl (by decide)
    sameContext () () rfl rfl
  exact ⟨hdecides, hsent, (hagree.1 hsent).2 hparams⟩

end RpcContract
