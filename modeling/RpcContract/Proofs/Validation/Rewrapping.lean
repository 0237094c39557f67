import RpcContract.Proofs.Validation.CheckedStream
import RpcContract.Proofs.Validation.Stack

/-!
# Wrapping twice

A validator whose answers depend on what it is asked alone answers the same question twice in the
same way.  The second layer of two equal ones asks the questions that the first has asked, about the
request as it came in and about a result that the first has passed on; so it changes nothing that
can be seen from outside or from within.
-/

namespace RpcContract

variable {σ : Type}

/-- What a validator answers to a question, if it asks nothing of its surroundings. -/
abbrev Judgement := (data model : Json) → CheckInfo → Except HttpError (Option Json)

def Validator.ofJudgement (judge : Judgement) : Validator σ :=
  fun data model info => ofExcept (judge data model info)

theorem Call.runFrom_ofExcept {α : Type} (outcome : Except HttpError α) (state : σ) :
    Call.runFrom (ofExcept outcome) state = (outcome, state) := by
  cases outcome <;> rfl

/-- The same end of two calls: one error, one value, or streams that no number of readings tells
apart, neither by their items nor by what is asked of the handler's own stream. -/
inductive SameEnd : Except HttpError (Output (Observed σ)) →
    Except HttpError (Output (Observed σ)) → Prop
  | error (e : HttpError) : SameEnd (.error e) (.error e)
  | empty : SameEnd (.ok .empty) (.ok .empty)
  | json (value : Json) : SameEnd (.ok (.json value)) (.ok (.json value))
  | stream {items items' : ItemStream (Observed σ)} :
      (∀ count state, items.pulls count state = items'.pulls count state) →
      SameEnd (.ok (.stream items)) (.ok (.stream items'))

theorem SameEnd.refl (result : Except HttpError (Output (Observed σ))) :
    SameEnd result result := by
  rcases result with e | output
  · exact .error e
  · cases output with
    | empty => exact .empty
    | json value => exact .json value
    | stream items => exact .stream fun _ _ => rfl

/-! ## Streams -/

section Streams

variable {check : ItemCheck σ} {judge : Judgement}

theorem exists_verdict (h : check.validator = .ofJudgement judge) (index : Nat) (item : Json) :
    ∃ verdict : Item, (verdict = .ok item ∨ ∃ e, verdict = .error e) ∧
      ∀ state, (ItemStream.verdict check index item).run state = (verdict, state) := by
  by_cases hdue : check.Due index
  · have hask (state : σ) : (check.validator.ask (check.question item)).runFrom state =
        (judge item check.model (check.question item).info, state) := by
      rw [h]
      exact Call.runFrom_ofExcept _ _
    refine ⟨_, ?_, fun state => ItemStream.verdict_due hdue (hask state)⟩
    cases judge item check.model (check.question item).info with
    | error e => exact .inr ⟨e, rfl⟩
    | ok replacement => exact .inl rfl
  · exact ⟨.ok item, .inl rfl, fun _ => ItemStream.verdict_notDue hdue⟩

end Streams

namespace ItemStream

variable {check : ItemCheck (Observed σ)} {judge : Judgement}

theorem pulls_checked_checked (h : check.validator = .ofJudgement judge) (count index : Nat)
    (items : ItemStream (Observed σ)) (state : σ) :
    pulls count (checked check index false (checked check index false items)) state =
      pulls count (checked check index false items) state := by
  induction count generalizing index items state with
  | zero => rfl
  | succ count ih =>
      rcases hnext : items.next.run (.start state) with ⟨⟨answer, items'⟩, state₁, events⟩
      rcases answer with _ | e | item
      · rw [pulls_none _ (next_checked_none hnext),
          pulls_none _ (next_checked_none (next_checked_none hnext))]
      · rw [pulls_some _ (next_checked_error hnext),
          pulls_some _ (next_checked_error (next_checked_error hnext)), pulls_done, pulls_done]
      · obtain ⟨verdict, hverdict, hrun⟩ := exists_verdict h index item
        rcases hverdict with rfl | ⟨e, rfl⟩
        · have honce := next_checked_accepted hnext (hrun _)
          rw [pulls_some _ honce, pulls_some _ (next_checked_accepted honce (hrun _)), ih]
        · have honce := next_checked_rejected hnext (hrun _)
          rw [pulls_some _ honce, pulls_some _ (next_checked_error honce), pulls_done, pulls_done]

end ItemStream

/-! ## Results -/

section Calls

variable {judge : Judgement}

/-- A check of a result asks nothing of its surroundings, and a second one after it comes to the
same. -/
def Settled (check : Output (Observed σ) → Call (Observed σ) (Output (Observed σ)))
    (output : Output (Observed σ)) : Prop :=
  ∃ once twice, SameEnd twice once ∧ check output = ofExcept once ∧
    check output >>= check = ofExcept twice

theorem Settled.of_throw {check : Output (Observed σ) → Call (Observed σ) (Output (Observed σ))}
    {output : Output (Observed σ)} {e : HttpError} (h : check output = throw e) :
    Settled check output :=
  ⟨.error e, .error e, .error e, h, by rw [h]; rfl⟩

theorem Settled.of_pure {check : Output (Observed σ) → Call (Observed σ) (Output (Observed σ))}
    {output : Output (Observed σ)} (h : check output = pure output) : Settled check output :=
  ⟨.ok output, .ok output, .refl _, h, by rw [h, pure_bind, h]; rfl⟩

theorem settled_checkOutput {layer : Layer (Observed σ)} (h : layer.validator = .ofJudgement judge)
    (request : RequestInfo) (output : Output (Observed σ)) :
    Settled (Handler.checkOutput layer.models layer.validator layer.options request) output := by
  cases ho : Handler.activeModel layer.models layer.options .output with
  | some model =>
      cases output with
      | empty => exact .of_throw (by simp only [Handler.checkOutput, ho]; rfl)
      | stream items => exact .of_throw (by simp only [Handler.checkOutput, ho]; rfl)
      | json value =>
          by_cases hnull : value = .null
          · subst hnull
            exact .of_throw (by simp only [Handler.checkOutput, ho]; rfl)
          have hcheck : Handler.checkOutput layer.models layer.validator layer.options request
              (.json value) = (do
                let _ ← ofExcept (judge value model { part := .output, request })
                return .json value) := by
            simp only [Handler.checkOutput, ho, Output.isEmpty_json hnull, h]
            rfl
          cases hjudge : judge value model { part := .output, request } with
          | error e => exact .of_throw (by rw [hcheck, hjudge]; rfl)
          | ok replacement => exact .of_pure (by rw [hcheck, hjudge]; rfl)
  | none =>
      cases hi : Handler.activeModel layer.models layer.options .iteration with
      | none => exact .of_pure (by simp [Handler.checkOutput, ho, hi])
      | some model =>
          cases output with
          | empty => exact .of_throw (by simp only [Handler.checkOutput, ho, hi]; rfl)
          | json value => exact .of_throw (by simp only [Handler.checkOutput, ho, hi]; rfl)
          | stream items =>
              let check : ItemCheck (Observed σ) :=
                ⟨model, layer.validator, request, layer.options.checkEveryItem⟩
              have hstream (items : ItemStream (Observed σ)) :
                  Handler.checkOutput layer.models layer.validator layer.options request
                    (.stream items) = pure (.stream (items.validate check)) := by
                simp [Handler.checkOutput, ho, hi, check]
              exact ⟨.ok (.stream (items.validate check)),
                .ok (.stream ((items.validate check).validate check)),
                .stream fun count state => ItemStream.pulls_checked_checked h count 0 items state,
                hstream items, by rw [hstream, pure_bind, hstream]; rfl⟩

/-! ## Inputs -/

def answersTo (judge : Judgement) : List Question → Except HttpError Answers
  | [] => .ok []
  | question :: rest => do
      let replacement ← judge question.data question.model question.info
      let answers ← answersTo judge rest
      return (question.info.part, replacement) :: answers

namespace Layer

variable {layer : Layer σ}

theorem foldlM_checkInput (h : layer.validator = .ofJudgement judge) (parts : List CallPart)
    (context : RequestContext) :
    parts.foldlM (Handler.checkInput layer.models layer.validator layer.options) context =
      ofExcept ((answersTo judge (parts.filterMap (layer.inputQuestion? context))).map
        context.seen) := by
  induction parts generalizing context with
  | nil => rfl
  | cons part rest ih =>
      rw [List.foldlM_cons, checkInput_eq, List.filterMap_cons]
      cases hquestion : layer.inputQuestion? context part with
      | none => exact (pure_bind _ _).trans (ih context)
      | some question =>
          have hpart : question.info.part = part := by
            rw [(Layer.of_inputQuestion? hquestion).2]
          have hask : layer.validator.ask question =
              ofExcept (judge question.data question.model question.info) := by rw [h]; rfl
          simp only [answersTo, hask]
          cases judge question.data question.model question.info with
          | error e => rfl
          | ok replacement =>
              have hrest := ih (context.seen [(part, replacement)])
              rw [RequestContext.inputQuestion?_seen, ← RequestContext.map_seen_cons] at hrest
              simp only [Call.ofExcept_ok, pure_bind, hrest, hpart]
              cases answersTo judge (rest.filterMap (layer.inputQuestion? context)) <;> rfl

/-- What the checks ahead of the handler come to. -/
def admission (layer : Layer σ) (judge : Judgement) (context : RequestContext) :
    Except HttpError Answers :=
  match Handler.misconfiguration layer.models layer.options with
  | some e => .error e
  | none => answersTo judge (layer.inputQuestions context)

@[simp] theorem admission_seen (judge : Judgement) (context : RequestContext) (answers : Answers) :
    layer.admission judge (context.seen answers) = layer.admission judge context := by
  simp [admission]

theorem wrap_eq (h : layer.validator = .ofJudgement judge) (handle : Handler σ)
    (context : RequestContext) : layer.wrap handle context = (do
      let answers ← ofExcept (layer.admission judge context)
      let output ← handle (context.seen answers)
      Handler.checkOutput layer.models layer.validator layer.options context.info output) := by
  rw [Layer.wrap, Handler.wrap, admission]
  cases Handler.misconfiguration layer.models layer.options with
  | some e => rfl
  | none =>
      simp only [Handler.inputOrder, foldlM_checkInput h]
      change (do
        let seen ← ofExcept ((answersTo judge (layer.inputQuestions context)).map context.seen)
        let output ← handle seen
        Handler.checkOutput layer.models layer.validator layer.options seen.info output) = _
      cases answersTo judge (layer.inputQuestions context) with
      | error e => rfl
      | ok answers => simp [Except.map]

end Layer

theorem RequestContext.seen_twice (context : RequestContext) (answers : Answers) :
    (context.seen answers).seen answers = context.seen answers := by
  have hlast (part : CallPart) :
      Answers.last? (answers ++ answers) part = Answers.last? answers part := by
    rw [Answers.last?_append, Option.or_self]
  rw [seen_seen]
  simp only [seen, hlast]

end Calls

/-- A call of a handler that is wrapped twice alike ends as if it were wrapped once; the handler
runs as often, on the same request, and leaves the same behind. -/
theorem wrap_wrap (judge : Judgement) (models : Models) (options : ValidationOptions)
    (handle : Handler σ) (context : RequestContext) (state : σ) :
    let layer : Layer (Observed σ) := ⟨models, .ofJudgement judge, options⟩
    let once := (layer.wrap (handle.observed 1) context).runFrom (.start state)
    let twice := (layer.wrap (layer.wrap (handle.observed 1)) context).runFrom (.start state)
    SameEnd twice.1 once.1 ∧ twice.2 = once.2 ∧ once.2.events.countP Event.isHandled ≤ 1 := by
  intro layer once twice
  have hjudge : layer.validator = .ofJudgement judge := rfl
  have hwrap := Layer.wrap_eq hjudge
  cases hadmission : layer.admission judge context with
  | error e =>
      have hrefused (handle' : Handler (Observed σ)) : layer.wrap handle' context = throw e := by
        rw [hwrap, hadmission]
        rfl
      simp only [once, twice, hrefused]
      exact ⟨.error e, trivial, Nat.zero_le 1⟩
  | ok answers =>
      let check := Handler.checkOutput layer.models layer.validator layer.options context.info
      have honce (handle' : Handler (Observed σ)) :
          layer.wrap handle' context = handle' (context.seen answers) >>= check := by
        rw [hwrap, hadmission]
        rfl
      -- The inner layer asks what the outer one has asked, for its questions are about raw inputs.
      have htwice : layer.wrap (layer.wrap (handle.observed 1)) context =
          handle.observed 1 (context.seen answers) >>= fun output => check output >>= check := by
        rw [honce, hwrap, Layer.admission_seen, hadmission, Call.ofExcept_ok, pure_bind,
          RequestContext.seen_twice, RequestContext.info_seen, bind_assoc]
      simp only [once, twice, htwice]
      rw [honce]
      rcases hhandle : (handle (context.seen answers)).runFrom state with ⟨e | output, state₁⟩
      · have hrun : (handle.observed 1 (context.seen answers)).runFrom (.start state) = _ :=
          Handler.runFrom_observed_error 1 hhandle
        rw [Call.runFrom_bind_error hrun, Call.runFrom_bind_error hrun]
        exact ⟨.error e, rfl, by simp [Observed.start, Observed.add, Event.isHandled]⟩
      · have hrun : (handle.observed 1 (context.seen answers)).runFrom (.start state) = _ :=
          Handler.runFrom_observed_ok 1 hhandle
        have hsettled : Settled check (output.observed 1) :=
          settled_checkOutput hjudge context.info _
        obtain ⟨once', twice', hsame, honce', htwice'⟩ := hsettled
        rw [Call.runFrom_bind_ok hrun, Call.runFrom_bind_ok hrun, htwice', honce',
          Call.runFrom_ofExcept, Call.runFrom_ofExcept]
        exact ⟨hsame, rfl, by simp [Observed.start, Observed.add, Event.isHandled]⟩

end RpcContract
