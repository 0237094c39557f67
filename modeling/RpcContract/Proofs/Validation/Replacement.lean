import RpcContract.Proofs.Validation.CheckedStream
import RpcContract.Proofs.Validation.Stack

/-!
# What becomes of replacements

A validator that accepts a datum may answer with another one.  For an input the handler sees the
answer in place of what came in.  Results and streamed items are passed on as they were, whatever
the answer.
-/

namespace RpcContract

variable {σ : Type}

/-! ## Questions of one layer -/

theorem Layer.parts_inputQuestions_sublist (layer : Layer σ) (context : RequestContext)
    (parts : List CallPart) :
    ((parts.filterMap (layer.inputQuestion? context)).map (·.info.part)).Sublist parts := by
  induction parts with
  | nil => exact .slnil
  | cons part parts ih =>
      cases hquestion : layer.inputQuestion? context part with
      | none =>
          rw [List.filterMap_cons_none hquestion]
          exact ih.cons part
      | some question =>
          have hpart : question.info.part = part := by rw [(Layer.of_inputQuestion? hquestion).2]
          rw [List.filterMap_cons_some hquestion, List.map_cons, hpart]
          exact ih.cons_cons part

theorem Layer.nodup_parts_inputQuestions (layer : Layer σ) (context : RequestContext) :
    ((layer.inputQuestions context).map (·.info.part)).Nodup :=
  (layer.parts_inputQuestions_sublist context _).nodup (by decide)

/-! ## Answers of one layer -/

section Asks

variable {number : Nat} {validator : Validator σ} {questions : List Question} {state state₁ : σ}
  {events : List Event} {result : Except HttpError Answers} {answers : Answers}

theorem Asks.parts_answers (h : Asks number validator questions state events result state₁)
    (hresult : result = .ok answers) :
    answers.map Prod.fst = questions.map (·.info.part) := by
  induction h generalizing answers with
  | none =>
      cases hresult
      rfl
  | rejected => cases hresult
  | @accepted _ _ _ _ _ _ _ rest _ _ ih =>
      cases rest with
      | error e => cases hresult
      | ok rest =>
          cases hresult
          rw [List.map_cons, List.map_cons, ih rfl]

theorem Asks.mem_answers (h : Asks number validator questions state events result state₁)
    (hresult : result = .ok answers) {layer : Nat} {question : Question}
    {replacement : Option Json} (hmem : .asked layer question (.ok replacement) ∈ events) :
    (question.info.part, replacement) ∈ answers := by
  induction h generalizing answers with
  | none => cases hmem
  | rejected => cases hresult
  | @accepted _ _ _ _ _ _ _ rest _ _ ih =>
      cases rest with
      | error e => cases hresult
      | ok rest =>
          cases hresult
          rcases List.mem_cons.mp hmem with hfirst | hlater
          · cases hfirst
            exact List.mem_cons_self
          · exact List.mem_cons_of_mem _ (ih rfl hlater)

end Asks

theorem Answers.last?_eq_none {answers : Answers} {part : CallPart}
    (h : part ∉ answers.map Prod.fst) : answers.last? part = none := by
  have hnone : answers.replacements part = [] := by
    refine List.filterMap_eq_nil_iff.mpr fun answer hanswer => if_neg fun hpart => h ?_
    exact hpart ▸ List.mem_map_of_mem hanswer
  rw [last?, hnone, List.getLast?_nil]

theorem Answers.last?_of_mem {answers : Answers} {part : CallPart} {replacement : Option Json}
    (hparts : (answers.map Prod.fst).Nodup) (h : (part, replacement) ∈ answers) :
    answers.last? part = replacement := by
  induction answers with
  | nil => cases h
  | cons answer rest ih =>
      obtain ⟨hfirst, hrest⟩ := List.nodup_cons.mp hparts
      have hsplit := Answers.last?_append [answer] rest part
      rw [List.singleton_append] at hsplit
      rw [hsplit]
      rcases List.mem_cons.mp h with rfl | hmem
      · rw [Answers.last?_eq_none hfirst]
        cases replacement <;> simp [last?, replacements]
      · have hother : answer.1 ≠ part := by
          rintro rfl
          exact hfirst (List.mem_map.mpr ⟨_, hmem, rfl⟩)
        rw [ih hrest hmem]
        cases replacement <;> simp [last?, replacements, hother]

/-! ## Calls -/

/-- What becomes of the answer to a question: a run of the handler sees it in place of the input
that the question is about, but a result stays what it was. -/
def PassedOn (question : Question) (replacement : Option Json) (events : List Event)
    (result : Except HttpError (Output (Observed σ))) : Prop :=
  (∀ seen failure, .handled seen failure ∈ events →
    seen.Shows question.info.part question.data replacement) ∧
  (question.info.part = .output → result = .ok (.json question.data))

theorem Event.AboutInput.part_ne_output {context : RequestContext} {number : Nat}
    {question : Question} {answer : Except HttpError (Option Json)}
    (h : (Event.asked number question answer).AboutInput context) :
    question.info.part ≠ .output := by
  intro hpart
  have hraw : context.raw? question.info.part = some question.data := h.1
  rw [hpart] at hraw
  cases hraw

theorem Asks.passedOn {layer : Layer σ} {request : Request} {state state₁ : σ}
    {events later : List Event} {answers : Answers} {question : Question}
    {replacement : Option Json} {failure : Option HttpError}
    (hasks : Asks 0 layer.validator (layer.inputQuestions request.context) state events
      (.ok answers) state₁)
    (hlater : ∀ event ∈ later, event.AboutOutput)
    (hmem : .asked 0 question (.ok replacement) ∈ events)
    (result : Except HttpError (Output (Observed σ))) :
    PassedOn question replacement
      (events ++ .handled (request.context.seen answers) failure :: later) result := by
  have habout := hasks.aboutInput (fun _ => id)
  have hinput := habout _ hmem
  refine ⟨fun seen failure hhandled => ?_, fun hpart => absurd hpart hinput.part_ne_output⟩
  obtain rfl : seen = request.context.seen answers := by
    rcases List.mem_append.mp hhandled with hbefore | hbehind
    · exact (habout _ hbefore).elim
    rcases List.mem_cons.mp hbehind with hsame | hbehind
    · cases hsame
      rfl
    · exact (hlater _ hbehind).elim
  have hparts : (answers.map Prod.fst).Nodup := by
    rw [hasks.parts_answers rfl]
    exact layer.nodup_parts_inputQuestions request.context
  have hshows := request.shows_seen answers hinput.1
  rwa [Answers.last?_of_mem hparts (hasks.mem_answers rfl hmem)] at hshows

theorem CallRun.passedOn {layer : Layer σ} {handle : Handler σ} {request : Request}
    {state state₁ : σ} {events : List Event} {result : Except HttpError (Output (Observed σ))}
    (h : CallRun layer handle request.context state events result state₁) {question : Question}
    {replacement : Option Json} (hmem : .asked 0 question (.ok replacement) ∈ events) :
    PassedOn question replacement events result := by
  cases h with
  | refused => cases hmem
  | rejected _ hasks =>
      have habout := hasks.aboutInput (fun _ => id)
      exact ⟨fun _ _ hhandled => (habout _ hhandled).elim, fun hpart =>
        absurd hpart (habout _ hmem).part_ne_output⟩
  | failed _ hasks _ =>
      have hasked := (List.mem_append.mp hmem).resolve_right (by simp)
      exact hasks.passedOn (by simp) hasked _
  | returned _ hasks _ hjudges =>
      rcases List.mem_append.mp hmem with hasked | hbehind
      · exact hasks.passedOn hjudges.aboutOutput hasked _
      -- The only question behind the run of the handler is the one about its result.
      have hlater := (List.mem_cons.mp hbehind).resolve_left (by simp)
      have hpart : question.info.part = .output := hjudges.aboutOutput _ hlater
      refine ⟨fun _ _ _ => ?_, fun _ => ?_⟩
      · rw [hpart]
        trivial
      · generalize Output.observed 1 _ = returned at hjudges
        cases hjudges <;> simp at hlater
        rw [hlater.1]

/-! ## Streams -/

theorem Passes.data_eq {index : Nat} {item : Json} {state state₁ : σ} {checks : NumberedChecks σ}
    {events : List Event} {result : Except HttpError Unit}
    (h : Passes index item state checks events result state₁) {number : Nat} {question : Question}
    {answer : Except HttpError (Option Json)} (hmem : .asked number question answer ∈ events) :
    question.data = item := by
  induction h with
  | unchecked => cases hmem
  | stopped _ ih => exact ih hmem
  | notDue _ _ ih => exact ih hmem
  | rejected _ _ _ ih | accepted _ _ _ ih =>
      rcases List.mem_append.mp hmem with hinner | hlast
      · exact ih hinner
      · cases List.mem_singleton.mp hlast
        rfl

/-- A reading in which something was asked gives the item that the question was about, or an
error. -/
theorem Reads.answer_eq {checks : NumberedChecks σ} {poll : StateM σ (Option Item)}
    {index count : Nat} {state state₁ : σ} {pulls : List Pull}
    (h : Reads checks poll index count state pulls state₁) {number : Nat} {question : Question}
    {answer : Except HttpError (Option Json)} :
    ∀ pull ∈ pulls, .asked number question answer ∈ pull.events →
      pull.answer = some (.ok question.data) ∨ ∃ e, pull.answer = some (.error e) := by
  induction h with
  | enough => simp
  | ended => simp
  | broken =>
      intro pull hpull hmem
      rcases List.mem_cons.mp hpull with rfl | hrest
      · simp at hmem
      · simp [eq_of_mem_closed hrest] at hmem
  | rejected =>
      intro pull hpull hmem
      rcases List.mem_cons.mp hpull with rfl | hrest
      · exact .inr ⟨_, rfl⟩
      · simp [eq_of_mem_closed hrest] at hmem
  | yielded _ hpasses _ ih =>
      intro pull hpull hmem
      rcases List.mem_cons.mp hpull with rfl | hrest
      · have hasked := (List.mem_cons.mp hmem).resolve_left (by simp)
        exact .inl (by rw [hpasses.data_eq hasked])
      · exact ih pull hrest hmem

/-! ## Everything that is asked about -/

/-- The handler sees the answer to a question about an input in its place, or the input itself if
the answer has nothing to put there.  A result is returned as it was, and so is an item of a stream,
whatever the answer: only a rejection keeps them back. -/
theorem replaced_inputs_only (layer : Layer σ) (handle : Handler σ) (request : Request)
    (outermost : ItemCheck σ) (inner : List (ItemCheck σ)) (poll : StateM σ (Option Item))
    (count : Nat) (state : σ) :
    let outcome := ((layer.observed 0).wrap (handle.observed 1) request.context).runFrom
      (.start state)
    let readings := ItemStream.pulls count (.nest ((outermost :: inner).zipIdx.map fun entry =>
      entry.1.observed entry.2) (.source (observe poll .polled))) state
    (∀ question replacement, .asked 0 question (.ok replacement) ∈ outcome.2.events →
      PassedOn question replacement outcome.2.events outcome.1) ∧
    ∀ pull ∈ readings.1, ∀ number question replacement,
      .asked number question (.ok replacement) ∈ pull.events →
        pull.answer = some (.ok question.data) ∨ ∃ e, pull.answer = some (.error e) := by
  intro outcome readings
  constructor
  · intro question replacement hmem
    have hrun : CallRun layer handle request.context state outcome.2.events outcome.1
        outcome.2.state := .of_runFrom rfl
    exact hrun.passedOn hmem
  · intro pull hpull number question replacement hmem
    have hreads : Reads (outermost :: inner).zipIdx poll 0 count state readings.1 readings.2 :=
      .of_pulls rfl
    exact hreads.answer_eq pull hpull hmem

/-! Results and items for which a validator gives the number two instead. -/

def answerTwo : Validator Unit := fun _ _ _ => pure (some (.int 2))

def callOfTwo : Except HttpError (Output (Observed Unit)) × Observed Unit :=
  (((⟨{ output := some (.obj []) }, answerTwo, {}⟩ : Layer Unit).observed 0).wrap
    (Handler.observed (fun _ => pure (.json (.int 1))) 1)
    (Request.context ⟨⟨.get, "/one"⟩, .null, .null, .null⟩)).runFrom (.start ())

def checkOfTwo : ItemCheck Unit := ⟨.obj [], answerTwo, ⟨.get, "/one"⟩, true⟩

def readingsOfTwo : List Pull :=
  (ItemStream.pulls 1 (.nest [checkOfTwo.observed 0]
    (.source (observe (pure (some (.ok (.int 1)))) .polled))) ()).1

/-- Neither a result nor an item gives way to the answer of the validator. -/
theorem results_and_items_not_replaced :
    ¬ (∀ question value, .asked 0 question (.ok (some value)) ∈ callOfTwo.2.events →
        question.info.part = .output → callOfTwo.1 = .ok (.json value)) ∧
    ¬ (∀ pull ∈ readingsOfTwo, ∀ question value,
        .asked 0 question (.ok (some value)) ∈ pull.events → pull.answer = some (.ok value)) := by
  constructor
  · intro hreplaced
    have hresult := hreplaced ⟨.int 1, .obj [], { part := .output, request := ⟨.get, "/one"⟩ }⟩
      (.int 2) (List.mem_cons_of_mem _ List.mem_cons_self) rfl
    have hone : callOfTwo.1 = .ok (.json (.int 1)) := rfl
    rw [hone] at hresult
    cases hresult
  · intro hreplaced
    have hitem := hreplaced _ List.mem_cons_self (checkOfTwo.question (.int 1)) (.int 2)
      (List.mem_cons_of_mem _ List.mem_cons_self)
    cases hitem

end RpcContract
