import RpcContract.Proofs.Validation.CallRules

/-!
# Stacks of layers

Layers may stand around each other, the outermost first.  A call goes inwards through the checks of
the inputs, runs the handler, and goes outwards through the checks of the result.  Every check of an
input is about the request as it came in, and the handler sees for each input the last replacement
on the way.
-/

namespace RpcContract

variable {σ : Type}

structure Request where
  info : RequestInfo
  params : Json
  query : Json
  body : Json
deriving DecidableEq, Repr

def Request.context (request : Request) : RequestContext :=
  { info := request.info, params := ⟨request.params, none⟩, query := ⟨request.query, none⟩,
    body := ⟨request.body, none⟩ }

def Handler.stack (layers : List (Layer σ)) (handle : Handler σ) : Handler σ :=
  layers.foldr Layer.wrap handle

abbrev Numbered (σ : Type) := List (Layer σ × Nat)

def Numbered.observed (layers : Numbered σ) : List (Layer (Observed σ)) :=
  layers.map fun entry => entry.1.observed entry.2

/-! ## The rules -/

/-- The way inwards.  The questions of every layer are about the request itself. -/
inductive Enters (context : RequestContext) :
    Numbered σ → σ → List Event → Except HttpError Answers → σ → Prop
  | inside (state : σ) : Enters context [] state [] (.ok []) state
  | refused {layer : Layer σ} {number : Nat} {e : HttpError} (inner : Numbered σ) (state : σ) :
      layer.Refuses e → Enters context ((layer, number) :: inner) state [] (.error e) state
  | rejected {layer : Layer σ} {number : Nat} {e : HttpError} {state state₁ : σ}
      {events : List Event} (inner : Numbered σ) :
      layer.Admits →
      Asks number layer.validator (layer.inputQuestions context) state events (.error e) state₁ →
      Enters context ((layer, number) :: inner) state events (.error e) state₁
  | passed {layer : Layer σ} {number : Nat} {state state₁ state₂ : σ} {events later : List Event}
      {answers : Answers} {rest : Except HttpError Answers} {inner : Numbered σ} :
      layer.Admits →
      Asks number layer.validator (layer.inputQuestions context) state events (.ok answers)
        state₁ →
      Enters context inner state₁ later rest state₂ →
      Enters context ((layer, number) :: inner) state (events ++ later)
        (rest.map (answers ++ ·)) state₂

/-- The way outwards, through layers of which the innermost comes first. -/
inductive Leaves (request : RequestInfo) :
    Numbered σ → Output (Observed σ) → σ → List Event →
      Except HttpError (Output (Observed σ)) → σ → Prop
  | outside (output : Output (Observed σ)) (state : σ) :
      Leaves request [] output state [] (.ok output) state
  | stopped {layer : Layer σ} {number : Nat} {output : Output (Observed σ)} {e : HttpError}
      {state state₁ : σ} {events : List Event} (outer : Numbered σ) :
      Judges number layer request output state events (.error e) state₁ →
      Leaves request ((layer, number) :: outer) output state events (.error e) state₁
  | passed {layer : Layer σ} {number : Nat} {output output' : Output (Observed σ)}
      {state state₁ state₂ : σ} {events later : List Event} {outer : Numbered σ}
      {result : Except HttpError (Output (Observed σ))} :
      Judges number layer request output state events (.ok output') state₁ →
      Leaves request outer output' state₁ later result state₂ →
      Leaves request ((layer, number) :: outer) output state (events ++ later) result state₂

/-- One call of a handler with layers around it; what the handler itself streams carries the
number `inside`. -/
inductive StackRun (layers : Numbered σ) (inside : Nat) (handle : Handler σ)
    (context : RequestContext) (state : σ) :
    List Event → Except HttpError (Output (Observed σ)) → σ → Prop
  | turnedBack {events : List Event} {e : HttpError} {state₁ : σ} :
      Enters context layers state events (.error e) state₁ →
      StackRun layers inside handle context state events (.error e) state₁
  | failed {events : List Event} {answers : Answers} {e : HttpError} {state₁ state₂ : σ} :
      Enters context layers state events (.ok answers) state₁ →
      (handle (context.seen answers)).runFrom state₁ = (.error e, state₂) →
      StackRun layers inside handle context state
        (events ++ [.handled (context.seen answers) (some e)]) (.error e) state₂
  | returned {events later : List Event} {answers : Answers} {output : Output σ}
      {result : Except HttpError (Output (Observed σ))} {state₁ state₂ state₃ : σ} :
      Enters context layers state events (.ok answers) state₁ →
      (handle (context.seen answers)).runFrom state₁ = (.ok output, state₂) →
      Leaves context.info layers.reverse (output.observed inside) state₂ later result state₃ →
      StackRun layers inside handle context state
        (events ++ .handled (context.seen answers) none :: later) result state₃

/-! ## The rules cover every case -/

theorem Enters.exists (context : RequestContext) (layers : Numbered σ) (state : σ) :
    ∃ events answers state₁, Enters context layers state events answers state₁ := by
  induction layers generalizing state with
  | nil => exact ⟨_, _, _, .inside state⟩
  | cons entry inner ih =>
      obtain ⟨layer, number⟩ := entry
      by_cases hrefuses : ∃ e, layer.Refuses e
      · obtain ⟨e, he⟩ := hrefuses
        exact ⟨_, _, _, .refused inner state he⟩
      have hadmits : layer.Admits := not_exists.mp hrefuses
      obtain ⟨events, answers, state₁, hasks⟩ :=
        Asks.exists number layer.validator (layer.inputQuestions context) state
      cases answers with
      | error e => exact ⟨_, _, _, .rejected inner hadmits hasks⟩
      | ok answers =>
          obtain ⟨later, rest, state₂, hinner⟩ := ih state₁
          exact ⟨_, _, _, .passed hadmits hasks hinner⟩

theorem Leaves.exists (request : RequestInfo) (layers : Numbered σ)
    (output : Output (Observed σ)) (state : σ) :
    ∃ events result state₁, Leaves request layers output state events result state₁ := by
  induction layers generalizing output state with
  | nil => exact ⟨_, _, _, .outside output state⟩
  | cons entry outer ih =>
      obtain ⟨layer, number⟩ := entry
      obtain ⟨events, result, state₁, hjudges⟩ := Judges.exists number layer request output state
      cases result with
      | error e => exact ⟨_, _, _, .stopped outer hjudges⟩
      | ok output' =>
          obtain ⟨later, result, state₂, houter⟩ := ih output' state₁
          exact ⟨_, _, _, .passed hjudges houter⟩

theorem StackRun.exists (layers : Numbered σ) (inside : Nat) (handle : Handler σ)
    (context : RequestContext) (state : σ) :
    ∃ events result state₁,
      StackRun layers inside handle context state events result state₁ := by
  obtain ⟨events, answers, state₁, henters⟩ := Enters.exists context layers state
  cases answers with
  | error e => exact ⟨_, _, _, .turnedBack henters⟩
  | ok answers =>
      rcases h : (handle (context.seen answers)).runFrom state₁ with ⟨answer, state₂⟩
      cases answer with
      | error e => exact ⟨_, _, _, .failed henters h⟩
      | ok output =>
          obtain ⟨later, result, state₃, hleaves⟩ :=
            Leaves.exists context.info layers.reverse (output.observed inside) state₂
          exact ⟨_, _, _, .returned henters h hleaves⟩

/-! ## A call goes by the rules -/

def judgeBy (request : RequestInfo) (output : Output (Observed σ)) (entry : Layer σ × Nat) :
    Call (Observed σ) (Output (Observed σ)) :=
  Handler.checkOutput entry.1.models (entry.1.validator.observed entry.2) entry.1.options request
    output

theorem Leaves.runFrom {request : RequestInfo} {layers : Numbered σ}
    {output : Output (Observed σ)} {observed : Observed σ} {events : List Event}
    {result : Except HttpError (Output (Observed σ))} {state : σ}
    (h : Leaves request layers output observed.state events result state) :
    Call.runFrom (layers.foldlM (judgeBy request) output) observed =
      (result, observed.add state events) := by
  induction layers generalizing output observed events with
  | nil =>
      cases h
      simp
  | cons entry outer ih =>
      rw [List.foldlM_cons]
      cases h with
      | stopped _ hjudges => exact Call.runFrom_bind_error hjudges.runFrom _
      | passed hjudges houter =>
          refine Eq.trans (Call.runFrom_bind_ok hjudges.runFrom _) ?_
          refine Eq.trans (ih houter) ?_
          simp

/-- An error on the way inwards ends the whole call.  Behind the last check the handler runs, and
then the results are checked.  What outer layers have put in place before does not matter to the
checks. -/
theorem Enters.runFrom {context : RequestContext} {layers : Numbered σ}
    {handle : Handler (Observed σ)} {events : List Event} {answers : Except HttpError Answers}
    {state : σ} (observed : Observed σ) (before : Answers)
    (h : Enters context layers observed.state events answers state) :
    (Handler.stack layers.observed handle (context.seen before)).runFrom observed =
      Call.runFrom (do
        let answers ← ofExcept answers
        let output ← handle (context.seen (before ++ answers))
        layers.reverse.foldlM (judgeBy context.info) output) (observed.add state events) := by
  -- `before` grows on the way inwards; the questions do not depend on it.
  induction layers generalizing before observed events answers with
  | nil =>
      cases h
      simp [Handler.stack, Numbered.observed]
  | cons entry inner ih =>
      obtain ⟨layer, number⟩ := entry
      change ((layer.observed number).wrap (Handler.stack (Numbered.observed inner) handle)
        (context.seen before)).runFrom observed = _
      cases h with
      | refused _ _ hrefuses => simpa using wrap_refused hrefuses
      | rejected _ hadmits hasks => exact wrap_rejected hadmits (by simpa using hasks)
      | @passed _ _ _ state₁ _ events later first rest _ hadmits hasks hinner =>
          rw [wrap_asked hadmits (by simpa using hasks), RequestContext.seen_seen]
          have hrest := ih (observed.add state₁ events) (before ++ first) hinner
          refine Eq.trans (Call.runFrom_bind_congr hrest _) ?_
          cases rest with
          | error e => simp [Except.map]
          | ok rest => simp [Except.map, judgeBy]

theorem StackRun.runFrom {layers : Numbered σ} {inside : Nat} {handle : Handler σ}
    {context : RequestContext} {state state₁ : σ} {events : List Event}
    {result : Except HttpError (Output (Observed σ))}
    (h : StackRun layers inside handle context state events result state₁) :
    (Handler.stack layers.observed (handle.observed inside) context).runFrom (.start state) =
      (result, (Observed.start state).add state₁ events) := by
  cases h with
  | turnedBack henters => exact henters.runFrom (.start state) []
  | failed henters hhandle =>
      refine Eq.trans (henters.runFrom (.start state) []) ?_
      refine Eq.trans (Call.runFrom_bind_error (Handler.runFrom_observed_error inside hhandle) _) ?_
      simp
  | returned henters hhandle hleaves =>
      refine Eq.trans (henters.runFrom (.start state) []) ?_
      refine Eq.trans (Call.runFrom_bind_ok (Handler.runFrom_observed_ok inside hhandle) _) ?_
      refine Eq.trans hleaves.runFrom ?_
      simp

theorem StackRun.of_runFrom {layers : Numbered σ} {inside : Nat} {handle : Handler σ}
    {context : RequestContext} {state state₁ : σ} {events : List Event}
    {result : Except HttpError (Output (Observed σ))}
    (h : (Handler.stack layers.observed (handle.observed inside) context).runFrom (.start state) =
      (result, ⟨state₁, events⟩)) :
    StackRun layers inside handle context state events result state₁ := by
  obtain ⟨events', result', state', hrun⟩ := StackRun.exists layers inside handle context state
  have hcall := hrun.runFrom
  rw [h] at hcall
  cases hcall
  exact hrun

/-! ## What the events show -/

namespace Event

def replacement? (part : CallPart) : Event → Option Json
  | .asked _ question (.ok replacement) =>
      if question.info.part = part then replacement else none
  | _ => none

end Event

theorem Enters.aboutInput {context : RequestContext} {layers : Numbered σ} {state state₁ : σ}
    {events : List Event} {answers : Except HttpError Answers}
    (h : Enters context layers state events answers state₁) :
    ∀ event ∈ events, event.AboutInput context := by
  induction h with
  | inside => simp
  | refused => simp
  | rejected _ _ hasks => exact hasks.aboutInput (fun _ => id)
  | passed _ hasks _ ih =>
      intro event hevent
      rcases List.mem_append.mp hevent with hfirst | hlater
      · exact hasks.aboutInput (fun _ => id) event hfirst
      · exact ih event hlater

theorem Leaves.aboutOutput {request : RequestInfo} {layers : Numbered σ}
    {output : Output (Observed σ)} {state state₁ : σ} {events : List Event}
    {result : Except HttpError (Output (Observed σ))}
    (h : Leaves request layers output state events result state₁) :
    ∀ event ∈ events, event.AboutOutput := by
  induction h with
  | outside => simp
  | stopped _ hjudges => exact hjudges.aboutOutput
  | passed hjudges _ ih =>
      intro event hevent
      rcases List.mem_append.mp hevent with hfirst | hlater
      · exact hjudges.aboutOutput event hfirst
      · exact ih event hlater

theorem Asks.replacements {number : Nat} {validator : Validator σ} {questions : List Question}
    {state state₁ : σ} {events : List Event} {result : Except HttpError Answers}
    (h : Asks number validator questions state events result state₁) (part : CallPart)
    (answers : Answers) (hresult : result = .ok answers) :
    events.filterMap (Event.replacement? part) = answers.replacements part := by
  induction h generalizing answers with
  | none =>
      cases hresult
      rfl
  | rejected => cases hresult
  | @accepted question replacement _ _ _ _ _ rest _ _ ih =>
      cases rest with
      | error e => cases hresult
      | ok rest =>
          cases hresult
          have hrest := ih rest rfl
          simp only [Answers.replacements] at hrest
          simp [Event.replacement?, Answers.replacements, List.filterMap_cons, hrest]

theorem Enters.replacements {context : RequestContext} {layers : Numbered σ} {state state₁ : σ}
    {events : List Event} {result : Except HttpError Answers}
    (h : Enters context layers state events result state₁) (part : CallPart)
    (answers : Answers) (hresult : result = .ok answers) :
    events.filterMap (Event.replacement? part) = answers.replacements part := by
  induction h generalizing answers with
  | inside =>
      cases hresult
      rfl
  | refused => cases hresult
  | rejected => cases hresult
  | @passed _ _ _ _ _ _ _ first rest _ _ hasks _ ih =>
      cases rest with
      | error e => cases hresult
      | ok rest =>
          cases hresult
          rw [List.filterMap_append, hasks.replacements part first rfl, ih rest rfl]
          simp [Answers.replacements]

theorem Event.replacement?_of_aboutOutput {event : Event} {part : CallPart}
    (h : event.AboutOutput) (hpart : part ≠ .output) : event.replacement? part = none := by
  cases event with
  | asked number question answer =>
      have hother : question.info.part ≠ part := fun heq => hpart (heq.symm.trans h)
      cases answer <;> simp [replacement?, hother]
  | handled => rfl
  | polled => rfl

/-- A part of the request as a handler sees it: with what came in, and with the replacement as its
value if there is one. -/
def RequestContext.Shows (seen : RequestContext) (part : CallPart) (raw : Json)
    (replacement : Option Json) : Prop :=
  match part with
  | .params => seen.params.raw = raw ∧ seen.params.value = replacement.getD raw
  | .query => seen.query.raw = raw ∧ seen.query.value = replacement.getD raw
  | .body => seen.body.raw = raw ∧ seen.body.value = replacement.getD raw
  | .output | .iteration => True

theorem Request.shows_seen (request : Request) (answers : Answers) {part : CallPart} {raw : Json}
    (h : request.context.raw? part = some raw) :
    (request.context.seen answers).Shows part raw (answers.last? part) := by
  cases part <;> cases h <;> exact ⟨rfl, by simp [RequestContext.seen, Request.context, Field.value]⟩

/-- What an event of a call may be: a question about an input as the request has it, a run of the
handler on the request with the last replacements that `events` show, or a question about a
result. -/
def Event.Fits (request : Request) (events : List Event) (event : Event) : Prop :=
  let last (part : CallPart) := (events.filterMap (Event.replacement? part)).getLast?
  match event with
  | .asked _ _ _ => event.AboutInput request.context ∨ event.AboutOutput
  | .handled seen _ =>
      seen.info = request.info ∧ seen.Shows .params request.params (last .params) ∧
        seen.Shows .query request.query (last .query) ∧
        seen.Shows .body request.body (last .body)
  | .polled _ => False

theorem Event.fits_of_aboutInput {request : Request} {event : Event} (events : List Event)
    (h : event.AboutInput request.context) : event.Fits request events := by
  cases event with
  | asked => exact .inl h
  | handled => exact h.elim
  | polled => exact h

theorem Event.fits_of_aboutOutput {request : Request} {event : Event} (events : List Event)
    (h : event.AboutOutput) : event.Fits request events := by
  cases event with
  | asked => exact .inr h
  | handled => exact h.elim
  | polled => exact h

theorem Event.fits_handled {request : Request} {layers : Numbered σ} {state state₁ : σ}
    {events later : List Event} {answers : Answers} (failure : Option HttpError)
    (henters : Enters request.context layers state events (.ok answers) state₁)
    (hlater : ∀ event ∈ later, event.AboutOutput) :
    (Event.handled (request.context.seen answers) failure).Fits request
      (events ++ .handled (request.context.seen answers) failure :: later) := by
  have hlast (part : CallPart) (hpart : part ≠ .output) :
      ((events ++ .handled (request.context.seen answers) failure :: later).filterMap
        (Event.replacement? part)).getLast? = answers.last? part := by
    have hnone : later.filterMap (Event.replacement? part) = [] :=
      List.filterMap_eq_nil_iff.mpr fun event hevent =>
        Event.replacement?_of_aboutOutput (hlater event hevent) hpart
    rw [List.filterMap_append, henters.replacements part answers rfl, List.filterMap_cons, hnone]
    simp [Event.replacement?, Answers.last?]
  simp only [Event.Fits, hlast .params (by decide), hlast .query (by decide),
    hlast .body (by decide)]
  exact ⟨rfl, request.shows_seen answers rfl, request.shows_seen answers rfl,
    request.shows_seen answers rfl⟩

theorem StackRun.fits {layers : Numbered σ} {inside : Nat} {handle : Handler σ}
    {request : Request} {state state₁ : σ} {events : List Event}
    {result : Except HttpError (Output (Observed σ))}
    (h : StackRun layers inside handle request.context state events result state₁) :
    ∀ event ∈ events, event.Fits request events := by
  cases h with
  | turnedBack henters =>
      exact fun event hevent => Event.fits_of_aboutInput _ (henters.aboutInput event hevent)
  | failed henters _ =>
      intro event hevent
      rcases List.mem_append.mp hevent with hentered | hhandled
      · exact Event.fits_of_aboutInput _ (henters.aboutInput event hentered)
      · rw [List.mem_singleton.mp hhandled]
        exact Event.fits_handled _ henters (by simp)
  | returned henters _ hleaves =>
      intro event hevent
      rcases List.mem_append.mp hevent with hentered | hbehind
      · exact Event.fits_of_aboutInput _ (henters.aboutInput event hentered)
      rcases List.mem_cons.mp hbehind with rfl | hlater
      · exact Event.fits_handled _ henters hleaves.aboutOutput
      · exact Event.fits_of_aboutOutput _ (hleaves.aboutOutput event hlater)

theorem StackRun.countP_isHandled_le {layers : Numbered σ} {inside : Nat} {handle : Handler σ}
    {context : RequestContext} {state state₁ : σ} {events : List Event}
    {result : Except HttpError (Output (Observed σ))}
    (h : StackRun layers inside handle context state events result state₁) :
    events.countP Event.isHandled ≤ 1 := by
  have hentered {state state₁ : σ} {events : List Event} {answers : Except HttpError Answers}
      (h : Enters context layers state events answers state₁) :
      events.countP Event.isHandled = 0 :=
    Event.countP_isHandled_eq_zero context fun event hevent => .inl (h.aboutInput event hevent)
  cases h with
  | turnedBack henters => simp [hentered henters]
  | failed henters _ => simp [hentered henters, Event.isHandled]
  | returned henters _ hleaves =>
      have hlater := Event.countP_isHandled_eq_zero context fun event hevent =>
        .inr (hleaves.aboutOutput event hevent)
      simp [List.countP_append, List.countP_cons, hentered henters, hlater, Event.isHandled]

/-- A call of a handler with any layers around it has the events and the end that the rules give,
and no others.  All questions about inputs are about the request as it came in, and the handler
runs at most once, on the request with the last replacement of each input. -/
theorem stack_runFrom_iff (layers : List (Layer σ)) (handle : Handler σ) (request : Request)
    (state : σ) :
    let call := Handler.stack (Numbered.observed layers.zipIdx) (handle.observed layers.length)
      request.context
    (∀ events result state₁,
      call.runFrom (.start state) = (result, ⟨state₁, events⟩) ↔
        StackRun layers.zipIdx layers.length handle request.context state events result state₁) ∧
    (call.runFrom (.start state)).2.events.countP Event.isHandled ≤ 1 ∧
    ∀ event ∈ (call.runFrom (.start state)).2.events,
      event.Fits request (call.runFrom (.start state)).2.events := by
  intro call
  have hrun : StackRun layers.zipIdx layers.length handle request.context state
      (call.runFrom (.start state)).2.events (call.runFrom (.start state)).1
      (call.runFrom (.start state)).2.state := .of_runFrom rfl
  exact ⟨fun _ _ _ => ⟨.of_runFrom, StackRun.runFrom⟩, hrun.countP_isHandled_le, hrun.fits⟩

/-! Two layers that both have the body replaced, and the outer one the parameters too. -/

def replacing (params body : Option Json) : Layer Unit where
  models := { params := some (.str "P"), body := some (.str "B"), output := some (.str "O") }
  validator _ _ info := pure (match info.part with
    | .params => params
    | .body => body
    | _ => none)
  options := {}

def twoReplacing : List (Layer Unit) :=
  [replacing (some (.int 10)) (some (.int 11)), replacing none (some (.int 12))]

def postedOne : Request := ⟨⟨.post, "/one"⟩, .int 0, .null, .int 1⟩

def eventsOfTwo : List Event :=
  [answered 0 .params (.int 0) "P" (.ok (some (.int 10))),
    answered 0 .body (.int 1) "B" (.ok (some (.int 11))),
    answered 1 .params (.int 0) "P" (.ok none),
    answered 1 .body (.int 1) "B" (.ok (some (.int 12))),
    .handled ⟨postedOne.info, ⟨.int 0, some (.int 10)⟩, ⟨.null, none⟩,
      ⟨.int 1, some (.int 12)⟩⟩ none,
    answered 1 .output (.int 12) "O" (.ok none),
    answered 0 .output (.int 12) "O" (.ok none)]

/-- Both layers are asked about what came in, and the inner one has the last word on the body. -/
theorem stack_runFrom_iff_two :
    (Handler.stack (Numbered.observed twoReplacing.zipIdx) (echo.observed 2)
      postedOne.context).runFrom (.start ()) = (.ok (.json (.int 12)), ⟨(), eventsOfTwo⟩) ∧
    ∀ event ∈ eventsOfTwo, event.Fits postedOne eventsOfTwo := by
  have hlayer (params body : Option Json) : (replacing params body).Admits ∧
      (replacing params body).Checks .output (.str "O") :=
    ⟨(replacing params body).misconfiguration_eq_none_iff.mp rfl, rfl,
      by simp [replacing, SkipSetting.Covers]⟩
  have houter : Asks 0 (replacing (some (.int 10)) (some (.int 11))).validator
      ((replacing (some (.int 10)) (some (.int 11))).inputQuestions postedOne.context) ()
      (eventsOfTwo.take 2) (.ok [(.params, some (.int 10)), (.body, some (.int 11))]) () :=
    .accepted (some (.int 10)) rfl (.accepted (some (.int 11)) rfl (.none ()))
  have hinner : Asks 1 (replacing none (some (.int 12))).validator
      ((replacing none (some (.int 12))).inputQuestions postedOne.context) ()
      ((eventsOfTwo.drop 2).take 2) (.ok [(.params, none), (.body, some (.int 12))]) () :=
    .accepted none rfl (.accepted (some (.int 12)) rfl (.none ()))
  have henters : Enters postedOne.context twoReplacing.zipIdx () (eventsOfTwo.take 4)
      (.ok [(.params, some (.int 10)), (.body, some (.int 11)), (.params, none),
        (.body, some (.int 12))]) () :=
    .passed (hlayer _ _).1 houter (.passed (hlayer _ _).1 hinner (.inside ()))
  have hleaves : Leaves postedOne.info twoReplacing.zipIdx.reverse (.json (.int 12)) ()
      (eventsOfTwo.drop 5) (.ok (.json (.int 12))) () :=
    .passed (.accepted (hlayer _ _).2 (by simp) rfl)
      (.passed (.accepted (hlayer _ _).2 (by simp) rfl) (.outside _ ()))
  have hrun := ((stack_runFrom_iff twoReplacing echo postedOne ()).1 eventsOfTwo _ _).mpr
    (.returned henters rfl hleaves)
  have hfits := (stack_runFrom_iff twoReplacing echo postedOne ()).2.2
  rw [hrun] at hfits
  exact ⟨hrun, hfits⟩

end RpcContract
