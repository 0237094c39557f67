import RpcContract.Contract.Registration
import RpcContract.Proofs.Contract.Models
import RpcContract.Proofs.Data.Dict

/-!
# Registration as a log

A contract that is collected step by step is known from the list of the steps.  What any step names
is there, and nothing else; each part of the contract is as the last step that wrote it has left it.
So the order of two steps matters only where both write the same part.
-/

namespace RpcContract.Registration

/-! ## Steps -/

inductive Step where
  | declare (segment controller pathPrefix : String)
  | register (segment controller key : String) (method : HttpMethod) (path : String)
      (contribution : Contribution)
  | setEmit (segment : String) (emit : Bool)
deriving DecidableEq, Repr

inductive Target where
  | pathPrefix (segment controller : String)
  | handler (segment controller key : String)
  | emit (segment : String)
deriving DecidableEq, Repr

namespace Step

def apply (contract : Contract) : Step → Contract
  | .declare segment controller pathPrefix =>
      contract.declareController segment controller pathPrefix
  | .register segment controller key method path contribution =>
      contract.register segment controller key method path contribution
  | .setEmit segment emit => contract.setEmit segment emit

def target : Step → Target
  | .declare segment controller _ => .pathPrefix segment controller
  | .register segment controller key _ _ _ => .handler segment controller key
  | .setEmit segment _ => .emit segment

end Step

namespace Target

def segment : Target → String
  | .pathPrefix segment _ | .handler segment _ _ | .emit segment => segment

/-- The controller that is named, with its segment. -/
def controller? : Target → Option (String × String)
  | .pathPrefix segment controller | .handler segment controller _ => some (segment, controller)
  | .emit _ => none

end Target

def collect (steps : List Step) : Contract := steps.foldl Step.apply {}

/-! ## What has been written last -/

namespace Step

def pathPrefix? (segment controller : String) : Step → Option String
  | .declare s c pathPrefix => if s = segment ∧ c = controller then some pathPrefix else none
  | .register _ _ _ _ _ _ | .setEmit _ _ => none

/-- The handler that a step puts under a key; models of which none is there are left out. -/
def handler? (segment controller key : String) : Step → Option HandlerSpec
  | .register s c k method path contribution =>
      if s = segment ∧ c = controller ∧ k = key then
        some { method, path, openapi := contribution.openapi,
               validation := if contribution.validation = {} then none
                 else some contribution.validation }
      else none
  | .declare _ _ _ | .setEmit _ _ => none

def emit? (segment : String) : Step → Option Bool
  | .setEmit s emit => if s = segment then some emit else none
  | .declare _ _ _ | .register _ _ _ _ _ _ => none

end Step

def last? {β : Type} (written? : Step → Option β) (steps : List Step) : Option β :=
  (steps.filterMap written?).getLast?

/-! ## Parts of a contract -/

end Registration

def SegmentSpec.controller (s : SegmentSpec) (name : String) : ControllerSpec :=
  (s.controllers.get? name).getD { name := name }

def Contract.controller (contract : Contract) (segment controller : String) : ControllerSpec :=
  (contract.segment segment).controller controller

namespace Registration

/-- A contract holds what a list of steps has written, and nothing else. -/
structure Records (steps : List Step) (contract : Contract) : Prop where
  segments : ∀ segment, contract.contains segment = true ↔
    ∃ step ∈ steps, step.target.segment = segment
  controllers : ∀ segment controller,
    (contract.segment segment).controllers.contains controller = true ↔
      ∃ step ∈ steps, step.target.controller? = some (segment, controller)
  handlers : ∀ segment controller key,
    (contract.controller segment controller).handlers.get? key =
      last? (Step.handler? segment controller key) steps
  segmentName : ∀ segment, (contract.segment segment).name = segment
  controllerName : ∀ segment controller, (contract.controller segment controller).name = controller
  pathPrefix : ∀ segment controller, (contract.controller segment controller).pathPrefix =
    (last? (Step.pathPrefix? segment controller) steps).getD ""
  emit : ∀ segment, (contract.segment segment).emit = (last? (Step.emit? segment) steps).getD true

/-! ## One step -/

section Apply

variable (contract : Contract) (step : Step) (segment controller key : String)

theorem segment_modifySegment (name : String) (f : SegmentSpec → SegmentSpec) :
    (contract.modifySegment name f).segment segment =
      if name = segment then f (contract.segment name) else contract.segment segment := by
  rw [Contract.segment, Contract.get?, Contract.modifySegment, Dict.get?_insert]
  split <;> rfl

theorem contains_modifySegment (name : String) (f : SegmentSpec → SegmentSpec) :
    (contract.modifySegment name f).contains segment =
      (decide (name = segment) || contract.contains segment) :=
  Dict.contains_insert _ _ _ _

theorem controller_modifyController (s c : String) (f : ControllerSpec → ControllerSpec) :
    (contract.modifyController s c f).controller segment controller =
      if s = segment ∧ c = controller then f (contract.controller s c)
      else contract.controller segment controller := by
  rw [Contract.controller, Contract.modifyController, segment_modifySegment]
  by_cases hs : s = segment
  · subst hs
    rw [if_pos rfl, SegmentSpec.controller, Dict.get?_insert]
    by_cases hc : c = controller
    · rw [if_pos hc, if_pos ⟨rfl, hc⟩]
      rfl
    · rw [if_neg hc, if_neg fun h => hc h.2]
      rfl
  · rw [if_neg hs, if_neg fun h => hs h.1]
    rfl

theorem controller_setEmit (s : String) (emit : Bool) :
    (contract.setEmit s emit).controller segment controller =
      contract.controller segment controller := by
  rw [Contract.controller, Contract.setEmit, segment_modifySegment]
  by_cases hs : s = segment
  · subst hs
    rw [if_pos rfl]
    rfl
  · rw [if_neg hs]
    rfl

theorem contains_apply : (step.apply contract).contains segment = true ↔
    step.target.segment = segment ∨ contract.contains segment = true := by
  cases step <;>
    simp [Step.apply, Step.target, Target.segment, Contract.declareController, Contract.register,
      Contract.setEmit, Contract.modifyController, contains_modifySegment]

theorem controllers_contains_apply :
    ((step.apply contract).segment segment).controllers.contains controller = true ↔
      step.target.controller? = some (segment, controller) ∨
        (contract.segment segment).controllers.contains controller = true := by
  cases step with
  | setEmit s emit =>
      rw [Step.apply, Contract.setEmit, segment_modifySegment]
      by_cases hs : s = segment <;> simp [hs, Step.target, Target.controller?]
  | declare s c | register s c =>
      simp only [Step.apply, Contract.declareController, Contract.register,
        Contract.modifyController, segment_modifySegment]
      by_cases hs : s = segment <;> simp [hs, Step.target, Target.controller?]

theorem handlers_apply :
    ((step.apply contract).controller segment controller).handlers.get? key =
      (step.handler? segment controller key).or
        ((contract.controller segment controller).handlers.get? key) := by
  cases step with
  | setEmit s emit => rw [Step.apply, controller_setEmit, Step.handler?, Option.none_or]
  | declare s c pathPrefix =>
      rw [Step.apply, Contract.declareController, controller_modifyController, Step.handler?,
        Option.none_or]
      split
      · next h => rw [h.1, h.2]
      · rfl
  | register s c k method path contribution =>
      rw [Step.apply, Contract.register, controller_modifyController, Step.handler?]
      by_cases h : s = segment ∧ c = controller
      · obtain ⟨rfl, rfl⟩ := h
        by_cases hk : k = key <;> simp [hk, HandlerSpec.withValidation_eq]
      · rw [if_neg h, if_neg fun hall => h ⟨hall.1, hall.2.1⟩, Option.none_or]

theorem pathPrefix_apply :
    ((step.apply contract).controller segment controller).pathPrefix =
      (step.pathPrefix? segment controller).getD
        (contract.controller segment controller).pathPrefix := by
  cases step with
  | setEmit s emit => rw [Step.apply, controller_setEmit, Step.pathPrefix?, Option.getD_none]
  | declare s c pathPrefix =>
      rw [Step.apply, Contract.declareController, controller_modifyController, Step.pathPrefix?]
      split <;> rfl
  | register s c k method path contribution =>
      rw [Step.apply, Contract.register, controller_modifyController, Step.pathPrefix?,
        Option.getD_none]
      split
      · next h => rw [h.1, h.2]
      · rfl

theorem emit_apply :
    ((step.apply contract).segment segment).emit =
      (step.emit? segment).getD (contract.segment segment).emit := by
  cases step with
  | setEmit s emit =>
      rw [Step.apply, Contract.setEmit, segment_modifySegment, Step.emit?]
      split <;> rfl
  | declare s c | register s c =>
      simp only [Step.apply, Contract.declareController, Contract.register,
        Contract.modifyController, segment_modifySegment, Step.emit?, Option.getD_none]
      split
      · next h => rw [h]
      · rfl

theorem segmentName_apply (h : (contract.segment segment).name = segment) :
    ((step.apply contract).segment segment).name = segment := by
  cases step with
  | setEmit s | declare s | register s =>
      simp only [Step.apply, Contract.setEmit, Contract.declareController, Contract.register,
        Contract.modifyController, segment_modifySegment]
      split
      · next hs => rw [hs, h]
      · exact h

theorem controllerName_apply (h : (contract.controller segment controller).name = controller) :
    ((step.apply contract).controller segment controller).name = controller := by
  cases step with
  | setEmit s emit => rw [Step.apply, controller_setEmit, h]
  | declare s c | register s c =>
      simp only [Step.apply, Contract.declareController, Contract.register,
        controller_modifyController]
      split
      · next hc => rw [hc.1, hc.2, h]
      · exact h

end Apply

/-! ## Whole logs -/

section Last

variable {β : Type}

theorem last?_append_singleton (written? : Step → Option β) (steps : List Step) (step : Step) :
    last? written? (steps ++ [step]) = (written? step).or (last? written? steps) := by
  cases h : written? step <;> simp [last?, h]

/-- Steps that do not write a part have no say in what is written there last. -/
theorem last?_filter {written? : Step → Option β} {steps : List Step} {target : Target}
    (h : ∀ step, (written? step).isSome → step.target = target) :
    last? written? (steps.filter (·.target = target)) = last? written? steps := by
  rw [last?, last?, List.filterMap_filter]
  congr 2
  funext step
  by_cases htarget : step.target = target
  · simp [htarget]
  · have hnone : written? step = none := Option.not_isSome_iff_eq_none.mp (htarget ∘ h step)
    simp [htarget, hnone]

end Last

namespace Records

variable {past later : List Step} {contract other : Contract}

theorem empty : Records [] {} where
  segments _ := by simp [Contract.contains, Dict.contains]
  controllers _ _ := by simp [Contract.segment, Contract.get?, Dict.contains]
  handlers _ _ _ := rfl
  segmentName _ := rfl
  controllerName _ _ := rfl
  pathPrefix _ _ := rfl
  emit _ := rfl

theorem apply (h : Records past contract) (step : Step) :
    Records (past ++ [step]) (step.apply contract) where
  segments segment := by
    rw [contains_apply, h.segments]
    simp [or_and_right, exists_or, or_comm]
  controllers segment controller := by
    rw [controllers_contains_apply, h.controllers]
    simp [or_and_right, exists_or, or_comm]
  handlers segment controller key := by
    rw [handlers_apply, h.handlers, last?_append_singleton]
  segmentName segment := segmentName_apply _ _ _ (h.segmentName segment)
  controllerName segment controller := controllerName_apply _ _ _ _ (h.controllerName _ _)
  pathPrefix segment controller := by
    rw [pathPrefix_apply, h.pathPrefix, last?_append_singleton, Option.getD_or]
  emit segment := by
    rw [emit_apply, h.emit, last?_append_singleton, Option.getD_or]

theorem foldl (h : Records past contract) :
    Records (past ++ later) (later.foldl Step.apply contract) := by
  induction later generalizing past contract with
  | nil => simpa using h
  | cons step later ih => simpa using ih (h.apply step)

/-- What steps have written makes a contract out. -/
theorem unique {steps : List Step} (h : Records steps contract) (hother : Records steps other) :
    contract = other := by
  have hcontroller (segment controller : String) :
      contract.controller segment controller = other.controller segment controller := by
    have hhandlers : (contract.controller segment controller).handlers =
        (other.controller segment controller).handlers :=
      Dict.ext_get? fun key => by rw [h.handlers, hother.handlers]
    have hname := (h.controllerName segment controller).trans
      (hother.controllerName segment controller).symm
    have hprefix := (h.pathPrefix segment controller).trans
      (hother.pathPrefix segment controller).symm
    cases hc : contract.controller segment controller
    cases ho : other.controller segment controller
    simp_all
  have hsegment (segment : String) : contract.segment segment = other.segment segment := by
    have hcontrollers :
        (contract.segment segment).controllers = (other.segment segment).controllers :=
      Dict.ext_getD (fun name => { name := name })
        (fun controller => by rw [h.controllers, hother.controllers]) (hcontroller segment)
    have hname := (h.segmentName segment).trans (hother.segmentName segment).symm
    have hemit := (h.emit segment).trans (hother.emit segment).symm
    cases hs : contract.segment segment
    cases ho : other.segment segment
    simp_all
  have hsegments : contract.segments = other.segments :=
    Dict.ext_getD (fun name => { name := name })
      (fun segment => (h.segments segment).trans (hother.segments segment).symm) hsegment
  cases contract
  cases other
  exact congrArg Contract.mk hsegments

/-- A list of steps is seen in a contract by the steps that write one part each. -/
theorem congr {steps others : List Step} (h : Records steps contract)
    (hsame : ∀ target, others.filter (·.target = target) = steps.filter (·.target = target)) :
    Records others contract := by
  have hmem (step : Step) : step ∈ others ↔ step ∈ steps := by
    have hstep : step ∈ others.filter (·.target = step.target) ↔
        step ∈ steps.filter (·.target = step.target) := by rw [hsame]
    simpa using hstep
  have hlast {β : Type} {written? : Step → Option β} (target : Target)
      (hwritten : ∀ step, (written? step).isSome → step.target = target) :
      last? written? others = last? written? steps := by
    rw [← last?_filter hwritten, hsame, last?_filter hwritten]
  refine ⟨fun segment => ?_, fun segment controller => ?_, fun segment controller key => ?_,
    h.segmentName, h.controllerName, fun segment controller => ?_, fun segment => ?_⟩
  · simpa only [hmem] using h.segments segment
  · simpa only [hmem] using h.controllers segment controller
  · rw [h.handlers, hlast (.handler segment controller key)]
    rintro (_ | ⟨s, c, k⟩ | _) hsome <;> simp_all [Step.handler?, Step.target]
  · rw [h.pathPrefix, hlast (.pathPrefix segment controller)]
    rintro (⟨s, c⟩ | _ | _) hsome <;> simp_all [Step.pathPrefix?, Step.target]
  · rw [h.emit, hlast (.emit segment)]
    rintro (_ | _ | ⟨s⟩) hsome <;> simp_all [Step.emit?, Step.target]

end Records

theorem records_collect (steps : List Step) : Records steps (collect steps) :=
  Records.empty.foldl

/-- A contract is collected as the last step for each of its parts says, so that steps may change
places if they write different parts. -/
theorem collect_lastWriter (steps : List Step) :
    Records steps (collect steps) ∧
      ∀ others : List Step,
        (∀ target, others.filter (·.target = target) = steps.filter (·.target = target)) →
        collect others = collect steps :=
  ⟨records_collect steps, fun others hsame =>
    (records_collect others).unique ((records_collect steps).congr hsame)⟩

/-- One handler is registered twice, in a controller that is declared at the start or at the end. -/
def declaredFirst : List Step :=
  [.declare "api" "Users" "users", .register "api" "Users" "list" .get "all" {},
    .setEmit "api" false,
    .register "api" "Users" "list" .post "" { validation := { query := some (.bool true) } }]

def declaredLast : List Step :=
  [.setEmit "api" false, .register "api" "Users" "list" .get "all" {},
    .register "api" "Users" "list" .post "" { validation := { query := some (.bool true) } },
    .declare "api" "Users" "users"]

theorem collect_lastWriter_declared :
    (∀ target, declaredLast.filter (·.target = target) =
      declaredFirst.filter (·.target = target)) ∧
    collect declaredLast = collect declaredFirst := by
  have hsame (target : Target) : declaredLast.filter (·.target = target) =
      declaredFirst.filter (·.target = target) := by
    cases target <;> simp [declaredLast, declaredFirst, List.filter_cons, Step.target]
  exact ⟨hsame, (collect_lastWriter declaredFirst).2 declaredLast hsame⟩

end RpcContract.Registration
