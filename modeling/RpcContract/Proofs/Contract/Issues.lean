import RpcContract.Contract.Issue
import RpcContract.Proofs.Contract.Dump
import RpcContract.Proofs.Contract.RegistrationLog

/-!
# Handlers and their issues

The handlers of a contract stand in the order of their places, each place once.  Their issues can be
read off the models that they have.
-/

namespace RpcContract

/-! ## Places -/

abbrev Place := String × String × String

/-- Segments come first, then controllers, then keys. -/
def Place.Before (a b : Place) : Prop :=
  a.1 < b.1 ∨ a.1 = b.1 ∧ (a.2.1 < b.2.1 ∨ a.2.1 = b.2.1 ∧ a.2.2 < b.2.2)

def Placed.place (placed : Placed) : Place := (placed.segment, placed.controller, placed.key)

namespace Contract

variable {contract : Contract}

theorem mem_handlers_iff {placed : Placed} : placed ∈ contract.handlers ↔
    (contract.controller placed.segment placed.controller).handlers.get? placed.key =
      some placed.handler := by
  constructor
  · intro h
    obtain ⟨s, hs, c, hc, entry, hentry, rfl⟩ := exists_of_mem_handlers h
    have hs : contract.get? s.1 = some s.2 := Dict.get?_eq_some_iff.mpr hs
    have hc : s.2.controllers.get? c.1 = some c.2 := Dict.get?_eq_some_iff.mpr hc
    simp only [controller, segment, SegmentSpec.controller, hs, hc, Option.getD_some]
    exact Dict.get?_eq_some_iff.mpr hentry
  · intro h
    rw [controller, segment] at h
    cases hs : contract.get? placed.segment with
    | none => simp [hs, SegmentSpec.controller] at h
    | some s =>
        rw [hs, Option.getD_some, SegmentSpec.controller] at h
        cases hc : s.controllers.get? placed.controller with
        | none => simp [hc] at h
        | some c =>
            rw [hc, Option.getD_some] at h
            have hsegment : (placed.segment, s) ∈ contract.segments.entries :=
              Dict.get?_eq_some_iff.mp hs
            have hcontroller : (placed.controller, c) ∈ s.controllers.entries :=
              Dict.get?_eq_some_iff.mp hc
            have hentry : (placed.key, placed.handler) ∈ c.handlers.entries :=
              Dict.get?_eq_some_iff.mp h
            exact mem_handlers hsegment hcontroller hentry

theorem handlers_pairwise (contract : Contract) :
    contract.handlers.Pairwise fun a b => a.place.Before b.place := by
  rw [handlers, List.pairwise_flatMap]
  refine ⟨fun s _ => List.pairwise_flatMap.mpr ⟨fun c _ => ?_, ?_⟩, ?_⟩
  · exact List.pairwise_map.mpr (c.2.handlers.ascending.imp fun h => .inr ⟨rfl, .inr ⟨rfl, h⟩⟩)
  · refine s.2.controllers.ascending.imp fun h a ha b hb => ?_
    obtain ⟨_, -, rfl⟩ := List.mem_map.mp ha
    obtain ⟨_, -, rfl⟩ := List.mem_map.mp hb
    exact .inr ⟨rfl, .inl h⟩
  · refine contract.segments.ascending.imp fun h a ha b hb => .inl ?_
    obtain ⟨_, -, ha⟩ := List.mem_flatMap.mp ha
    obtain ⟨_, -, rfl⟩ := List.mem_map.mp ha
    obtain ⟨_, -, hb⟩ := List.mem_flatMap.mp hb
    obtain ⟨_, -, rfl⟩ := List.mem_map.mp hb
    exact h

end Contract

/-! ## Issues -/

/-- Both one value and a stream are declared as the result. -/
def HandlerSpec.DeclaresBoth (handler : HandlerSpec) : Prop :=
  (∃ model, handler.model .output = some model) ∧ ∃ model, handler.model .iteration = some model

instance (handler : HandlerSpec) : Decidable handler.DeclaresBoth :=
  decidable_of_iff ((handler.model .output).isSome ∧ (handler.model .iteration).isSome)
    (and_congr Option.isSome_iff_exists Option.isSome_iff_exists)

namespace Placed

def location (placed : Placed) : String :=
  placed.segment ++ "/" ++ placed.controller ++ "." ++ placed.key

def conflict (placed : Placed) : Issue :=
  ⟨placed.location, .error, "output and iteration models are mutually exclusive"⟩

/-- A warning for each model that is neither an object nor a truth value. -/
def warnings (placed : Placed) : List Issue :=
  (CallPart.all.filter fun part =>
    (placed.handler.model part).any fun model => !model.isObject && !model.isBool).map fun part =>
      ⟨placed.location, .warning, part.name ++ " model is not a JSON schema object"⟩

theorem issues_eq (placed : Placed) : placed.issues =
    (if placed.handler.DeclaresBoth then [placed.conflict] else []) ++ placed.warnings := by
  rw [issues, warnings, ← List.filterMap_eq_map, List.filterMap_filter]
  cases h : placed.handler.validation with
  | none => simp [HandlerSpec.DeclaresBoth, HandlerSpec.model, h]
  | some models =>
      have hconflict : models.hasConflict = true ↔ placed.handler.DeclaresBoth := by
        simp [Models.hasConflict, HandlerSpec.DeclaresBoth, HandlerSpec.model, h, Models.get,
          Option.isSome_iff_exists]
      simp only [hconflict]
      congr 2
      funext part
      cases hmodel : models.get part with
      | none => simp [HandlerSpec.model, h, hmodel]
      | some model =>
          cases hobject : model.isObject <;> cases hbool : model.isBool <;>
            simp [HandlerSpec.model, h, hmodel, hobject, hbool, location]

end Placed

/-- There is one error for each handler that declares both. -/
theorem Contract.filter_error_issues (contract : Contract) :
    contract.issues.filter (·.severity = .error) =
      (contract.handlers.filter (·.handler.DeclaresBoth)).map Placed.conflict := by
  have hwarnings (placed : Placed) : placed.warnings.filter (·.severity = .error) = [] := by
    refine List.filter_eq_nil_iff.mpr fun issue hissue => ?_
    obtain ⟨part, -, rfl⟩ := List.mem_map.mp hissue
    simp
  rw [issues]
  induction contract.handlers with
  | nil => rfl
  | cons placed rest ih =>
      rw [List.flatMap_cons, List.filter_append, ih, Placed.issues_eq, List.filter_append,
        hwarnings, List.append_nil, List.filter_cons]
      by_cases h : placed.handler.DeclaresBoth <;> simp [h, Placed.conflict]

end RpcContract
