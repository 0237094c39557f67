import RpcContract.Contract.Basic

/-!
# The models of a handler

What is left of models when parts are left out, and what a handler keeps of models that it is given.
-/

namespace RpcContract

namespace Models

variable (models : Models) (part : CallPart)

private theorem get_foldl_put (parts : List CallPart) :
    (parts.foldl (fun rest part => rest.put part none) models).get part =
      if part ∈ parts then none else models.get part := by
  induction parts generalizing models with
  | nil => simp
  | cons first parts ih =>
      rw [List.foldl_cons, ih, get_put]
      by_cases hparts : part ∈ parts
      · simp [hparts]
      · by_cases hfirst : first = part
        · simp [hfirst]
        · simp [hparts, hfirst, Ne.symm hfirst]

@[simp] theorem get_without (skip : SkipList) :
    (models.without skip).get part = if skip.contains part then none else models.get part := by
  rw [without, get_foldl_put, SkipList.contains, SkipList.toList]
  by_cases h : part ∈ skip.parts <;> simp [h]

theorem get_empty : ({} : Models).get part = none := by cases part <;> rfl

theorem isEmpty_iff {models : Models} : models.isEmpty = true ↔ models = {} := by
  constructor
  · intro h
    refine ext_get fun part => ?_
    have hnone := List.all_eq_true.mp h part (CallPart.mem_all part)
    rw [Option.isNone_iff_eq_none.mp hnone, get_empty]
  · rintro rfl
    rfl

end Models

namespace HandlerSpec

variable (handler : HandlerSpec) (models : Models)

theorem withValidation_eq : handler.withValidation models =
    { handler with validation := if models = {} then none else some models } := by
  rw [withValidation]
  by_cases h : models = {}
  · rw [if_pos h, if_pos (Models.isEmpty_iff.mpr h)]
  · rw [if_neg h, if_neg fun hempty => h (Models.isEmpty_iff.mp hempty)]

@[simp] theorem model_withValidation (part : CallPart) :
    (handler.withValidation models).model part = models.get part := by
  rw [withValidation_eq, model]
  by_cases h : models = {}
  · simp [h, Models.get_empty]
  · simp [h]

end HandlerSpec

end RpcContract
