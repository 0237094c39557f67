import Mathlib.Data.List.Forall2

/-!
# Steps that may fail

When a chain of steps or a walk over a list succeeds, and with which failure it ends.
-/

namespace RpcContract

variable {ε ε' α β : Type}

instance decEqExcept [DecidableEq ε] [DecidableEq α] : DecidableEq (Except ε α)
  | .ok a, .ok b => decidable_of_iff (a = b) (by simp)
  | .error e, .error e' => decidable_of_iff (e = e') (by simp)
  | .ok _, .error _ => isFalse (by simp)
  | .error _, .ok _ => isFalse (by simp)

theorem bind_eq_ok_iff {step : Except ε α} {next : α → Except ε β} {result : β} :
    step >>= next = .ok result ↔ ∃ value, step = .ok value ∧ next value = .ok result := by
  cases step with
  | error e => simp [bind, Except.bind]
  | ok value => simp [bind, Except.bind]

theorem mapError_eq_ok_iff {step : Except ε α} {f : ε → ε'} {value : α} :
    step.mapError f = .ok value ↔ step = .ok value := by
  cases step <;> simp [Except.mapError]

theorem toOption_eq_some_iff {step : Except ε α} {value : α} :
    step.toOption = some value ↔ step = .ok value := by
  cases step <;> simp [Except.toOption]

theorem mapM_eq_ok_iff {f : α → Except ε β} {xs : List α} {ys : List β} :
    xs.mapM f = .ok ys ↔ List.Forall₂ (fun x y => f x = .ok y) xs ys := by
  induction xs generalizing ys with
  | nil =>
      rw [List.forall₂_nil_left_iff]
      exact ⟨fun h => by cases h; rfl, fun h => by rw [h]; rfl⟩
  | cons x xs ih =>
      rw [List.mapM_cons, List.forall₂_cons_left_iff]
      simp only [bind_eq_ok_iff, ih, pure, Except.pure, Except.ok.injEq]
      constructor
      · rintro ⟨y, hy, rest, hrest, rfl⟩
        exact ⟨y, rest, hy, hrest, rfl⟩
      · rintro ⟨y, rest, hy, hrest, rfl⟩
        exact ⟨y, hy, rest, hrest, rfl⟩

theorem mem_of_forall₂ {R : α → β → Prop} {xs : List α} {ys : List β} (h : List.Forall₂ R xs ys) :
    (∀ x ∈ xs, ∃ y ∈ ys, R x y) ∧ ∀ y ∈ ys, ∃ x ∈ xs, R x y := by
  induction h with
  | nil => simp
  | @cons x y xs ys hxy _ ih =>
      refine ⟨fun a ha => ?_, fun b hb => ?_⟩
      · rcases List.mem_cons.mp ha with rfl | ha
        · exact ⟨y, by simp, hxy⟩
        · obtain ⟨b, hb, hab⟩ := ih.1 a ha
          exact ⟨b, by simp [hb], hab⟩
      · rcases List.mem_cons.mp hb with rfl | hb
        · exact ⟨x, by simp, hxy⟩
        · obtain ⟨a, ha, hab⟩ := ih.2 b hb
          exact ⟨a, by simp [ha], hab⟩

theorem exists_forall₂ {R : α → β → Prop} {P : β → Prop} {xs : List α}
    (h : ∀ x ∈ xs, ∃ y, R x y ∧ P y) : ∃ ys, List.Forall₂ R xs ys ∧ ∀ y ∈ ys, P y := by
  induction xs with
  | nil => exact ⟨[], .nil, by simp⟩
  | cons x xs ih =>
      obtain ⟨y, hxy, hy⟩ := h x (by simp)
      obtain ⟨ys, hxys, hys⟩ := ih fun x' hx' => h x' (by simp [hx'])
      refine ⟨y :: ys, .cons hxy hxys, fun y' hy' => ?_⟩
      rcases List.mem_cons.mp hy' with rfl | hy'
      · exact hy
      · exact hys y' hy'

theorem mapM_eq_error_iff {f : α → Except ε β} {xs : List α} {e : ε} :
    xs.mapM f = .error e ↔
      ∃ before x after, xs = before ++ x :: after ∧ (∀ earlier ∈ before, ∃ y, f earlier = .ok y) ∧
        f x = .error e := by
  induction xs with
  | nil => simp [pure, Except.pure]
  | cons first rest ih =>
      rw [List.mapM_cons]
      cases hfirst : f first with
      | error e' =>
          constructor
          · intro h
            cases h
            exact ⟨[], first, rest, rfl, by simp, hfirst⟩
          · rintro ⟨_ | ⟨head, before⟩, x, after, hxs, hbefore, hx⟩
            · cases hxs
              cases hfirst.symm.trans hx
              rfl
            · cases hxs
              obtain ⟨y, hy⟩ := hbefore first (by simp)
              cases hfirst.symm.trans hy
      | ok value =>
          have hrest : (Except.ok value >>= fun y => rest.mapM f >>= fun ys => pure (y :: ys)) =
              .error e ↔ rest.mapM f = .error e := by
            cases rest.mapM f <;> simp [bind, Except.bind, pure, Except.pure]
          rw [hrest, ih]
          constructor
          · rintro ⟨before, x, after, rfl, hbefore, hx⟩
            refine ⟨first :: before, x, after, rfl, fun earlier hearlier => ?_, hx⟩
            rcases List.mem_cons.mp hearlier with rfl | hearlier
            · exact ⟨value, hfirst⟩
            · exact hbefore earlier hearlier
          · rintro ⟨_ | ⟨head, before⟩, x, after, hxs, hbefore, hx⟩
            · cases hxs
              cases hfirst.symm.trans hx
            · cases hxs
              exact ⟨before, x, after, rfl, fun earlier hearlier =>
                hbefore earlier (by simp [hearlier]), hx⟩

theorem bind_eq_error_iff {step : Except ε α} {next : α → Except ε β} {e : ε} :
    step >>= next = .error e ↔
      step = .error e ∨ ∃ value, step = .ok value ∧ next value = .error e := by
  cases step <;> simp [bind, Except.bind]

end RpcContract
