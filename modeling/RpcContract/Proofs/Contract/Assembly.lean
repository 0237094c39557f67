import RpcContract.Contract.Assembly

/-!
# When a contract cannot be assembled

Assembling fails on the first name that the contract does not have.
-/

namespace RpcContract.Contract

variable {contract assembled result : Contract} {names : List String} {missing : MissingSegment}

theorem assembleOnto_eq_error_iff :
    contract.assembleOnto assembled names = .error missing ↔
      ∃ before name after, names = before ++ name :: after ∧
        (∀ earlier ∈ before, contract.get? earlier ≠ none) ∧ contract.get? name = none ∧
        missing = ⟨name⟩ := by
  induction names generalizing assembled with
  | nil => simp [assembleOnto, pure, Except.pure]
  | cons name names ih =>
      rw [assembleOnto]
      cases hname : contract.get? name with
      | none =>
          constructor
          · intro h
            cases h
            exact ⟨[], name, names, rfl, by simp, hname, rfl⟩
          · rintro ⟨_ | ⟨first, before⟩, other, after, hnames, hbefore, hother, rfl⟩
            · cases hnames
              rfl
            · cases hnames
              exact absurd hname (hbefore name (by simp))
      | some entry =>
          refine ih.trans ⟨?_, ?_⟩
          · rintro ⟨before, other, after, rfl, hbefore, hother, rfl⟩
            refine ⟨name :: before, other, after, rfl, fun earlier hearlier => ?_, hother, rfl⟩
            rcases List.mem_cons.mp hearlier with rfl | hearlier
            · simp [hname]
            · exact hbefore earlier hearlier
          · rintro ⟨_ | ⟨first, before⟩, other, after, hnames, hbefore, hother, rfl⟩
            · cases hnames
              cases hname.symm.trans hother
            · cases hnames
              exact ⟨before, other, after, rfl, fun earlier hearlier =>
                hbefore earlier (by simp [hearlier]), hother, rfl⟩

theorem assemble_eq_error_iff :
    contract.assemble names = .error missing ↔
      ∃ before name after, names = before ++ name :: after ∧
        (∀ earlier ∈ before, contract.get? earlier ≠ none) ∧ contract.get? name = none ∧
        missing = ⟨name⟩ := assembleOnto_eq_error_iff

theorem get?_ne_none_of_assembleOnto (h : contract.assembleOnto assembled names = .ok result) :
    ∀ name ∈ names, contract.get? name ≠ none := by
  induction names generalizing assembled with
  | nil => simp
  | cons first names ih =>
      rw [assembleOnto] at h
      cases hfirst : contract.get? first with
      | none =>
          rw [hfirst] at h
          cases h
      | some entry =>
          rw [hfirst] at h
          intro name hname
          rcases List.mem_cons.mp hname with rfl | hname
          · simp [hfirst]
          · exact ih h name hname

end RpcContract.Contract
