import RpcContract.Generation.Output
import RpcContract.Proofs.Text.Trim

/-!
# What counts of a text

Texts are compared by what stands behind their first lines, without the white space around it.  An
output is written if there is none yet, or one that counts as another text.
-/

namespace RpcContract.Generation

theorem afterFirstLine_eq_iff {cs rest : List Char} :
    afterFirstLine cs = rest ↔
      (∃ line, '\n' ∉ line ∧ cs = line ++ '\n' :: rest) ∨ '\n' ∉ cs ∧ rest = [] := by
  induction cs with
  | nil => simp [afterFirstLine, eq_comm]
  | cons c cs ih =>
      rw [afterFirstLine]
      split
      next hend =>
        subst hend
        constructor
        · rintro rfl
          exact .inl ⟨[], by simp, rfl⟩
        · rintro (⟨line, hline, hcs⟩ | ⟨hnone, -⟩)
          · cases line with
            | nil => exact (List.cons.inj hcs).2
            | cons d line => simp [← (List.cons.inj hcs).1] at hline
          · simp at hnone
      next hne =>
        rw [ih]
        refine or_congr ⟨?_, ?_⟩ (by simp [Ne.symm hne])
        · rintro ⟨line, hline, rfl⟩
          exact ⟨c :: line, by simp [hline, Ne.symm hne], rfl⟩
        · rintro ⟨line, hline, hcs⟩
          cases line with
          | nil => exact absurd (List.cons.inj hcs).1 hne
          | cons d line => exact ⟨line, fun hmem => hline (by simp [hmem]), (List.cons.inj hcs).2⟩

/-- The part that counts stands behind the first line end, with nothing but white space around
it. -/
theorem comparedPart_eq_iff {text part : String} :
    comparedPart text = part ↔ ∃ before after,
      ((∃ line, '\n' ∉ line ∧ text.toList = line ++ '\n' :: (before ++ part.toList ++ after)) ∨
        '\n' ∉ text.toList ∧ before ++ part.toList ++ after = []) ∧
      (∀ c ∈ before ++ after, Text.isBlank c = true) ∧
      (∀ c, part.toList.head? = some c → Text.isBlank c = false) ∧
      ∀ c, part.toList.getLast? = some c → Text.isBlank c = false := by
  simp only [comparedPart, Text.trimBlanks_eq_iff, String.toList_ofList, afterFirstLine_eq_iff]

theorem comparedPart_congr {text text' : String}
    (h : afterFirstLine text.toList = afterFirstLine text'.toList) :
    comparedPart text = comparedPart text' := by
  rw [comparedPart, comparedPart, h]

/-! ## Outputs that are there -/

variable {tree : FileTree} {path : Path} {text : String}

theorem readExisting_eq_some_iff :
    readExisting tree path = .ok (some text) ↔ tree.readText path = .ok text := by
  unfold readExisting
  cases htext : tree.readText path with
  | error fault => cases fault <;> simp
  | ok existing => simp

theorem shouldWrite_iff {existing : Option String}
    (h : readExisting tree path = .ok existing) :
    shouldWrite existing text = true ↔ tree.readText path = .error .notFound ∨
      ∃ existing, tree.readText path = .ok existing ∧
        comparedPart existing ≠ comparedPart text := by
  unfold readExisting at h
  cases hread : tree.readText path with
  | ok existing =>
      rw [hread] at h
      cases h
      simp [shouldWrite]
  | error fault =>
      rw [hread] at h
      cases fault <;> cases h
      simp [shouldWrite]

end RpcContract.Generation
