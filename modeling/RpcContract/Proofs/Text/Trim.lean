import RpcContract.Text.Blank

/-!
# What trimming takes away

A trimmed text and the text that it comes from differ by a run of the character at each end that is
trimmed, and the character does not stand there any more.  So it is with white space, of which a run
may hold several kinds.
-/

namespace RpcContract.Text

theorem exists_replicate_append_dropWhile (c : Char) (cs : List Char) :
    ∃ n, cs = List.replicate n c ++ cs.dropWhile (· == c) := by
  refine ⟨(cs.takeWhile (· == c)).length, ?_⟩
  have htake : cs.takeWhile (· == c) = List.replicate (cs.takeWhile (· == c)).length c :=
    List.eq_replicate_iff.mpr ⟨rfl, fun d hd =>
      beq_iff_eq.mp (List.all_eq_true.mp List.all_takeWhile d hd)⟩
  rw [← htake, List.takeWhile_append_dropWhile]

theorem head?_dropWhile_ne (c : Char) (cs : List Char) :
    (cs.dropWhile (· == c)).head? ≠ some c := by
  intro h
  have := List.head?_dropWhile_not (· == c) cs
  simp [h] at this

theorem exists_trimStart (c : Char) (text : String) :
    (∃ n, text.toList = List.replicate n c ++ (trimStart c text).toList) ∧
      (trimStart c text).toList.head? ≠ some c := by
  simp only [trimStart, String.toList_ofList]
  exact ⟨exists_replicate_append_dropWhile c _, head?_dropWhile_ne c _⟩

theorem exists_trimEnd (c : Char) (text : String) :
    (∃ n, text.toList = (trimEnd c text).toList ++ List.replicate n c) ∧
      (trimEnd c text).toList.getLast? ≠ some c := by
  simp only [trimEnd, String.toList_ofList, List.getLast?_reverse]
  refine ⟨?_, head?_dropWhile_ne c _⟩
  obtain ⟨n, hn⟩ := exists_replicate_append_dropWhile c text.toList.reverse
  refine ⟨n, ?_⟩
  simpa using List.reverse_eq_iff.mp hn

theorem exists_trimBoth (c : Char) (text : String) :
    (∃ m n, text.toList = List.replicate m c ++ (trimBoth c text).toList ++ List.replicate n c) ∧
      (trimBoth c text).toList.head? ≠ some c ∧ (trimBoth c text).toList.getLast? ≠ some c := by
  obtain ⟨⟨m, hm⟩, hhead⟩ := exists_trimStart c text
  obtain ⟨⟨n, hn⟩, hlast⟩ := exists_trimEnd c (trimStart c text)
  refine ⟨⟨m, n, by rw [hm, hn, trimBoth, List.append_assoc]⟩, ?_, hlast⟩
  -- The first character of what is left by the end was first before.
  intro h
  refine hhead ?_
  have hfirst : (trimEnd c (trimStart c text)).toList.head? = some c := h
  rw [hn, List.head?_append, hfirst, Option.some_or]

/-! ## White space -/

theorem dropWhile_eq_iff {p : Char → Bool} {cs rest : List Char} :
    cs.dropWhile p = rest ↔ ∃ front, cs = front ++ rest ∧ (∀ c ∈ front, p c = true) ∧
      ∀ c, rest.head? = some c → p c = false := by
  constructor
  · rintro rfl
    refine ⟨cs.takeWhile p, List.takeWhile_append_dropWhile.symm,
      List.all_eq_true.mp List.all_takeWhile, fun c hc => ?_⟩
    have hstop := List.head?_dropWhile_not p cs
    simpa [hc] using hstop
  · rintro ⟨front, rfl, hfront, hrest⟩
    rw [List.dropWhile_append_of_pos hfront]
    cases rest with
    | nil => rfl
    | cons c rest => rw [List.dropWhile_cons_of_neg (by simp [hrest c rfl])]

/-- What is left has no white space at its ends, and there is nothing but white space around it. -/
theorem trimBlanks_eq_iff {text part : String} :
    trimBlanks text = part ↔ ∃ before after, text.toList = before ++ part.toList ++ after ∧
      (∀ c ∈ before ++ after, isBlank c = true) ∧
      (∀ c, part.toList.head? = some c → isBlank c = false) ∧
      ∀ c, part.toList.getLast? = some c → isBlank c = false := by
  constructor
  · rintro rfl
    obtain ⟨before, htext, hbefore, hhead⟩ :=
      dropWhile_eq_iff.mp (rfl : text.toList.dropWhile isBlank = _)
    obtain ⟨after, hdropped, hafter, hlast⟩ :=
      dropWhile_eq_iff.mp (rfl : (text.toList.dropWhile isBlank).reverse.dropWhile isBlank = _)
    have hsplit := List.reverse_eq_iff.mp hdropped
    rw [List.reverse_append] at hsplit
    rw [trimBlanks, String.toList_ofList, dropBlanks, dropBlanks]
    refine ⟨before, after.reverse, ?_, fun c hc => ?_, fun c hc => hhead c ?_, fun c hc =>
      hlast c (by rwa [List.getLast?_reverse] at hc)⟩
    · rw [List.append_assoc, ← hsplit, ← htext]
    · rcases List.mem_append.mp hc with hc | hc
      · exact hbefore c hc
      · exact hafter c (List.mem_reverse.mp hc)
    · rw [hsplit, List.head?_append, hc, Option.some_or]
  · rintro ⟨before, after, htext, hblank, hhead, hlast⟩
    rw [List.forall_mem_append] at hblank
    rw [trimBlanks, dropBlanks, dropBlanks, htext, ← String.toList_inj, String.toList_ofList]
    by_cases hpart : part.toList = []
    · have hnone : (before ++ part.toList ++ after).dropWhile isBlank = [] :=
        dropWhile_eq_iff.mpr ⟨before ++ after, by simp [hpart], List.forall_mem_append.mpr hblank,
          by simp⟩
      rw [hnone, hpart]
      rfl
    have hfront : (before ++ part.toList ++ after).dropWhile isBlank = part.toList ++ after := by
      refine dropWhile_eq_iff.mpr ⟨before, by simp, hblank.1, fun c hc => hhead c ?_⟩
      cases hfirst : part.toList.head? with
      | none => exact absurd (List.head?_eq_none_iff.mp hfirst) hpart
      | some d => rwa [List.head?_append, hfirst, Option.some_or] at hc
    have hback : (part.toList ++ after).reverse.dropWhile isBlank = part.toList.reverse :=
      dropWhile_eq_iff.mpr ⟨after.reverse, by simp, by simpa using hblank.2, by simpa using hlast⟩
    rw [hfront, hback, List.reverse_reverse]

end RpcContract.Text
