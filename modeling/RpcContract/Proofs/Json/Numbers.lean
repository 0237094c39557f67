import RpcContract.Json.Printer
import RpcContract.Json.Text

/-!
# Numbers inside longer text

A number ends where no sign of a number follows, and is read there as it is read alone.  Integers of
64 bits are read back from their digits.
-/

namespace RpcContract.Json

/-- Text that does not go on a number that stands before it. -/
def EndsNumber (rest : List Char) : Prop :=
  ∀ c ∈ rest.head?, c.isDigit = false ∧ c ≠ '.' ∧ c ≠ 'e' ∧ c ≠ 'E'

/-- The second of two readings has more text behind the value than the first.  A reading that breaks
off says nothing about the other. -/
def Extends (rest : List Char) (short long : Tree × Option (List Char)) : Prop :=
  (∃ fault, short = (.broken fault, none)) ∨
    ∃ tree behind, short = (tree, some behind) ∧ long = (tree, some (behind ++ rest))

section Locality

variable {rest : List Char}

theorem takeWhile_isDigit_append (h : EndsNumber rest) (cs : List Char) :
    (cs ++ rest).takeWhile Char.isDigit = cs.takeWhile Char.isDigit := by
  induction cs with
  | nil =>
      cases rest with
      | nil => rfl
      | cons c rest => simp [(h c rfl).1]
  | cons c cs ih => simp only [List.cons_append, List.takeWhile_cons, ih]

theorem dropWhile_isDigit_append (h : EndsNumber rest) (cs : List Char) :
    (cs ++ rest).dropWhile Char.isDigit = cs.dropWhile Char.isDigit ++ rest := by
  induction cs with
  | nil =>
      cases rest with
      | nil => rfl
      | cons c rest => simp [(h c rfl).1]
  | cons c cs ih =>
      simp only [List.cons_append, List.dropWhile_cons, ih]
      split <;> rfl

theorem extends_noDigits (cs : List Char) (long : Tree × Option (List Char)) :
    Extends rest (noDigits cs) long := .inl ⟨_, rfl⟩

theorem extends_endNumber (negative : Bool) (s : Scanned) (cs : List Char) :
    Extends rest (endNumber negative s cs) (endNumber negative s (cs ++ rest)) := by
  unfold endNumber
  cases scaleDecimal s <;> exact .inr ⟨_, _, rfl, rfl⟩

theorem extends_endWhole (negative : Bool) (s : Scanned) (cs : List Char) :
    Extends rest (endWhole negative s cs) (endWhole negative s (cs ++ rest)) := by
  unfold endWhole
  split
  · exact extends_endNumber _ _ _
  split
  · split
    · exact extends_endNumber _ _ _
    · exact .inr ⟨_, _, rfl, rfl⟩
  · exact .inr ⟨_, _, rfl, rfl⟩

theorem extends_readExponent (h : EndsNumber rest) (negative : Bool) (s : Scanned)
    (cs : List Char) :
    Extends rest (readExponent negative s cs) (readExponent negative s (cs ++ rest)) := by
  cases cs with
  | nil => exact extends_noDigits _ _
  | cons c cs =>
      have hsign : exponentSign (c :: cs ++ rest) =
          ((exponentSign (c :: cs)).1, (exponentSign (c :: cs)).2 ++ rest) := by
        unfold exponentSign
        split <;> simp_all
      unfold readExponent
      simp only [hsign, takeWhile_isDigit_append h, dropWhile_isDigit_append h]
      split
      · exact extends_noDigits _ _
      · exact extends_endNumber _ _ _

theorem append_ne_cons {mark : Char} {cs : List Char} (hmark : mark ∉ rest.head?)
    (h : ∀ tail, cs ≠ mark :: tail) (tail : List Char) : cs ++ rest ≠ mark :: tail := by
  intro heq
  cases cs with
  | nil =>
      rw [List.nil_append] at heq
      exact hmark (heq ▸ rfl)
  | cons c cs =>
      rw [List.cons_append, List.cons.injEq] at heq
      exact h cs (heq.1 ▸ rfl)

theorem extends_readFraction (h : EndsNumber rest) (negative : Bool) (s : Scanned)
    (cs : List Char) :
    Extends rest (readFraction negative s cs) (readFraction negative s (cs ++ rest)) := by
  unfold readFraction
  simp only [takeWhile_isDigit_append h, dropWhile_isDigit_append h]
  split
  · exact extends_noDigits _ _
  generalize cs.dropWhile Char.isDigit = behind
  split
  · exact extends_readExponent h _ _ _
  · exact extends_readExponent h _ _ _
  next he hE =>
    have hlower := append_ne_cons (fun hc => (h _ hc).2.2.1 rfl) he
    have hupper := append_ne_cons (fun hc => (h _ hc).2.2.2 rfl) hE
    split
    next heq => exact absurd heq (hlower _)
    next heq => exact absurd heq (hupper _)
    · exact extends_endNumber _ _ _

theorem extends_readNumber (h : EndsNumber rest) (negative : Bool) (cs : List Char) :
    Extends rest (readNumber negative cs) (readNumber negative (cs ++ rest)) := by
  unfold readNumber
  simp only [takeWhile_isDigit_append h, dropWhile_isDigit_append h]
  split
  · exact extends_noDigits _ _
  split
  · exact .inl ⟨_, rfl⟩
  generalize cs.dropWhile Char.isDigit = behind
  split
  · exact extends_readFraction h _ _ _
  · exact extends_readExponent h _ _ _
  · exact extends_readExponent h _ _ _
  next hpoint he hE =>
    have hdot := append_ne_cons (fun hc => (h _ hc).2.1 rfl) hpoint
    have hlower := append_ne_cons (fun hc => (h _ hc).2.2.1 rfl) he
    have hupper := append_ne_cons (fun hc => (h _ hc).2.2.2 rfl) hE
    split
    next heq => exact absurd heq (hdot _)
    next heq => exact absurd heq (hlower _)
    next heq => exact absurd heq (hupper _)
    · exact extends_endWhole _ _ _

end Locality

/-! ## Blanks -/

theorem skipSpace_append {cs : List Char} (h : skipSpace cs ≠ []) (rest : List Char) :
    skipSpace (cs ++ rest) = skipSpace cs ++ rest := by
  unfold skipSpace at h ⊢
  rw [List.dropWhile_append]
  simp [h]

theorem skipSpace_append_of_nil {cs : List Char} (h : skipSpace cs = []) (rest : List Char) :
    skipSpace (cs ++ rest) = skipSpace rest := by
  unfold skipSpace at h ⊢
  rw [List.dropWhile_append]
  simp [h]

theorem skipSpace_skipSpace (cs : List Char) : skipSpace (skipSpace cs) = skipSpace cs := by
  unfold skipSpace
  induction cs with
  | nil => rfl
  | cons c cs ih =>
      by_cases hc : isSpace c = true
      · rw [List.dropWhile_cons_of_pos hc, ih]
      · rw [List.dropWhile_cons_of_neg hc, List.dropWhile_cons_of_neg hc]

theorem skipSpace_append_eq {cs : List Char} (h : skipSpace cs ≠ []) (rest : List Char) :
    skipSpace (cs ++ rest) = skipSpace (skipSpace cs ++ rest) := by
  rw [skipSpace_append h, skipSpace_append (by rwa [skipSpace_skipSpace]), skipSpace_skipSpace]

theorem readValue_congr {cs cs' : List Char} (h : skipSpace cs = skipSpace cs') (fuel : Nat) :
    readValue fuel cs = readValue fuel cs' := by
  cases fuel with
  | zero => rw [readValue, readValue]
  | succ fuel => rw [readValue, readValue, h]

/-! ## Integers -/

theorem scanWhole_eq (cs : List Char) (significand : Nat)
    (h : Nat.ofDigitChars 10 cs significand < 0x10000000000000000) :
    scanWhole ⟨significand, 0⟩ cs = ⟨Nat.ofDigitChars 10 cs significand, 0⟩ := by
  induction cs generalizing significand with
  | nil => rfl
  | cons c cs ih =>
      rw [Nat.ofDigitChars_cons, Nat.mul_comm] at h
      -- What the first digits give is no more than what all of them give.
      have hle : significand * 10 + digitValue c ≤
          Nat.ofDigitChars 10 cs (significand * 10 + digitValue c) := by
        rw [Nat.ofDigitChars_eq_ofDigitChars_zero]
        exact Nat.le_add_right_of_le (Nat.le_mul_of_pos_left _ (Nat.pow_pos (by decide)))
      have hfits : fitsNext significand (digitValue c) = true :=
        decide_eq_true (Nat.lt_of_le_of_lt hle h)
      rw [scanWhole, if_pos ⟨rfl, hfits⟩, Nat.ofDigitChars_cons, Nat.mul_comm 10]
      exact ih _ h

theorem head?_toDigits {n : Nat} (h : 0 < n) : (Nat.toDigits 10 n).head? ≠ some '0' := by
  induction n using Nat.strongRecOn with
  | ind n ih =>
      by_cases hsmall : n < 10
      · have hall : ∀ m : Fin 10, 0 < m.val → some (Nat.digitChar m) ≠ some '0' := by decide
        rw [Nat.toDigits_of_lt_base hsmall]
        exact hall ⟨n, hsmall⟩ h
      · have hrest := ih (n / 10) (by omega) (by omega)
        rw [Nat.toDigits_of_base_le (by decide) (by omega), List.head?_append]
        cases hhead : (Nat.toDigits 10 (n / 10)).head? with
        | none => exact absurd (List.head?_eq_none_iff.mp hhead) Nat.toDigits_ne_nil
        | some c => rwa [hhead] at hrest

section Digits

variable {rest : List Char} {n : Nat}

theorem readNumber_toDigits (h : EndsNumber rest) (negative : Bool) (hn : n < 0x10000000000000000) :
    readNumber negative (Nat.toDigits 10 n ++ rest) = endWhole negative ⟨n, 0⟩ rest := by
  have hdigits : ∀ c ∈ Nat.toDigits 10 n, c.isDigit = true := fun c hc =>
    Nat.isDigit_of_mem_toDigits (by decide) (by decide) hc
  have htake : (Nat.toDigits 10 n ++ rest).takeWhile Char.isDigit = Nat.toDigits 10 n := by
    rw [List.takeWhile_append_of_pos hdigits, ← List.nil_append rest,
      takeWhile_isDigit_append h, List.takeWhile_nil, List.append_nil]
  have hdrop : (Nat.toDigits 10 n ++ rest).dropWhile Char.isDigit = rest := by
    rw [List.dropWhile_append_of_pos hdigits, ← List.nil_append rest,
      dropWhile_isDigit_append h, List.dropWhile_nil]
  have hvalue : Nat.ofDigitChars 10 (Nat.toDigits 10 n) 0 = n :=
    Nat.ofDigitChars_toDigits (by decide) (by decide)
  have hzero : ¬ ((Nat.toDigits 10 n).length > 1 &&
      (Nat.toDigits 10 n).head? == some '0') = true := by
    intro hbad
    rw [Bool.and_eq_true, decide_eq_true_eq, beq_iff_eq] at hbad
    by_cases hn : n = 0
    · subst hn
      exact absurd hbad.1 (by decide)
    · exact head?_toDigits (Nat.pos_of_ne_zero hn) hbad.2
  unfold readNumber
  simp only [htake, hdrop, List.isEmpty_iff, Nat.toDigits_ne_nil, hzero, Bool.false_eq_true,
    if_false]
  rw [scanWhole_eq _ _ (by rw [hvalue]; exact hn), hvalue]
  cases rest with
  | nil => rfl
  | cons c rest =>
      obtain ⟨-, hpoint, he, hE⟩ := h c rfl
      split
      next heq => exact absurd (List.cons.inj heq).1 hpoint
      next heq => exact absurd (List.cons.inj heq).1 he
      next heq => exact absurd (List.cons.inj heq).1 hE
      · rfl

/-- An integer that a number of 64 bits can hold. -/
def Fits (n : Int) : Prop := -0x8000000000000000 ≤ n ∧ n < 0x10000000000000000

instance (n : Int) : Decidable (Fits n) := inferInstanceAs (Decidable (_ ∧ _))

theorem readValue_minus (fuel : Nat) (cs : List Char) :
    readValue (fuel + 1) ('-' :: cs) = readNumber true cs := by
  simp [readValue, skipSpace, isSpace]

theorem ne_of_isDigit {c mark : Char} (h : c.isDigit = true) (hmark : mark.isDigit = false) :
    c ≠ mark := by
  intro heq
  rw [heq, hmark] at h
  cases h

theorem isSpace_of_isDigit {c : Char} (h : c.isDigit = true) : isSpace c = false := by
  simp [isSpace, ne_of_isDigit h]

theorem readValue_digit {c : Char} (h : c.isDigit = true) (fuel : Nat) (cs : List Char) :
    readValue (fuel + 1) (c :: cs) = readNumber false (c :: cs) := by
  have hskip : skipSpace (c :: cs) = c :: cs := by
    rw [skipSpace, List.dropWhile_cons_of_neg (by simp [isSpace_of_isDigit h])]
  simp [readValue, hskip, ne_of_isDigit h, h]

theorem readValue_int {value : Int} (h : EndsNumber rest) (hvalue : Fits value) (fuel : Nat) :
    readValue (fuel + 1) ((toString value).toList ++ rest) = (.int value, some rest) := by
  obtain ⟨hlow, hhigh⟩ := hvalue
  cases value with
  | ofNat n =>
      have htext : (toString (Int.ofNat n)).toList = Nat.toDigits 10 n := by
        change (toString n).toList = _
        rw [Nat.toString_eq_repr, Nat.toList_repr]
      have hn : n < 0x10000000000000000 := Int.ofNat_lt.mp hhigh
      have hnumber := readNumber_toDigits h false hn
      rw [htext]
      obtain ⟨c, cs, hdigits⟩ := List.exists_cons_of_ne_nil
        (Nat.toDigits_ne_nil (b := 10) (n := n))
      have hc : c.isDigit = true :=
        Nat.isDigit_of_mem_toDigits (b := 10) (n := n) (by decide) (by decide) (by simp [hdigits])
      rw [hdigits, List.cons_append] at hnumber ⊢
      rw [readValue_digit hc, hnumber]
      simp [endWhole]
  | negSucc n =>
      have htext : (toString (Int.negSucc n)).toList = '-' :: Nat.toDigits 10 (n + 1) := by
        change ("-" ++ toString (n + 1)).toList = _
        rw [Nat.toString_eq_repr, String.toList_append, Nat.toList_repr]
        rfl
      have hn : n + 1 < 0x10000000000000000 := by omega
      rw [htext, List.cons_append, readValue_minus, readNumber_toDigits h true hn]
      have hfits : ¬ (n + 1 = 0 ∨ n + 1 > 0x8000000000000000) := by omega
      simp only [endWhole, gt_iff_lt, Int.lt_irrefl, if_false, if_true, if_neg hfits]
      rfl

end Digits

/-! ## Other numbers -/

/-- The text of a number reads as that number. -/
def ReadsBack (x : Binary64) : Prop := readTree (scalarText (.real x)) = (.real x, none)

theorem readsBack_iff {x : Binary64} : ReadsBack x ↔
    (match readTree (scalarText (.real x)) with
      | (.real y, none) => y == x
      | _ => false) = true := by
  unfold ReadsBack
  constructor
  · intro h
    simp [h]
  · intro h
    split at h
    next hread => rw [hread, beq_iff_eq.mp h]
    · cases h

instance (x : Binary64) : Decidable (ReadsBack x) := decidable_of_iff _ readsBack_iff.symm

theorem readWord_ne_real {tree : Tree} {x : Binary64} (h : tree ≠ .real x) (word cs : List Char)
    (behind : Option (List Char)) : readWord tree word cs ≠ (.real x, behind) := by
  intro heq
  induction word generalizing cs with
  | nil => exact h (Prod.mk.inj heq).1
  | cons w word ih =>
      cases cs with
      | nil => cases heq
      | cons c cs =>
          rw [readWord] at heq
          split at heq
          · exact ih cs heq
          · cases heq

theorem readQuoted_ne_real (fuel : Nat) (cs : List Char) (x : Binary64)
    (behind : Option (List Char)) : readQuoted fuel cs ≠ (.real x, behind) := by
  unfold readQuoted
  split <;> simp

theorem of_readValue_real {fuel : Nat} {cs : List Char} {x : Binary64}
    {behind : Option (List Char)} (h : readValue (fuel + 1) cs = (.real x, behind)) :
    ∃ negative body, skipSpace cs ≠ [] ∧ readNumber negative body = (.real x, behind) ∧
      ∀ (fuel : Nat) (rest : List Char),
        readValue (fuel + 1) (skipSpace cs ++ rest) = readNumber negative (body ++ rest) := by
  rw [readValue] at h
  generalize skipSpace cs = skipped at h ⊢
  split at h
  · cases h
  · exact absurd h (readWord_ne_real (by simp) _ _ _)
  · exact absurd h (readWord_ne_real (by simp) _ _ _)
  · exact absurd h (readWord_ne_real (by simp) _ _ _)
  · exact absurd h (readQuoted_ne_real _ _ _ _)
  · exact ⟨true, _, by simp, h, fun fuel rest => readValue_minus fuel _⟩
  · split at h <;> cases h
  · split at h <;> cases h
  · split at h
    next hdigit => exact ⟨false, _, by simp, h, fun fuel rest => readValue_digit hdigit fuel _⟩
    · cases h

theorem readNumber_real {x : Binary64} {cs rest : List Char} {behind : Option (List Char)}
    {negative : Bool} (h : EndsNumber rest) (hread : readNumber negative cs = (.real x, behind)) :
    ∃ behind', behind = some behind' ∧
      readNumber negative (cs ++ rest) = (.real x, some (behind' ++ rest)) := by
  have hextends := extends_readNumber h negative cs
  rw [hread] at hextends
  obtain ⟨_, hbroken⟩ | ⟨_, behind', hshort, hlong⟩ := hextends
  · cases hbroken
  · cases hshort
    exact ⟨behind', rfl, hlong⟩

theorem readValue_real {x : Binary64} {rest : List Char} (h : EndsNumber rest)
    (hx : ReadsBack x) (fuel : Nat) :
    ∃ behind, readValue (fuel + 1) ((scalarText (.real x)).toList ++ rest) =
      (.real x, some behind) ∧ skipSpace behind = skipSpace rest := by
  unfold ReadsBack readTree at hx
  generalize (scalarText (.real x)).toList = cs at hx ⊢
  rcases hread : readValue (2 * cs.length + 2) cs with ⟨tree, behind⟩
  simp only [hread] at hx
  have htree : tree = .real x := by cases behind <;> exact (Prod.mk.inj hx).1
  subst htree
  -- The number that is read alone is read with the rest behind it.
  obtain ⟨negative, body, hne, hnumber, hstart⟩ := of_readValue_real hread
  obtain ⟨behind', rfl, hlong⟩ := readNumber_real h hnumber
  have hbehind : skipSpace behind' = [] := by simpa using hx
  refine ⟨behind' ++ rest, ?_, skipSpace_append_of_nil hbehind rest⟩
  rw [readValue_congr (skipSpace_append_eq hne rest), hstart, hlong]

end RpcContract.Json
