import RpcContract.Json.Text

/-!
# What JSON text can spell

Each word of JSON text has one meaning and each of its numbers is finite, so nothing but the word
null reads as null.
-/

namespace RpcContract

/-! ## Finite numbers -/

namespace Binary64

theorem isFinite_of_isZero {x : Binary64} (h : x.isZero = true) : x.isFinite = true := by
  have hfield : x.exponentField = 0 := by simp_all [isZero]
  simp [isFinite, hfield]

theorem isFinite_of_lt {n : Nat} (h : n < 0x7FF0000000000000) :
    (⟨n.toUInt64⟩ : Binary64).isFinite = true := by
  have hfield : (⟨n.toUInt64⟩ : Binary64).exponentField ≤ n / 2 ^ 52 := by
    have hsize : n.toUInt64.toNat = n := UInt64.toNat_ofNat_of_lt' (Nat.lt_trans h (by decide))
    have hshift : (n.toUInt64 >>> 52).toNat = n / 2 ^ 52 := by
      rw [UInt64.toNat_shiftRight, hsize, Nat.shiftRight_eq_div_pow]
      rfl
    rw [exponentField, UInt64.toNat_and, hshift]
    exact Nat.and_le_left
  have hne : (⟨n.toUInt64⟩ : Binary64).exponentField ≠ 0x7FF := by omega
  simp [isFinite, hne]

theorem isFinite_neg (x : Binary64) : x.neg.isFinite = x.isFinite := by
  have hsign : ∀ i : Fin 64, (0x800#64).getLsbD i = false ∨ (0x7FF#64).getLsbD i = false := by
    decide
  have hfield : x.neg.bits >>> 52 &&& (0x7FF : UInt64) = x.bits >>> 52 &&& 0x7FF := by
    refine UInt64.toBitVec_inj.mp (BitVec.eq_of_getLsbD_eq fun i hi => ?_)
    have hbit := hsign ⟨i, hi⟩
    simp only [neg, UInt64.shiftRight_xor]
    rcases hbit with h | h <;> simp_all
  rw [isFinite, exponentField, hfield]
  rfl

theorem isFinite_nearest (num den : Nat) :
    (nearest num den).isFinite = true ∨ nearest num den = infinity := by
  unfold nearest
  by_cases hzero : num = 0 ∨ den = 0
  · rw [if_pos hzero]
    exact .inl (by decide)
  · rw [if_neg hzero]
    extract_lets _ _ _ _ _ _ _ _ _ bits
    by_cases hlarge : bits ≥ 0x7FF0000000000000
    · rw [if_pos hlarge]
      exact .inr rfl
    · rw [if_neg hlarge]
      exact .inl (isFinite_of_lt (Nat.not_le.mp hlarge))

end Binary64

/-- A tree without plain words and tags whose numbers are finite. -/
inductive Tree.Literal : Tree → Prop
  | null : Literal .null
  | bool (value : Bool) : Literal (.bool value)
  | int (value : Int) : Literal (.int value)
  | real {value : Binary64} (h : value.isFinite = true) : Literal (.real value)
  | str (value : String) : Literal (.str value)
  | seq {items : List Tree} (stop : Option Fault) (h : ∀ item ∈ items, item.Literal) :
      Literal (.seq items stop)
  | map {fields : List (String × Tree)} (stop : Option Fault)
      (h : ∀ field ∈ fields, field.2.Literal) : Literal (.map fields stop)
  | broken (fault : Fault) : Literal (.broken fault)
  | unreadable (fault : Fault) : Literal (.unreadable fault)

namespace Json

/-! ## Numbers -/

theorem isFinite_scaleBy (x : Binary64) (exponent : Int)
    (h : (scaleBy x exponent).isInfinite = false) : (scaleBy x exponent).isFinite = true := by
  have hnearest : (scaleBy x exponent).isFinite = true ∨ scaleBy x exponent = .infinity := by
    unfold scaleBy
    extract_lets power
    split
    split
    split
    · exact Binary64.isFinite_nearest _ _
    · exact Binary64.isFinite_nearest _ _
  rcases hnearest with hfinite | hinfinity
  · exact hfinite
  · rw [hinfinity] at h
    exact absurd h (by decide)

theorem isFinite_of_scaleDecimal {s : Scanned} {x : Binary64} (h : scaleDecimal s = some x) :
    x.isFinite = true := by
  have hgo (steps : Nat) : ∀ (start : Binary64) (exponent : Int),
      scaleDecimal.go steps start exponent = some x → x.isFinite = true := by
    induction steps with
    | zero =>
        intro start exponent h
        cases h
        decide
    | succ steps ih =>
        intro start exponent h
        rw [scaleDecimal.go] at h
        split at h
        next hzero =>
          cases h
          exact Binary64.isFinite_of_isZero hzero
        split at h
        · dsimp only at h
          split at h
          · cases h
          next hbounded =>
            cases h
            exact isFinite_scaleBy _ _ (Bool.eq_false_iff.mpr hbounded)
        split at h
        · cases h
        · exact ih _ _ h
  exact hgo _ _ _ h

theorem literal_noDigits (cs : List Char) : (noDigits cs).1.Literal := .broken _

theorem literal_endNumber (negative : Bool) (s : Scanned) (cs : List Char) :
    (endNumber negative s cs).1.Literal := by
  unfold endNumber
  cases h : scaleDecimal s with
  | none => exact .unreadable _
  | some x =>
      have hfinite := isFinite_of_scaleDecimal h
      refine .real ?_
      split
      · rwa [Binary64.isFinite_neg]
      · exact hfinite

theorem literal_endWhole (negative : Bool) (s : Scanned) (cs : List Char) :
    (endWhole negative s cs).1.Literal := by
  unfold endWhole
  split
  · exact literal_endNumber _ _ _
  split
  · split
    · exact literal_endNumber _ _ _
    · exact .int _
  · exact .int _

theorem literal_readExponent (negative : Bool) (s : Scanned) (cs : List Char) :
    (readExponent negative s cs).1.Literal := by
  unfold readExponent
  dsimp only
  split
  · exact literal_noDigits _
  · exact literal_endNumber _ _ _

theorem literal_readFraction (negative : Bool) (s : Scanned) (cs : List Char) :
    (readFraction negative s cs).1.Literal := by
  unfold readFraction
  dsimp only
  split
  · exact literal_noDigits _
  split
  · exact literal_readExponent _ _ _
  · exact literal_readExponent _ _ _
  · exact literal_endNumber _ _ _

theorem literal_readNumber (negative : Bool) (cs : List Char) :
    (readNumber negative cs).1.Literal := by
  unfold readNumber
  dsimp only
  split
  · exact literal_noDigits _
  split
  · exact .broken _
  split
  · exact literal_readFraction _ _ _
  · exact literal_readExponent _ _ _
  · exact literal_readExponent _ _ _
  · exact literal_endWhole _ _ _

/-! ## Values -/

theorem literal_readWord {tree : Tree} (h : tree.Literal) (word cs : List Char) :
    (readWord tree word cs).1.Literal := by
  induction word generalizing cs with
  | nil => exact h
  | cons w word ih =>
      cases cs with
      | nil => exact .broken _
      | cons c cs =>
          rw [readWord]
          split
          · exact ih cs
          · exact .broken _

theorem literal_readQuoted (fuel : Nat) (cs : List Char) : (readQuoted fuel cs).1.Literal := by
  unfold readQuoted
  split
  · exact .str _
  · exact .unreadable _
  · exact .broken _

section Steps

variable {fuel : Nat}

theorem literal_readValue (hitems : ∀ cs, ∀ item ∈ (readItems fuel cs).1, item.Literal)
    (hfields : ∀ cs, ∀ field ∈ (readFields fuel cs).1, field.2.Literal) (cs : List Char) :
    (readValue (fuel + 1) cs).1.Literal := by
  rw [readValue]
  split
  · exact .broken _
  · exact literal_readWord .null _ _
  · exact literal_readWord (.bool true) _ _
  · exact literal_readWord (.bool false) _ _
  · exact literal_readQuoted _ _
  · exact literal_readNumber _ _
  · split
    · exact .seq _ (by simp)
    · exact .seq _ (by simp)
    · exact .seq _ (hitems _)
  · split
    · exact .map _ (by simp)
    · exact .map _ (by simp)
    · exact .map _ (hfields _)
  · split
    · exact literal_readNumber _ _
    · exact .broken _

theorem literal_readItems (hvalue : ∀ cs, (readValue fuel cs).1.Literal)
    (hitems : ∀ cs, ∀ item ∈ (readItems fuel cs).1, item.Literal) (cs : List Char) :
    ∀ item ∈ (readItems (fuel + 1) cs).1, item.Literal := by
  have hitem := hvalue cs
  rw [readItems]
  generalize readValue fuel cs = read at hitem ⊢
  obtain ⟨item, _ | rest⟩ := read
  · simpa using hitem
  · dsimp only
    split
    · simpa using hitem
    · simpa using hitem
    · split
      · simpa using hitem
      · exact List.forall_mem_cons.mpr ⟨hitem, hitems _⟩
    · simpa using hitem

theorem literal_readFields (hvalue : ∀ cs, (readValue fuel cs).1.Literal)
    (hfields : ∀ cs, ∀ field ∈ (readFields fuel cs).1, field.2.Literal) (cs : List Char) :
    ∀ field ∈ (readFields (fuel + 1) cs).1, field.2.Literal := by
  rw [readFields]
  split
  · split
    · split
      · simp
      next rest _ =>
        have hvalue := hvalue rest
        generalize readValue fuel rest = read at hvalue ⊢
        obtain ⟨value, _ | behind⟩ := read
        · simpa using hvalue
        · dsimp only
          split
          · simpa using hvalue
          · simpa using hvalue
          · split
            · simpa using hvalue
            · exact List.forall_mem_cons.mpr ⟨hvalue, hfields _⟩
          · simpa using hvalue
      · simp
    · simp
    · simp
  · simp

end Steps

theorem literal_read (fuel : Nat) : (∀ cs, (readValue fuel cs).1.Literal) ∧
    (∀ cs, ∀ item ∈ (readItems fuel cs).1, item.Literal) ∧
    ∀ cs, ∀ field ∈ (readFields fuel cs).1, field.2.Literal := by
  induction fuel with
  | zero =>
      refine ⟨fun cs => ?_, by simp [readItems], by simp [readFields]⟩
      rw [readValue]
      exact .broken _
  | succ fuel ih =>
      obtain ⟨hvalue, hitems, hfields⟩ := ih
      exact ⟨literal_readValue hitems hfields, literal_readItems hvalue hitems,
        literal_readFields hvalue hfields⟩

theorem literal_readTree (text : String) : (readTree text).1.Literal := by
  have hvalue := (literal_read (2 * text.toList.length + 2)).1 text.toList
  unfold readTree
  dsimp only
  split
  next h => simpa [h] using hvalue
  next h => simpa [h] using hvalue

end Json

end RpcContract
