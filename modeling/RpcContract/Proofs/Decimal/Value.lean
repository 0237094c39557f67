import Mathlib.Data.List.TakeWhile
import RpcContract.Proofs.Decimal.Layout
import RpcContract.Proofs.Decimal.Shortest

/-!
# The value of a text

A decimal that is laid out is worth what it was, wherever the point stands and with or without an
exponent.  So finite values with one text are one value.
-/

namespace RpcContract

/-! ## Digits -/

def digitsValue (cs : List Char) : Nat := Nat.ofDigitChars 10 cs 0

theorem digitsValue_append (cs later : List Char) :
    digitsValue (cs ++ later) = digitsValue cs * 10 ^ later.length + digitsValue later := by
  rw [digitsValue, Nat.ofDigitChars_append, Nat.ofDigitChars_eq_ofDigitChars_zero, Nat.mul_comm]
  rfl

@[simp] theorem digitsValue_zeros (n : Nat) : digitsValue (List.replicate n '0') = 0 := by
  induction n with
  | zero => rfl
  | succ n ih =>
      rw [List.replicate_succ', digitsValue_append, ih]
      rfl

@[simp] theorem digitsValue_toString (n : Nat) : digitsValue (toString n).toList = n := by
  rw [Nat.toString_eq_repr, Nat.toList_repr]
  exact Nat.ofDigitChars_ten_toDigits

def Digits (cs : List Char) : Prop := ∀ c ∈ cs, c.isDigit = true

theorem toString_ne_nil (n : Nat) : (toString n).toList ≠ [] := by
  rw [Nat.toString_eq_repr, Nat.toList_repr]
  exact Nat.toDigits_ne_nil

namespace Digits

variable {cs later : List Char}

theorem toString (n : Nat) : Digits (toString n).toList := by
  intro c hc
  rw [Nat.toString_eq_repr, Nat.toList_repr] at hc
  exact Nat.isDigit_of_mem_toDigits (by decide) (by decide) hc

theorem zeros (n : Nat) : Digits (List.replicate n '0') := fun c hc => by
  rw [List.eq_of_mem_replicate hc]
  rfl

theorem append (h : Digits cs) (hlater : Digits later) : Digits (cs ++ later) := fun c hc =>
  (List.mem_append.mp hc).elim (h c) (hlater c)

theorem take (h : Digits cs) (n : Nat) : Digits (cs.take n) := fun c hc =>
  h c (List.mem_of_mem_take hc)

theorem drop (h : Digits cs) (n : Nat) : Digits (cs.drop n) := fun c hc =>
  h c (List.mem_of_mem_drop hc)

theorem notMem (h : Digits cs) {mark : Char} (hmark : mark.isDigit = false) : mark ∉ cs :=
  fun hmem => by cases (h mark hmem).symm.trans hmark

theorem head (h : Digits cs) (hnonempty : cs ≠ []) (later : List Char) :
    ∀ c ∈ (cs ++ later).head?, c.isDigit = true := by
  intro c hc
  rw [List.head?_append_of_ne_nil _ hnonempty] at hc
  exact h c (List.mem_of_mem_head? hc)

end Digits

/-! ## Numbers with a point and an exponent -/

section Mark

variable {mark : Char} {cs : List Char}

theorem takeWhile_ne (h : mark ∉ cs) (rest : List Char) :
    (cs ++ mark :: rest).takeWhile (· ≠ mark) = cs ∧ cs.takeWhile (· ≠ mark) = cs := by
  have hall : ∀ c ∈ cs, decide (c ≠ mark) = true := fun c hc =>
    decide_eq_true fun heq => h (heq ▸ hc)
  exact ⟨by rw [List.takeWhile_append_of_pos hall]; simp, List.takeWhile_eq_self_iff.mpr hall⟩

theorem dropWhile_ne (h : mark ∉ cs) (rest : List Char) :
    (cs ++ mark :: rest).dropWhile (· ≠ mark) = mark :: rest ∧ cs.dropWhile (· ≠ mark) = [] := by
  have hall : ∀ c ∈ cs, decide (c ≠ mark) = true := fun c hc =>
    decide_eq_true fun heq => h (heq ▸ hc)
  exact ⟨by rw [List.dropWhile_append_of_pos hall]; simp, List.dropWhile_eq_nil_iff.mpr hall⟩

end Mark

/-- The value of digits among which a point may stand. -/
def pointValue (cs : List Char) : ℚ :=
  let fraction := (cs.dropWhile (· ≠ '.')).tail
  digitsValue (cs.takeWhile (· ≠ '.') ++ fraction) * 10 ^ (-fraction.length : ℤ)

def exponentValue : List Char → ℤ
  | '-' :: cs => -digitsValue cs
  | '+' :: cs => digitsValue cs
  | cs => digitsValue cs

def textValue (cs : List Char) : ℚ :=
  pointValue (cs.takeWhile (· ≠ 'e')) * 10 ^ exponentValue (cs.dropWhile (· ≠ 'e')).tail

section Value

variable {whole fraction mantissa exponent : List Char}

theorem pointValue_point (h : '.' ∉ whole) : pointValue (whole ++ '.' :: fraction) =
    digitsValue (whole ++ fraction) * 10 ^ (-fraction.length : ℤ) := by
  rw [pointValue, (takeWhile_ne h fraction).1, (dropWhile_ne h fraction).1, List.tail_cons]

theorem pointValue_whole (h : '.' ∉ whole) : pointValue whole = digitsValue whole := by
  rw [pointValue, (takeWhile_ne h []).2, (dropWhile_ne h []).2]
  simp

theorem Digits.notMem_point {mark : Char} (hmark : mark ≠ '.') (hdigit : mark.isDigit = false)
    (hwhole : Digits whole) (hfraction : Digits fraction) : mark ∉ whole ++ '.' :: fraction := by
  simp [hwhole.notMem hdigit, hfraction.notMem hdigit, hmark]

theorem textValue_exponent (h : 'e' ∉ mantissa) : textValue (mantissa ++ 'e' :: exponent) =
    pointValue mantissa * 10 ^ exponentValue exponent := by
  rw [textValue, (takeWhile_ne h exponent).1, (dropWhile_ne h exponent).1, List.tail_cons]

theorem textValue_plain (h : 'e' ∉ mantissa) : textValue mantissa = pointValue mantissa := by
  rw [textValue, (takeWhile_ne h []).2, (dropWhile_ne h []).2]
  simp [exponentValue, digitsValue]

theorem textValue_point (hwhole : Digits whole) (hfraction : Digits fraction) :
    textValue (whole ++ '.' :: fraction) =
      digitsValue (whole ++ fraction) * 10 ^ (-fraction.length : ℤ) := by
  rw [textValue_plain (hwhole.notMem_point (by decide) rfl hfraction),
    pointValue_point (hwhole.notMem rfl)]

end Value

/-! ## Laid out decimals -/

namespace Layout

variable {digits : String}

theorem toList_zeros (n : Nat) : (zeros n).toList = List.replicate n '0' := by
  rw [zeros, toList_pushn, String.toList_empty, List.nil_append]

theorem exists_positional (h : Digits digits.toList) (hnonempty : digits.toList ≠ []) (whole : ℤ) :
    ∃ before after : List Char, (positional digits whole).toList = before ++ '.' :: after ∧
      before ≠ [] ∧ Digits before ∧ Digits after ∧
      (digitsValue (before ++ after) : ℚ) * 10 ^ (-after.length : ℤ) =
        digitsValue digits.toList * 10 ^ (whole - digits.length) := by
  have hzero : Digits ['0'] := .zeros 1
  unfold positional
  rw [← String.length_toList]
  split
  · next hwhole =>
      have hvalue : digitsValue (['0'] ++ (List.replicate (-whole).toNat '0' ++ digits.toList)) =
          digitsValue digits.toList := by
        rw [digitsValue_append, digitsValue_append, digitsValue_zeros]
        simp [digitsValue, Nat.ofDigitChars]
      have hlength : (-(List.replicate (-whole).toNat '0' ++ digits.toList).length : ℤ) =
          whole - digits.toList.length := by
        rw [List.length_append, List.length_replicate]
        omega
      refine ⟨['0'], List.replicate (-whole).toNat '0' ++ digits.toList, ?_, List.cons_ne_nil _ _,
        hzero, (Digits.zeros _).append h, by rw [hvalue, hlength]⟩
      simp [toList_zeros]
  · next hwhole =>
      dsimp only
      split
      · next hcount =>
          obtain ⟨k, hk⟩ := Int.eq_ofNat_of_zero_le (sub_nonneg.mpr hcount)
          have hvalue : digitsValue ((digits.toList ++ List.replicate k '0') ++ ['0']) =
              digitsValue digits.toList * 10 ^ k * 10 := by
            rw [digitsValue_append, digitsValue_append, digitsValue_zeros]
            simp [digitsValue, Nat.ofDigitChars]
          refine ⟨digits.toList ++ List.replicate k '0', ['0'], ?_,
            List.append_ne_nil_of_left_ne_nil hnonempty _, h.append (.zeros k), hzero, ?_⟩
          · rw [hk]
            simp [toList_zeros]
          · rw [hvalue, hk]
            push_cast
            simp
      · next hcount =>
          have hlength : (-(digits.toList.drop whole.toNat).length : ℤ) =
              whole - digits.toList.length := by
            rw [List.length_drop]
            omega
          have hbefore : digits.toList.take whole.toNat ≠ [] := by
            rw [ne_eq, List.take_eq_nil_iff, not_or]
            exact ⟨by omega, hnonempty⟩
          refine ⟨digits.toList.take whole.toNat, digits.toList.drop whole.toNat, ?_, hbefore,
            h.take _, h.drop _, by rw [List.take_append_drop, hlength]⟩
          simp [String.Slice.toString_eq]

theorem textValue_positional (h : Digits digits.toList) (hnonempty : digits.toList ≠ [])
    (whole : ℤ) : textValue (positional digits whole).toList =
      digitsValue digits.toList * 10 ^ (whole - digits.length) := by
  obtain ⟨before, after, htext, -, hbefore, hafter, hvalue⟩ := exists_positional h hnonempty whole
  rw [htext, textValue_point hbefore hafter, hvalue]

theorem exponentValue_digits {cs : List Char} (h : Digits cs) :
    exponentValue cs = digitsValue cs := by
  unfold exponentValue
  split
  · cases h _ (.head _)
  · cases h _ (.head _)
  · rfl

def exponentSign (layout : Layout) (exponent : ℤ) : String :=
  if exponent < 0 then "-" else if layout.plusSign then "+" else ""

theorem exponentValue_signed (layout : Layout) (exponent : ℤ) :
    exponentValue (layout.exponentSign exponent ++ toString exponent.natAbs).toList = exponent := by
  rw [String.toList_append, exponentSign]
  split
  · change (-(digitsValue (toString exponent.natAbs).toList : ℤ)) = exponent
    rw [digitsValue_toString]
    omega
  · split
    · change ((digitsValue (toString exponent.natAbs).toList : ℤ)) = exponent
      rw [digitsValue_toString]
      omega
    · change exponentValue (toString exponent.natAbs).toList = exponent
      rw [exponentValue_digits (.toString _), digitsValue_toString]
      omega

def mantissa (digits : String) : String :=
  let first := (digits.take 1).toString
  let others := (digits.drop 1).toString
  if others.isEmpty then first else first ++ "." ++ others

theorem scientific_eq (layout : Layout) (digits : String) (exponent : ℤ) :
    layout.scientific digits exponent =
      mantissa digits ++ "e" ++ layout.exponentSign exponent ++ toString exponent.natAbs := rfl

theorem toList_mantissa (digits : String) :
    (mantissa digits).toList = if digits.toList.drop 1 = [] then digits.toList
      else digits.toList.take 1 ++ '.' :: digits.toList.drop 1 := by
  have hothers : (digits.drop 1).toString.isEmpty = true ↔ digits.toList.drop 1 = [] := by
    rw [String.isEmpty_iff, ← String.toList_inj]
    simp [String.Slice.toString_eq]
  rw [mantissa]
  simp only [hothers]
  split
  · next hone =>
      have hshort : digits.toList.length ≤ 1 := List.drop_eq_nil_iff.mp hone
      simp [String.Slice.toString_eq, List.take_of_length_le hshort]
  · simp [String.Slice.toString_eq]

theorem notMem_mantissa (h : Digits digits.toList) : 'e' ∉ (mantissa digits).toList := by
  rw [toList_mantissa]
  split
  · exact h.notMem rfl
  · exact (h.take 1).notMem_point (by decide) rfl (h.drop 1)

theorem pointValue_mantissa (h : Digits digits.toList) (hnonempty : digits.toList ≠ []) :
    pointValue (mantissa digits).toList =
      digitsValue digits.toList * 10 ^ (1 - digits.length : ℤ) := by
  have hpos : 0 < digits.toList.length := List.length_pos_iff.mpr hnonempty
  rw [toList_mantissa, ← String.length_toList]
  split
  · next hothers =>
      have hlength : digits.toList.length = 1 := by
        have hzero := congrArg List.length hothers
        rw [List.length_drop, List.length_nil] at hzero
        omega
      rw [pointValue_whole (h.notMem rfl), hlength]
      simp
  · have hlength : (-(digits.toList.drop 1).length : ℤ) = 1 - digits.toList.length := by
      rw [List.length_drop]
      omega
    rw [pointValue_point ((h.take 1).notMem rfl), List.take_append_drop, hlength]

theorem toList_scientific (layout : Layout) (digits : String) (exponent : ℤ) :
    (layout.scientific digits exponent).toList = (mantissa digits).toList ++
      'e' :: (layout.exponentSign exponent ++ toString exponent.natAbs).toList := by
  rw [scientific_eq]
  simp

theorem textValue_scientific (h : Digits digits.toList) (hnonempty : digits.toList ≠ [])
    (layout : Layout) (exponent : ℤ) : textValue (layout.scientific digits exponent).toList =
      digitsValue digits.toList * 10 ^ (exponent + 1 - digits.length) := by
  have hexponent : (1 - digits.length : ℤ) + exponent = exponent + 1 - digits.length := by omega
  rw [toList_scientific, textValue_exponent (notMem_mantissa h), exponentValue_signed,
    pointValue_mantissa h hnonempty, mul_assoc, ← zpow_add₀ (by norm_num), hexponent]

/-! ## Finite values -/

def unsigned (layout : Layout) (x : Binary64) : String :=
  if x.isZero then "0.0"
  else
    let d := Decimal.shortest layout.tie x
    let digits := toString d.digits
    let leading : ℤ := digits.length - 1 + d.exponent
    if layout.plainFrom ≤ leading ∧ leading < layout.plainBelow then positional digits (leading + 1)
    else layout.scientific digits leading

section Finite

variable {layout : Layout} {x y : Binary64}

theorem render_eq (h : x.isFinite = true) :
    layout.render x = (if x.isNegative then "-" else "") ++ layout.unsigned x := by
  have hnan : x.isNaN = false := by simp_all [Binary64.isFinite, Binary64.isNaN]
  have hinfinite : x.isInfinite = false := by simp_all [Binary64.isFinite, Binary64.isInfinite]
  simp only [render, unsigned, hnan, hinfinite, Bool.false_eq_true, if_false]
  split <;> rfl

/-- A text that starts with a digit and has a point or an exponent. -/
structure Marked (cs : List Char) : Prop where
  starts : ∀ c ∈ cs.head?, c.isDigit = true
  marked : '.' ∈ cs ∨ 'e' ∈ cs

theorem marked_positional (h : Digits digits.toList) (hnonempty : digits.toList ≠ [])
    (whole : ℤ) : Marked (positional digits whole).toList := by
  obtain ⟨before, after, htext, hstart, hbefore, -⟩ := exists_positional h hnonempty whole
  rw [htext]
  exact ⟨hbefore.head hstart _, .inl (by simp)⟩

theorem marked_scientific (h : Digits digits.toList) (hnonempty : digits.toList ≠ [])
    (exponent : ℤ) : Marked (layout.scientific digits exponent).toList := by
  rw [toList_scientific]
  refine ⟨?_, .inr (by simp)⟩
  rw [toList_mantissa]
  split
  · exact h.head hnonempty _
  · rw [List.append_assoc]
    exact (h.take 1).head (by simpa using hnonempty) _

theorem marked_unsigned : Marked (layout.unsigned x).toList := by
  unfold unsigned
  split
  · exact ⟨by simp, by simp⟩
  · dsimp only
    split
    · exact marked_positional (.toString _) (toString_ne_nil _) _
    · exact marked_scientific (.toString _) (toString_ne_nil _) _

theorem textValue_unsigned : textValue (layout.unsigned x).toList =
    if x.isZero then 0 else (Decimal.shortest layout.tie x).value := by
  unfold unsigned
  split
  · have hzero : textValue (['0'] ++ '.' :: ['0']) = _ := textValue_point (.zeros 1) (.zeros 1)
    refine hzero.trans ?_
    simp [digitsValue, Nat.ofDigitChars]
  · extract_lets d digits leading
    have hdigits : Digits digits.toList := .toString _
    have hnonempty : digits.toList ≠ [] := toString_ne_nil _
    have hvalue : digitsValue digits.toList = d.digits := digitsValue_toString _
    have hexponent : leading + 1 - digits.length = d.exponent := by omega
    split
    · rw [textValue_positional hdigits hnonempty, hexponent, hvalue, Decimal.value]
    · rw [textValue_scientific hdigits hnonempty, hexponent, hvalue, Decimal.value]

theorem render_inj (hx : x.isFinite = true) (hy : y.isFinite = true)
    (h : layout.render x = layout.render y) : x = y := by
  rw [render_eq hx, render_eq hy] at h
  have hminus {z : Binary64} (hz : z.isNegative = false) (text : String) :
      (if z.isNegative then "-" else "") ++ layout.unsigned z ≠ "-" ++ text := by
    intro heq
    have hdigit : ('-').isDigit = true := by
      refine (marked_unsigned : Marked (layout.unsigned z).toList).starts _ ?_
      rw [hz] at heq
      have hlist := congrArg String.toList heq
      simp at hlist
      simp [hlist]
    cases hdigit
  have hsign : x.isNegative = y.isNegative := by
    cases hxsign : x.isNegative <;> cases hysign : y.isNegative
    · rfl
    · rw [hysign] at h
      exact absurd h (hminus hxsign _)
    · rw [hxsign] at h
      exact absurd h.symm (hminus hysign _)
    · rfl
  rw [hsign] at h
  have hunsigned : layout.unsigned x = layout.unsigned y := by
    have hlist := congrArg String.toList h
    rw [String.toList_append, String.toList_append] at hlist
    exact String.toList_inj.mp (List.append_cancel_left hlist)
  have hvalue := congrArg (fun text : String => textValue text.toList) hunsigned
  simp only [textValue_unsigned] at hvalue
  cases hxzero : x.isZero <;> cases hyzero : y.isZero <;>
    simp only [hxzero, hyzero, if_true, Bool.false_eq_true, if_false] at hvalue
  · exact Decimal.eq_of_value_shortest hxzero hyzero hsign hvalue
  · exact absurd hvalue (Decimal.value_shortest_pos hxzero).ne'
  · exact absurd hvalue.symm (Decimal.value_shortest_pos hyzero).ne'
  · simp only [Binary64.isZero, Bool.and_eq_true, beq_iff_eq] at hxzero hyzero
    exact Binary64.eq_of_fields hsign (hxzero.1.trans hyzero.1.symm) (hxzero.2.trans hyzero.2.symm)

end Finite

end Layout

end RpcContract
