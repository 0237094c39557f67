import RpcContract.Decimal.Layout

/-!
# The characters of decimals

A finite value is written with digits, a point, an exponent sign and plus and minus signs, and with
nothing else.
-/

namespace RpcContract.Layout

def IsNumeric (c : Char) : Prop := c.isDigit = true ∨ c ∈ ['.', 'e', '+', '-']

instance (c : Char) : Decidable (IsNumeric c) := inferInstanceAs (Decidable (_ ∨ _))

def Numeric (text : String) : Prop := ∀ c ∈ text.toList, IsNumeric c

instance (text : String) : Decidable (Numeric text) :=
  List.decidableBAll IsNumeric text.toList

namespace Numeric

variable {text other : String}

theorem append (h : Numeric text) (hother : Numeric other) : Numeric (text ++ other) := by
  intro c hc
  rw [String.toList_append, List.mem_append] at hc
  exact hc.elim (h c) (hother c)

theorem take (h : Numeric text) (n : Nat) : Numeric (text.take n).toString := by
  intro c hc
  simp only [String.Slice.toString_eq, String.toList_copy_take] at hc
  exact h c (List.mem_of_mem_take hc)

theorem drop (h : Numeric text) (n : Nat) : Numeric (text.drop n).toString := by
  intro c hc
  simp only [String.Slice.toString_eq, String.toList_copy_drop] at hc
  exact h c (List.mem_of_mem_drop hc)

end Numeric

theorem numeric_toString (n : Nat) : Numeric (toString n) := by
  intro c hc
  rw [Nat.toString_eq_repr, Nat.toList_repr] at hc
  exact .inl (Nat.isDigit_of_mem_toDigits (by decide) (by decide) hc)

theorem toList_pushn (text : String) (c : Char) (n : Nat) :
    (text.pushn c n).toList = text.toList ++ List.replicate n c := by
  unfold String.pushn
  induction n with
  | zero => simp [Nat.repeat]
  | succ n ih => simp [Nat.repeat, ih, List.replicate_succ']

theorem numeric_zeros (n : Nat) : Numeric (zeros n) := by
  intro c hc
  rw [zeros, toList_pushn, String.toList_empty, List.nil_append] at hc
  rw [List.eq_of_mem_replicate hc]
  decide

theorem numeric_positional {digits : String} (h : Numeric digits) (whole : Int) :
    Numeric (positional digits whole) := by
  unfold positional
  split
  · have hstart : Numeric "0." := by decide
    exact (hstart.append (numeric_zeros _)).append h
  · dsimp only
    split
    · exact (h.append (numeric_zeros _)).append (by decide)
    · have hpoint : Numeric "." := by decide
      exact ((h.take _).append hpoint).append (h.drop _)

theorem numeric_scientific (layout : Layout) {digits : String} (h : Numeric digits)
    (exponent : Int) : Numeric (layout.scientific digits exponent) := by
  have hmantissa : Numeric (if (digits.drop 1).toString.isEmpty then (digits.take 1).toString
      else (digits.take 1).toString ++ "." ++ (digits.drop 1).toString) := by
    split
    · exact h.take 1
    · exact ((h.take 1).append (by decide)).append (h.drop 1)
  have hsign : Numeric (if exponent < 0 then "-" else if layout.plusSign then "+" else "") := by
    split
    · decide
    · split <;> decide
  exact ((hmantissa.append (by decide)).append hsign).append (numeric_toString _)

theorem numeric_render (layout : Layout) {x : Binary64} (h : x.isFinite = true) :
    Numeric (layout.render x) := by
  have hnan : x.isNaN = false := by simp_all [Binary64.isFinite, Binary64.isNaN]
  have hinfinite : x.isInfinite = false := by simp_all [Binary64.isFinite, Binary64.isInfinite]
  have hsign : Numeric (if x.isNegative then "-" else "") := by split <;> decide
  simp only [render, hnan, hinfinite, Bool.false_eq_true, if_false]
  split
  · exact hsign.append (by decide)
  · refine hsign.append ?_
    split
    · exact numeric_positional (numeric_toString _) _
    · exact numeric_scientific layout (numeric_toString _) _

end RpcContract.Layout
