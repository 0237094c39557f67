import RpcContract.Proofs.Decimal.Layout
import RpcContract.Proofs.Json.Quoted

/-!
# Compact text stands on one line

Control characters occur in strings and keys alone, and there each of them is escaped.
-/

namespace RpcContract.Json

def Unbroken (text : String) : Prop := ∀ c ∈ text.toList, 0x20 ≤ c.toNat

instance (text : String) : Decidable (Unbroken text) :=
  List.decidableBAll (fun c : Char => 0x20 ≤ c.toNat) text.toList

namespace Unbroken

variable {text other : String}

theorem append (h : Unbroken text) (hother : Unbroken other) : Unbroken (text ++ other) := by
  intro c hc
  rw [String.toList_append, List.mem_append] at hc
  exact hc.elim (h c) (hother c)

theorem newline_notMem (h : Unbroken text) : '\n' ∉ text.toList := fun hmem =>
  absurd (h '\n' hmem) (by decide)

end Unbroken

/-! ## Strings -/

theorem unbroken_quote (text : String) : Unbroken (quote text) := by
  intro c hc
  simp only [quote, String.toList_ofList, List.cons_append, List.mem_cons, List.mem_append,
    List.mem_flatMap, List.not_mem_nil, or_false] at hc
  rcases hc with rfl | ⟨d, -, hd⟩ | rfl
  · decide
  · exact le_toNat_of_mem_escapeChar hd
  · decide

/-! ## Values -/

theorem unbroken_toString (n : Nat) : Unbroken (toString n) := by
  intro c hc
  rw [Nat.toString_eq_repr, Nat.toList_repr] at hc
  have hdigit := Nat.isDigit_of_mem_toDigits (by decide) (by decide) hc
  have hrange := Char.isDigit_iff_toNat.mp hdigit
  simp at hrange
  omega

theorem unbroken_toString_int (n : Int) : Unbroken (toString n) := by
  cases n with
  | ofNat n => exact unbroken_toString n
  | negSucc n =>
      have hminus : Unbroken "-" := by decide
      exact hminus.append (unbroken_toString (n + 1))

theorem unbroken_render (layout : Layout) {x : Binary64} (h : x.isFinite = true) :
    Unbroken (layout.render x) := by
  intro c hc
  rcases layout.numeric_render h c hc with hdigit | hsign
  · have hrange := Char.isDigit_iff_toNat.mp hdigit
    simp at hrange
    omega
  · simp only [List.mem_cons, List.not_mem_nil, or_false] at hsign
    rcases hsign with rfl | rfl | rfl | rfl <;> decide

theorem unbroken_scalarText (value : Json) : Unbroken value.scalarText := by
  cases value with
  | null => decide
  | bool b => cases b <;> decide
  | int n => exact unbroken_toString_int n
  | real x =>
      rw [scalarText]
      split
      · exact unbroken_render numberLayout ‹_›
      · decide
  | str text => exact unbroken_quote text
  | arr items =>
      have hempty : Unbroken "[]" := by decide
      exact hempty
  | obj fields =>
      have hempty : Unbroken "\x7b\x7d" := by decide
      exact hempty

mutual

theorem unbroken_compact : (value : Json) → Unbroken value.compact
  | .arr items => by
      have hopen : Unbroken "[" := by decide
      exact (hopen.append (unbroken_compactItems items)).append (by decide)
  | .obj fields => by
      have hopen : Unbroken "\x7b" := by decide
      exact (hopen.append (unbroken_compactFields fields)).append (by decide)
  | .null => unbroken_scalarText .null
  | .bool b => unbroken_scalarText (.bool b)
  | .int n => unbroken_scalarText (.int n)
  | .real x => unbroken_scalarText (.real x)
  | .str text => unbroken_scalarText (.str text)

theorem unbroken_compactItems : (items : List Json) → Unbroken (compactItems items)
  | [] => by decide
  | [item] => unbroken_compact item
  | item :: next :: rest =>
      ((unbroken_compact item).append (by decide)).append (unbroken_compactItems (next :: rest))

theorem unbroken_compactFields : (fields : List (String × Json)) →
    Unbroken (compactFields fields)
  | [] => by decide
  | [(key, value)] =>
      ((unbroken_quote key).append (by decide)).append (unbroken_compact value)
  | (key, value) :: next :: rest =>
      ((((unbroken_quote key).append (by decide)).append (unbroken_compact value)).append
        (by decide)).append (unbroken_compactFields (next :: rest))

end

end RpcContract.Json
