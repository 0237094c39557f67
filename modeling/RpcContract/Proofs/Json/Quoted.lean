import RpcContract.Json.Printer
import RpcContract.Json.Text

/-!
# Quoted text

A character stands in quotes as itself or behind a backslash, and never as a control character.
Either way reading gives it back, so that quoted text reads as the text that was quoted.
-/

namespace RpcContract.Json

/-! ## Single characters -/

theorem le_toNat_hexDigit {n : Nat} (h : n < 16) : 0x20 ≤ (hexDigit n).toNat := by
  have hall : ∀ m : Fin 16, 0x20 ≤ (hexDigit m).toNat := by decide
  exact hall ⟨n, h⟩

theorem hex4?_control {n : Nat} (h : n < 0x20) :
    hex4? '0' '0' (hexDigit (n / 16)) (hexDigit (n % 16)) = some n := by
  have hall : ∀ m : Fin 0x20,
      hex4? '0' '0' (hexDigit (m / 16)) (hexDigit (m % 16)) = some m.val := by decide
  exact hall ⟨n, h⟩

theorem readEscape_control {c : Char} (h : c.toNat < 0x20) (rest : List Char) :
    readEscape ('u' :: '0' :: '0' :: hexDigit (c.toNat / 16) :: hexDigit (c.toNat % 16) :: rest) =
      .ok (some c, rest) := by
  have hlow : ¬ (0xDC00 ≤ c.toNat ∧ c.toNat ≤ 0xDFFF) := by omega
  have hhigh : ¬ (0xD800 ≤ c.toNat ∧ c.toNat ≤ 0xDBFF) := by omega
  simp only [readEscape, hex4?_control h, if_neg hlow, if_neg hhigh, Char.ofNat_toNat]
  rfl

theorem escapeChar_cases (c : Char) :
    (escapeChar c = [c] ∧ 0x20 ≤ c.toNat ∧ c ≠ '"' ∧ c ≠ '\\') ∨
      ∃ tail, escapeChar c = '\\' :: tail ∧ (∀ d ∈ tail, 0x20 ≤ d.toNat) ∧
        ∀ rest, readEscape (tail ++ rest) = .ok (some c, rest) := by
  by_cases hcontrol : c ∈ ['"', '\\', '\x08', '\t', '\n', '\x0c', '\r']
  · right
    simp only [List.mem_cons, List.not_mem_nil, or_false] at hcontrol
    rcases hcontrol with rfl | rfl | rfl | rfl | rfl | rfl | rfl <;>
      exact ⟨_, rfl, List.forall_mem_singleton.mpr (by decide), fun _ => rfl⟩
  simp only [List.mem_cons, List.not_mem_nil, or_false, not_or] at hcontrol
  obtain ⟨hquote, hslash, hb, ht, hn, hf, hr⟩ := hcontrol
  rw [escapeChar, if_neg hquote, if_neg hslash, if_neg hb, if_neg ht, if_neg hn, if_neg hf,
    if_neg hr]
  by_cases hlow : c.toNat < 0x20
  · right
    rw [if_pos hlow]
    refine ⟨_, rfl, ?_, readEscape_control hlow⟩
    have hfirst := le_toNat_hexDigit (n := c.toNat / 16) (by omega)
    have hsecond := le_toNat_hexDigit (n := c.toNat % 16) (by omega)
    simpa using ⟨hfirst, hsecond⟩
  · left
    rw [if_neg hlow]
    exact ⟨rfl, by omega, hquote, hslash⟩

theorem le_toNat_of_mem_escapeChar {c d : Char} (h : d ∈ escapeChar c) : 0x20 ≤ d.toNat := by
  obtain ⟨hkept, hle, -⟩ | ⟨tail, hescaped, htail, -⟩ := escapeChar_cases c
  · rw [hkept, List.mem_singleton] at h
    exact h ▸ hle
  · rw [hescaped, List.mem_cons] at h
    rcases h with rfl | hd
    · decide
    · exact htail d hd

/-! ## Reading what is quoted -/

theorem toList_quote (text : String) :
    (quote text).toList = '"' :: (text.toList.flatMap escapeChar ++ ['"']) := by
  simp [quote]

theorem readString_escapeChar (fuel : Nat) (acc : List Char) (whole : Bool) (c : Char)
    (rest : List Char) :
    readString (fuel + 1) acc whole (escapeChar c ++ rest) =
      readString fuel (c :: acc) whole rest := by
  obtain ⟨hkept, hle, hquote, hslash⟩ | ⟨tail, hescaped, -, hread⟩ := escapeChar_cases c
  · have hcontrol : ¬ c.toNat < 0x20 := by omega
    rw [hkept, List.singleton_append, readString.eq_4 _ _ _ _ _ (fun h => hquote h),
      if_neg hslash, if_neg hcontrol]
  · rw [hescaped, List.cons_append, readString.eq_4 _ _ _ _ _ (by decide), if_pos rfl, hread]
    rfl

theorem readString_flatMap_escapeChar {fuel : Nat} (cs acc : List Char) (whole : Bool)
    (rest : List Char) (h : cs.length < fuel) :
    readString fuel acc whole (cs.flatMap escapeChar ++ '"' :: rest) =
      .ok (cs.reverse ++ acc, whole, rest) := by
  induction cs generalizing fuel acc with
  | nil =>
      obtain ⟨fuel, rfl⟩ := Nat.exists_eq_add_of_lt h
      simp [readString]
      rfl
  | cons c cs ih =>
      obtain ⟨fuel, rfl⟩ := Nat.exists_eq_add_of_lt h
      have hlength : cs.length < cs.length + 1 + fuel := by omega
      have hrest := ih (c :: acc) hlength
      rw [List.flatMap_cons, List.append_assoc, List.length_cons, readString_escapeChar, hrest,
        List.reverse_cons, List.append_assoc, List.singleton_append]

theorem readQuoted_quoted {fuel : Nat} (text : String) (rest : List Char)
    (h : text.toList.length < fuel) :
    readQuoted fuel (text.toList.flatMap escapeChar ++ '"' :: rest) = (.str text, some rest) := by
  simp [readQuoted, readString_flatMap_escapeChar _ _ _ _ h]

end RpcContract.Json
