import Mathlib.Data.List.TakeWhile
import Mathlib.Tactic.SplitIfs
import RpcContract.Text.Quoted

/-!
# Quoted text is unambiguous

No character is written as the start of another one, and none starts with the closing quote.  So
where a quoted text ends is seen from the text alone.  Control characters are written by others.
-/

namespace RpcContract.Text

theorem digitChar_inj : ∀ m < 16, ∀ n < 16, m.digitChar = n.digitChar → m = n := by decide

theorem digitChar_ne_brace : ∀ n < 16, n.digitChar ≠ '\x7d' := by decide

theorem hexDigits_of_lt {n : Nat} (h : n < 16) : hexDigits n = [n.digitChar] :=
  Nat.toDigits_of_lt_base h

theorem hexDigits_of_le {n : Nat} (h : 16 ≤ n) :
    hexDigits n = hexDigits (n / 16) ++ [(n % 16).digitChar] :=
  Nat.toDigits_of_base_le (by decide) h

theorem hexDigits_ne_nil (n : Nat) : hexDigits n ≠ [] := Nat.toDigits_ne_nil

theorem exists_of_mem_hexDigits {n : Nat} {c : Char} (h : c ∈ hexDigits n) :
    ∃ m < 16, c = m.digitChar := by
  induction n using Nat.strong_induction_on with
  | _ n ih =>
      rcases Nat.lt_or_ge n 16 with hless | hge
      · rw [hexDigits_of_lt hless, List.mem_singleton] at h
        exact ⟨n, hless, h⟩
      · rw [hexDigits_of_le hge, List.mem_append, List.mem_singleton] at h
        rcases h with hfront | hlast
        · exact ih (n / 16) (by omega) hfront
        · exact ⟨n % 16, Nat.mod_lt n (by decide), hlast⟩

theorem brace_not_mem_hexDigits (n : Nat) : '\x7d' ∉ hexDigits n := by
  intro h
  obtain ⟨m, hm, hdigit⟩ := exists_of_mem_hexDigits h
  exact digitChar_ne_brace m hm hdigit.symm

theorem hexDigits_inj {m n : Nat} (h : hexDigits m = hexDigits n) : m = n := by
  induction m using Nat.strong_induction_on generalizing n with
  | _ m ih =>
      rcases Nat.lt_or_ge m 16 with hm | hm <;> rcases Nat.lt_or_ge n 16 with hn | hn
      · rw [hexDigits_of_lt hm, hexDigits_of_lt hn] at h
        exact digitChar_inj m hm n hn (List.cons.inj h).1
      · rw [hexDigits_of_lt hm, hexDigits_of_le hn] at h
        have hlength := congrArg List.length h
        simp [hexDigits_ne_nil] at hlength
      · rw [hexDigits_of_le hm, hexDigits_of_lt hn] at h
        have hlength := congrArg List.length h
        simp [hexDigits_ne_nil] at hlength
      · rw [hexDigits_of_le hm, hexDigits_of_le hn] at h
        obtain ⟨hhigh, hlow⟩ := List.append_inj' h rfl
        have hquotient := ih (m / 16) (by omega) hhigh
        have hremainder := digitChar_inj (m % 16) (Nat.mod_lt m (by decide)) (n % 16)
          (Nat.mod_lt n (by decide)) (List.cons.inj hlow).1
        omega

/-! ## Characters -/

def ofShort? : Char → Option Char
  | '0' => some '\x00'
  | 't' => some '\t'
  | 'r' => some '\r'
  | 'n' => some '\n'
  | '"' => some '"'
  | '\\' => some '\\'
  | _ => none

/-- A character is written as itself, by a letter, or by its number. -/
inductive Writes (c : Char) : List Char → Prop
  | itself : c ≠ '"' → c ≠ '\\' → Writes c [c]
  | short (letter : Char) : ofShort? letter = some c → Writes c ['\\', letter]
  | number : Writes c ('\\' :: 'u' :: '\x7b' :: (hexDigits c.toNat ++ ['\x7d']))

theorem writes_quoteChar (c : Char) : Writes c (quoteChar c) := by
  unfold quoteChar
  split_ifs with hnull htab hreturn hline hquote hslash
  · exact .short '0' (congrArg some hnull.symm)
  · exact .short 't' (congrArg some htab.symm)
  · exact .short 'r' (congrArg some hreturn.symm)
  · exact .short 'n' (congrArg some hline.symm)
  · exact .short '"' (congrArg some hquote.symm)
  · exact .short '\\' (congrArg some hslash.symm)
  · exact .number
  · exact .itself hquote hslash

theorem Writes.append_ne {c : Char} {cs : List Char} (h : Writes c cs) (rest other : List Char) :
    cs ++ rest ≠ '"' :: other := by
  cases h with
  | itself hquote _ => exact fun heq => hquote (List.cons.inj heq).1
  | short letter _ => exact fun heq => absurd (List.cons.inj heq).1 (by decide)
  | number => exact fun heq => absurd (List.cons.inj heq).1 (by decide)

theorem hexDigits_append_inj {m n : Nat} {rest other : List Char}
    (h : hexDigits m ++ '\x7d' :: rest = hexDigits n ++ '\x7d' :: other) :
    m = n ∧ rest = other := by
  have htake (n : Nat) (rest : List Char) :
      (hexDigits n ++ '\x7d' :: rest).takeWhile (· != '\x7d') = hexDigits n := by
    have hall : ∀ c ∈ hexDigits n, (c != '\x7d') = true := fun c hc =>
      bne_iff_ne.mpr fun heq => brace_not_mem_hexDigits n (heq ▸ hc)
    rw [List.takeWhile_append_of_pos hall, List.takeWhile_cons_of_neg (by simp), List.append_nil]
  have hdigits : hexDigits m = hexDigits n := by rw [← htake m rest, h, htake]
  rw [hdigits] at h
  exact ⟨hexDigits_inj hdigits, (List.cons.inj (List.append_cancel_left h)).2⟩

theorem Writes.append_inj {c d : Char} {cs ds rest other : List Char} (hc : Writes c cs)
    (hd : Writes d ds) (h : cs ++ rest = ds ++ other) : c = d ∧ rest = other := by
  cases hc with
  | itself hquote hslash =>
      cases hd with
      | itself => exact List.cons.inj h
      | short letter => exact absurd (List.cons.inj h).1 hslash
      | number => exact absurd (List.cons.inj h).1 hslash
  | short letter hletter =>
      cases hd with
      | itself _ hslash => exact absurd (List.cons.inj h).1.symm hslash
      | short letter' hletter' =>
          obtain ⟨rfl, hrest⟩ := List.cons.inj (List.cons.inj h).2
          exact ⟨Option.some.inj (hletter.symm.trans hletter'), hrest⟩
      | number =>
          obtain ⟨rfl, -⟩ := List.cons.inj (List.cons.inj h).2
          cases hletter
  | number =>
      cases hd with
      | itself _ hslash => exact absurd (List.cons.inj h).1.symm hslash
      | short letter hletter =>
          obtain ⟨rfl, -⟩ := List.cons.inj (List.cons.inj h).2
          cases hletter
      | number =>
          have hbehind : (hexDigits c.toNat ++ ['\x7d']) ++ rest =
              (hexDigits d.toNat ++ ['\x7d']) ++ other :=
            (List.cons.inj (List.cons.inj (List.cons.inj h).2).2).2
          rw [List.append_assoc, List.append_assoc] at hbehind
          obtain ⟨hnumber, hrest⟩ := hexDigits_append_inj hbehind
          exact ⟨Char.toNat_inj.mp hnumber, hrest⟩

theorem le_toNat_digitChar : ∀ n < 16, 0x20 ≤ n.digitChar.toNat := by decide

theorem le_toNat_of_mem_quoteChar {c d : Char} (h : d ∈ quoteChar c) : 0x20 ≤ d.toNat := by
  have hshort (letter : Char) (hletter : 0x20 ≤ letter.toNat) (hmem : d ∈ ['\\', letter]) :
      0x20 ≤ d.toNat := by
    rw [List.mem_cons, List.mem_singleton] at hmem
    rcases hmem with rfl | rfl
    · decide
    · exact hletter
  unfold quoteChar at h
  split_ifs at h with hnull htab hreturn hline hquote hslash hnumber
  · exact hshort '0' (by decide) h
  · exact hshort 't' (by decide) h
  · exact hshort 'r' (by decide) h
  · exact hshort 'n' (by decide) h
  · exact hshort '"' (by decide) h
  · exact hshort '\\' (by decide) h
  · simp only [List.mem_append, List.mem_cons, List.not_mem_nil, or_false] at h
    rcases h with ((rfl | rfl | rfl) | hdigit) | rfl
    · decide
    · decide
    · decide
    · obtain ⟨m, hm, rfl⟩ := exists_of_mem_hexDigits hdigit
      exact le_toNat_digitChar m hm
    · decide
  · have hprintable : isPrintable c = true := by simp_all
    rw [List.mem_singleton.mp h]
    unfold isPrintable at hprintable
    split_ifs at hprintable with hlow
    · simpa using hprintable
    · omega

/-! ## Texts -/

/-- There are no control characters in quoted text, and so it is a part of one line. -/
theorem le_toNat_of_mem_quote {text : String} {d : Char} (h : d ∈ (quote text).toList) :
    0x20 ≤ d.toNat := by
  simp only [quote, String.toList_ofList, List.mem_append, List.mem_cons, List.not_mem_nil,
    or_false] at h
  rcases h with (rfl | htext) | rfl
  · decide
  · obtain ⟨c, -, hc⟩ := List.mem_flatMap.mp htext
    exact le_toNat_of_mem_quoteChar hc
  · decide

theorem flatMap_quoteChar_inj {cs ds rest other : List Char}
    (h : cs.flatMap quoteChar ++ '"' :: rest = ds.flatMap quoteChar ++ '"' :: other) :
    cs = ds ∧ rest = other := by
  induction cs generalizing ds with
  | nil =>
      cases ds with
      | nil => exact ⟨rfl, (List.cons.inj h).2⟩
      | cons d ds =>
          rw [List.flatMap_cons, List.append_assoc] at h
          exact absurd h.symm ((writes_quoteChar d).append_ne _ _)
  | cons c cs ih =>
      rw [List.flatMap_cons, List.append_assoc] at h
      cases ds with
      | nil => exact absurd h ((writes_quoteChar c).append_ne _ _)
      | cons d ds =>
          rw [List.flatMap_cons, List.append_assoc] at h
          obtain ⟨rfl, hlater⟩ := (writes_quoteChar c).append_inj (writes_quoteChar d) h
          obtain ⟨rfl, hrest⟩ := ih hlater
          exact ⟨rfl, hrest⟩

theorem quote_append_inj {a b : String} {rest other : List Char}
    (h : (quote a).toList ++ rest = (quote b).toList ++ other) : a = b ∧ rest = other := by
  rw [quote, quote, String.toList_ofList, String.toList_ofList, List.cons_append, List.cons_append,
    List.append_assoc, List.append_assoc] at h
  obtain ⟨htext, hrest⟩ := flatMap_quoteChar_inj (List.cons.inj h).2
  exact ⟨String.toList_injective htext, hrest⟩

end RpcContract.Text
