import RpcContract.Address.Percent

/-!
# Reading percent-encoded text

`Percent.decode?` takes percent-encoded text apart into bytes and reads these as text.  It undoes
`Percent.encode`, whose results hold nothing but unreserved characters and percent signs.
-/

namespace RpcContract.Percent

def hexValue? (c : Char) : Option Nat := (List.range 16).find? fun n => hexDigit n = c.toUpper

def bytes? : List Char → Option (List UInt8)
  | [] => some []
  | '%' :: high :: low :: rest => do
      let high ← hexValue? high
      let low ← hexValue? low
      let rest ← bytes? rest
      return UInt8.ofNat (16 * high + low) :: rest
  | c :: rest => do
      if c = '%' then none
      let rest ← bytes? rest
      return String.utf8EncodeChar c ++ rest

def decode? (cs : List Char) : Option String := do
  let bytes ← bytes? cs
  let decoded ← bytes.toByteArray.utf8Decode?
  return String.ofList decoded.toList

/-! ## Bytes -/

theorem hexValue?_hexDigit {n : Nat} (h : n < 16) : hexValue? (hexDigit n) = some n := by
  have hall : ∀ n < 16, hexValue? (hexDigit n) = some n := by decide
  exact hall n h

theorem bytes?_escapeByte (byte : UInt8) (rest : List Char) :
    bytes? (escapeByte byte ++ rest) = (bytes? rest).map (byte :: ·) := by
  have hlt : byte.toNat < 256 := byte.toNat_lt
  have hbyte : UInt8.ofNat (16 * (byte.toNat / 16) + byte.toNat % 16) = byte := by
    rw [Nat.div_add_mod, UInt8.ofNat_toNat]
  rw [escapeByte, List.cons_append, List.cons_append, List.cons_append, List.nil_append, bytes?,
    hexValue?_hexDigit (by omega), hexValue?_hexDigit (by omega)]
  cases bytes? rest with
  | none => rfl
  | some rest => exact congrArg (fun byte => some (byte :: rest)) hbyte

theorem bytes?_flatMap_escapeByte (bytes : List UInt8) (rest : List Char) :
    bytes? (bytes.flatMap escapeByte ++ rest) = (bytes? rest).map (bytes ++ ·) := by
  induction bytes with
  | nil => simp
  | cons byte bytes ih =>
      rw [List.flatMap_cons, List.append_assoc, bytes?_escapeByte, ih, Option.map_map]
      rfl

theorem bytes?_cons_of_ne {c : Char} (h : c ≠ '%') (rest : List Char) :
    bytes? (c :: rest) = (bytes? rest).map (String.utf8EncodeChar c ++ ·) := by
  have hcons : bytes? (c :: rest) = do
      if c = '%' then none
      let rest ← bytes? rest
      return String.utf8EncodeChar c ++ rest := by
    rw [bytes?.eq_def]
    split
    · contradiction
    · simp_all
    · simp_all
  rw [hcons, if_neg h]
  cases bytes? rest <;> rfl

theorem ne_percent_of_isUnreserved {c : Char} (h : isUnreserved c = true) : c ≠ '%' := by
  rintro rfl
  exact absurd h (by decide)

theorem bytes?_escapeChar (c : Char) (rest : List Char) :
    bytes? (escapeChar c ++ rest) = (bytes? rest).map (String.utf8EncodeChar c ++ ·) := by
  unfold escapeChar
  split
  next h => exact bytes?_cons_of_ne (ne_percent_of_isUnreserved h) rest
  next => exact bytes?_flatMap_escapeByte _ rest

theorem bytes?_flatMap_escapeChar (cs : List Char) :
    bytes? (cs.flatMap escapeChar) = some (cs.flatMap String.utf8EncodeChar) := by
  induction cs with
  | nil => rfl
  | cons c cs ih => rw [List.flatMap_cons, bytes?_escapeChar, ih, Option.map_some,
      List.flatMap_cons]

theorem decode?_encode (text : String) : decode? (encode text).toList = some text := by
  rw [encode, String.toList_ofList, decode?, bytes?_flatMap_escapeChar]
  have hdecoded := List.utf8Decode?_utf8Encode (l := text.toList)
  rw [List.utf8Encode] at hdecoded
  simp [hdecoded]

theorem encode_injective {text other : String} (h : encode text = encode other) :
    text = other := by
  have hdecoded := decode?_encode text
  rw [h, decode?_encode] at hdecoded
  exact (Option.some.inj hdecoded).symm

/-! ## Characters -/

theorem isUnreserved_hexDigit {n : Nat} (h : n < 16) : isUnreserved (hexDigit n) = true := by
  have hall : ∀ n < 16, isUnreserved (hexDigit n) = true := by decide
  exact hall n h

theorem of_mem_encode {c : Char} {text : String} (h : c ∈ (encode text).toList) :
    isUnreserved c = true ∨ c = '%' := by
  rw [encode, String.toList_ofList] at h
  obtain ⟨original, -, hc⟩ := List.mem_flatMap.mp h
  unfold escapeChar at hc
  split at hc
  next hunreserved =>
    rw [List.mem_singleton.mp hc]
    exact .inl hunreserved
  next =>
    obtain ⟨byte, -, hc⟩ := List.mem_flatMap.mp hc
    have hlt : byte.toNat < 256 := byte.toNat_lt
    simp only [escapeByte, List.mem_cons, List.not_mem_nil, or_false] at hc
    rcases hc with rfl | rfl | rfl
    · exact .inr rfl
    · exact .inl (isUnreserved_hexDigit (by omega))
    · exact .inl (isUnreserved_hexDigit (by omega))

theorem encode_eq_self {text : String} (h : ∀ c ∈ text.toList, isUnreserved c = true) :
    encode text = text := by
  have hsame (cs : List Char) (h : ∀ c ∈ cs, isUnreserved c = true) :
      cs.flatMap escapeChar = cs := by
    induction cs with
    | nil => rfl
    | cons c cs ih =>
        obtain ⟨hc, hcs⟩ := List.forall_mem_cons.mp h
        rw [List.flatMap_cons, ih hcs, escapeChar, if_pos hc, List.singleton_append]
  rw [encode, hsame _ h, String.ofList_toList]

@[simp] theorem encode_empty : encode "" = "" := rfl

theorem encode_eq_empty_iff {text : String} : encode text = "" ↔ text = "" :=
  ⟨fun h => encode_injective h, fun h => h ▸ encode_empty⟩

end RpcContract.Percent
