import RpcContract.Reading.Tree

/-!
# Reading JSON text

`Json.readTree` turns text into a tree that ends where the text breaks off, together with the
fault of what stands behind the value.  `Json.parse?` reads one whole value.
-/

namespace RpcContract.Json

private abbrev Chars := List Char

def isSpace (c : Char) : Bool := c = ' ' || c = '\n' || c = '\t' || c = '\r'

def skipSpace (cs : List Char) : List Char := cs.dropWhile isSpace

/-! ## Numbers -/

/-- Decimal digits are kept while the number they form fits 64 bits. -/
def fitsNext (significand digit : Nat) : Bool := significand * 10 + digit < 0x10000000000000000

def digitValue (c : Char) : Nat := c.toNat - '0'.toNat

/-- The significand and the exponent it is to be scaled by: digits that do not fit count as zeros
before the point and are dropped behind it. -/
structure Scanned where
  significand : Nat
  exponent : Int

def scanWhole (start : Scanned) : Chars → Scanned
  | [] => start
  | c :: rest =>
      if start.exponent = 0 ∧ fitsNext start.significand (digitValue c) then
        scanWhole ⟨start.significand * 10 + digitValue c, 0⟩ rest
      else scanWhole ⟨start.significand, start.exponent + 1⟩ rest

def scanFraction (full : Bool) (start : Scanned) : Chars → Scanned
  | [] => start
  | c :: rest =>
      if !full ∧ fitsNext start.significand (digitValue c) then
        scanFraction false ⟨start.significand * 10 + digitValue c, start.exponent - 1⟩ rest
      else scanFraction true start rest

/-- The product or quotient of a value and a power of ten that is itself rounded. -/
def scaleBy (x : Binary64) (exponent : Int) : Binary64 :=
  let power := Binary64.ofDecimal false 1 exponent.natAbs
  let (n, d) := x.toRatio
  let (pn, pd) := power.toRatio
  if exponent ≥ 0 then Binary64.nearest (n.natAbs * pn.natAbs) (d * pd)
  else Binary64.nearest (n.natAbs * pd) (d * pn.natAbs)

/-- A significand scaled by a power of ten, each step rounded; nothing beyond the largest value. -/
def scaleDecimal (s : Scanned) : Option Binary64 :=
  let start := Binary64.ofDecimal false s.significand 0
  let rec go : Nat → Binary64 → Int → Option Binary64
    | 0, _, _ => some .zero
    | steps + 1, x, exponent =>
        if x.isZero then some x
        else if exponent.natAbs ≤ 308 then
          let y := scaleBy x exponent
          if y.isInfinite then none else some y
        else if exponent ≥ 0 then none
        else go steps (scaleBy x (-308)) (exponent + 308)
  go 5 start s.exponent

def noDigits (rest : Chars) : Tree × Option Chars :=
  (.broken (if rest.isEmpty then .ended else .malformed), none)

def endNumber (negative : Bool) (s : Scanned) (rest : Chars) : Tree × Option Chars :=
  match scaleDecimal s with
  | some x => (.real (if negative then x.neg else x), some rest)
  | none => (.unreadable .malformed, some rest)

/-- Without fraction and exponent: an integer if it fits 64 bits. -/
def endWhole (negative : Bool) (s : Scanned) (rest : Chars) : Tree × Option Chars :=
  if s.exponent > 0 then endNumber negative s rest
  else if negative then
    if s.significand = 0 ∨ s.significand > 0x8000000000000000 then endNumber negative s rest
    else (.int (-(s.significand : Int)), some rest)
  else (.int s.significand, some rest)

def exponentSign : Chars → Bool × Chars
  | '+' :: rest => (false, rest)
  | '-' :: rest => (true, rest)
  | rest => (false, rest)

def readExponent (negative : Bool) (s : Scanned) (cs : Chars) : Tree × Option Chars :=
  let (down, cs) := exponentSign cs
  let digits := cs.takeWhile Char.isDigit
  let rest := cs.dropWhile Char.isDigit
  if digits.isEmpty then noDigits rest
  else
    let size := digits.foldl (fun n c => min (n * 10 + digitValue c) 100000) 0
    endNumber negative ⟨s.significand, s.exponent + (if down then -(size : Int) else size)⟩ rest

def readFraction (negative : Bool) (s : Scanned) (cs : Chars) : Tree × Option Chars :=
  let digits := cs.takeWhile Char.isDigit
  let rest := cs.dropWhile Char.isDigit
  if digits.isEmpty then noDigits rest
  else
    let s := scanFraction (s.exponent > 0) s digits
    match rest with
    | 'e' :: rest | 'E' :: rest => readExponent negative s rest
    | rest => endNumber negative s rest

/-- What follows a number's sign: the value's tree and the rest of the text, if it goes on. -/
def readNumber (negative : Bool) (cs : Chars) : Tree × Option Chars :=
  let whole := cs.takeWhile Char.isDigit
  let rest := cs.dropWhile Char.isDigit
  if whole.isEmpty then noDigits rest
  else if whole.length > 1 && whole.head? == some '0' then (.broken .malformed, none)
  else
    let s := scanWhole ⟨0, 0⟩ whole
    match rest with
    | '.' :: rest => readFraction negative s rest
    | 'e' :: rest | 'E' :: rest => readExponent negative s rest
    | rest => endWhole negative s rest

/-! ## Strings -/

def hexValue? (c : Char) : Option Nat :=
  if '0' ≤ c ∧ c ≤ '9' then some (c.toNat - '0'.toNat)
  else if 'a' ≤ c ∧ c ≤ 'f' then some (c.toNat - 'a'.toNat + 10)
  else if 'A' ≤ c ∧ c ≤ 'F' then some (c.toNat - 'A'.toNat + 10)
  else none

def hex4? (a b c d : Char) : Option Nat := do
  return ((← hexValue? a) * 16 + (← hexValue? b)) * 256 + (← hexValue? c) * 16 + (← hexValue? d)

/-- What follows a backslash: a character, or none where half of a pair stands alone, and the
rest of the text. -/
def readEscape : Chars → Except Fault (Option Char × Chars)
  | 'u' :: a :: b :: c :: d :: rest =>
      match hex4? a b c d with
      | none => throw .malformed
      | some high =>
          if 0xDC00 ≤ high ∧ high ≤ 0xDFFF then pure (none, rest)
          else if 0xD800 ≤ high ∧ high ≤ 0xDBFF then
            match rest with
            | '\\' :: 'u' :: e :: f :: g :: h :: rest' =>
                match hex4? e f g h with
                | none => throw .malformed
                | some low =>
                    if 0xDC00 ≤ low ∧ low ≤ 0xDFFF then
                      pure (some (Char.ofNat (0x10000 + (high - 0xD800) * 0x400 + (low - 0xDC00))),
                        rest')
                    else pure (none, rest')
            | _ => pure (none, rest)
          else pure (some (Char.ofNat high), rest)
  | 'u' :: _ => throw .ended
  | '"' :: rest => pure (some '"', rest)
  | '\\' :: rest => pure (some '\\', rest)
  | '/' :: rest => pure (some '/', rest)
  | 'b' :: rest => pure (some '\x08', rest)
  | 'f' :: rest => pure (some '\x0c', rest)
  | 'n' :: rest => pure (some '\n', rest)
  | 'r' :: rest => pure (some '\r', rest)
  | 't' :: rest => pure (some '\t', rest)
  | _ :: _ => throw .malformed
  | [] => throw .ended

/-- What follows the opening quote: the characters in reverse, whether all of them have a value,
and what stands behind the closing quote; `fuel` bounds the steps. -/
def readString : Nat → List Char → Bool → Chars → Except Fault (List Char × Bool × Chars)
  | 0, _, _, _ => throw .ended
  | _ + 1, _, _, [] => throw .ended
  | _ + 1, acc, whole, '"' :: rest => pure (acc, whole, rest)
  | fuel + 1, acc, whole, c :: rest =>
      if c = '\\' then do
        match ← readEscape rest with
        | (some c, rest) => readString fuel (c :: acc) whole rest
        | (none, rest) => readString fuel acc false rest
      else if c.toNat < 0x20 then throw .malformed
      else readString fuel (c :: acc) whole rest

def readQuoted (fuel : Nat) (cs : Chars) : Tree × Option Chars :=
  match readString fuel [] true cs with
  | .ok (acc, true, rest) => (.str (String.ofList acc.reverse), some rest)
  | .ok (_, false, rest) => (.unreadable .malformed, some rest)
  | .error fault => (.broken fault, none)

/-! ## Values -/

def readWord (tree : Tree) : Chars → Chars → Tree × Option Chars
  | [], rest => (tree, some rest)
  | _ :: _, [] => (.broken .ended, none)
  | w :: word, c :: rest =>
      if w = c then readWord tree word rest else (.broken .malformed, none)

mutual

/-- One value and the rest of the text, if it can be followed; `fuel` bounds the steps. -/
def readValue : Nat → Chars → Tree × Option Chars
  | 0, _ => (.broken .malformed, none)
  | fuel + 1, cs =>
      match skipSpace cs with
      | [] => (.broken .ended, none)
      | 'n' :: rest => readWord .null "ull".toList rest
      | 't' :: rest => readWord (.bool true) "rue".toList rest
      | 'f' :: rest => readWord (.bool false) "alse".toList rest
      | '"' :: rest => readQuoted fuel rest
      | '-' :: rest => readNumber true rest
      | '[' :: rest =>
          match skipSpace rest with
          | ']' :: rest => (.seq [] none, some rest)
          | [] => (.seq [] (some .ended), none)
          | rest =>
              let (items, stop, rest) := readItems fuel rest
              (.seq items stop, rest)
      | '\x7b' :: rest =>
          match skipSpace rest with
          | '\x7d' :: rest => (.map [] none, some rest)
          | [] => (.map [] (some .ended), none)
          | rest =>
              let (fields, stop, rest) := readFields fuel rest
              (.map fields stop, rest)
      | c :: rest =>
          if c.isDigit then readNumber false (c :: rest) else (.broken .malformed, none)

def readItems : Nat → Chars → List Tree × Option Fault × Option Chars
  | 0, _ => ([], some .malformed, none)
  | fuel + 1, cs =>
      match readValue fuel cs with
      | (item, none) => ([item], none, none)
      | (item, some rest) =>
          match skipSpace rest with
          | [] => ([item], some .ended, none)
          | ']' :: rest => ([item], none, some rest)
          | ',' :: rest =>
              match skipSpace rest with
              | ']' :: _ => ([item], some .malformed, none)
              | rest =>
                  let (items, stop, rest) := readItems fuel rest
                  (item :: items, stop, rest)
          | _ => ([item], some .malformed, none)

def readFields : Nat → Chars → List (String × Tree) × Option Fault × Option Chars
  | 0, _ => ([], some .malformed, none)
  | fuel + 1, cs =>
      match skipSpace cs with
      | '"' :: rest =>
          match readQuoted fuel rest with
          | (.str key, some rest) =>
              match skipSpace rest with
              | [] => ([], some .ended, none)
              | ':' :: rest =>
                  match readValue fuel rest with
                  | (value, none) => ([(key, value)], none, none)
                  | (value, some rest) =>
                      match skipSpace rest with
                      | [] => ([(key, value)], some .ended, none)
                      | '\x7d' :: rest => ([(key, value)], none, some rest)
                      | ',' :: rest =>
                          match skipSpace rest with
                          | [] => ([(key, value)], some .ended, none)
                          | rest =>
                              let (fields, stop, rest) := readFields fuel rest
                              ((key, value) :: fields, stop, rest)
                      | _ => ([(key, value)], some .malformed, none)
              | _ => ([], some .malformed, none)
          | (.broken fault, _) => ([], some fault, none)
          | _ => ([], some .malformed, none)
      | _ => ([], some .malformed, none)

end

def readTree (text : String) : Tree × Option Fault :=
  let cs := text.toList
  match readValue (2 * cs.length + 2) cs with
  | (tree, none) => (tree, none)
  | (tree, some rest) => (tree, if (skipSpace rest).isEmpty then none else some .malformed)

def readText {α : Type} (read : Notation → Tree → Except ReadError α) (text : String) :
    Except ReadError α := do
  let (tree, behind) := readTree text
  let value ← read .jsonText tree
  Tree.stopAt behind
  pure value

def parse (text : String) : Except ReadError Json :=
  readText (fun _ tree => tree.toJson 128) text

end RpcContract.Json
