/-!
# Text as bytes

Text is written in UTF-8.  `Bytes.scan` reads bytes character by character; bytes that begin no
character, or break one off, are marked.  `decode?` reads bytes that hold no such place, and
`decodeLossy` puts the replacement character there.
-/

namespace RpcContract

abbrev Bytes := List UInt8

namespace Bytes

def encode (text : String) : Bytes := text.toUTF8.toList

/-- How many bytes follow a first byte, and between which bounds the first of them is. -/
def following (first : UInt8) : Option (Nat × UInt8 × UInt8) :=
  if first < 0x80 then some (0, 0x80, 0xBF)
  else if first < 0xC2 then none
  else if first < 0xE0 then some (1, 0x80, 0xBF)
  else if first = 0xE0 then some (2, 0xA0, 0xBF)
  else if first = 0xED then some (2, 0x80, 0x9F)
  else if first < 0xF0 then some (2, 0x80, 0xBF)
  else if first = 0xF0 then some (3, 0x90, 0xBF)
  else if first < 0xF4 then some (3, 0x80, 0xBF)
  else if first = 0xF4 then some (3, 0x80, 0x8F)
  else none

def continued : (count : Nat) → (low high : UInt8) → Bytes → Bytes
  | 0, _, _, _ => []
  | _, _, _, [] => []
  | count + 1, low, high, b :: rest =>
      if low ≤ b ∧ b ≤ high then b :: continued count 0x80 0xBF rest else []

def codePoint (first : UInt8) (tail : Bytes) : Nat :=
  let lead := match tail.length with
    | 0 => first.toNat
    | 1 => first.toNat % 0x20
    | 2 => first.toNat % 0x10
    | _ => first.toNat % 0x08
  tail.foldl (fun n b => n * 0x40 + b.toNat % 0x40) lead

/-- Characters, or nothing where bytes are no character. -/
def scanAt : (fuel : Nat) → Bytes → List (Option Char)
  | 0, _ | _, [] => []
  | fuel + 1, first :: rest =>
      match following first with
      | none => none :: scanAt fuel rest
      | some (count, low, high) =>
          let tail := continued count low high rest
          let c := if tail.length = count then some (Char.ofNat (codePoint first tail)) else none
          c :: scanAt fuel (rest.drop tail.length)

def scan (bytes : Bytes) : List (Option Char) := scanAt bytes.length bytes

def decode? (bytes : Bytes) : Option String := ((scan bytes).mapM id).map String.ofList

def decodeLossy (bytes : Bytes) : String :=
  String.ofList ((scan bytes).map fun c => c.getD '\uFFFD')

end Bytes

end RpcContract
