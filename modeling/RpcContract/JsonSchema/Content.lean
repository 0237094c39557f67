import RpcContract.Json.Text

/-!
# Encoded content

Texts that hold encoded bytes, or a document of some media type.
-/

namespace RpcContract.JsonSchema.Content

private def value? (c : Char) : Option Nat :=
  if 'A' ≤ c ∧ c ≤ 'Z' then some (c.toNat - 'A'.toNat)
  else if 'a' ≤ c ∧ c ≤ 'z' then some (c.toNat - 'a'.toNat + 26)
  else if c.isDigit then some (c.toNat - '0'.toNat + 52)
  else if c = '+' then some 62
  else if c = '/' then some 63
  else none

/-- The bytes of groups of four characters; unused bits of the last group are zero. -/
private def bytes? : List Char → Option (List UInt8)
  | [] => some []
  | [a, b, '=', '='] => do
      let x ← value? a
      let y ← value? b
      if y % 16 = 0 then some [UInt8.ofNat (4 * x + y / 16)] else none
  | [a, b, c, '='] => do
      let x ← value? a
      let y ← value? b
      let z ← value? c
      if z % 4 = 0 then
        some [UInt8.ofNat (4 * x + y / 16), UInt8.ofNat (16 * (y % 16) + z / 4)]
      else none
  | a :: b :: c :: d :: rest => do
      let x ← value? a
      let y ← value? b
      let z ← value? c
      let w ← value? d
      let tail ← bytes? rest
      some (UInt8.ofNat (4 * x + y / 16) :: UInt8.ofNat (16 * (y % 16) + z / 4) ::
        UInt8.ofNat (64 * (z % 4) + w) :: tail)
  | _ => none

/-- The text that an encoding stands for, if the encoding is known; `none` inside for a text that
is not encoded this way. -/
def decode? (encoding text : String) : Option (Option String) :=
  if encoding = "base64" then
    some ((bytes? text.toList).bind fun bytes => String.fromUTF8? ⟨bytes.toArray⟩)
  else none

def isOfType? (mediaType text : String) : Option Bool :=
  if mediaType = "application/json" then
    some (match Json.parse text with
      | .ok _ => true
      | .error _ => false)
  else none

end RpcContract.JsonSchema.Content
