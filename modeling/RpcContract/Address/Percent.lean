/-!
# Percent-encoding

Letters, digits and `-`, `_`, `.`, `~` stand for themselves; every byte of any other character is
written as a percent sign and two upper-case hexadecimal digits.
-/

namespace RpcContract.Percent

def isUnreserved (c : Char) : Bool :=
  c.isAlphanum || c = '-' || c = '_' || c = '.' || c = '~'

def hexDigit (n : Nat) : Char := (Nat.digitChar n).toUpper

def escapeByte (byte : UInt8) : List Char :=
  ['%', hexDigit (byte.toNat / 16), hexDigit (byte.toNat % 16)]

def escapeChar (c : Char) : List Char :=
  if isUnreserved c then [c] else (String.utf8EncodeChar c).flatMap escapeByte

def encode (text : String) : String := String.ofList (text.toList.flatMap escapeChar)

end RpcContract.Percent
