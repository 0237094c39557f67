import RpcContract.Text.Combining
import RpcContract.Text.Printable

/-!
# Quoted text

`quote` writes a text as one string literal between double quotes.  A quote, a backslash, a tab,
a line end and the null character are written by short escapes; every other character that has no
visible form of its own, or is drawn together with its neighbour, by its number in hexadecimal.
-/

namespace RpcContract.Text

def hexDigits (n : Nat) : List Char := Nat.toDigits 16 n

def quoteChar (c : Char) : List Char :=
  if c = '\x00' then ['\\', '0']
  else if c = '\t' then ['\\', 't']
  else if c = '\r' then ['\\', 'r']
  else if c = '\n' then ['\\', 'n']
  else if c = '"' then ['\\', '"']
  else if c = '\\' then ['\\', '\\']
  else if isExtending c || !isPrintable c then
    ['\\', 'u', '\x7b'] ++ hexDigits c.toNat ++ ['\x7d']
  else [c]

def quote (text : String) : String :=
  String.ofList ('"' :: text.toList.flatMap quoteChar ++ ['"'])

end RpcContract.Text
