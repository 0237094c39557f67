import RpcContract.Decimal.Layout
import RpcContract.Json.Basic

/-!
# JSON text

`Json.compact` writes a value without blanks, `Json.pretty` over several lines.  Inside strings
only the quote, the backslash and control characters are escaped.
-/

namespace RpcContract.Json

/-- Numbers have the fewest digits that read back, positionally from 10^-5 to below 10^16. -/
def numberLayout : Layout where
  plainFrom := -5
  plainBelow := 16
  plusSign := true
  tie := .toEven
  notANumber := "null"
  infinite := "null"

def hexDigit (n : Nat) : Char := Nat.digitChar n

def escapeChar (c : Char) : List Char :=
  if c = '"' then ['\\', '"']
  else if c = '\\' then ['\\', '\\']
  else if c = '\x08' then ['\\', 'b']
  else if c = '\t' then ['\\', 't']
  else if c = '\n' then ['\\', 'n']
  else if c = '\x0c' then ['\\', 'f']
  else if c = '\r' then ['\\', 'r']
  else if c.toNat < 0x20 then
    ['\\', 'u', '0', '0', hexDigit (c.toNat / 16), hexDigit (c.toNat % 16)]
  else [c]

def quote (text : String) : String :=
  String.ofList ('"' :: text.toList.flatMap escapeChar ++ ['"'])

def scalarText : Json → String
  | .null => "null"
  | .bool true => "true"
  | .bool false => "false"
  | .int n => toString n
  | .real x => if x.isFinite then numberLayout.render x else "null"
  | .str text => quote text
  | .arr _ => "[]"
  | .obj _ => "\x7b\x7d"

mutual

def compact : Json → String
  | .arr items => "[" ++ compactItems items ++ "]"
  | .obj fields => "\x7b" ++ compactFields fields ++ "\x7d"
  | .null => scalarText .null
  | .bool b => scalarText (.bool b)
  | .int n => scalarText (.int n)
  | .real x => scalarText (.real x)
  | .str text => scalarText (.str text)

def compactItems : List Json → String
  | [] => ""
  | [item] => compact item
  | item :: rest => compact item ++ "," ++ compactItems rest

def compactFields : List (String × Json) → String
  | [] => ""
  | [(key, value)] => quote key ++ ":" ++ compact value
  | (key, value) :: rest => quote key ++ ":" ++ compact value ++ "," ++ compactFields rest

end

def indent (step depth : Nat) : String := "\n" ++ "".pushn ' ' (step * depth)

mutual

/-- Over several lines, each level of nesting further in by `step` blanks. -/
def prettyAt (step : Nat) (depth : Nat) : Json → String
  | .arr [] => "[]"
  | .arr (item :: rest) =>
      "[" ++ indent step (depth + 1) ++ prettyAt step (depth + 1) item ++
        prettyItems step depth rest ++ indent step depth ++ "]"
  | .obj [] => "\x7b\x7d"
  | .obj ((key, value) :: rest) =>
      "\x7b" ++ indent step (depth + 1) ++ quote key ++ ": " ++ prettyAt step (depth + 1) value ++
        prettyFields step depth rest ++ indent step depth ++ "\x7d"
  | .null => scalarText .null
  | .bool b => scalarText (.bool b)
  | .int n => scalarText (.int n)
  | .real x => scalarText (.real x)
  | .str text => scalarText (.str text)

def prettyItems (step depth : Nat) : List Json → String
  | [] => ""
  | item :: rest =>
      "," ++ indent step (depth + 1) ++ prettyAt step (depth + 1) item ++
        prettyItems step depth rest

def prettyFields (step depth : Nat) : List (String × Json) → String
  | [] => ""
  | (key, value) :: rest =>
      "," ++ indent step (depth + 1) ++ quote key ++ ": " ++ prettyAt step (depth + 1) value ++
        prettyFields step depth rest

end

def pretty (value : Json) : String := prettyAt 2 0 value

end RpcContract.Json
