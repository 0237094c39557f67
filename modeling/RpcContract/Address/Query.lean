import RpcContract.Address.Percent
import RpcContract.Json.Printer

/-!
# Query strings

Nested data as a query string in bracket notation: one `key=value` pair for each scalar, where the
key is the first field name followed by further names and item numbers in brackets.  Nulls are left
out.
-/

namespace RpcContract.Query

/-- The text of a value in an address: strings as they are, nothing for null. -/
def scalarText? : Json → Option String
  | .null => none
  | .str text => some text
  | value => some value.compact

def nest (key part : String) : String := if key.isEmpty then part else key ++ "[" ++ part ++ "]"

mutual

def pairs (key : String) : Json → List String
  | .null => []
  | .obj fields => fieldPairs key fields
  | .arr items => itemPairs key 0 items
  | .str text => [key ++ "=" ++ Percent.encode text]
  | .bool value => [key ++ "=" ++ Percent.encode (Json.bool value).compact]
  | .int value => [key ++ "=" ++ Percent.encode (Json.int value).compact]
  | .real value => [key ++ "=" ++ Percent.encode (Json.real value).compact]

def fieldPairs (key : String) : List (String × Json) → List String
  | [] => []
  | (name, value) :: rest =>
      pairs (nest key (Percent.encode name)) value ++ fieldPairs key rest

def itemPairs (key : String) (index : Nat) : List Json → List String
  | [] => []
  | item :: rest =>
      pairs (key ++ "[" ++ toString index ++ "]") item ++ itemPairs key (index + 1) rest

end

def encode (query : Json) : String :=
  match query with
  | .obj fields => "&".intercalate (fieldPairs "" fields)
  | _ => ""

end RpcContract.Query
