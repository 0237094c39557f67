import RpcContract.Http.Error
import RpcContract.Json.Printer

/-!
# Streams as lines of JSON

Each item is one JSON document on its own line.  An error is written as one last line.
-/

namespace RpcContract.Lines

def abortText (reason : String) : String :=
  (Json.ofEntries [("isError", .bool true), ("reason", .str reason)]).compact

def itemText : Item → String
  | .ok value => value.compact
  | .error e => abortText e.display

def itemLine (item : Item) : String := itemText item ++ "\n"

/-- The lines of a sequence, up to its first error. -/
def lines : List Item → List String
  | [] => []
  | .ok value :: rest => itemLine (.ok value) :: lines rest
  | .error e :: _ => [itemLine (.error e)]

def body (items : List Item) : String := String.join (lines items)

end RpcContract.Lines
