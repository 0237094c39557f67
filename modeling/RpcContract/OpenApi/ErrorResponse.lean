import RpcContract.Contract.Basic
import RpcContract.Json.Merge
import RpcContract.Json.Pointer

/-!
# OpenAPI metadata of handlers

Metadata only grows: what is added later is merged over what is there.  Documented error messages
of one status gather in an enumeration, the newest first.
-/

namespace RpcContract

namespace OpenApi

def errorComponentName : String := "RpcErrorResponse"

def errorComponent : Json :=
  .ofEntries [
    ("type", .str "object"),
    ("properties", .ofEntries [
      ("statusCode", .ofEntries [("type", .str "integer")]),
      ("message", .ofEntries [("type", .str "string")]),
      ("isError", .ofEntries [("type", .str "boolean"), ("const", .bool true)])]),
    ("required", .arr [.str "statusCode", .str "message", .str "isError"])]

def messagesPath (status : Nat) : List String :=
  ["responses", toString status, "content", "application/json", "schema", "allOf", "1",
    "properties", "message", "enum"]

def messages (status : Nat) (openapi : Json) : List Json :=
  ((openapi.follow? (messagesPath status)).bind Json.items?).getD []

/-- A message, then those before it, each once. -/
def newestFirst (message : Json) (previous : List Json) : List Json :=
  previous.foldl (fun kept old => if kept.any (·.sameValue old) then kept else kept ++ [old])
    [message]

def response (status : Nat) (messages : List Json) : Json :=
  .ofEntries [
    ("description", .str (toString status ++ " response")),
    ("content", .ofEntries [("application/json", .ofEntries [("schema", .ofEntries [("allOf",
      .arr [
        .ofEntries [("$ref", .str ("#/components/schemas/" ++ errorComponentName))],
        .ofEntries [
          ("type", .str "object"),
          ("properties", .ofEntries [
            ("message", .ofEntries [("type", .str "string"), ("enum", .arr messages)]),
            ("statusCode", .ofEntries
              [("type", .str "integer"), ("enum", .arr [.int status])])])]])])])])]

def fieldsOf (value : Option Json) : List (String × Json) := (value.bind Json.fields?).getD []

/-- The metadata with one more message for a status; what is not an object gives way. -/
def addErrorResponse (status : Nat) (message : String) (openapi : Option Json) : Json :=
  let known := (openapi.map (messages status)).getD []
  let fields := fieldsOf openapi
  let responses := fieldsOf (lookupEntry "responses" fields)
  let entry := response status (newestFirst (.str message) known)
  .obj (insertEntry "responses" (.obj (insertEntry (toString status) entry responses)) fields)

end OpenApi

namespace HandlerSpec

def mergeOpenapi (handler : HandlerSpec) (extra : Json) : HandlerSpec :=
  { handler with openapi := some (match handler.openapi with
      | some base => base.merge extra
      | none => extra) }

def withErrorResponse (handler : HandlerSpec) (status : Nat) (message : String) : HandlerSpec :=
  { handler with openapi := some (OpenApi.addErrorResponse status message handler.openapi) }

end HandlerSpec

end RpcContract
