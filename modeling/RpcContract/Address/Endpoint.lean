import RpcContract.Address.Placeholder
import RpcContract.Address.Query
import RpcContract.Http.Error
import RpcContract.Text.Blank

/-!
# Addresses of calls

`Endpoint.build` makes the path of a call from its parts, with percent-encoded values in place of
the placeholders, and the query string of its query.
-/

namespace RpcContract

structure Endpoint where
  path : String
  query : String
deriving DecidableEq, Repr, Inhabited

namespace Endpoint

def valueOf (params : Json) (name : String) : Option String :=
  (params.get? name).bind Query.scalarText?

def missing (params : Json) (pieces : List PathPiece) : List String :=
  (pieces.filterMap PathPiece.nameOf?).filter fun name => (valueOf params name).isNone

def resolve (params : Json) (pieces : List PathPiece) : String :=
  String.join <| pieces.map fun
    | .char c => String.singleton c
    | .placeholder name => Percent.encode ((valueOf params name).getD "")

/-- A root followed by a slash and the trimmed text of each part that is not empty. -/
def joinUnder (root : String) (parts : List String) : String :=
  let full := parts.foldl (fun path part =>
    let part := Text.trimBoth '/' part
    if part.isEmpty then path else path ++ "/" ++ part) (Text.trimEnd '/' root)
  if full.isEmpty then "/" else full

def build (apiRoot segment pathPrefix path : String) (params query : Json) :
    Except HttpError Endpoint :=
  let pieces := PathPiece.ofPath path
  match missing params pieces with
  | [] => .ok
      { path := joinUnder apiRoot [segment, pathPrefix, resolve params pieces]
        query := Query.encode query }
  | names => .error (.client
      ("Missing path parameters for " ++ path ++ ": " ++ ", ".intercalate names))

def url (endpoint : Endpoint) : String :=
  if endpoint.query.isEmpty then endpoint.path else endpoint.path ++ "?" ++ endpoint.query

end Endpoint

end RpcContract
