import RpcContract.Json.Pointer
import RpcContract.JsonSchema.Address
import RpcContract.JsonSchema.Draft

/-!
# References between schemas

A reference names a document, a place inside it by a pointer or by an anchor, or both.
-/

namespace RpcContract.JsonSchema

structure Scope where
  draft : Draft
  document : Json
  /-- The innermost part with an address, and that address. -/
  root : Json
  base : Address
  known : String → Option (Draft × Json)

/-- The address that a schema gives itself.  In older drafts one that is only a fragment is a name,
and a reference hides its neighbours. -/
def ownAddress? (draft : Draft) (fields : List (String × Json)) : Option String :=
  match (lookupEntry draft.idKeyword fields).bind Json.str? with
  | none => none
  | some id =>
      if draft.edition ≤ 7 && (id.startsWith "#" || (lookupEntry "$ref" fields).isSome) then none
      else some id

namespace Scope

def ofDocument (draft : Draft) (document : Json) (known : String → Option (Draft × Json)) : Scope :=
  ⟨draft, document, document, .standard, known⟩

def enter (scope : Scope) (schema : Json) : Scope :=
  match (schema.fields?).bind (ownAddress? scope.draft) with
  | none => scope
  | some id => { scope with root := schema, base := scope.base.below (.ofText id) }

end Scope

namespace Reference

private def unescape : List Char → List Char
  | '~' :: '0' :: rest => '~' :: unescape rest
  | '~' :: '1' :: rest => '/' :: unescape rest
  | c :: rest => c :: unescape rest
  | [] => []

private def hexValue (c : Char) : Option Nat :=
  if c.isDigit then some (c.toNat - '0'.toNat)
  else if 'a' ≤ c ∧ c ≤ 'f' then some (c.toNat - 'a'.toNat + 10)
  else if 'A' ≤ c ∧ c ≤ 'F' then some (c.toNat - 'A'.toNat + 10)
  else none

private def percentBytes : List Char → List UInt8
  | '%' :: a :: b :: rest =>
      match hexValue a, hexValue b with
      | some x, some y => UInt8.ofNat (16 * x + y) :: percentBytes rest
      | _, _ => String.utf8EncodeChar '%' ++ percentBytes (a :: b :: rest)
  | c :: rest => String.utf8EncodeChar c ++ percentBytes rest
  | [] => []

/-- Percent-encoded bytes read as text; other text stays as it is. -/
def percentDecode (text : String) : String :=
  (String.fromUTF8? ⟨(percentBytes text.toList).toArray⟩).getD text

def pointerSteps (pointer : String) : List String :=
  match pointer.toList.splitOn '/' with
  | _ :: steps => steps.map fun step => String.ofList (unescape step)
  | [] => []

mutual

def search (test : List (String × Json) → Bool) : Json → Option Json
  | .obj fields => if test fields then some (.obj fields) else searchFields test fields
  | .arr items => searchItems test items
  | _ => none

def searchItems (test : List (String × Json) → Bool) : List Json → Option Json
  | [] => none
  | item :: rest => (search test item).or (searchItems test rest)

def searchFields (test : List (String × Json) → Bool) : List (String × Json) → Option Json
  | [] => none
  | (_, value) :: rest => (search test value).or (searchFields test rest)

end

private def hasText (key text : String) (fields : List (String × Json)) : Bool :=
  (lookupEntry key fields).bind Json.str? = some text

private def findAnchor (draft : Draft) (name : String) (root : Json) : Option Json :=
  search (fun fields =>
    if draft.edition ≥ 8 then
      hasText "$anchor" name fields || hasText "$dynamicAnchor" name fields
    else hasText draft.idKeyword ("#" ++ name) fields) root

mutual

/-- The parts of a document that have addresses of their own, with these addresses. -/
def resources (draft : Draft) (base : Address) : Json → List (String × Json)
  | .obj fields =>
      match ownAddress? draft fields with
      | some id =>
          let base := base.below (.ofText id)
          (base.text, .obj fields) :: resourcesOfFields draft base fields
      | none => resourcesOfFields draft base fields
  | .arr items => resourcesOfItems draft base items
  | _ => []

def resourcesOfItems (draft : Draft) (base : Address) : List Json → List (String × Json)
  | [] => []
  | item :: rest => resources draft base item ++ resourcesOfItems draft base rest

def resourcesOfFields (draft : Draft) (base : Address) : List (String × Json) → List (String × Json)
  | [] => []
  | (_, value) :: rest => resources draft base value ++ resourcesOfFields draft base rest

end

def retrieve (scope : Scope) (address : Address) : Except String Scope :=
  let resources := (Address.standard.text, scope.document) ::
    resources scope.draft .standard scope.document
  match resources.lookup address.text, scope.known address.text with
  | some root, _ => .ok { scope with root := root, base := address }
  | none, some (draft, document) =>
      .ok { scope with draft := draft, document := document, root := document, base := address }
  | none, none =>
      .error ("Resource '" ++ address.text ++
        "' is not present in a registry and retrieving it failed: " ++ address.unreachable)

/-- What a reference leads to and the scope that holds there, or why it leads nowhere. -/
def resolve (scope : Scope) (reference : String) : Except String (Scope × Json) := do
  let cs := reference.toList
  let address := String.ofList (cs.takeWhile (· != '#'))
  let fragment := String.ofList (cs.dropWhile (· != '#')).tail
  let scope ← if address.isEmpty then pure scope
    else retrieve scope (scope.base.below (.ofText address))
  if fragment.isEmpty then return (scope, scope.root)
  else if fragment.startsWith "/" then
    match Json.follow? (pointerSteps (percentDecode fragment)) scope.root with
    | some schema => return (scope, schema)
    | none => throw ("Pointer '" ++ fragment ++ "' does not exist")
  else
    match findAnchor scope.draft fragment scope.root with
    | some schema => return (scope, schema)
    | none => throw ("Anchor '" ++ fragment ++ "' does not exist")

end Reference

end RpcContract.JsonSchema
