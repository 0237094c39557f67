import RpcContract.Json.Basic

/-!
# Drafts of the schema language

The editions of the schema language differ in which keywords they know and whether formats are
checked.  A schema names its draft by an address; without one it is written in the newest.
-/

namespace RpcContract.JsonSchema

inductive Draft where
  | draft4 | draft6 | draft7 | draft2019 | draft2020
deriving DecidableEq, Repr, Inhabited

namespace Draft

def edition : Draft → Nat
  | draft4 => 4
  | draft6 => 6
  | draft7 => 7
  | draft2019 => 8
  | draft2020 => 9

def address : Draft → String
  | draft4 => "http://json-schema.org/draft-04/schema"
  | draft6 => "http://json-schema.org/draft-06/schema"
  | draft7 => "http://json-schema.org/draft-07/schema"
  | draft2019 => "https://json-schema.org/draft/2019-09/schema"
  | draft2020 => "https://json-schema.org/draft/2020-12/schema"

def all : List Draft := [draft4, draft6, draft7, draft2019, draft2020]

private def withoutHash (text : String) : String :=
  String.ofList (text.toList.reverse.dropWhile (· == '#')).reverse

def ofAddress? (address : String) : Option Draft :=
  all.find? fun draft => draft.address = withoutHash address

/-- From here on a reference is a keyword like any other; before, it hides its neighbours. -/
def allowsRefSiblings (draft : Draft) : Bool := draft.edition ≥ 8

/-- Later drafts take formats as remarks. -/
def checksFormats (draft : Draft) : Bool := draft.edition ≤ 7

def idKeyword (draft : Draft) : String := if draft = draft4 then "id" else "$id"

/-- The draft that a schema names; an address that is not known is an error. -/
def ofSchema (schema : Json) : Except String Draft :=
  match (schema.get? "$schema").bind Json.str? with
  | none => .ok draft2020
  | some address =>
      match ofAddress? address with
      | some draft => .ok draft
      | none => .error address

def knows (draft : Draft) (keyword : String) : Bool :=
  let common := ["$ref", "additionalProperties", "allOf", "anyOf", "enum", "format", "items",
    "maxItems", "maxLength", "maxProperties", "maximum", "minItems", "minLength", "minProperties",
    "minimum", "multipleOf", "not", "oneOf", "pattern", "patternProperties", "properties",
    "required", "type", "uniqueItems"]
  let since6 := ["const", "contains", "exclusiveMaximum", "exclusiveMinimum", "propertyNames"]
  let since2019 := ["dependentRequired", "dependentSchemas", "unevaluatedItems",
    "unevaluatedProperties"]
  let e := draft.edition
  common.contains keyword || (e ≥ 6 && since6.contains keyword) ||
    (e ≥ 7 && keyword = "if") || (e ≥ 8 && since2019.contains keyword) ||
    (e ≤ 8 && keyword = "additionalItems") || (e ≤ 7 && keyword = "dependencies") ||
    ((e = 6 || e = 7) && (keyword = "contentEncoding" || keyword = "contentMediaType")) ||
    (e = 8 && keyword = "$recursiveRef") ||
    (e = 9 && (keyword = "$dynamicRef" || keyword = "prefixItems"))

end Draft

end RpcContract.JsonSchema
