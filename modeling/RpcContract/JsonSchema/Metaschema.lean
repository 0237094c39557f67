import RpcContract.JsonSchema.Draft

/-!
# Schemas of schemas

For each draft the schema that every schema of the draft must meet.  The newer drafts put it
together from vocabularies, which are held inside one document here.
-/

namespace RpcContract.JsonSchema.Metaschema

private def object (fields : List (String × Json)) : Json := .ofEntries fields

private def typed (name : String) : Json := object [("type", .str name)]

private def refers (target : String) : Json := object [("$ref", .str target)]

private def self : Json := refers "#"

private def definition (keyword name : String) : Json := refers ("#/" ++ keyword ++ "/" ++ name)

private def either (choices : List Json) : Json := object [("anyOf", .arr choices)]

private def text (format : String) : Json :=
  object [("type", .str "string"), ("format", .str format)]

private def matching (pattern : String) : Json :=
  object [("type", .str "string"), ("pattern", .str pattern)]

private def mapOf (values : Json) : Json :=
  object [("type", .str "object"), ("additionalProperties", values)]

private def mapOfNamed (names values : Json) : Json :=
  object [("type", .str "object"), ("additionalProperties", values), ("propertyNames", names)]

private def listOf (items : Json) : Json := object [("type", .str "array"), ("items", items)]

private def anything : Json := .bool true

private def objectOrFlag : Json := .arr [.str "object", .str "boolean"]

private def vocabulary (properties : List (String × Json)) : Json :=
  object [("properties", object properties), ("type", objectOrFlag)]

private def shared (keyword : String) : List (String × Json) :=
  [("schemaArray", object
      [("type", .str "array"), ("minItems", .int 1), ("items", self)]),
    ("nonNegativeInteger", object [("type", .str "integer"), ("minimum", .int 0)]),
    ("nonNegativeIntegerDefault0", definition keyword "nonNegativeInteger"),
    ("simpleTypes", object [("enum", .arr
      (["array", "boolean", "integer", "null", "number", "object", "string"].map .str))]),
    ("stringArray", object
      [("type", .str "array"), ("items", typed "string"), ("uniqueItems", .bool true)])]

private def typeKeyword (keyword : String) : Json :=
  let simple := definition keyword "simpleTypes"
  either [simple, object [("type", .str "array"), ("items", simple), ("minItems", .int 1),
    ("uniqueItems", .bool true)]]

/-- The bounds on sizes and the patterns that all drafts share. -/
private def bounds (keyword : String) : List (String × Json) :=
  let most := definition keyword "nonNegativeInteger"
  let least := definition keyword "nonNegativeIntegerDefault0"
  [("maximum", typed "number"), ("minimum", typed "number"),
    ("maxLength", most), ("minLength", least), ("pattern", text "regex"),
    ("maxItems", most), ("minItems", least), ("uniqueItems", typed "boolean"),
    ("maxProperties", most), ("minProperties", least), ("type", typeKeyword keyword)]

private def exclusiveBounds : List (String × Json) :=
  [("multipleOf", object [("type", .str "number"), ("exclusiveMinimum", .int 0)]),
    ("exclusiveMaximum", typed "number"), ("exclusiveMinimum", typed "number")]

private def combinations (keyword : String) : List (String × Json) :=
  let list := definition keyword "schemaArray"
  [("allOf", list), ("anyOf", list), ("oneOf", list), ("not", self)]

def draft4 : Json :=
  let list := definition "definitions" "schemaArray"
  let names := definition "definitions" "stringArray"
  let flagOrSelf := either [typed "boolean", self]
  let parts := (shared "definitions").filter fun part => part.1 ≠ "stringArray"
  object [
    ("definitions", object (parts ++ [("stringArray", object
      [("type", .str "array"), ("items", typed "string"), ("minItems", .int 1),
        ("uniqueItems", .bool true)])])),
    ("type", .str "object"),
    ("properties", object (bounds "definitions" ++ combinations "definitions" ++ [
      ("id", typed "string"), ("$schema", typed "string"), ("title", typed "string"),
      ("description", typed "string"), ("default", object []),
      ("multipleOf", object
        [("type", .str "number"), ("minimum", .int 0), ("exclusiveMinimum", .bool true)]),
      ("exclusiveMaximum", typed "boolean"), ("exclusiveMinimum", typed "boolean"),
      ("additionalItems", flagOrSelf), ("items", either [self, list]),
      ("required", names), ("additionalProperties", flagOrSelf),
      ("definitions", mapOf self), ("properties", mapOf self), ("patternProperties", mapOf self),
      ("dependencies", mapOf (either [self, names])),
      ("enum", object
        [("type", .str "array"), ("minItems", .int 1), ("uniqueItems", .bool true)]),
      ("format", typed "string")])),
    ("dependencies", object [("exclusiveMaximum", .arr [.str "maximum"]),
      ("exclusiveMinimum", .arr [.str "minimum"])])]

private def middle (extra : List (String × Json)) : Json :=
  let names := definition "definitions" "stringArray"
  object [
    ("definitions", object (shared "definitions")),
    ("type", objectOrFlag),
    ("properties", object (bounds "definitions" ++ exclusiveBounds ++
      combinations "definitions" ++ [
        ("$id", text "uri-reference"), ("$schema", text "uri"), ("$ref", text "uri-reference"),
        ("title", typed "string"), ("description", typed "string"), ("default", anything),
        ("examples", listOf anything), ("additionalItems", self),
        ("items", either [self, definition "definitions" "schemaArray"]), ("contains", self),
        ("required", names), ("additionalProperties", self), ("definitions", mapOf self),
        ("properties", mapOf self), ("patternProperties", mapOf self),
        ("dependencies", mapOf (either [self, names])), ("propertyNames", self),
        ("const", anything), ("enum", listOf anything), ("format", typed "string")] ++ extra))]

def draft6 : Json := middle []

def draft7 : Json :=
  middle [("$comment", typed "string"), ("readOnly", typed "boolean"),
    ("writeOnly", typed "boolean"),
    ("patternProperties", mapOfNamed (object [("format", .str "regex")]) self),
    ("contentMediaType", typed "string"), ("contentEncoding", typed "string"),
    ("if", self), ("then", self), ("else", self)]

private def anchorText : Json := matching "^[A-Za-z_][-A-Za-z0-9._]*$"

private def core : List (String × Json) :=
  [("$id", matching "^[^#]*#?$"), ("$schema", typed "string"), ("$ref", typed "string"),
    ("$vocabulary", mapOfNamed (typed "string") (typed "boolean")),
    ("$comment", typed "string"), ("$defs", mapOf self)]

private def applicators : List (String × Json) :=
  combinations "$defs" ++ [
    ("contains", self), ("additionalProperties", self), ("properties", mapOf self),
    ("patternProperties", mapOfNamed (object [("format", .str "regex")]) self),
    ("dependentSchemas", mapOf self), ("propertyNames", self),
    ("if", self), ("then", self), ("else", self)]

private def unevaluated : List (String × Json) :=
  [("unevaluatedItems", self), ("unevaluatedProperties", self)]

private def assertions : List (String × Json) :=
  let names := definition "$defs" "stringArray"
  let count := definition "$defs" "nonNegativeInteger"
  bounds "$defs" ++ exclusiveBounds ++ [
    ("maxContains", count), ("minContains", count), ("required", names),
    ("dependentRequired", mapOf names), ("const", anything), ("enum", listOf anything)]

private def remarks : List (String × Json) :=
  [("title", typed "string"), ("description", typed "string"), ("default", anything),
    ("deprecated", typed "boolean"), ("readOnly", typed "boolean"),
    ("writeOnly", typed "boolean"), ("examples", listOf anything)]

private def content : List (String × Json) :=
  [("contentEncoding", typed "string"), ("contentMediaType", typed "string"),
    ("contentSchema", self)]

private def ofVocabularies (vocabularies : List (List (String × Json)))
    (older : List (String × Json)) : Json :=
  object [
    ("$defs", object (shared "$defs")),
    ("allOf", .arr (vocabularies.map vocabulary)),
    ("type", objectOrFlag),
    ("properties", object (older ++ [("definitions", mapOf self),
      ("dependencies", mapOf (either [self, definition "$defs" "stringArray"]))]))]

def draft2019 : Json :=
  ofVocabularies [
    core ++ [("$anchor", matching "^[A-Za-z][-A-Za-z0-9.:_]*$"), ("$recursiveRef", typed "string"),
      ("$recursiveAnchor", typed "boolean")],
    applicators ++ unevaluated ++ [("additionalItems", self),
      ("items", either [self, definition "$defs" "schemaArray"])],
    assertions, remarks, [("format", typed "string")], content] []

def draft2020 : Json :=
  ofVocabularies [
    core ++ [("$anchor", anchorText), ("$dynamicRef", typed "string"),
      ("$dynamicAnchor", anchorText)],
    applicators ++ [("prefixItems", definition "$defs" "schemaArray"), ("items", self)],
    unevaluated, assertions, remarks, [("format", typed "string")], content]
    [("$recursiveAnchor", anchorText), ("$recursiveRef", typed "string")]

def ofDraft : Draft → Json
  | .draft4 => draft4
  | .draft6 => draft6
  | .draft7 => draft7
  | .draft2019 => draft2019
  | .draft2020 => draft2020

/-- The document of an address, if it is that of a draft. -/
def known (address : String) : Option (Draft × Json) :=
  (Draft.ofAddress? address).map fun draft => (draft, ofDraft draft)

end RpcContract.JsonSchema.Metaschema
