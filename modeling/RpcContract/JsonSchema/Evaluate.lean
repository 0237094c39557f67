import RpcContract.JsonSchema.Content
import RpcContract.JsonSchema.Keyword

/-!
# Evaluation

`violations` lists what of an instance breaks a schema, keyword by keyword in the order of their
names.  Schemas may refer to themselves, so the evaluator is given a bound on the number of nested
steps; `evaluationBound` is never reached by a schema whose references lead to smaller parts.
-/

namespace RpcContract.JsonSchema

/-! ## What was evaluated before -/

/-- Subschemas that apply to the instance itself and accept it. -/
def Site.inPlace (site : Site) (references : List String) : List (Scope × Json) :=
  let accepted (schema : Json) : List (Scope × Json) :=
    if site.accepts schema site.subject then [(site.scope, schema)] else []
  let ofReferences := references.flatMap fun keyword =>
    match (site.sibling? keyword).bind Json.str? with
    | some target =>
        match Reference.resolve site.scope target with
        | .ok target => [target]
        | .error _ => []
    | none => []
  let ofLists := ["allOf", "anyOf", "oneOf"].flatMap fun keyword =>
    (((site.sibling? keyword).bind Json.items?).getD []).flatMap accepted
  let ofCondition :=
    match site.sibling? "if" with
    | none => []
    | some condition =>
        if site.accepts condition site.subject then
          (site.scope, condition) :: ((site.sibling? "then").toList.map fun s => (site.scope, s))
        else (site.sibling? "else").toList.map fun s => (site.scope, s)
  let ofDependents :=
    (((site.sibling? "dependentSchemas").bind Json.fields?).getD []).flatMap fun (name, schema) =>
      if (site.subject.get? name).isSome then [(site.scope, schema)] else []
  ofReferences ++ ofLists ++ ofCondition ++ ofDependents

def referenceKeywords : List String := ["$ref", "$dynamicRef", "$recursiveRef"]

/-- Names of properties that a schema looks at, itself or by its subschemas. -/
def evaluatedNames (evaluate : Evaluator) : Nat → Scope → Json → Json → List String
  | 0, _, _, _ => []
  | fuel + 1, scope, schema, subject =>
      match schema, subject with
      | .obj siblings, .obj fields =>
          let scope := scope.enter schema
          let site : Site := { scope, siblings, subject, path := [], evaluate }
          let own := fields.filterMap fun (name, value) =>
            let accepted (schema : Json) : Bool := site.accepts schema value
            let named := ((site.sibling? "properties").bind (·.get? name)).any accepted
            let patterned := (((site.sibling? "patternProperties").bind Json.fields?).getD []).any
              fun (pattern, schema) => Site.matchesPattern pattern name && accepted schema
            let others := ["additionalProperties", "unevaluatedProperties"].any fun keyword =>
              (site.sibling? keyword).any accepted
            if named || patterned || others then some name else none
          own ++ (site.inPlace referenceKeywords).flatMap fun (scope, schema) =>
            evaluatedNames evaluate fuel scope schema subject
      | _, _ => []

/-- Positions of items that a schema looks at, itself or by its subschemas. -/
def evaluatedPositions (evaluate : Evaluator) : Nat → Scope → Json → Json → List Nat
  | 0, _, _, _ => []
  | fuel + 1, scope, schema, subject =>
      match schema, subject with
      | .obj siblings, .arr items =>
          let scope := scope.enter schema
          let site : Site := { scope, siblings, subject, path := [], evaluate }
          let positions := List.range items.length
          let own :=
            match site.sibling? "items" with
            | some (.arr schemas) =>
                if (site.sibling? "additionalItems").isSome then positions
                else positions.take schemas.length
            | some _ => positions
            | none =>
                let leading := ((site.sibling? "prefixItems").bind Json.items?).getD []
                positions.take leading.length
          let further := items.zipIdx.filterMap fun (item, index) =>
            let contained := scope.draft = .draft2020 &&
              (site.sibling? "contains").any (site.accepts · item)
            let unevaluated := (site.sibling? "unevaluatedItems").any (site.accepts · item)
            if contained || unevaluated then some index else none
          own ++ further ++ (site.inPlace referenceKeywords).flatMap fun (scope, schema) =>
            evaluatedPositions evaluate fuel scope schema subject
      | _, _ => []

namespace Site

variable (site : Site)

private def others (keyword : String) : Json :=
  .obj (site.siblings.filter fun entry => entry.1 ≠ keyword)

def unevaluatedProperties (fuel : Nat) (schema : Json) : List Violation :=
  match site.subject with
  | .obj fields =>
      let seen := evaluatedNames site.evaluate fuel site.scope
        (site.others "unevaluatedProperties") site.subject
      let rest := fields.filter fun (name, value) =>
        !seen.contains name && !site.accepts schema value
      site.failIf (!rest.isEmpty) (.unevaluatedProperties (rest.map Prod.fst))
  | _ => []

def unevaluatedItems (fuel : Nat) (schema : Json) : List Violation :=
  match site.subject with
  | .arr items =>
      let seen := evaluatedPositions site.evaluate fuel site.scope
        (site.others "unevaluatedItems") site.subject
      let rest := items.zipIdx.filter fun (item, index) =>
        !seen.contains index && !site.accepts schema item
      site.failIf (!rest.isEmpty) (.unevaluatedItems (rest.map fun entry => entry.1.compact))
  | _ => []

/-- Encoded content and its media type are looked at together. -/
def mediaType (value : Json) : List Violation :=
  match site.subject, value, (site.sibling? "contentEncoding").bind Json.str? with
  | .str text, .str name, none =>
      site.failIf (Content.isOfType? name text = some false) (.mediaType name)
  | .str text, .str name, some encoding =>
      match Content.isOfType? name "", Content.decode? encoding text with
      | some _, some none => site.fail (.encoding encoding)
      | _, some (some decoded) =>
          site.failIf (Content.isOfType? name decoded = some false) (.mediaType name)
      | _, _ => []
  | _, _, _ => []

def encoding (value : Json) : List Violation :=
  match site.subject, value with
  | .str text, .str name =>
      site.failIf ((site.sibling? "contentMediaType").isNone &&
        Content.decode? name text = some none) (.encoding name)
  | _, _ => []

def keyword (fuel : Nat) (name : String) (value : Json) : List Violation :=
  match name with
  | "$ref" | "$dynamicRef" | "$recursiveRef" => site.reference value
  | "type" => site.type value
  | "enum" => site.enumeration value
  | "const" => site.constant value
  | "minimum" => site.minimum value
  | "maximum" => site.maximum value
  | "exclusiveMinimum" => site.bound value [.lt, .eq] (.notAboveMinimum value)
  | "exclusiveMaximum" => site.bound value [.gt, .eq] (.notBelowMaximum value)
  | "multipleOf" => site.multipleOf value
  | "minLength" => site.length value (· < ·) .tooShort
  | "maxLength" => site.length value (· > ·) .tooLong
  | "pattern" => site.pattern value
  | "format" => site.format value
  | "contentMediaType" => site.mediaType value
  | "contentEncoding" => site.encoding value
  | "minItems" => site.size value (· < ·) .tooFewItems
  | "maxItems" => site.size value (· > ·) .tooManyItems
  | "uniqueItems" => site.uniqueItems value
  | "items" => site.items value
  | "prefixItems" => site.leadingItems value
  | "additionalItems" => site.additionalItems value
  | "contains" => site.contains value
  | "unevaluatedItems" => site.unevaluatedItems fuel value
  | "minProperties" => site.count value (· < ·) .tooFewProperties
  | "maxProperties" => site.count value (· > ·) .tooManyProperties
  | "required" => site.required value
  | "properties" => if site.restrictsOthers then [] else site.properties value
  | "patternProperties" => if site.restrictsOthers then [] else site.patternProperties value
  | "additionalProperties" => site.additionalProperties value
  | "propertyNames" => site.propertyNames value
  | "dependentRequired" | "dependentSchemas" | "dependencies" => site.dependent value
  | "unevaluatedProperties" => site.unevaluatedProperties fuel value
  | "allOf" => site.allOf value
  | "anyOf" => site.anyOf value
  | "oneOf" => site.oneOf value
  | "not" => site.negation value
  | "if" => site.conditional value
  | _ => []

end Site

def activeKeywords (draft : Draft) (fields : List (String × Json)) : List (String × Json) :=
  match (lookupEntry "$ref" fields).bind Json.str? with
  | some target =>
      if draft.allowsRefSiblings then fields.filter fun field => draft.knows field.1
      else [("$ref", .str target)]
  | none => fields.filter fun field => draft.knows field.1

def violations : Nat → Evaluator
  | 0, _, _, _, _ => []
  | fuel + 1, scope, schema, subject, path =>
      match schema with
      | .bool false => [⟨path, subject, .falseSchema⟩]
      | .obj siblings =>
          let scope := scope.enter schema
          let site : Site := { scope, siblings, subject, path, evaluate := violations fuel }
          (activeKeywords scope.draft siblings).flatMap fun (name, value) =>
            site.keyword fuel name value
      | _ => []

mutual

def nodes : Json → Nat
  | .arr items => nodesOfItems items + 1
  | .obj fields => nodesOfFields fields + 1
  | _ => 1

def nodesOfItems : List Json → Nat
  | [] => 0
  | item :: rest => nodes item + nodesOfItems rest

def nodesOfFields : List (String × Json) → Nat
  | [] => 0
  | (_, value) :: rest => nodes value + nodesOfFields rest

end

/-- A bound on the nested steps of an evaluation: every part of the instance may meet every part of
the schema, or of a schema of schemas that it refers to. -/
def evaluationBound (schema subject : Json) : Nat := (nodes subject + 1) * (nodes schema + 1000)

end RpcContract.JsonSchema
