import RpcContract.JsonSchema.Evaluate
import RpcContract.JsonSchema.Metaschema

/-!
# Compiled models

A model is compiled by finding its draft, holding it against the schema of schemas and looking at
every pattern and every reference in it.  A model that compiles can judge any instance.
-/

namespace RpcContract.JsonSchema

/-! ## Problems of a schema -/

private abbrev Walk := StateT (List Json) (Except Violation)

private def problem {α : Type} (subject : Json) (cause : Cause) : Walk α :=
  throw ⟨[], subject, cause⟩

private def checkPattern (text : String) : Walk Unit := do
  if (Pattern.read? text).isNone then problem (.str text) (.format "regex")

/-- Schemas that a keyword applies, in the order in which they are looked at. -/
def subschemas (fields : List (String × Json)) (keyword : String) (value : Json) : List Json :=
  let fieldsOf (name : String) : List Json :=
    (((lookupEntry name fields).bind Json.fields?).getD []).map Prod.snd
  let restricts :=
    match lookupEntry "additionalProperties" fields with
    | some (.bool false) | some (.obj _) => true
    | _ => false
  match keyword with
  | "properties" | "patternProperties" => if restricts then [] else fieldsOf keyword
  | "additionalProperties" =>
      if restricts then fieldsOf "patternProperties" ++ fieldsOf "properties" ++ [value] else []
  | "dependentSchemas" => fieldsOf keyword
  | "dependencies" => (fieldsOf keyword).filter fun rule => rule.items?.isNone
  | "allOf" | "anyOf" | "oneOf" | "prefixItems" => value.items?.getD []
  | "items" => value.items?.getD [value]
  | "if" => [value] ++ (lookupEntry "then" fields).toList ++ (lookupEntry "else" fields).toList
  | "additionalItems" | "contains" | "propertyNames" | "not" | "unevaluatedItems"
  | "unevaluatedProperties" => [value]
  | _ => []

private def walk : Nat → Scope → Json → Walk Unit
  | 0, _, _ => return ()
  | fuel + 1, scope, schema =>
      match schema with
      | .obj fields =>
          let scope := scope.enter schema
          (activeKeywords scope.draft fields).forM fun (keyword, value) => do
            match keyword, value with
            | "$ref", .str target | "$dynamicRef", .str target | "$recursiveRef", .str target =>
                match Reference.resolve scope target with
                | .error text => problem value (.reference text)
                | .ok (inner, found) =>
                    if !(← get).contains found then
                      modify (found :: ·)
                      walk fuel inner found
            | "pattern", .str text => checkPattern text
            | "patternProperties", .obj patterns => patterns.forM fun entry => checkPattern entry.1
            | "additionalProperties", _ =>
                match lookupEntry "patternProperties" fields with
                | some (.obj patterns) => patterns.forM fun entry => checkPattern entry.1
                | _ => return ()
            | _, _ => return ()
            (subschemas fields keyword value).forM (walk fuel scope)
      | _ => return ()

/-! ## Compilation -/

structure Model where
  draft : Draft
  schema : Json
deriving DecidableEq, Repr

namespace Model

def scope (model : Model) : Scope := .ofDocument model.draft model.schema Metaschema.known

def metaViolations (draft : Draft) (schema : Json) : List Violation :=
  let rules := Metaschema.ofDraft draft
  let scope := Scope.ofDocument draft rules Metaschema.known
  violations (evaluationBound rules schema) scope rules schema []

def compile (schema : Json) : Except String Model :=
  match Draft.ofSchema schema with
  | .error address => .error ("Unknown specification: " ++ address)
  | .ok draft =>
      match metaViolations draft schema with
      | violation :: _ => .error violation.message
      | [] =>
          let model : Model := ⟨draft, schema⟩
          match (walk (nodes schema + 1000) model.scope schema).run [schema] with
          | .ok _ => .ok model
          | .error violation => .error violation.message

def violations (model : Model) (subject : Json) : List Violation :=
  JsonSchema.violations (evaluationBound model.schema subject) model.scope model.schema subject []

end Model

end RpcContract.JsonSchema
