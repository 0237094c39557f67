import RpcContract.JsonSchema.Formats
import RpcContract.JsonSchema.Number
import RpcContract.JsonSchema.Reference
import RpcContract.JsonSchema.Violation

/-!
# Keywords

What each keyword of a schema asks of an instance.  Keywords that apply further schemas are given
the evaluator as a function, so that they can be read on their own.
-/

namespace RpcContract.JsonSchema

abbrev Evaluator := Scope → (schema subject : Json) → (path : List String) → List Violation

structure Site where
  scope : Scope
  siblings : List (String × Json)
  subject : Json
  path : List String
  evaluate : Evaluator

namespace Site

variable (site : Site)

def fail (cause : Cause) : List Violation := [⟨site.path, site.subject, cause⟩]

def failIf (test : Bool) (cause : Cause) : List Violation := if test then site.fail cause else []

def apply (schema : Json) : List Violation :=
  site.evaluate site.scope schema site.subject site.path

def applyTo (schema part : Json) (step : String) : List Violation :=
  site.evaluate site.scope schema part (site.path ++ [step])

def accepts (schema part : Json) : Bool := (site.evaluate site.scope schema part []).isEmpty

def sibling? (keyword : String) : Option Json := lookupEntry keyword site.siblings

/-! ## Types and values -/

def hasType (name : String) : Bool :=
  match name, site.subject with
  | "null", .null | "boolean", .bool _ | "string", .str _ | "array", .arr _ | "object", .obj _ =>
      true
  | "number", .int _ | "number", .real _ | "integer", .int _ => true
  | "integer", .real x => site.scope.draft ≠ .draft4 && isWhole (.real x)
  | _, _ => false

def typeNames : Json → List String
  | .str name => [name]
  | .arr names => (names.filterMap Json.str?).mergeSort (· ≤ ·)
  | _ => []

def type (value : Json) : List Violation :=
  let names := typeNames value
  site.failIf (!names.any site.hasType) (.type names)

def enumeration (options : Json) : List Violation :=
  site.failIf (!(options.items?.getD []).any (same · site.subject)) (.enumeration options)

def constant (expected : Json) : List Violation :=
  site.failIf (!same expected site.subject) (.constant expected)

/-! ## Numbers -/

def bound (limit : Json) (forbidden : List Ordering) (cause : Cause) : List Violation :=
  match compareNumbers site.subject limit with
  | some order => site.failIf (forbidden.contains order) cause
  | none => []

/-- The oldest draft makes a bound exclusive by a flag beside it. -/
def hasFlag (keyword : String) : Bool :=
  site.scope.draft = .draft4 && site.sibling? keyword = some (.bool true)

def minimum (limit : Json) : List Violation :=
  if site.hasFlag "exclusiveMinimum" then site.bound limit [.lt, .eq] (.notAboveMinimum limit)
  else site.bound limit [.lt] (.belowMinimum limit)

def maximum (limit : Json) : List Violation :=
  if site.hasFlag "exclusiveMaximum" then site.bound limit [.gt, .eq] (.notBelowMaximum limit)
  else site.bound limit [.gt] (.aboveMaximum limit)

def multipleOf (divisor : Json) : List Violation :=
  match site.subject with
  | .int _ | .real _ => site.failIf (!isMultiple site.subject divisor) (.multipleOf divisor)
  | _ => []

/-! ## Texts -/

def length (value : Json) (test : Nat → Nat → Bool) (cause : Nat → Cause) : List Violation :=
  match site.subject, limit? value with
  | .str text, some limit => site.failIf (test text.length limit) (cause limit)
  | _, _ => []

def matchesPattern (pattern text : String) : Bool :=
  match Pattern.read? pattern with
  | some pattern => pattern.occursIn text
  | none => false

def pattern (value : Json) : List Violation :=
  match site.subject, value with
  | .str text, .str pattern => site.failIf (!matchesPattern pattern text) (.pattern pattern)
  | _, _ => []

def format (value : Json) : List Violation :=
  match site.subject, value with
  | .str text, .str name =>
      match Format.test? site.scope.draft.edition name with
      | some test => site.failIf (site.scope.draft.checksFormats && !test text) (.format name)
      | none => []
  | _, _ => []

/-! ## Lists -/

def size (value : Json) (test : Nat → Nat → Bool) (cause : Nat → Cause) : List Violation :=
  match site.subject, limit? value with
  | .arr items, some limit => site.failIf (test items.length limit) (cause limit)
  | _, _ => []

def hasRepetition : List Json → Bool
  | [] => false
  | item :: rest => rest.any (same item) || hasRepetition rest

def uniqueItems (value : Json) : List Violation :=
  match site.subject, value with
  | .arr items, .bool true => site.failIf (hasRepetition items) .repeatedItems
  | _, _ => []

def eachItem (schema : Json) (items : List Json) (first : Nat) : List Violation :=
  (items.zipIdx.drop first).flatMap fun (item, index) => site.applyTo schema item (toString index)

def byPosition (schemas items : List Json) : List Violation :=
  ((schemas.zip items).zipIdx).flatMap fun ((schema, item), index) =>
    site.applyTo schema item (toString index)

def items (value : Json) : List Violation :=
  match site.subject, value with
  | .arr items, .arr schemas => site.byPosition schemas items
  | .arr items, schema =>
      let leading := ((site.sibling? "prefixItems").bind Json.items?).getD []
      site.eachItem schema items leading.length
  | _, _ => []

def leadingItems (value : Json) : List Violation :=
  match site.subject, value with
  | .arr items, .arr schemas => site.byPosition schemas items
  | _, _ => []

def additionalItems (value : Json) : List Violation :=
  match site.subject, site.sibling? "items" with
  | .arr items, some (.arr schemas) =>
      match value with
      | .bool false =>
          let extra := items.drop schemas.length
          site.failIf (!extra.isEmpty) (.additionalItems extra)
      | .obj _ => site.eachItem value items schemas.length
      | _ => []
  | _, _ => []

def contains (schema : Json) : List Violation :=
  match site.subject with
  | .arr items =>
      let counts := site.scope.draft.edition ≥ 8
      let limit (keyword : String) : Option Nat :=
        if counts then (site.sibling? keyword).bind limit? else none
      let found := (items.filter (site.accepts schema)).length
      site.failIf (found < (limit "minContains").getD 1 || (limit "maxContains").any (found > ·))
        .contains
  | _ => []

/-! ## Objects -/

def count (value : Json) (test : Nat → Nat → Bool) (cause : Nat → Cause) : List Violation :=
  match site.subject, limit? value with
  | .obj fields, some limit => site.failIf (test fields.length limit) (cause limit)
  | _, _ => []

def required (names : Json) : List Violation :=
  match site.subject with
  | .obj fields =>
      ((names.items?.getD []).filterMap Json.str?).flatMap fun name =>
        site.failIf (lookupEntry name fields).isNone (.required name)
  | _ => []

/-- Properties are looked at together with those that are not named, where these are restricted. -/
def restrictsOthers : Bool :=
  match site.sibling? "additionalProperties" with
  | some (.bool false) | some (.obj _) => true
  | _ => false

def properties (schemas : Json) : List Violation :=
  match site.subject, schemas with
  | .obj fields, .obj schemas =>
      schemas.flatMap fun (name, schema) =>
        match lookupEntry name fields with
        | some value => site.applyTo schema value name
        | none => []
  | _, _ => []

def patternProperties (schemas : Json) : List Violation :=
  match site.subject, schemas with
  | .obj fields, .obj schemas =>
      schemas.flatMap fun (pattern, schema) =>
        fields.flatMap fun (name, value) =>
          if matchesPattern pattern name then site.applyTo schema value name else []
  | _, _ => []

/-- All properties in the order of the instance: by name, by pattern, or else as additional ones. -/
def additionalProperties (schema : Json) : List Violation :=
  let named := ((site.sibling? "properties").bind Json.fields?).getD []
  let patterned := ((site.sibling? "patternProperties").bind Json.fields?).getD []
  match site.subject with
  | .obj fields =>
      let byName (name : String) : List Json := (lookupEntry name named).toList
      let byPattern (name : String) : List Json :=
        (patterned.filter fun entry => matchesPattern entry.1 name).map Prod.snd
      let known (name : String) : List Json := byName name ++ byPattern name
      let found := fields.flatMap fun (name, value) =>
        (match known name, schema with
          | [], .obj _ => [schema]
          | schemas, _ => schemas).flatMap fun schema => site.applyTo schema value name
      match schema with
      | .bool false =>
          if (site.sibling? "properties").isNone && (site.sibling? "patternProperties").isNone then
            match fields with
            | [] => []
            | (_, value) :: _ => [⟨site.path, value, .falseSchema⟩]
          else
            let others := (fields.map Prod.fst).filter fun name => (known name).isEmpty
            found ++ site.failIf (!others.isEmpty) (.additionalProperties others)
      | _ => found
  | _ => []

def propertyNames (schema : Json) : List Violation :=
  match site.subject, schema with
  | .obj fields, .bool false => site.failIf (!fields.isEmpty) .falseSchema
  | .obj fields, schema =>
      fields.flatMap fun (name, _) => site.evaluate site.scope schema (.str name) site.path
  | _, _ => []

def dependent (rules : Json) : List Violation :=
  match site.subject, rules with
  | .obj fields, .obj rules =>
      rules.flatMap fun (name, rule) =>
        if (lookupEntry name fields).isNone then []
        else
          match rule with
          | .arr _ => site.required rule
          | schema => site.apply schema
  | _, _ => []

/-! ## Combinations -/

def allOf (schemas : Json) : List Violation := (schemas.items?.getD []).flatMap site.apply

def anyOf (schemas : Json) : List Violation :=
  site.failIf (!(schemas.items?.getD []).any (site.accepts · site.subject)) .noneOfAny

def oneOf (schemas : Json) : List Violation :=
  match (schemas.items?.getD []).filter (site.accepts · site.subject) with
  | [] => site.fail .noneOfOne
  | [_] => []
  | _ => site.fail .severalOfOne

def negation (schema : Json) : List Violation :=
  site.failIf (site.accepts schema site.subject) (.negated schema)

def conditional (schema : Json) : List Violation :=
  let branch := if site.accepts schema site.subject then "then" else "else"
  match site.sibling? branch with
  | some schema => site.apply schema
  | none => []

def reference (target : Json) : List Violation :=
  match target with
  | .str target =>
      match Reference.resolve site.scope target with
      | .ok (scope, schema) => site.evaluate scope schema site.subject site.path
      | .error problem => site.fail (.reference problem)
  | _ => []

end Site

end RpcContract.JsonSchema
