import RpcContract.Json.Printer

/-!
# Violations

A violation says which part of an instance breaks which rule of a schema.
-/

namespace RpcContract.JsonSchema

inductive Cause where
  | falseSchema
  | type (names : List String)
  | enumeration (options : Json)
  | constant (expected : Json)
  | belowMinimum (limit : Json)
  | aboveMaximum (limit : Json)
  | notAboveMinimum (limit : Json)
  | notBelowMaximum (limit : Json)
  | multipleOf (divisor : Json)
  | tooShort (limit : Nat)
  | tooLong (limit : Nat)
  | pattern (text : String)
  | format (name : String)
  | encoding (name : String)
  | mediaType (name : String)
  | tooFewItems (limit : Nat)
  | tooManyItems (limit : Nat)
  | repeatedItems
  | contains
  | additionalItems (items : List Json)
  | unevaluatedItems (items : List String)
  | tooFewProperties (limit : Nat)
  | tooManyProperties (limit : Nat)
  | required (name : String)
  | additionalProperties (names : List String)
  | unevaluatedProperties (names : List String)
  | noneOfAny
  | noneOfOne
  | severalOfOne
  | negated (schema : Json)
  | reference (problem : String)
deriving DecidableEq, Repr

structure Violation where
  /-- Field names and item numbers that lead to the part. -/
  path : List String
  subject : Json
  cause : Cause
deriving DecidableEq, Repr

namespace Violation

private def plural (n : Nat) (one many : String) : String :=
  toString n ++ " " ++ if n = 1 then one else many

private def unexpected (quote : Bool) (names : List String) : String :=
  let texts := names.map fun name => if quote then "'" ++ name ++ "'" else name
  "(" ++ ", ".intercalate texts ++ (if names.length = 1 then " was" else " were") ++ " unexpected)"

private def inQuotes (text : String) : String := "\"" ++ text ++ "\""

def message (v : Violation) : String :=
  let it := v.subject.compact
  match v.cause with
  | .falseSchema => "False schema does not allow " ++ it
  | .type [name] => it ++ " is not of type " ++ inQuotes name
  | .type names => it ++ " is not of types " ++ ", ".intercalate (names.map inQuotes)
  | .enumeration options => it ++ " is not one of " ++ options.compact
  | .constant expected => expected.compact ++ " was expected"
  | .belowMinimum limit => it ++ " is less than the minimum of " ++ limit.compact
  | .aboveMaximum limit => it ++ " is greater than the maximum of " ++ limit.compact
  | .notAboveMinimum limit => it ++ " is less than or equal to the minimum of " ++ limit.compact
  | .notBelowMaximum limit => it ++ " is greater than or equal to the maximum of " ++ limit.compact
  | .multipleOf divisor => it ++ " is not a multiple of " ++ divisor.compact
  | .tooShort limit => it ++ " is shorter than " ++ plural limit "character" "characters"
  | .tooLong limit => it ++ " is longer than " ++ plural limit "character" "characters"
  | .pattern text => it ++ " does not match " ++ inQuotes text
  | .format name => it ++ " is not a " ++ inQuotes name
  | .encoding name => it ++ " is not compliant with " ++ inQuotes name ++ " content encoding"
  | .mediaType name => it ++ " is not compliant with " ++ inQuotes name ++ " media type"
  | .tooFewItems limit => it ++ " has less than " ++ plural limit "item" "items"
  | .tooManyItems limit => it ++ " has more than " ++ plural limit "item" "items"
  | .repeatedItems => it ++ " has non-unique elements"
  | .contains => "None of " ++ it ++ " are valid under the given schema"
  | .additionalItems items =>
      "Additional items are not allowed " ++ unexpected false (items.map Json.compact)
  | .unevaluatedItems items => "Unevaluated items are not allowed " ++ unexpected true items
  | .tooFewProperties limit => it ++ " has less than " ++ plural limit "property" "properties"
  | .tooManyProperties limit => it ++ " has more than " ++ plural limit "property" "properties"
  | .required name => (Json.str name).compact ++ " is a required property"
  | .additionalProperties names =>
      "Additional properties are not allowed " ++ unexpected true names
  | .unevaluatedProperties names =>
      "Unevaluated properties are not allowed " ++ unexpected true names
  | .noneOfAny => it ++ " is not valid under any of the schemas listed in the 'anyOf' keyword"
  | .noneOfOne => it ++ " is not valid under any of the schemas listed in the 'oneOf' keyword"
  | .severalOfOne =>
      it ++ " is valid under more than one of the schemas listed in the 'oneOf' keyword"
  | .negated schema => schema.compact ++ " is not allowed for " ++ it
  | .reference problem => problem

def escapeStep (step : String) : String :=
  String.ofList <| step.toList.flatMap fun c =>
    if c = '~' then ['~', '0'] else if c = '/' then ['~', '1'] else [c]

def pointer (v : Violation) : String :=
  String.ofList <| ("/".intercalate (v.path.map escapeStep)).toList.dropWhile (· == '/')

/-- The message, with its place unless that is the whole instance. -/
def report (v : Violation) : String :=
  if v.pointer.isEmpty then v.message else v.message ++ " (" ++ v.pointer ++ ")"

end Violation

end RpcContract.JsonSchema
