import RpcContract.Json.Basic

/-!
# Merging and comparing values

`Json.merge` puts one value over another: objects are merged field by field, anything else is
replaced.  `Json.sameValue` compares two values with the two zeros taken as one number.
-/

namespace RpcContract.Json

mutual

def merge (base : Json) : Json → Json
  | .obj extra =>
      match base with
      | .obj fields => .obj (mergeFields fields extra)
      | _ => .obj extra
  | .null => .null
  | .bool value => .bool value
  | .int value => .int value
  | .real value => .real value
  | .str value => .str value
  | .arr items => .arr items

def mergeFields (base : List (String × Json)) : List (String × Json) → List (String × Json)
  | [] => base
  | (key, value) :: rest =>
      let merged :=
        match lookupEntry key base with
        | some old => merge old value
        | none => value
      mergeFields (insertEntry key merged base) rest

end

/-- Numbers written with a point or an exponent are equal by value. -/
def sameReal (a b : Binary64) : Bool := a = b && !a.isNaN || a.isZero && b.isZero

mutual

def sameValue : Json → Json → Bool
  | .real a, .real b => sameReal a b
  | .arr a, .arr b => sameItems a b
  | .obj a, .obj b => sameFields a b
  | a, b => a = b

def sameItems : List Json → List Json → Bool
  | [], [] => true
  | x :: a, y :: b => sameValue x y && sameItems a b
  | _, _ => false

def sameFields : List (String × Json) → List (String × Json) → Bool
  | [], [] => true
  | (k, x) :: a, (l, y) :: b => k = l && sameValue x y && sameFields a b
  | _, _ => false

end

end RpcContract.Json
