import RpcContract.Template.Arguments
import RpcContract.Template.Operators
import RpcContract.Text.CaseMap

/-!
# Tests

What can be asked of a value by `is`.
-/

namespace RpcContract.Template.Test

open Args

def plain? (name : String) : Option (Value → Bool) :=
  if name = "defined" then some fun v => !v.isUndefined
  else if name = "undefined" then some Value.isUndefined
  else if name = "none" then some fun v => v.kind = .nothing
  else if name = "boolean" then some fun v => v.kind = .bool
  else if name = "true" then some fun v => v.same (.bool true) && v.kind = .bool
  else if name = "false" then some fun v => v.same (.bool false) && v.kind = .bool
  else if name = "integer" then some fun v => v.kind = .number && !v.isReal
  else if name = "float" then some Value.isReal
  else if name = "number" then some fun v => v.kind = .number
  else if name = "string" then some fun v => v.kind = .text
  else if name = "sequence" then some fun v => v.kind = .seq
  else if name = "mapping" then some fun v => v.kind = .map
  else if name = "iterable" then some fun v => v.items?.isSome
  else if name = "odd" then some fun v => v.int?.any (· % 2 != 0)
  else if name = "even" then some fun v => v.int?.any (· % 2 == 0)
  else if name = "safe" ∨ name = "escaped" then some fun v =>
    match v with
    | .str _ safe => safe
    | _ => false
  else if name = "lower" then some fun v =>
    v.str?.any fun s => s.toList.all fun c => Text.upperChars c != [c] && Text.lowerChars c == [c]
  else if name = "upper" then some fun v =>
    v.str?.any fun s => s.toList.all fun c => Text.lowerChars c != [c] && Text.upperChars c == [c]
  else none

private def isDivisible (a b : Value) : Bool :=
  match Value.numbers? a b with
  | some (.whole m n) => n != 0 && m % n == 0
  | some (.real x y) => (Value.realRem x y).isZero
  | none => false

def withOther? (name : String) : Option (Value → Value → Result Bool) :=
  if name = "divisibleby" then some fun v w => .ok (isDivisible v w)
  else if name = "eq" ∨ name = "equalto" ∨ name = "==" then some fun v w => .ok (v.same w)
  else if name = "ne" ∨ name = "!=" then some fun v w => .ok (!v.same w)
  else if name = "lt" ∨ name = "lessthan" ∨ name = "<" then some fun v w => .ok (v.order w == .lt)
  else if name = "le" ∨ name = "<=" then some fun v w => .ok (v.order w != .gt)
  else if name = "gt" ∨ name = "greaterthan" ∨ name = ">" then
    some fun v w => .ok (v.order w == .gt)
  else if name = "ge" ∨ name = ">=" then some fun v w => .ok (v.order w != .lt)
  else if name = "in" then some fun v w => do return (← v.isIn w).isTrue
  else if name = "sameas" then some fun v w =>
    .ok (v.kind = w.kind && v.same w && v.isReal == w.isReal)
  else if name = "startingwith" then some fun v w =>
    .ok (w.text.toList.isPrefixOf v.text.toList)
  else if name = "endingwith" then some fun v w =>
    .ok (w.text.toList.isSuffixOf v.text.toList)
  else none

/-- Whether a value passes the test of a name; `known` tells which filters there are. -/
def passes (known : String → Bool) (name : String) (value : Value) (args : Args) : Result Bool := do
  match plain? name with
  | some question =>
      let _ ← args.upTo 0
      return question value
  | none =>
      match withOther? name with
      | some question =>
          let values ← args.upTo 1
          question value (← required values 0)
      | none =>
          if name = "filter" then
            let _ ← args.upTo 0
            return value.str?.any known
          else if name = "test" then
            let _ ← args.upTo 0
            return value.str?.any isKnown
          else throw .unknownTest
where
  isKnown (name : String) : Bool :=
    (plain? name).isSome || (withOther? name).isSome || name == "filter" || name == "test"

end RpcContract.Template.Test
