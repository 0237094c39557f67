import RpcContract.Json.Basic

/-!
# Paths into values

`Json.follow?` goes down a value along a list of steps.  A step names a field of an object, or
numbers an item of an array in decimal digits without leading zeros.
-/

namespace RpcContract.Json

def position? (step : String) : Option Nat :=
  match step.toList with
  | [] => none
  | ['0'] => some 0
  | '0' :: _ => none
  | digits =>
      if digits.all Char.isDigit then
        some (digits.foldl (fun n c => 10 * n + (c.toNat - '0'.toNat)) 0)
      else none

def follow? : List String → Json → Option Json
  | [], value => some value
  | step :: steps, .obj fields => (lookupEntry step fields).bind (follow? steps)
  | step :: steps, .arr items => ((position? step).bind (items[·]?)).bind (follow? steps)
  | _ :: _, _ => none

end RpcContract.Json
