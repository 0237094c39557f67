import RpcContract.Json.Basic

/-!
# Numbers in schemas

Comparison, equality and divisibility of numbers that may be written as integers or with a
fraction.  Comparison is exact; divisibility by a fraction is judged on the rounded quotient.
-/

namespace RpcContract.JsonSchema

def ratio? : Json → Option (Int × Nat)
  | .int n => some (n, 1)
  | .real x => if x.isFinite then some x.toRatio else none
  | _ => none

def compareNumbers (a b : Json) : Option Ordering := do
  let (n, d) ← ratio? a
  let (m, e) ← ratio? b
  return compare (n * e) (m * d)

def toBinary : Json → Option Binary64
  | .int n => some (.ofInt n)
  | .real x => some x
  | _ => none

/-- Integers are compared exactly, any other numbers as floating-point values. -/
def sameNumber (a b : Json) : Bool :=
  match a, b with
  | .int n, .int m => n = m
  | a, b =>
      match toBinary a, toBinary b with
      | some x, some y => x = y || x.isZero && y.isZero
      | _, _ => false

mutual

/-- Values are the same if their numbers are, however these are written. -/
def same : Json → Json → Bool
  | .arr a, .arr b => sameItems a b
  | .obj a, .obj b => sameFields a b
  | .int n, b => sameNumber (.int n) b
  | .real x, b => sameNumber (.real x) b
  | a, b => a = b

def sameItems : List Json → List Json → Bool
  | [], [] => true
  | x :: a, y :: b => same x y && sameItems a b
  | _, _ => false

def sameFields : List (String × Json) → List (String × Json) → Bool
  | [], [] => true
  | (k, x) :: a, (l, y) :: b => k = l && same x y && sameFields a b
  | _, _ => false

end

def isWhole (value : Json) : Bool :=
  match ratio? value with
  | some (n, d) => n % d = 0
  | none => false

def limit? (value : Json) : Option Nat :=
  match ratio? value with
  | some (n, d) => if n ≥ 0 ∧ n % d = 0 then some (n / d).toNat else none
  | none => none

private def divideExactly (n : Int) (d : Nat) (m : Int) (e : Nat) : Bool :=
  m ≠ 0 && (n * e) % (m * d) = 0

/-- The quotient, rounded to a floating-point value, has at most the least fraction above a whole
number; a negative remainder passes. -/
def isMultiple (value divisor : Json) : Bool :=
  match (toBinary value).bind fun x => ratio? (.real x),
      (toBinary divisor).bind fun y => ratio? (.real y) with
  | some (n, d), some (m, e) =>
      if isWhole divisor then n % d = 0 && divideExactly n d m e
      else
        let quotient := Binary64.nearest (n.natAbs * e) (m.natAbs * d)
        if !quotient.isFinite then divideExactly n d m e
        else if n < 0 then true
        else
          let (q, scale) := quotient.toRatio
          -- the remainder is compared with the distance from one to the next value
          (q % scale) * 0x10000000000000 < scale
  | _, _ => true

end RpcContract.JsonSchema
