import RpcContract.Decimal.Binary

/-!
# The fewest digits that read back

`Decimal.shortest` finds, by exact integer arithmetic, the shortest decimal that rounds to a given
finite non-zero value, the nearest of the shortest ones, and on an exact tie the one that the
caller's rule names.
-/

namespace RpcContract

/-- The value `digits * 10 ^ exponent`. -/
structure Decimal where
  digits : Nat
  exponent : Int
deriving DecidableEq, Repr

namespace Decimal

inductive Tie where
  | toEven
  | awayFromZero
deriving DecidableEq, Repr

/-- Compare `a * 10 ^ i` with `n * 2 ^ j`. -/
def compareScaled (a : Nat) (i : Int) (n : Nat) (j : Int) : Ordering :=
  compare (a * Nat.pow 10 i.toNat * Nat.pow 2 (-j).toNat)
    (n * Nat.pow 2 j.toNat * Nat.pow 10 (-i).toNat)

/-- The gap below a power of two is half the gap above it. -/
def narrowBelow (x : Binary64) : Bool := x.fraction == 0 && x.exponentField > 1

def readsBack (x : Binary64) (d : Decimal) : Bool :=
  let m := x.significand
  let low := if narrowBelow x then 4 * m - 1 else 4 * m - 2
  let high := 4 * m + 2
  let ends := m % 2 == 0
  let fromLow := compareScaled d.digits d.exponent low (x.scale - 2)
  let fromHigh := compareScaled d.digits d.exponent high (x.scale - 2)
  (fromLow == .gt || (ends && fromLow == .eq)) && (fromHigh == .lt || (ends && fromHigh == .eq))

def decimalSize (x : Binary64) : Int :=
  let estimate : Int := ((x.significand.log2 : Int) + x.scale) * 30103 / 100000 - 1
  let rec climb : Nat → Int → Int
    | 0, k => k
    | steps + 1, k =>
        if compareScaled 1 k x.significand x.scale == .gt then k else climb steps (k + 1)
  climb 6 estimate

def neighbours (x : Binary64) (exponent : Int) (tie : Tie) : List Decimal :=
  let num := x.significand * Nat.pow 2 x.scale.toNat * Nat.pow 10 (-exponent).toNat
  let den := Nat.pow 2 (-x.scale).toNat * Nat.pow 10 exponent.toNat
  let below := num / den
  let upFirst :=
    match compare (2 * (num % den)) den with
    | .lt => false
    | .gt => true
    | .eq => match tie with
      | .awayFromZero => true
      | .toEven => below % 2 == 1
  if upFirst then [⟨below + 1, exponent⟩, ⟨below, exponent⟩]
  else [⟨below, exponent⟩, ⟨below + 1, exponent⟩]

def strip (d : Decimal) : Decimal :=
  let rec go : Nat → Nat → Int → Decimal
    | 0, digits, exponent => ⟨digits, exponent⟩
    | steps + 1, digits, exponent =>
        if digits ≠ 0 ∧ digits % 10 = 0 then go steps (digits / 10) (exponent + 1)
        else ⟨digits, exponent⟩
  go 400 d.digits d.exponent

def exact (x : Binary64) : Decimal :=
  if x.scale < 0 then ⟨x.significand * Nat.pow 5 (-x.scale).toNat, x.scale⟩
  else ⟨x.significand * Nat.pow 2 x.scale.toNat, 0⟩

def shortest (tie : Tie) (x : Binary64) : Decimal :=
  let size := decimalSize x
  let found := (List.range 17).findSome? fun (n : Nat) =>
    (neighbours x (size - (n + 1 : Nat)) tie).find? fun d => d.digits ≠ 0 && readsBack x d
  strip (found.getD (exact x))

end Decimal

end RpcContract
