/-!
# Binary floating-point values as bits

`Binary64` is a 64-bit floating-point value given by its bits, so that equality is equality of
bits and the value can be taken apart with exact arithmetic.  `Binary64.nearest` rounds a quotient
of two naturals to the nearest value, ties to an even significand.
-/

namespace RpcContract

structure Binary64 where
  bits : UInt64
deriving DecidableEq, Repr, Hashable

namespace Binary64

def ofFloat (x : Float) : Binary64 := ⟨x.toBits⟩

def toFloat (x : Binary64) : Float := Float.ofBits x.bits

def isNegative (x : Binary64) : Bool := x.bits >>> 63 == 1

def exponentField (x : Binary64) : Nat := ((x.bits >>> 52) &&& 0x7FF).toNat

def fraction (x : Binary64) : Nat := (x.bits &&& 0xFFFFFFFFFFFFF).toNat

def isFinite (x : Binary64) : Bool := x.exponentField != 0x7FF

def isNaN (x : Binary64) : Bool := x.exponentField == 0x7FF && x.fraction != 0

def isInfinite (x : Binary64) : Bool := x.exponentField == 0x7FF && x.fraction == 0

def isZero (x : Binary64) : Bool := x.exponentField == 0 && x.fraction == 0

def leastNormal : Nat := 0x10000000000000

/-- The significand `m` of a finite value `m * 2 ^ q`, without its sign. -/
def significand (x : Binary64) : Nat :=
  if x.exponentField == 0 then x.fraction else leastNormal + x.fraction

/-- The scale `q` of a finite value `m * 2 ^ q`. -/
def scale (x : Binary64) : Int :=
  if x.exponentField == 0 then -1074 else (x.exponentField : Int) - 1075

def infinity : Binary64 := ⟨0x7FF0000000000000⟩

def nan : Binary64 := ⟨0x7FF8000000000000⟩

def zero : Binary64 := ⟨0⟩

def neg (x : Binary64) : Binary64 := ⟨x.bits ^^^ 0x8000000000000000⟩

/-- The value nearest to `num / den`, ties to even; infinity beyond the largest finite value. -/
def nearest (num den : Nat) : Binary64 :=
  if num = 0 ∨ den = 0 then zero
  else
    let guess : Int := (num.log2 : Int) - (den.log2 : Int) - 52
    let q0 : Int :=
      let scaled := num * Nat.pow 2 (-guess).toNat
      if scaled < leastNormal * (den * Nat.pow 2 guess.toNat) then guess - 1 else guess
    let q : Int := if q0 < -1074 then -1074 else q0
    let scaledNum := num * Nat.pow 2 (-q).toNat
    let scaledDen := den * Nat.pow 2 q.toNat
    let whole := scaledNum / scaledDen
    let twice := 2 * (scaledNum % scaledDen)
    let m := if twice > scaledDen ∨ (twice = scaledDen ∧ whole % 2 = 1) then whole + 1 else whole
    -- a significand of 2 ^ 53 carries into the exponent field
    let bits := if m < leastNormal then m
      else m - leastNormal + (q + 1075).toNat * leastNormal
    if bits ≥ 0x7FF0000000000000 then infinity else ⟨bits.toUInt64⟩

def ofDecimal (negative : Bool) (digits : Nat) (exponent : Int) : Binary64 :=
  let magnitude :=
    if digits = 0 then zero
    else
      let size : Int := (Nat.toDigits 10 digits).length + exponent
      -- beyond these sizes every value rounds to infinity or to zero
      if size > 400 then infinity
      else if size < -400 then zero
      else nearest (digits * Nat.pow 10 exponent.toNat) (Nat.pow 10 (-exponent).toNat)
  if negative then magnitude.neg else magnitude

def ofInt (n : Int) : Binary64 := ofDecimal (n < 0) n.natAbs 0

def toRatio (x : Binary64) : Int × Nat :=
  let magnitude : Int := x.significand * Nat.pow 2 x.scale.toNat
  (if x.isNegative then -magnitude else magnitude, Nat.pow 2 (-x.scale).toNat)

end Binary64

end RpcContract
