import RpcContract.Decimal.Shortest

/-!
# Laying decimals out as text

A `Layout` is the record of decisions that a number format takes: where positional notation ends,
how an exponent is written and which way ties go.  `Layout.render` writes a value by them.
-/

namespace RpcContract

structure Layout where
  /-- Exponents of the leading digit from here on are written positionally, -/
  plainFrom : Int
  /-- and up to here, excluded. -/
  plainBelow : Int
  plusSign : Bool
  tie : Decimal.Tie
  notANumber : String
  infinite : String

namespace Layout

def zeros (n : Nat) : String := "".pushn '0' n

def positional (digits : String) (whole : Int) : String :=
  let count : Int := digits.length
  if whole ≤ 0 then "0." ++ zeros (-whole).toNat ++ digits
  else if count ≤ whole then digits ++ zeros (whole - count).toNat ++ ".0"
  else (digits.take whole.toNat).toString ++ "." ++ (digits.drop whole.toNat).toString

def scientific (layout : Layout) (digits : String) (exponent : Int) : String :=
  let first := (digits.take 1).toString
  let others := (digits.drop 1).toString
  let mantissa := if others.isEmpty then first else first ++ "." ++ others
  let sign := if exponent < 0 then "-" else if layout.plusSign then "+" else ""
  mantissa ++ "e" ++ sign ++ toString exponent.natAbs

def render (layout : Layout) (x : Binary64) : String :=
  if x.isNaN then layout.notANumber
  else
    let sign := if x.isNegative then "-" else ""
    if x.isInfinite then sign ++ layout.infinite
    else if x.isZero then sign ++ "0.0"
    else
      let d := Decimal.shortest layout.tie x
      let digits := toString d.digits
      let leading : Int := digits.length - 1 + d.exponent
      sign ++
        if layout.plainFrom ≤ leading ∧ leading < layout.plainBelow then
          positional digits (leading + 1)
        else scientific layout digits leading

end Layout

end RpcContract
