import RpcContract.Template.Basic

/-!
# Operations on template values

Whole numbers have 128 bits: a result outside of them is an invalid operation.  Division by `/`
always gives a floating-point number; `//` and `%` round so that the remainder of whole numbers is
not negative.
-/

namespace RpcContract.Template.Value

def invalid {α : Type} : Except Fault α := .error .invalidOperation

private def limit : Nat := Nat.pow 2 127

def wholeResult (n : Int) : Except Fault Value :=
  if -limit ≤ n ∧ n < limit then .ok (.int n) else invalid

inductive Numbers where
  | whole (a b : Int)
  | real (a b : Binary64)

def numbers? (a b : Value) : Option Numbers :=
  if a.isReal || b.isReal then
    match a.real?, b.real? with
    | some x, some y => some (.real x y)
    | _, _ => none
  else
    match a.int?, b.int? with
    | some m, some n => some (.whole m n)
    | _, _ => none

private def truncatedQuotient (a b : Binary64) : Int :=
  let (n, d) := a.toRatio
  let (m, e) := b.toRatio
  Int.tdiv (n * e) (m * d)

/-- The remainder of floating-point numbers; it has the sign of the first one. -/
def realRem (a b : Binary64) : Binary64 :=
  if !a.isFinite || b.isNaN || b.isZero then .nan
  else if !b.isFinite then a
  else
    let (n, d) := a.toRatio
    let (m, e) := b.toRatio
    let num : Int := n * e - truncatedQuotient a b * (m * d)
    let size := Binary64.nearest num.natAbs (d * e)
    if num < 0 ∨ (num = 0 ∧ a.isNegative) then size.neg else size

/-- The quotient of floating-point numbers, rounded so that the remainder is not negative. -/
def realIntDiv (a b : Binary64) : Binary64 :=
  let q := a.toFloat / b.toFloat
  let whole := if q < 0 then q.ceil else q.floor
  Binary64.ofFloat
    (if (realRem a b).toFloat < 0 then
      if 0 < b.toFloat then whole - 1 else whole + 1
    else whole)

private def onNumbers (whole : Int → Int → Except Fault Value) (real : Float → Float → Float)
    (a b : Value) : Except Fault Value :=
  match numbers? a b with
  | some (.whole m n) => whole m n
  | some (.real x y) => .ok (.real (.ofFloat (real x.toFloat y.toFloat)))
  | none => invalid

def add (a b : Value) : Except Fault Value :=
  match a, b with
  | .str x _, .str y _ => .ok (.str (x ++ y) false)
  | .seq x, .seq y => .ok (.seq (x ++ y))
  | a, b => onNumbers (fun m n => wholeResult (m + n)) (· + ·) a b

private def repeatLimit : Nat := 100000

private def repeated (count : Value) (size : Nat) (make : Nat → Value) : Except Fault Value :=
  match count.nat? with
  | some n => if n * size ≤ repeatLimit * 100 then .ok (make n) else invalid
  | none => invalid

def mul (a b : Value) : Except Fault Value :=
  let text (x : String) (n : Nat) : Value := .str (String.join (List.replicate n x)) false
  let list (x : List Value) (n : Nat) : Value := .seq (List.replicate n x).flatten
  match a, b with
  | .str x _, n | n, .str x _ => repeated n x.length (text x)
  | .seq x, n | n, .seq x => repeated n x.length (list x)
  | a, b => onNumbers (fun m n => wholeResult (m * n)) (· * ·) a b

def div (a b : Value) : Except Fault Value :=
  match a.real?, b.real? with
  | some x, some y => .ok (.real (.ofFloat (x.toFloat / y.toFloat)))
  | _, _ => invalid

def intDiv (a b : Value) : Except Fault Value :=
  match numbers? a b with
  | some (.whole m n) => if n = 0 then invalid else wholeResult (m / n)
  | some (.real x y) => .ok (.real (realIntDiv x y))
  | none => invalid

def rem (a b : Value) : Except Fault Value :=
  match numbers? a b with
  | some (.whole m n) => if n = 0 then invalid else wholeResult (m % n)
  | some (.real x y) => .ok (.real (realRem x y))
  | none => invalid

def pow (a b : Value) : Except Fault Value :=
  match numbers? a b with
  | some (.whole m n) =>
      if n < 0 then invalid
      else if m.natAbs ≤ 1 then .ok (.int (Int.pow m (n.toNat % 2 + if n = 0 then 0 else 2)))
      else if 127 < n then invalid
      else wholeResult (Int.pow m n.toNat)
  | some (.real x y) => .ok (.real (.ofFloat (x.toFloat.pow y.toFloat)))
  | none => invalid

def neg : Value → Except Fault Value
  | .int n => wholeResult (-n)
  | .real x => .ok (.real x.neg)
  | _ => invalid

def textContains (whole part : List Char) : Bool :=
  match whole with
  | [] => part.isEmpty
  | c :: rest => part.isPrefixOf (c :: rest) || textContains rest part

/-- Whether a value is in a container: a part of a text, an item of a list, a key of a map. -/
def isIn (value container : Value) : Except Fault Value :=
  match container with
  | .undefined => .ok (.bool false)
  | .str text _ => .ok (.bool (textContains text.toList value.text.toList))
  | .seq items => .ok (.bool (items.any fun item => item.same value))
  | .map entries => .ok (.bool (Value.lookup value entries).isSome)
  | _ => invalid

def operate (op : Operation) (a b : Value) : Except Fault Value :=
  match op with
  | .add => add a b
  | .sub => onNumbers (fun m n => wholeResult (m - n)) (· - ·) a b
  | .mul => mul a b
  | .div => div a b
  | .intDiv => intDiv a b
  | .rem => rem a b
  | .pow => pow a b
  | .concat => .ok (.str (a.text ++ b.text) false)
  | .eq => .ok (.bool (a.same b))
  | .ne => .ok (.bool (!a.same b))
  | .lt => .ok (.bool (a.order b == .lt))
  | .le => .ok (.bool (a.order b != .gt))
  | .gt => .ok (.bool (a.order b == .gt))
  | .ge => .ok (.bool (a.order b != .lt))
  | .isIn => isIn a b

/-! ## Slices -/

private def position (length : Nat) (bound : Int) : Nat :=
  if 0 ≤ bound then min bound.toNat length else length - min (-bound).toNat length

private def everyNth {α : Type} (step : Nat) : (skip : Nat) → List α → List α
  | _, [] => []
  | 0, x :: rest => x :: everyNth step (step - 1) rest
  | skip + 1, _ :: rest => everyNth step skip rest

/-- The items between two bounds, every so many; backwards if the step is negative. -/
def sliceItems {α : Type} (items : List α) (start stop : Option Int) (step : Int) : List α :=
  let length := items.length
  if 0 < step then
    let first := position length (start.getD 0)
    let last := position length (stop.getD length)
    everyNth step.toNat 0 ((items.take last).drop first)
  else
    let upTo (bound : Int) : Nat :=
      if 0 ≤ bound then min (bound.toNat + 1) length else length - min ((-bound).toNat - 1) length
    let last := match start with
      | none => length
      | some s => upTo s
    let first := match stop with
      | none => 0
      | some s => upTo s
    everyNth (-step).toNat 0 ((items.take last).drop first).reverse

private def bound? (value : Value) : Except Fault (Option Int) :=
  match value with
  | .nothing | .undefined => .ok none
  | value =>
      match value.int? with
      | some n => .ok (some n)
      | none => invalid

def slice (value start stop step : Value) : Except Fault Value := do
  let start ← bound? start
  let stop ← bound? stop
  let step := (← bound? step).getD 1
  if step = 0 then invalid
  else
    match value with
    | .undefined | .nothing => .ok (.seq [])
    | .str text _ => .ok (.str (String.ofList (sliceItems text.toList start stop step)) false)
    | .seq items => .ok (.seq (sliceItems items start stop step))
    | _ => invalid

end RpcContract.Template.Value
