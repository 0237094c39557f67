import RpcContract.Reading.Tree

/-!
# Bare TOML values

Truth values, numbers, and dates and times: the values that stand without quotes.
-/

namespace RpcContract.Toml

/-! ## Numbers -/

private def digitOf (c : Char) : Nat :=
  if c.isDigit then c.toNat - '0'.toNat
  else if 'a' ≤ c ∧ c ≤ 'f' then c.toNat - 'a'.toNat + 10
  else if 'A' ≤ c ∧ c ≤ 'F' then c.toNat - 'A'.toNat + 10
  else 99

/-- Digits of a base, with single underscores between them. -/
def digits? (base : Nat) : (afterDigit : Bool) → Nat → List Char → Option Nat
  | afterDigit, n, [] => if afterDigit then some n else none
  | afterDigit, n, c :: rest =>
      if c = '_' then (if afterDigit then digits? base false n rest else none)
      else if digitOf c < base then digits? base true (base * n + digitOf c) rest
      else none

def number? (base : Nat) (cs : List Char) : Option Nat := digits? base false 0 cs

/-- A decimal number that does not start with a needless zero. -/
def decimal? (cs : List Char) : Option Nat :=
  match cs with
  | '0' :: _ :: _ => none
  | cs => number? 10 cs

private def splitSign : List Char → Bool × List Char
  | '-' :: rest => (true, rest)
  | '+' :: rest => (false, rest)
  | rest => (false, rest)

private def inRange (n : Int) : Option Tree :=
  if -0x8000000000000000 ≤ n ∧ n < 0x8000000000000000 then some (.int n) else none

def integer? (cs : List Char) : Option Tree :=
  match cs with
  | '0' :: 'x' :: rest => (number? 16 rest).bind fun n => inRange n
  | '0' :: 'o' :: rest => (number? 8 rest).bind fun n => inRange n
  | '0' :: 'b' :: rest => (number? 2 rest).bind fun n => inRange n
  | cs =>
      let (negative, cs) := splitSign cs
      (decimal? cs).bind fun n => inRange (if negative then -(n : Int) else n)

def real? (cs : List Char) : Option Tree := do
  let (negative, cs) := splitSign cs
  if cs = "inf".toList then return .real (if negative then Binary64.infinity.neg else .infinity)
  if cs = "nan".toList then return .real .nan
  let (mantissa, tail) := cs.span fun c => c != 'e' && c != 'E'
  let (whole, tailOfPoint) := mantissa.span (· != '.')
  let _ ← decimal? whole
  let fraction ← match tailOfPoint with
    | [] => some []
    | _ :: rest => do
        let _ ← number? 10 rest
        pure (rest.filter (· != '_'))
  let exponent ← match tail with
    | [] => some 0
    | _ :: rest => do
        let (down, rest) := splitSign rest
        let n ← number? 10 rest
        pure (if down then -(n : Int) else n)
  if tailOfPoint.isEmpty && tail.isEmpty then failure
  let digits ← number? 10 (whole ++ fraction)
  let x := Binary64.ofDecimal negative digits (exponent - fraction.length)
  if x.isFinite then return .real x else failure

/-! ## Dates and times -/

private def twoDigits? (cs : List Char) : Option Nat :=
  if cs.length = 2 ∧ cs.all Char.isDigit then number? 10 cs else none

private def monthDays (year month : Nat) : Nat :=
  if month = 2 then
    if (year % 4 = 0 ∧ year % 100 ≠ 0) ∨ year % 400 = 0 then 29 else 28
  else if month = 4 ∨ month = 6 ∨ month = 9 ∨ month = 11 then 30
  else 31

def date? (cs : List Char) : Option (List Char × List Char) := do
  let text := cs.take 10
  let year := text.take 4
  if year.length < 4 ∨ !year.all Char.isDigit then failure
  if text[4]? ≠ some '-' ∨ text[7]? ≠ some '-' then failure
  let y ← number? 10 year
  let month ← twoDigits? ((text.drop 5).take 2)
  let day ← twoDigits? ((text.drop 8).take 2)
  if month = 0 ∨ 12 < month ∨ day = 0 ∨ monthDays y month < day then failure
  return (text, cs.drop 10)

/-- The fraction of a second, to nine digits and without zeros at its end. -/
private def fraction? (cs : List Char) : Option (List Char × List Char) :=
  match cs with
  | '.' :: rest =>
      let (digits, rest) := rest.span Char.isDigit
      if digits.isEmpty then none
      else
        let kept := ((digits.take 9).reverse.dropWhile (· == '0')).reverse
        some (if kept.isEmpty then [] else '.' :: kept, rest)
  | rest => some ([], rest)

/-- Whether a time stands here: its text, and what follows it.  Seconds may be left out. -/
def time? (cs : List Char) : Option (List Char × List Char) := do
  let hour ← twoDigits? (cs.take 2)
  if cs[2]? ≠ some ':' then failure
  let minute ← twoDigits? ((cs.drop 3).take 2)
  if 23 < hour ∨ 59 < minute then failure
  match cs.drop 5 with
  | ':' :: rest =>
      let second ← twoDigits? (rest.take 2)
      if 60 < second then failure
      let (fraction, rest) ← fraction? (rest.drop 2)
      return (cs.take 8 ++ fraction, rest)
  | rest => return (cs.take 5, rest)

private def offset? (cs : List Char) : Option (List Char) :=
  match cs with
  | [] => some []
  | ['Z'] | ['z'] => some ['Z']
  | sign :: rest =>
      match twoDigits? (rest.take 2), rest[2]?, twoDigits? (rest.drop 3) with
      | some hour, some ':', some minute =>
          if (sign = '+' ∨ sign = '-') ∧ hour < 24 ∧ minute < 60 then some cs else none
      | _, _, _ => none

def moment? (cs : List Char) : Option (List Char) :=
  match date? cs with
  | none =>
      match time? cs with
      | some (text, []) => some text
      | _ => none
  | some (date, []) => some date
  | some (date, separator :: rest) => do
      if separator ≠ 'T' ∧ separator ≠ 't' ∧ separator ≠ ' ' then failure
      let (time, rest) ← time? rest
      let offset ← offset? rest
      return date ++ 'T' :: time ++ offset

/-- The field under which a date or a time is kept as text. -/
def momentField : String := "$__toml_private_datetime"

private def isMoment (cs : List Char) : Bool :=
  let digits := cs.takeWhile Char.isDigit
  match digits.length, (cs.drop digits.length).head? with
  | 4, some '-' | 2, some ':' => true
  | _, _ => false

def scalar? (cs : List Char) : Option Tree :=
  if cs = "true".toList then some (.bool true)
  else if cs = "false".toList then some (.bool false)
  else if isMoment cs then
    (moment? cs).map fun text => .map [(momentField, .str (String.ofList text))] none
  else
    match integer? cs with
    | some tree => some tree
    | none => real? cs

end RpcContract.Toml
