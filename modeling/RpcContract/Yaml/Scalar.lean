import RpcContract.Reading.Tree

/-!
# Words without quotes

What a word that stands without quotes means: null, a truth value, a number, or just itself.
-/

namespace RpcContract.Yaml

private def dropSign : List Char → List Char
  | '+' :: rest | '-' :: rest => rest
  | cs => cs

/-- A zero before further digits makes a text. -/
def hasLeadingZero (cs : List Char) : Bool :=
  match dropSign cs with
  | '0' :: c :: rest => (c :: rest).all Char.isDigit
  | _ => false

private def digitValue (c : Char) : Nat :=
  if c.isDigit then c.toNat - '0'.toNat
  else if 'a' ≤ c ∧ c ≤ 'z' then c.toNat - 'a'.toNat + 10
  else if 'A' ≤ c ∧ c ≤ 'Z' then c.toNat - 'A'.toNat + 10
  else 99

def digits? (base : Nat) (cs : List Char) : Option Nat :=
  if cs.isEmpty then none
  else cs.foldlM (fun n c =>
    let d := digitValue c
    if d < base then some (base * n + d) else none) 0

def integer? (cs : List Char) : Option Int :=
  let sign : Int := if cs.head? = some '-' then -1 else 1
  let value : Option Nat :=
    match dropSign cs with
    | '0' :: 'x' :: rest => digits? 16 rest
    | '0' :: 'o' :: rest => digits? 8 rest
    | '0' :: 'b' :: rest => digits? 2 rest
    | rest => if hasLeadingZero cs then none else digits? 10 rest
  value.map fun n => sign * (n : Int)

def decimal? (cs : List Char) : Option Binary64 := do
  let negative := cs.head? = some '-'
  let cs := dropSign cs
  let whole := cs.takeWhile Char.isDigit
  let rest := cs.drop whole.length
  let (fraction, rest) :=
    match rest with
    | '.' :: rest => (rest.takeWhile Char.isDigit, rest.dropWhile Char.isDigit)
    | rest => ([], rest)
  if whole.isEmpty ∧ fraction.isEmpty then failure
  let exponent ← match rest with
    | [] => some 0
    | 'e' :: rest | 'E' :: rest =>
        let size := digits? 10 (dropSign rest)
        if rest.head? = some '-' then size.map fun n => -(n : Int) else size.map fun n => (n : Int)
    | _ => none
  let value ← digits? 10 (whole ++ fraction)
  let x := Binary64.ofDecimal negative value (exponent - fraction.length)
  if x.isFinite then some x else none

def constants : List (String × Json) :=
  [("", .null), ("~", .null), ("null", .null), ("Null", .null), ("NULL", .null),
    ("true", .bool true), ("True", .bool true), ("TRUE", .bool true),
    ("false", .bool false), ("False", .bool false), ("FALSE", .bool false)]

def specialNumbers : List (String × Binary64) :=
  [(".inf", .infinity), (".Inf", .infinity), (".INF", .infinity),
    ("+.inf", .infinity), ("+.Inf", .infinity), ("+.INF", .infinity),
    ("-.inf", .neg .infinity), ("-.Inf", .neg .infinity), ("-.INF", .neg .infinity),
    (".nan", .nan), (".NaN", .nan), (".NAN", .nan)]

def real? (text : String) : Option Binary64 :=
  match specialNumbers.lookup text with
  | some x => some x
  | none => if hasLeadingZero text.toList then none else decimal? text.toList

private def numberOrText (text : String) : Json :=
  match real? text with
  | some x => .real x
  | none => .str text

/-- What a word means by itself.  Integers beyond 64 bits have no value at all, and those beyond 128
bits are floating-point numbers. -/
def meaning (text : String) : Option Json :=
  match constants.lookup text with
  | some value => some value
  | none =>
      match integer? text.toList with
      | some n =>
          if -0x8000000000000000 ≤ n ∧ n < 0x10000000000000000 then some (.int n)
          else if -(Nat.pow 2 127 : Int) ≤ n ∧ n < (Nat.pow 2 128 : Nat) then none
          else some (numberOrText text)
      | none => some (numberOrText text)

def word (text : String) : Tree := .plain text (meaning text)

/-- A node with a tag; only tags of one's own stay with it, under their name. -/
def keepTag (tag : String) (inner : Tree) : Tree :=
  match tag.toList with
  | '!' :: '!' :: _ | ['!'] => inner
  | '!' :: name => .tagged (String.ofList name) inner
  | _ => inner

/-- A scalar with a tag; tags of the standard types ask for a word of that type. -/
def tagged (tag : String) (isPlain : Bool) (text : String) : Tree :=
  let typed (value : Option Json) : Tree := .plain text value
  match tag with
  | "!!str" | "!" => .str text
  | "!!null" =>
      typed (if (constants.lookup text) = some .null ∧ text ≠ "" then some .null else none)
  | "!!bool" => typed ((constants.lookup text).filter Json.isBool)
  | "!!int" => typed (integer? text.toList |>.map .int)
  | "!!float" => typed ((real? text).map .real)
  | tag => keepTag tag (if isPlain then word text else .str text)

end RpcContract.Yaml
