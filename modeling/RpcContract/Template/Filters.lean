import RpcContract.Template.Tests
import RpcContract.Template.TextFilters

/-!
# Filters

`Filter.run` applies the filter of a name to a value.  Filters that apply another filter or a test
to every item are given these as functions.
-/

namespace RpcContract.Template.Filter

open Args

/-! ## Numbers -/

private def absolute : Value → Result Value
  | .int n => .ok (.int n.natAbs)
  | .real x => .ok (.real (if x.isNegative then x.neg else x))
  | _ => invalid

private def ofDigits (cs : List Char) : Option Nat :=
  if cs.isEmpty || !cs.all Char.isDigit then none
  else some (cs.foldl (fun n c => n * 10 + (c.toNat - '0'.toNat)) 0)

private def signedDigits (cs : List Char) : Option Int :=
  match cs with
  | '-' :: rest => (ofDigits rest).map fun n => -(n : Int)
  | '+' :: rest => (ofDigits rest).map Int.ofNat
  | rest => (ofDigits rest).map Int.ofNat

def readReal? (text : String) : Option Binary64 :=
  let (negative, cs) := match text.toList with
    | '-' :: rest => (true, rest)
    | '+' :: rest => (false, rest)
    | rest => (false, rest)
  let (mantissa, tail) := cs.span fun c => c != 'e' && c != 'E'
  let (whole, fraction) := mantissa.span (· != '.')
  let fraction := fraction.drop 1
  let exponent := if tail.isEmpty then some 0 else signedDigits (tail.drop 1)
  let word := Text.toLower (String.ofList cs)
  if word = "inf" ∨ word = "infinity" then
    some (if negative then Binary64.infinity.neg else .infinity)
  else if word = "nan" then some .nan
  else
    match ofDigits (whole ++ fraction), exponent with
    | some n, some e => some (Binary64.ofDecimal negative n (e - fraction.length))
    | _, _ => none

private def truncated (x : Binary64) : Int :=
  let (n, d) := x.toRatio
  Int.tdiv n d

def toInteger : Value → Result Value
  | .undefined | .nothing => .ok (.int 0)
  | .bool b => .ok (.int (if b then 1 else 0))
  | .int n => .ok (.int n)
  | .real x => .ok (.int (if x.isFinite then truncated x else 0))
  | .str text _ =>
      match signedDigits text.toList with
      | some n => .ok (.int n)
      | none =>
          match readReal? text with
          | some x => .ok (.int (if x.isFinite then truncated x else 0))
          | none => invalid
  | _ => invalid

def toReal : Value → Result Value
  | .undefined | .nothing => .ok (.real .zero)
  | .str text _ =>
      match readReal? text with
      | some x => .ok (.real x)
      | none => invalid
  | value =>
      match value.real? with
      | some x => .ok (.real x)
      | none => invalid

private def round (value : Value) (places : Int) : Result Value :=
  match value with
  | .int n => .ok (.int n)
  | .real x =>
      let scale := Float.pow 10.0 (Float.ofInt places)
      .ok (.real (.ofFloat ((x.toFloat * scale).round / scale)))
  | _ => invalid

/-! ## Lists -/

/-- A key of a sort or a comparison: letters count as small ones unless case matters. -/
private def folded (caseSensitive : Bool) : Value → Value
  | .str text safe => if caseSensitive then .str text safe else .str (Text.toLower text) safe
  | value => value

/-- The part of a value at a path of names and positions between points. -/
def atPath (path : String) (value : Value) : Value :=
  (splitText "." path none).foldl (fun v part =>
    match Value.item v (.str part false), part.toNat? with
    | .undefined, some n => v.item (.int n)
    | found, _ => found) value

private def attrOf (place : Option Value) (value : Value) : Value :=
  match place with
  | some path => atPath path.text value
  | none => value

private def sortBy (key : Value → Value) (reverse : Bool) (items : List Value) : List Value :=
  items.mergeSort fun a b =>
    match (key a).order (key b) with
    | .eq => true
    | .lt => !reverse
    | .gt => reverse

private def sort (value : Value) (args : Args) : Result Value := do
  let _ ← args.withNames 0 ["attribute", "case_sensitive", "reverse"]
  let items ← itemsOf value
  let caseSensitive ← flag (args.named? "case_sensitive")
  let reverse ← flag (args.named? "reverse")
  let key (v : Value) : Value := folded caseSensitive (attrOf (args.named? "attribute") v)
  return .seq (sortBy key reverse items)

private def dictsort (value : Value) (args : Args) : Result Value := do
  let _ ← args.withNames 0 ["by", "case_sensitive", "reverse"]
  let .map entries := value | invalid
  let caseSensitive ← flag (args.named? "case_sensitive")
  let reverse ← flag (args.named? "reverse")
  let byValue ← match args.named? "by" with
    | none => pure false
    | some by_ =>
        if by_.text = "key" then pure false
        else if by_.text = "value" then pure true
        else invalid
  let key (pair : Value) : Value :=
    folded caseSensitive (pair.item (.int (if byValue then 1 else 0)))
  return .seq (sortBy key reverse (entries.map fun (k, v) => .seq [k, v]))

private def unique (value : Value) (args : Args) : Result Value := do
  let _ ← args.withNames 0 ["attribute", "case_sensitive"]
  let items ← itemsOf value
  let caseSensitive ← flag (args.named? "case_sensitive")
  let key (v : Value) : Value := folded caseSensitive (attrOf (args.named? "attribute") v)
  let step (kept : List Value × List Value) (v : Value) : List Value × List Value :=
    if kept.2.any (·.same (key v)) then kept else (v :: kept.1, key v :: kept.2)
  return .seq (items.foldl step ([], [])).1.reverse

private def groupRuns (key : Value → Value) : List Value → List (Value × List Value)
  | [] => []
  | v :: rest =>
      match groupRuns key rest with
      | (k, run) :: groups =>
          if (key v).same k then (k, v :: run) :: groups else (key v, [v]) :: (k, run) :: groups
      | [] => [(key v, [v])]

private def groupBy (value : Value) (args : Args) : Result Value := do
  let values ← args.withNames 1 ["attribute", "case_sensitive", "default"]
  let place ← match (optional values 0).orElse (fun _ => args.named? "attribute") with
    | some path => pure path
    | none => throw .missingArgument
  let items ← itemsOf value
  let caseSensitive ← flag (args.named? "case_sensitive")
  let key (v : Value) : Value :=
    match atPath place.text v with
    | .undefined => (args.named? "default").getD .undefined
    | found => found
  let sorted := sortBy (fun v => folded caseSensitive (key v)) false items
  return .seq ((groupRuns (fun v => folded caseSensitive (key v)) sorted).map fun (k, run) =>
    .seq [(run.head?.map key).getD k, .seq run])

private def chunks (size : Nat) : (fuel : Nat) → List Value → List (List Value)
  | 0, _ | _, [] => []
  | fuel + 1, items => items.take size :: chunks size fuel (items.drop size)

private def batch (value : Value) (args : Args) : Result Value := do
  let values ← args.upTo 2
  let size ← toNat (← required values 0)
  if size = 0 then invalid
  let items ← itemsOf value
  let fill (chunk : List Value) : List Value :=
    match optional values 1 with
    | some filler => chunk ++ List.replicate (size - chunk.length) filler
    | none => chunk
  return .seq ((chunks size items.length items).map fun chunk => .seq (fill chunk))

private def slice (value : Value) (args : Args) : Result Value := do
  let values ← args.upTo 2
  let count ← toNat (← required values 0)
  if count = 0 then invalid
  let items ← itemsOf value
  let size := items.length / count
  let longer := items.length % count
  let part (n : Nat) : Value :=
    let start := n * size + min n longer
    let taken := (items.drop start).take (if n < longer then size + 1 else size)
    match optional values 1 with
    | some filler => .seq (if n < longer then taken else taken ++ [filler])
    | none => .seq taken
  return .seq ((List.range count).map part)

private def sum (value : Value) (args : Args) : Result Value := do
  let values ← args.withNames 1 ["attribute"]
  let items ← itemsOf value
  let place := (optional values 0).orElse fun _ => args.named? "attribute"
  (items.map (attrOf place)).foldlM Value.add (.int 0)

private def join (value : Value) (args : Args) : Result Value := do
  let values ← args.upTo 1
  let joiner := ((optional values 0).map Value.text).getD ""
  let items ← itemsOf value
  return .str (joiner.intercalate (items.map Value.text)) false

private def first (value : Value) : Result Value :=
  match value with
  | .str _ _ | .seq _ | .map _ => do return (← itemsOf value).head?.getD .undefined
  | _ => invalid

private def last (value : Value) : Result Value :=
  match value with
  | .str _ _ | .seq _ => do return (← itemsOf value).getLast?.getD .undefined
  | _ => invalid

private def reverse (value : Value) : Result Value :=
  match value with
  | .undefined | .nothing => .ok value
  | .str text safe => .ok (.str (String.ofList text.toList.reverse) safe)
  | .seq _ | .map _ => do return .seq (← itemsOf value).reverse
  | _ => invalid

private def extremum (wanted : Ordering) (value : Value) : Result Value := do
  match ← itemsOf value with
  | [] => return .undefined
  | v :: rest => return rest.foldl (fun best v => if v.order best = wanted then v else best) v

private def default (value : Value) (args : Args) : Result Value := do
  let values ← args.withNames 2 ["default_value", "boolean"]
  let lax ← flag ((optional values 1).orElse fun _ => args.named? "boolean")
  if value.isUndefined || (lax && !value.isTrue) then
    return (values[0]?.orElse fun _ => args.named? "default_value").getD (.str "" false)
  return value

private def chain (value : Value) (args : Args) : Result Value := do
  let parts := value :: (← args.upTo 1000)
  if parts.all (·.kind = .map) then
    return Value.sortedMap (parts.reverse.flatMap fun
      | .map entries => entries
      | _ => [])
  return .seq (← parts.mapM itemsOf).flatten

private def zipLists : List (List Value) → (fuel : Nat) → List Value
  | _, 0 => []
  | lists, fuel + 1 =>
      if lists.any List.isEmpty then []
      else .seq (lists.filterMap List.head?) :: zipLists (lists.map List.tail) fuel

private def zip (value : Value) (args : Args) : Result Value := do
  let lists ← (value :: (← args.upTo 1000)).mapM itemsOf
  return .seq (zipLists lists ((lists.head?.map List.length).getD 0))

/-! ## Layout over several lines -/

mutual

private def spread (depth : Nat) : Value → String
  | .seq (item :: rest) =>
      "[\n" ++ spreadItems (depth + 1) (item :: rest) ++ "".pushn ' ' (4 * depth) ++ "]"
  | .map (entry :: rest) =>
      "\x7b\n" ++ spreadEntries (depth + 1) (entry :: rest) ++ "".pushn ' ' (4 * depth) ++ "\x7d"
  | value => value.inner

private def spreadItems (depth : Nat) : List Value → String
  | [] => ""
  | item :: rest =>
      "".pushn ' ' (4 * depth) ++ spread depth item ++ ",\n" ++ spreadItems depth rest

private def spreadEntries (depth : Nat) : List (Value × Value) → String
  | [] => ""
  | (key, value) :: rest =>
      "".pushn ' ' (4 * depth) ++ spread depth key ++ ": " ++ spread depth value ++ ",\n" ++
        spreadEntries depth rest

end

def layOut (value : Value) : String := spread 0 value

/-! ## By name -/

private def alone (f : Value → Result Value) (value : Value) (args : Args) : Result Value := do
  let _ ← args.upTo 0
  f value

def plain? (name : String) : Option (Value → Args → Result Value) :=
  if name = "abs" then some (alone absolute)
  else if name = "int" then some (alone toInteger)
  else if name = "float" then some (alone toReal)
  else if name = "bool" then some (alone fun v => .ok (.bool v.isTrue))
  else if name = "round" then some fun value args => do
    let values ← args.upTo 1
    let places ← match optional values 0 with
      | some n => toInt n
      | none => pure 0
    round value places
  else if name = "length" ∨ name = "count" then some (alone fun v =>
    match v.length? with
    | some n => .ok (.int n)
    | none => invalid)
  else if name = "items" then some (alone fun
    | .map entries => .ok (.seq (entries.map fun (k, v) => .seq [k, v]))
    | _ => invalid)
  else if name = "list" then some (alone fun v => do return .seq (← itemsOf v))
  else if name = "first" then some (alone first)
  else if name = "last" then some (alone last)
  else if name = "min" then some (alone (extremum .lt))
  else if name = "max" then some (alone (extremum .gt))
  else if name = "reverse" then some (alone reverse)
  else if name = "join" then some join
  else if name = "sum" then some sum
  else if name = "sort" then some sort
  else if name = "dictsort" then some dictsort
  else if name = "unique" then some unique
  else if name = "groupby" then some groupBy
  else if name = "batch" then some batch
  else if name = "slice" then some slice
  else if name = "chain" then some chain
  else if name = "zip" then some zip
  else if name = "default" ∨ name = "d" then some default
  else if name = "pprint" then some (alone fun v => .ok (.str (layOut v) false))
  else if name = "attr" then some fun value args => do
    let values ← args.upTo 1
    return value.item (← required values 0)
  else text? name

/-! ## Filters that apply others -/

abbrev Apply := String → Value → Args → Result Value

private def nameOf (value : Value) : Result String :=
  match value.str? with
  | some name => .ok name
  | none => invalid

private def map (filter : Apply) (value : Value) (args : Args) : Result Value := do
  let items ← itemsOf value
  match args.named? "attribute" with
  | some place =>
      let _ ← args.withNames 0 ["attribute", "default"]
      return .seq (items.map fun v =>
        match atPath place.text v with
        | .undefined => (args.named? "default").getD .undefined
        | found => found)
  | none =>
      let name ← nameOf (← required args.positional 0)
      let rest : Args := ⟨args.positional.drop 1, args.named⟩
      return .seq (← items.mapM fun v => filter name v rest)

/-- The items that pass a test, or those that do not. -/
private def select (known : String → Bool) (wanted byAttr : Bool) (value : Value) (args : Args) :
    Result Value := do
  let key : Value → Value ← if byAttr then do
      let path ← required args.positional 0
      pure (atPath path.text)
    else pure id
  let positional := if byAttr then args.positional.drop 1 else args.positional
  let items ← itemsOf value
  let passes (v : Value) : Result Bool := do
    match positional with
    | [] => return (key v).isTrue
    | name :: rest => Test.passes known (← nameOf name) (key v) ⟨rest, args.named⟩
  return .seq (← items.filterM fun v => do return (← passes v) == wanted)

private def applying : List String := ["map", "select", "reject", "selectattr", "rejectattr"]

def isKnown (name : String) : Bool := (plain? name).isSome || applying.contains name

def runAt : (depth : Nat) → Apply
  | 0, _, _, _ => invalid
  | depth + 1, name, value, args =>
      match plain? name with
      | some filter => filter value args
      | none =>
          if name = "map" then map (runAt depth) value args
          else if name = "select" then select isKnown true false value args
          else if name = "reject" then select isKnown false false value args
          else if name = "selectattr" then select isKnown true true value args
          else if name = "rejectattr" then select isKnown false true value args
          else .error .unknownFilter

def run : Apply := runAt 16

end RpcContract.Template.Filter
