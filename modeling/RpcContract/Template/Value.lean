import RpcContract.Json.Printer
import RpcContract.Text.Quoted

/-!
# Template values

The values that expressions of a template have, and the causes for which a template fails.  A
routine, a name space and a loop are named by a number: what they hold is kept by the run.
-/

namespace RpcContract.Template

inductive Fault where
  | malformed
  | badEscape
  | unknownFilter
  | unknownTest
  | unknownFunction
  | unknownMethod
  | unknownBlock
  | invalidOperation
  | missingArgument
  | tooManyArguments
  | cannotUnpack
  | badSerialization
  | templateNotFound
deriving DecidableEq, Repr

def Fault.name : Fault → String
  | .malformed => "SyntaxError"
  | .badEscape => "BadEscape"
  | .unknownFilter => "UnknownFilter"
  | .unknownTest => "UnknownTest"
  | .unknownFunction => "UnknownFunction"
  | .unknownMethod => "UnknownMethod"
  | .unknownBlock => "UnknownBlock"
  | .invalidOperation => "InvalidOperation"
  | .missingArgument => "MissingArgument"
  | .tooManyArguments => "TooManyArguments"
  | .cannotUnpack => "CannotUnpack"
  | .badSerialization => "BadSerialization"
  | .templateNotFound => "TemplateNotFound"

/-- Where a loop stands: its number, the position of the current item, the number of items and how
many loops are around it. -/
structure LoopPlace where
  number : Nat
  index : Nat
  total : Nat
  depth : Nat
deriving DecidableEq, Repr, Inhabited

/-- What a routine shows of itself: its number, its name, the names of its parameters, and whether
it runs a body that its caller gives. -/
structure RoutineLabel where
  number : Nat
  name : String
  params : List String
  takesCaller : Bool
deriving DecidableEq, Repr, Inhabited

inductive Value where
  | undefined
  | nothing
  | bool (value : Bool)
  | int (value : Int)
  | real (value : Binary64)
  /-- A text; a safe one is never escaped again. -/
  | str (text : String) (safe : Bool)
  | seq (items : List Value)
  | map (entries : List (Value × Value))
  | routine (label : RoutineLabel)
  | space (number : Nat)
  | loop (place : LoopPlace) (before after : Value)
  | function (name : String)
deriving Repr, Inhabited

namespace Value

instance : Coe String Value := ⟨fun text => .str text false⟩

mutual

def ofJson : Json → Value
  | .null => .nothing
  | .bool b => .bool b
  | .int n => .int n
  | .real x => .real x
  | .str text => .str text false
  | .arr items => .seq (ofItems items)
  | .obj fields => .map (ofFields fields)

def ofItems : List Json → List Value
  | [] => []
  | item :: rest => ofJson item :: ofItems rest

def ofFields : List (String × Json) → List (Value × Value)
  | [] => []
  | (key, value) :: rest => (.str key false, ofJson value) :: ofFields rest

end

/-- What kind of thing a value is; values of different kinds are in the order of the kinds. -/
inductive Kind where
  | undefined | nothing | bool | number | text | seq | map | plain
deriving DecidableEq, Repr

def Kind.rank : Kind → Nat
  | .undefined => 0
  | .nothing => 1
  | .bool => 2
  | .number => 3
  | .text => 4
  | .seq => 5
  | .map => 6
  | .plain => 7

def kind : Value → Kind
  | .undefined => .undefined
  | .nothing => .nothing
  | .bool _ => .bool
  | .int _ | .real _ => .number
  | .str _ _ => .text
  | .seq _ => .seq
  | .map _ | .space _ | .loop _ _ _ => .map
  | .routine _ | .function _ => .plain

def isUndefined : Value → Bool
  | .undefined => true
  | _ => false

def isAbsent : Value → Bool
  | .undefined | .nothing => true
  | _ => false

def isTrue : Value → Bool
  | .undefined | .nothing => false
  | .bool b => b
  | .int n => n != 0
  | .real x => !x.isZero
  | .str text _ => !text.isEmpty
  | .seq items => !items.isEmpty
  | .map entries => !entries.isEmpty
  | .routine _ | .space _ | .loop _ _ _ | .function _ => true

/-! ## Text -/

def numberLayout : Layout where
  plainFrom := -400
  plainBelow := 400
  plusSign := false
  tie := .awayFromZero
  notANumber := "NaN"
  infinite := "inf"

private def loopText (place : LoopPlace) : String :=
  "<loop " ++ toString place.index ++ "/" ++ toString place.total ++ ">"

mutual

/-- The text of a value inside another one, where a text is quoted. -/
def inner : Value → String
  | .undefined => "undefined"
  | .nothing => "None"
  | .bool b => if b then "True" else "False"
  | .int n => toString n
  | .real x => numberLayout.render x
  | .str text _ => Text.quote text
  | .seq items => "[" ++ innerItems items ++ "]"
  | .map entries => "\x7b" ++ innerEntries entries ++ "\x7d"
  | .routine label => "<macro " ++ label.name ++ ">"
  | .space _ => "\x7b\x7d"
  | .loop place _ _ => loopText place
  | .function name => name

def innerItems : List Value → String
  | [] => ""
  | [item] => inner item
  | item :: rest => inner item ++ ", " ++ innerItems rest

def innerEntries : List (Value × Value) → String
  | [] => ""
  | [(key, value)] => inner key ++ ": " ++ inner value
  | (key, value) :: rest => inner key ++ ": " ++ inner value ++ ", " ++ innerEntries rest

end

def text : Value → String
  | .undefined => ""
  | .str text _ => text
  | value => inner value

/-! ## Numbers -/

/-- A whole number, a truth value, or a floating-point number without fraction. -/
def int? : Value → Option Int
  | .bool b => some (if b then 1 else 0)
  | .int n => some n
  | .real x =>
      let (num, den) := x.toRatio
      if x.isFinite ∧ num % den = 0 then some (num / den) else none
  | _ => none

def real? : Value → Option Binary64
  | .bool b => some (Binary64.ofInt (if b then 1 else 0))
  | .int n => some (Binary64.ofInt n)
  | .real x => some x
  | _ => none

def nat? (value : Value) : Option Nat :=
  match value.int? with
  | some n => if 0 ≤ n then some n.toNat else none
  | none => none

def str? : Value → Option String
  | .str text _ => some text
  | _ => none

/-! ## Equality and order -/

private def orderReals (a b : Binary64) : Ordering :=
  if a.toFloat < b.toFloat then .lt
  else if b.toFloat < a.toFloat then .gt
  else .eq

def isReal : Value → Bool
  | .real _ => true
  | _ => false

/-- Equality of values without parts; numbers are equal across their kinds. -/
def sameScalar (a b : Value) : Bool :=
  match a, b with
  | .undefined, .undefined | .nothing, .nothing => true
  | .str x _, .str y _ => x == y
  | .routine m, .routine n => m.number == n.number
  | .space m, .space n => m == n
  | .function x, .function y => x == y
  | .loop p _ _, .loop q _ _ => p == q
  | _, _ =>
      if a.isReal || b.isReal then
        match a.real?, b.real? with
        | some x, some y => x.toFloat == y.toFloat
        | _, _ => false
      else
        match a.int?, b.int? with
        | some m, some n => m == n
        | _, _ => false

mutual

def same : Value → Value → Bool
  | .seq a, b => match b with
      | .seq b => sameItems a b
      | _ => false
  | .map a, b => match b with
      | .map b => a.length == b.length && sameEntries a b
      | _ => false
  | a, b => sameScalar a b

def sameItems : List Value → List Value → Bool
  | [], [] => true
  | x :: a, y :: b => same x y && sameItems a b
  | _, _ => false

def sameEntries : List (Value × Value) → List (Value × Value) → Bool
  | [], _ => true
  | (key, value) :: rest, b =>
      b.any (fun other => same key other.1 && same value other.2) && sameEntries rest b

end

def orderScalar (a b : Value) : Ordering :=
  match a, b with
  | .str x _, .str y _ => compare x y
  | _, _ =>
      if a.isReal || b.isReal then
        match a.real?, b.real? with
        | some x, some y => orderReals x y
        | _, _ => .eq
      else
        match a.int?, b.int? with
        | some m, some n => compare m n
        | _, _ => .eq

mutual

def order : Value → Value → Ordering
  | .seq a, b => match b with
      | .seq b => orderItems a b
      | _ => compare Kind.seq.rank b.kind.rank
  | .map a, b => match b with
      | .map b => orderEntries a b
      | _ => compare Kind.map.rank b.kind.rank
  | a, b => (compare a.kind.rank b.kind.rank).then (orderScalar a b)

def orderItems : List Value → List Value → Ordering
  | [], [] => .eq
  | [], _ :: _ => .lt
  | _ :: _, [] => .gt
  | x :: a, y :: b => (order x y).then (orderItems a b)

def orderEntries : List (Value × Value) → List (Value × Value) → Ordering
  | [], [] => .eq
  | [], _ :: _ => .lt
  | _ :: _, [] => .gt
  | (k, x) :: a, (l, y) :: b => ((order k l).then (order x y)).then (orderEntries a b)

end

/-! ## Parts -/

def lookup (key : Value) : List (Value × Value) → Option Value
  | [] => none
  | (k, value) :: rest => if k.same key then some value else lookup key rest

def insertEntry (key value : Value) : List (Value × Value) → List (Value × Value)
  | [] => [(key, value)]
  | (k, v) :: rest =>
      match key.order k with
      | .lt => (key, value) :: (k, v) :: rest
      | .eq => (key, value) :: rest
      | .gt => (k, v) :: insertEntry key value rest

/-- A map in the order of its keys; of two entries with one key the later one counts. -/
def sortedMap (entries : List (Value × Value)) : Value :=
  .map (entries.foldl (fun map entry => insertEntry entry.1 entry.2 map) [])

def loopAttr (place : LoopPlace) (before after : Value) (name : String) : Option Value :=
  if name = "index0" then some (.int place.index)
  else if name = "index" then some (.int (place.index + 1))
  else if name = "length" then some (.int place.total)
  else if name = "revindex" then some (.int (place.total - place.index : Nat))
  else if name = "revindex0" then some (.int (place.total - place.index - 1 : Nat))
  else if name = "first" then some (.bool (place.index == 0))
  else if name = "last" then some (.bool (place.index + 1 == place.total))
  else if name = "depth" then some (.int (place.depth + 1))
  else if name = "depth0" then some (.int place.depth)
  else if name = "previtem" then some before
  else if name = "nextitem" then some after
  else none

def routineAttr (label : RoutineLabel) (name : String) : Option Value :=
  if name = "name" then some (.str label.name false)
  else if name = "arguments" then some (.seq (label.params.map fun param => .str param false))
  else if name = "caller" then some (.bool label.takesCaller)
  else none

def itemAt {α : Type} (items : List α) (position : Int) : Option α :=
  if 0 ≤ position then items[position.toNat]?
  else if (-position).toNat ≤ items.length then items[items.length - (-position).toNat]?
  else none

/-- What stands in a value under a key; undefined if nothing does. -/
def item (value key : Value) : Value :=
  match value with
  | .map entries => (lookup key entries).getD .undefined
  | .seq items => ((key.int?.bind (itemAt items))).getD .undefined
  | .str text _ =>
      match key.int?.bind (itemAt text.toList) with
      | some c => .str (String.singleton c) false
      | none => .undefined
  | .loop place before after =>
      match key.str? with
      | some name => (loopAttr place before after name).getD .undefined
      | none => .undefined
  | .routine label => ((key.str?).bind (routineAttr label)).getD .undefined
  | _ => .undefined

def attr (value : Value) (name : String) : Value :=
  match value with
  | .map _ | .loop _ _ _ | .routine _ => value.item (.str name false)
  | _ => .undefined

def length? : Value → Option Nat
  | .str text _ => some text.length
  | .seq items => some items.length
  | .map entries => some entries.length
  | _ => none

def items? : Value → Option (List Value)
  | .undefined | .nothing => some []
  | .str text _ => some (text.toList.map fun c => .str (String.singleton c) false)
  | .seq items => some items
  | .map entries => some (entries.map Prod.fst)
  | _ => none

end Value

structure Args where
  positional : List Value := []
  named : List (String × Value) := []
deriving Repr, Inhabited

namespace Args

/-- For a callee that takes no names: these are then one more argument, a map. -/
def all (args : Args) : List Value :=
  if args.named.isEmpty then args.positional
  else
    let entries := args.named.map fun entry => (Value.str entry.1 false, entry.2)
    args.positional ++ [Value.sortedMap entries]

end Args

end RpcContract.Template
