import RpcContract.Text.Blank
import RpcContract.Text.CaseMap

/-!
# Log directives

A directive sets the level of what is logged: for a target, for a span, or for everything.  A
`Filter` holds directives, the most specific ones first, and at most one for each place.
-/

namespace RpcContract.Logging

inductive Level where
  | off | error | warn | info | debug | trace
deriving DecidableEq, Repr

namespace Level

def name : Level → String
  | .off => "off"
  | .error => "error"
  | .warn => "warn"
  | .info => "info"
  | .debug => "debug"
  | .trace => "trace"

def all : List Level := [.off, .error, .warn, .info, .debug, .trace]

private def asciiLower (c : Char) : Char := c.toLower

private def digits? (text : String) : Option Nat :=
  let cs := match text.toList with
    | '+' :: rest => rest
    | cs => cs
  if cs.isEmpty || !cs.all Char.isDigit then none
  else some (cs.foldl (fun n c => n * 10 + (c.toNat - '0'.toNat)) 0)

/-- A level by its name, in letters of any case, or by its number. -/
def ofText? (text : String) : Option Level :=
  match (digits? text).bind fun n => all[n]? with
  | some level => some level
  | none => all.find? fun level => level.name.toList = text.toList.map asciiLower

end Level

structure Place where
  target : Option String := none
  span : Option String := none
  fields : List String := []
deriving DecidableEq, Repr, Inhabited

structure Directive where
  place : Place := {}
  level : Level := .trace
deriving DecidableEq, Repr

namespace Directive

/-! ## Reading -/

/-- How far a directive has been read; numbers are positions of what is being read. -/
inductive Stage where
  | start
  | levelOrTarget (start : Nat)
  | span (start : Nat)
  | field (start : Nat)
  | fields
  | target
  | level (start : Nat)
deriving DecidableEq, Repr

private def between (text : List Char) (start stop : Nat) : String :=
  String.ofList ((text.take stop).drop start)

private def setTarget (directive : Directive) (target : String) : Directive :=
  { directive with place := { directive.place with target := some target } }

def step (text : List Char) (i : Nat) (c : Char) : Stage × Directive → Option (Stage × Directive)
  | (.start, d) =>
      if c = '[' then some (.span (i + 1), d)
      else if c = '-' ∨ c = ':' ∨ c = '_' ∨ c.isAlphanum ∨ Text.hasCase c then
        some (.levelOrTarget i, d)
      else none
  | (.levelOrTarget start, d) =>
      if c = '=' then some (.level (i + 1), d.setTarget (between text start i))
      else if c = '[' then some (.span (i + 1), d.setTarget (between text start i))
      else some (.levelOrTarget start, d)
  | (.span start, d) =>
      let name := between text start i
      if c = ']' then some (.target, { d with place := { d.place with span := some name } })
      else if c = '\x7b' then
        let span := if name.isEmpty then none else some name
        some (.field (i + 1), { d with place := { d.place with span := span } })
      else some (.span start, d)
  | (.field start, d) =>
      if c = '\x7d' then
        let name := between text start i
        if name.isEmpty then none
        else some (.fields, { d with place := { d.place with fields := d.place.fields ++ [name] } })
      else some (.field start, d)
  | (.fields, d) => if c = ']' then some (.target, d) else none
  | (.target, d) => if c = '=' then some (.level (i + 1), d) else none
  | (.level start, d) => some (.level start, d)

def steps (text : List Char) : Nat → List Char → Stage × Directive → Option (Stage × Directive)
  | _, [], state => some state
  | i, c :: rest, state =>
      match step text i c state with
      | some state => steps text (i + 1) rest state
      | none => none

def finish (text : List Char) : Stage × Directive → Option Directive
  | (.levelOrTarget start, d) =>
      let word := between text start text.length
      match Level.ofText? word with
      | some level => some { d with level := level, place := { d.place with target := none } }
      | none => some (d.setTarget word)
  | (.level start, d) =>
      let word := between text start text.length
      if word.isEmpty then some d
      else (Level.ofText? word).map fun level => { d with level := level }
  | (.target, d) => some d
  | _ => none

def ofText? (text : String) : Option Directive :=
  let cs := text.toList
  (steps cs 0 (Text.trimBlanks text).toList (.start, {})).bind (finish cs)

/-! ## Writing -/

def text (directive : Directive) : String :=
  let place := directive.place
  let fields := if place.fields.isEmpty then ""
    else "\x7b" ++ ",".intercalate place.fields ++ "\x7d"
  let inner := if place.span.isNone && place.fields.isEmpty then ""
    else "[" ++ place.span.getD "" ++ fields ++ "]"
  let where_ := place.target.getD "" ++ inner
  if place.target.isNone && inner.isEmpty then directive.level.name
  else where_ ++ "=" ++ directive.level.name

/-- Whether a directive applies by target and field names alone. -/
def isStatic (directive : Directive) : Bool :=
  directive.place.span.isNone && directive.place.fields.all fun field => !field.contains '='

end Directive

namespace Place

private def orderOptions {α : Type} (order : α → α → Ordering) : Option α → Option α → Ordering
  | none, none => .eq
  | none, some _ => .lt
  | some _, none => .gt
  | some a, some b => order a b

def order (a b : Place) : Ordering :=
  let size (p : Place) : Option Nat := p.target.map String.utf8ByteSize
  (((orderOptions compare (size a) (size b)).then
      (compare a.span.isSome.toNat b.span.isSome.toNat)).then
      (compare a.fields.length b.fields.length)).then
    (((orderOptions compare a.target b.target).then (orderOptions compare a.span b.span)).then
      (compare a.fields b.fields))

end Place

/-- Directives, those of a fixed place apart from those that look at values. -/
structure Filter where
  fixed : List Directive := []
  varying : List Directive := []
deriving DecidableEq, Repr

namespace Filter

/-- Puts a directive before the less specific ones, over an earlier one for its place. -/
def insertDirective (directive : Directive) : List Directive → List Directive
  | [] => [directive]
  | other :: rest =>
      match directive.place.order other.place with
      | .gt => directive :: other :: rest
      | .eq => directive :: rest
      | .lt => other :: insertDirective directive rest

def add (filter : Filter) (directive : Directive) : Filter :=
  if directive.isStatic then { filter with fixed := insertDirective directive filter.fixed }
  else { filter with varying := insertDirective directive filter.varying }

def ofLevel (level : Level) : Filter := ({} : Filter).add ⟨{}, level⟩

def splitCommas : List Char → List (List Char)
  | [] => [[]]
  | c :: rest =>
      if c = ',' then [] :: splitCommas rest
      else
        match splitCommas rest with
        | [] => [[c]]
        | piece :: pieces => (c :: piece) :: pieces

def pieces (text : String) : List String := (splitCommas text.toList).map String.ofList

/-- A filter from directives between commas; errors only, if there are none. -/
def ofText? (text : String) : Option Filter :=
  match ((pieces text).filter fun piece => !piece.isEmpty).mapM Directive.ofText? with
  | none => none
  | some [] => some (ofLevel .error)
  | some directives =>
      let byName := directives.filter fun d => !(d.place.span.isNone && d.place.fields.isEmpty)
      let plain := directives.filter fun d => d.place.span.isNone && d.place.fields.isEmpty
      let fixed := (plain ++ byName.filter Directive.isStatic).foldl
        (fun ds d => insertDirective d ds) []
      some ⟨fixed, byName.foldl (fun ds d => insertDirective d ds) []⟩

def text (filter : Filter) : String :=
  ",".intercalate ((filter.fixed ++ filter.varying).map Directive.text)

end Filter

end RpcContract.Logging
