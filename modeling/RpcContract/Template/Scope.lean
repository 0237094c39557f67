import RpcContract.Template.Basic
import RpcContract.Template.Filters

/-!
# What a run of a template holds

A run keeps a stack of frames of variables.  Loops, scopes, blocks and calls push a frame; how deep
they nest is bounded.  Routines, name spaces and what routines have captured are kept in lists, and
values name them by their places there.
-/

namespace RpcContract.Template

inductive Escaping where
  | none
  | markup
  | json
deriving DecidableEq, Repr

structure LoopSpec where
  target : Target
  body : List Stmt

structure Frame where
  vars : List (String × Value) := []
  loop : Option Value := none
  /-- In a loop: its body, if it may call itself. -/
  again : Option LoopSpec := none
  isLoop : Bool := false
  /-- Where the variables captured by the routines of this frame are kept. -/
  captured : Option Nat := none

structure Routine where
  name : String
  params : List Param
  body : List Stmt
  captured : Nat
  takesCaller : Bool

structure Scope where
  frames : List Frame
  /-- How deep the caller of the current routine is. -/
  outer : Nat := 0
  routines : List Routine := []
  captures : List (List (String × Value)) := []
  spaces : List (List (Value × Value)) := []
  /-- For each loop, the values that its last check for a change saw. -/
  checked : List (Nat × List Value) := []
  loops : Nat := 0
  escaping : Escaping := .none

abbrev Run := StateT Scope (Except Fault)

def depthLimit : Nat := 500

/-- How many frames a call counts for, besides its own. -/
def callCost : Nat := 4

namespace Scope

def depth (scope : Scope) : Nat := scope.outer + scope.frames.length

def lookupIn (name : String) : List Frame → Option Value
  | [] => none
  | frame :: rest =>
      match lookupEntry name frame.vars with
      | some value => some value
      | none => if name = "loop" ∧ frame.loop.isSome then frame.loop else lookupIn name rest

def functions : List String := ["range", "dict", "debug", "namespace", "join_path"]

/-- The value of a name: a variable of the innermost frame that has it, or a function. -/
def lookup (scope : Scope) (name : String) : Option Value :=
  match lookupIn name scope.frames with
  | some value => some value
  | none => if functions.contains name then some (.function name) else none

/-- All variables that can be seen; of those with one name the first counts. -/
def visible (scope : Scope) : List (String × Value) :=
  scope.frames.flatMap fun frame =>
    frame.vars ++ (frame.loop.map fun value => ("loop", value)).toList

end Scope

def assign (name : String) (value : Value) : List (String × Value) → List (String × Value)
  | [] => [(name, value)]
  | (n, v) :: rest => if n = name then (name, value) :: rest else (n, v) :: assign name value rest

namespace Run

def invalid {α : Type} : Run α := throw .invalidOperation

def pushFrame (frame : Frame) : Run Unit := do
  let scope ← get
  if depthLimit < scope.depth then invalid
  else set { scope with frames := frame :: scope.frames }

def popFrame : Run Unit := modify fun scope => { scope with frames := scope.frames.drop 1 }

def within {α : Type} (frame : Frame) (run : Run α) : Run α := do
  pushFrame frame
  let result ← run
  popFrame
  return result

def modifyFrame (f : Frame → Frame) : Run Unit := modify fun scope =>
  match scope.frames with
  | [] => scope
  | frame :: rest => { scope with frames := f frame :: rest }

/-- Stores a value in the innermost frame; routines made in that frame see it too. -/
def storeVar (name : String) (value : Value) : Run Unit := do
  modifyFrame fun frame => { frame with vars := assign name value frame.vars }
  modify fun scope =>
    match scope.frames.head?.bind Frame.captured with
    | some n => { scope with captures := scope.captures.modify n (assign name value) }
    | none => scope

/-- Where the routines of the innermost frame find the variables that can be seen now. -/
def capture : Run Nat := do
  let scope ← get
  let n := (scope.frames.head?.bind Frame.captured).getD scope.captures.length
  let old := scope.captures[n]?.getD []
  let fresh := scope.visible.filter fun entry => (lookupEntry entry.1 old).isNone
  let captures := if n < scope.captures.length then scope.captures.set n (old ++ fresh)
    else scope.captures ++ [fresh]
  set { scope with captures := captures }
  modifyFrame fun frame => { frame with captured := some n }
  return n

def makeRoutine (name : String) (params : List Param) (body : List Stmt) : Run Value := do
  let n ← capture
  let scope ← get
  let routine : Routine := ⟨name, params, body, n, Stmt.mentionsAny "caller" body⟩
  set { scope with routines := scope.routines ++ [routine] }
  return .routine ⟨scope.routines.length, name, params.map Param.name, routine.takesCaller⟩

/-- A name space as a map; any other value as it is. -/
def resolve : Value → Run Value
  | .space n => do return .map (((← get).spaces[n]?).getD [])
  | value => pure value

def holds (value : Value) : Run Bool := do return (← resolve value).isTrue

def printed (value : Value) : Run String := do
  let value ← resolve value
  match (← get).escaping with
  | .none => return value.text
  | .markup => return Filter.markup value
  | .json =>
      match value with
      | .str text true => return text
      | value => Filter.jsonText none value

def itemsOf (value : Value) : Run (List Value) := do
  match (← resolve value).items? with
  | some items => return items
  | none => invalid

def escapingOf (value : Value) : Run Escaping :=
  match value with
  | .str text _ =>
      if text = "html" then return .markup
      else if text = "json" then return .json
      else if text = "none" then return .none
      else invalid
  | value => return if value.same (.bool true) then .markup else .none

end Run

end RpcContract.Template
