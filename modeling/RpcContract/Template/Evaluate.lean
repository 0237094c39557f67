import RpcContract.Address.Join
import RpcContract.Template.Grammar
import RpcContract.Template.Scope

/-!
# Evaluation

Expressions and statements are evaluated by recursion on their structure.  What a template can enter
again from inside - a routine, a loop that calls itself, a block - is given as a `Reentry`, which
`reentryAt` makes for any depth.
-/

namespace RpcContract.Template

/-- What can be entered again while a template runs. -/
structure Reentry where
  routine : Nat → Args → Run Value
  loop : LoopSpec → Value → Run String
  block : String → Run String

namespace Run

/-! ## Functions -/

def rangeLimit : Nat := 100000

private def range (args : Args) : Except Fault Value := do
  let values ← args.upTo 3
  let low ← Args.toNat (← Args.required values 0)
  let (low, high) ← match Args.optional values 1 with
    | some high => do pure (low, ← Args.toNat high)
    | none => pure (0, low)
  let step ← match Args.optional values 2 with
    | some step => Args.toNat step
    | none => pure 1
  if step = 0 then throw .invalidOperation
  let count := (high - low + step - 1) / step
  if rangeLimit < count then throw .invalidOperation
  return .seq ((List.range count).map fun (n : Nat) => .int (low + n * step : Nat))

private def entriesOf (args : Args) : Except Fault (List (Value × Value)) := do
  if 1 < args.positional.length then throw .tooManyArguments
  let base ← match Args.optional args.positional 0 with
    | none => pure []
    | some (.map entries) => pure entries
    | some _ => throw .invalidOperation
  return base ++ args.named.map fun (name, value) => (.str name false, value)

private def callFunction (name : String) (args : Args) : Run Value := do
  if name = "range" then range args
  else if name = "dict" then return Value.sortedMap (← entriesOf args)
  else if name = "namespace" then
    let .map entries := Value.sortedMap (← entriesOf args) | invalid
    let scope ← get
    set { scope with spaces := scope.spaces ++ [entries] }
    return .space scope.spaces.length
  else if name = "join_path" then return .str (joinPath (args.all.map Value.text)) false
  else
    match args.all with
    | [value] => return .str (Filter.layOut value) false
    | values => return .str (Filter.layOut (.seq values)) false

/-! ## Calls -/

def callValue (again : Reentry) (callee : Value) (args : Args) : Run Value :=
  match callee with
  | .routine label => again.routine label.number args
  | .function name => callFunction name args
  | _ => invalid

private def callLoop (again : Reentry) (args : Args) : Run Value := do
  let frame := (← get).frames.find? (·.isLoop)
  match frame.bind Frame.again, args.all with
  | some spec, [value] => return .str (← again.loop spec value) false
  | _, _ => invalid

def callNamed (again : Reentry) (name : String) (args : Args) : Run Value := do
  if name = "super" then invalid
  else if name = "loop" then callLoop again args
  else
    match (← get).lookup name with
    | some callee => callValue again callee args
    | none => throw .unknownFunction

def callMethod (again : Reentry) (holder : Value) (name : String) (args : Args) : Run Value := do
  match ← resolve holder with
  | .loop place _ _ =>
      if name = "cycle" then
        let values := args.all
        return (values[place.index % values.length]?).getD .undefined
      else if name = "changed" then
        let scope ← get
        let before := (scope.checked.find? (·.1 == place.number)).map Prod.snd
        let others := scope.checked.filter (·.1 != place.number)
        set { scope with checked := (place.number, args.all) :: others }
        return .bool (!before.any fun values => (Value.seq values).same (.seq args.all))
      else throw .unknownMethod
  | .map entries =>
      match Value.lookup (.str name false) entries with
      | some callee => callValue again callee args
      | none => throw .unknownMethod
  | _ => throw .unknownMethod

private def addArg (args : Args) (passing : Passing) (value : Value) : Run Args := do
  match passing with
  | .position => return { args with positional := args.positional ++ [value] }
  | .name name => return { args with named := assign name value args.named }
  | .list => return { args with positional := args.positional ++ (← itemsOf value) }
  | .map =>
      let .map entries ← resolve value | invalid
      let add (named : List (String × Value)) (entry : Value × Value) : List (String × Value) :=
        assign entry.1.text entry.2 named
      return { args with named := entries.foldl add args.named }

def makeArgs : Args → List Passing → List Value → Run Args
  | args, passing :: ps, value :: vs => do makeArgs (← addArg args passing value) ps vs
  | args, _, _ => return args

def filtered (name : String) (value : Value) (args : Args) : Run Value := do
  Filter.run name (← resolve value) args

private def storedIn (value : Value) (name : String) : Run Value := do
  return (← resolve value).attr name

end Run

open Run

/-! ## Expressions -/

mutual

def Expr.eval (again : Reentry) : Expr → Run Value
  | .const value => return value
  | .var name => do return ((← get).lookup name).getD .undefined
  | .list items => do return .seq (← Expr.evalAll again items)
  | .map keys values => do
      let keys ← Expr.evalAll again keys
      let values ← Expr.evalAll again values
      return Value.sortedMap (keys.zip values)
  | .not operand => do return .bool (!(← holds (← operand.eval again)))
  | .neg operand => do Value.neg (← operand.eval again)
  | .binary op left right => do
      let a ← left.eval again
      let b ← right.eval again
      Value.operate op a b
  | .and left right => do
      let a ← left.eval again
      if ← holds a then right.eval again else return a
  | .or left right => do
      let a ← left.eval again
      if ← holds a then return a else right.eval again
  | .choose condition yes no => do
      if ← holds (← condition.eval again) then yes.eval again else no.eval again
  | .attr operand name => do storedIn (← operand.eval again) name
  | .item operand key => do
      let holder ← resolve (← operand.eval again)
      return holder.item (← key.eval again)
  | .slice operand start stop step => do
      let value ← operand.eval again
      let start ← start.eval again
      let stop ← stop.eval again
      let step ← step.eval again
      Value.slice value start stop step
  | .filter name operand passing args => do
      let value ← operand.eval again
      filtered name value (← makeArgs {} passing (← Expr.evalAll again args))
  | .test name operand passing args => do
      let value ← resolve (← operand.eval again)
      let args ← makeArgs {} passing (← Expr.evalAll again args)
      return .bool (← Test.passes Filter.isKnown name value args)
  | .call name passing args => do
      callNamed again name (← makeArgs {} passing (← Expr.evalAll again args))
  | .method (.var "self") name _ _ => do return .str (← again.block name) false
  | .method operand name passing args => do
      let holder ← operand.eval again
      callMethod again holder name (← makeArgs {} passing (← Expr.evalAll again args))
  | .apply callee passing args => do
      let callee ← callee.eval again
      callValue again callee (← makeArgs {} passing (← Expr.evalAll again args))

def Expr.evalAll (again : Reentry) : List Expr → Run (List Value)
  | [] => return []
  | e :: rest => do
      let value ← e.eval again
      return value :: (← Expr.evalAll again rest)

end

/-- A call with one more argument by name. -/
def Expr.evalCallWith (again : Reentry) (caller : Value) (call : Expr) : Run Value := do
  let argsOf (passing : List Passing) (args : List Expr) : Run Args := do
    let args ← makeArgs {} passing (← Expr.evalAll again args)
    return { args with named := assign "caller" caller args.named }
  match call with
  | .call name passing args => do callNamed again name (← argsOf passing args)
  | .method operand name passing args => do
      let holder ← operand.eval again
      callMethod again holder name (← argsOf passing args)
  | .apply callee passing args => do
      let callee ← callee.eval again
      callValue again callee (← argsOf passing args)
  | _ => invalid

def FilterUse.applyAll (again : Reentry) : List FilterUse → Value → Run Value
  | [], value => return value
  | use :: rest, value => do
      let args ← makeArgs {} use.passing (← Expr.evalAll again use.args)
      FilterUse.applyAll again rest (← filtered use.name value args)

mutual

/-- Stores a value; a target with parts takes a list of as many items. -/
def Target.store (again : Reentry) : Target → Value → Run Unit
  | .var name, value => storeVar name value
  | .attr holder name, value => do
      let .space n ← holder.eval again | invalid
      modify fun scope => { scope with
        spaces := scope.spaces.modify n (Value.insertEntry (.str name false) value) }
  | .parts targets, value => do
      match (← resolve value).items? with
      | some items => Target.storeAll again targets items
      | none => throw .cannotUnpack

def Target.storeAll (again : Reentry) : List Target → List Value → Run Unit
  | [], [] => return ()
  | target :: targets, value :: values => do
      target.store again value
      Target.storeAll again targets values
  | _, _ => throw .cannotUnpack

end

/-! ## Loops -/

def runItems (store : Value → Run Unit) (body : Run String) (place : LoopPlace) :
    (before : Value) → List Value → (done : String) → Run String
  | _, [], done => return done
  | before, item :: rest, done => do
      let value : Value := .loop place before (rest.head?.getD .undefined)
      modifyFrame fun frame => { frame with loop := some value }
      store item
      let text ← body
      runItems store body { place with index := place.index + 1 } item rest (done ++ text)

def runLoop (again : Option LoopSpec) (store : Value → Run Unit) (body : Run String)
    (items : List Value) : Run String := do
  let scope ← get
  let depth := match scope.frames.find? (·.isLoop) with
    | some ⟨_, some (.loop place _ _), some _, _, _⟩ => place.depth + 1
    | _ => 0
  set { scope with loops := scope.loops + 1 }
  within { isLoop := true, again := again } <|
    runItems store body ⟨scope.loops, 0, items.length, depth⟩ .undefined items ""

/-- The items that a condition holds for, in a frame of its own. -/
def keepItems (store : Value → Run Unit) (condition : Run Value) (items : List Value) :
    Run (List Value) :=
  within { isLoop := true } <| items.filterM fun item => do
    store item
    holds (← condition)

/-! ## Statements -/

def withEscaping (mode : Escaping) (run : Run String) : Run String := do
  let before := (← get).escaping
  modify fun scope => { scope with escaping := mode }
  let text ← run
  modify fun scope => { scope with escaping := before }
  return text

def capturedText (text : String) : Run Value := do
  return .str text ((← get).escaping != .none)

mutual

def Stmt.exec (again : Reentry) : Stmt → Run String
  | .text content => return content
  | .print value => do printed (← value.eval again)
  | .loop target values keep recursive body otherwise => do
      let items ← itemsOf (← values.eval again)
      let items ← match keep with
        | none => pure items
        | some condition => keepItems (target.store again) (condition.eval again) items
      let spec := if recursive then some ⟨target, body⟩ else none
      let out ← runLoop spec (target.store again) (Stmt.execAll again body) items
      if items.isEmpty then Stmt.execAll again otherwise else return out
  | .choose condition yes no => do
      if ← holds (← condition.eval again) then Stmt.execAll again yes else Stmt.execAll again no
  | .scope targets values body =>
      within {} do
        let bindings := targets.zip values
        bindings.forM fun (target, value) => do target.store again (← value.eval again)
        Stmt.execAll again body
  | .set target value => do
      target.store again (← value.eval again)
      return ""
  | .setText target filters body => do
      let value ← capturedText (← Stmt.execAll again body)
      target.store again (← FilterUse.applyAll again filters value)
      return ""
  | .escaping mode body => do
      let mode ← escapingOf (← mode.eval again)
      withEscaping mode (Stmt.execAll again body)
  | .filtered filters body => do
      let value ← capturedText (← Stmt.execAll again body)
      printed (← FilterUse.applyAll again filters value)
  | .block _ body => within {} (Stmt.execAll again body)
  | .routine name params body => do
      storeVar name (← makeRoutine name params body)
      return ""
  | .callWith call params body => do
      let caller ← makeRoutine "caller" params body
      printed (← call.evalCallWith again caller)
  | .run call => do
      let _ ← call.eval again
      return ""
  | .include name optional => do
      let name ← name.eval again
      let names := match name with
        | .seq names => names
        | name => [name]
      for name in names do
        if name.kind ≠ .text then invalid
      if names.isEmpty || optional then return "" else throw .templateNotFound
  | .import name => do
      if (← name.eval again).kind = .text then throw .templateNotFound else invalid

def Stmt.execAll (again : Reentry) : List Stmt → Run String
  | [] => return ""
  | stmt :: rest => do
      let first ← stmt.exec again
      return first ++ (← Stmt.execAll again rest)

end

/-! ## Entering again -/

/-- The value of every parameter: by position, by name, or none. -/
def argValues (params : List Param) (args : Args) : Except Fault (List (Param × Value)) :=
  if params.length < args.positional.length then .error .tooManyArguments
  else
    (params.zip (List.range params.length)).mapM fun (param, n) =>
      match args.positional[n]?, lookupEntry param.name args.named with
      | some _, some _ => .error .tooManyArguments
      | some value, none | none, some value => .ok (param, value)
      | none, none => .ok (param, .undefined)

/-- Runs a routine in frames of its own, which see what it has captured. -/
def enterRoutine (again : Reentry) (number : Nat) (args : Args) : Run Value := do
  let outside ← get
  let some routine := outside.routines[number]? | invalid
  let values ← argValues routine.params args
  let names := routine.params.map Param.name ++ (if routine.takesCaller then ["caller"] else [])
  unless args.named.all fun entry => names.contains entry.1 do throw .tooManyArguments
  let depth := outside.depth + callCost
  if depthLimit < depth + 1 then invalid
  let seen : Frame := { vars := (outside.captures[routine.captured]?).getD [] }
  let caller := if routine.takesCaller then
      [("caller", (lookupEntry "caller" args.named).getD .undefined)]
    else []
  set { outside with frames := [{ vars := caller }, seen], outer := depth - 1 }
  values.reverse.forM fun (param, value) => do
    match param.default, value with
    | some default, .undefined => do storeVar param.name (← default.eval again)
    | _, value => storeVar param.name value
  let value ← capturedText (← Stmt.execAll again routine.body)
  modify fun scope => { scope with
    frames := outside.frames, outer := outside.outer, escaping := outside.escaping }
  return value

def enterLoop (again : Reentry) (spec : LoopSpec) (value : Value) : Run String := do
  let items ← itemsOf value
  runLoop (some spec) (spec.target.store again) (Stmt.execAll again spec.body) items

def enterBlock (again : Reentry) (blocks : List (String × List Stmt)) (name : String) :
    Run String :=
  match lookupEntry name blocks with
  | some body => within {} (Stmt.execAll again body)
  | none => throw .unknownBlock

/-- Entering again, at most so many times one inside the other. -/
def reentryAt (blocks : List (String × List Stmt)) : Nat → Reentry
  | 0 => ⟨fun _ _ => invalid, fun _ _ => invalid, fun _ => invalid⟩
  | n + 1 =>
      let again := reentryAt blocks n
      ⟨enterRoutine again, enterLoop again, enterBlock again blocks⟩

mutual

/-- The blocks of a template, also those inside others. -/
def Stmt.blocks : Stmt → List (String × List Stmt)
  | .block name body => (name, body) :: Stmt.blocksOf body
  | .loop _ _ _ _ body otherwise => Stmt.blocksOf body ++ Stmt.blocksOf otherwise
  | .choose _ yes no => Stmt.blocksOf yes ++ Stmt.blocksOf no
  | .scope _ _ body | .setText _ _ body | .escaping _ body | .filtered _ body
  | .routine _ _ body | .callWith _ _ body => Stmt.blocksOf body
  | .text _ | .print _ | .set _ _ | .run _ | .include _ _ | .import _ => []

def Stmt.blocksOf : List Stmt → List (String × List Stmt)
  | [] => []
  | stmt :: rest => stmt.blocks ++ Stmt.blocksOf rest

end

def execute (stmts : List Stmt) (vars : List (String × Value)) : Except Fault String := do
  let again := reentryAt (Stmt.blocksOf stmts) (depthLimit + 100)
  let (text, _) ← (Stmt.execAll again stmts).run { frames := [{ vars := vars }] }
  return text

def renderText (source : String) (vars : List (String × Value)) : Except Fault String := do
  execute (← readTemplate source) vars

end RpcContract.Template
