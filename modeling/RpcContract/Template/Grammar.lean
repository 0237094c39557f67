import RpcContract.Template.Basic
import RpcContract.Template.Token

/-!
# Reading templates

`readTemplate` reads the statements of a template from its tokens.  The levels of an expression,
from the loosest: a choice by `if`, `or`, `and`, `not`, comparison, sum, joined text, product,
power, sign, and last filters and tests.  Nothing of a template is evaluated before all of it is
read.
-/

namespace RpcContract.Template

namespace Grammar

/-- The tokens that are left, the blocks met so far, and whether a routine is being read. -/
structure Source where
  tokens : List Token
  blocks : List String := []
  inRoutine : Bool := false

abbrev Reads := StateT Source (Except Fault)

def malformed {α : Type} : Reads α := throw .malformed

def peek : Reads (Option Token) := do
  match (← get).tokens with
  | [] => return none
  | .fault cause :: _ => throw cause
  | token :: _ => return some token

def advance : Reads Unit := modify fun s => { s with tokens := s.tokens.drop 1 }

def skip (token : Token) : Reads Bool := do
  if (← peek) == some token then
    advance
    return true
  return false

def expect (token : Token) : Reads Unit := do
  unless ← skip token do malformed

def isNext (tokens : List Token) : Reads Bool := do
  return (← peek).any tokens.contains

def anyWord : Reads String := do
  match ← peek with
  | some (.word word) =>
      advance
      return word
  | _ => malformed

def freshName : Reads String := do
  let name ← anyWord
  if Expr.isReserved name then malformed else return name

/-! ## Expressions -/

def operationAt (level : Nat) (sign : String) : Option Operation :=
  match level with
  | 3 =>
      if sign = "==" then some .eq
      else if sign = "!=" then some .ne
      else if sign = "<" then some .lt
      else if sign = "<=" then some .le
      else if sign = ">" then some .gt
      else if sign = ">=" then some .ge
      else none
  | 4 => if sign = "+" then some .add else if sign = "-" then some .sub else none
  | 5 => if sign = "~" then some .concat else none
  | 6 =>
      if sign = "*" then some .mul
      else if sign = "/" then some .div
      else if sign = "//" then some .intDiv
      else if sign = "%" then some .rem
      else none
  | 7 => if sign = "**" then some .pow else none
  | _ => none

inductive Joint where
  | or | and
  | operation (op : Operation)
  | notIn

def Joint.apply (joint : Joint) (left right : Expr) : Expr :=
  match joint with
  | .or => .or left right
  | .and => .and left right
  | .operation op => .binary op left right
  | .notIn => .not (.binary .isIn left right)

def joint? (level : Nat) : Reads (Option Joint) := do
  match ← peek with
  | some (.word word) =>
      if level = 0 ∧ word = "or" then
        advance
        return some .or
      else if level = 1 ∧ word = "and" then
        advance
        return some .and
      else if level = 3 ∧ word = "in" then
        advance
        return some (.operation .isIn)
      else if level = 3 ∧ word = "not" then
        advance
        expect (.word "in")
        return some .notIn
      else return none
  | some (.sign sign) =>
      match operationAt level sign with
      | some op =>
          advance
          return some (.operation op)
      | none => return none
  | _ => return none

/-- A call: of a function by its name, of a method, or of any other value. -/
def callOf (callee : Expr) (args : List (Passing × Expr)) : Expr :=
  let (passing, values) := args.unzip
  match callee with
  | .var name => .call name passing values
  | .attr operand name => .method operand name passing values
  | callee => .apply callee passing values

/-- Whether what stands here can be the argument of a test without brackets. -/
def startsArgument : Option Token → Bool
  | some (.word word) => !(["and", "or", "else", "is", "if", "in", "not"].contains word)
  | some (.str _) | some (.int _) | some (.real _) => true
  | some (.sign sign) => ["-", "[", "\x7b"].contains sign
  | _ => false

/-- Further texts that stand beside a text are part of it. -/
def moreText : Nat → String → Reads String
  | 0, text => return text
  | fuel + 1, text => do
      match ← peek with
      | some (.str more) =>
          advance
          moreText fuel (text ++ more)
      | _ => return text

mutual

def expr : Nat → Reads Expr
  | 0 => malformed
  | fuel + 1 => do
      let value ← level fuel 0
      choice fuel value

def choice : Nat → Expr → Reads Expr
  | 0, _ => malformed
  | fuel + 1, value => do
      if ← skip (.word "if") then
        let condition ← level fuel 0
        if ← skip (.word "else") then
          let no ← expr fuel
          choice fuel (.choose condition value no)
        else choice fuel (.choose condition value (.const .undefined))
      else return value

/-- An expression of a level, from `or` at 0 to powers at 7. -/
def level : Nat → Nat → Reads Expr
  | 0, _ => malformed
  | fuel + 1, 2 => do
      if ← skip (.word "not") then return .not (← level fuel 2)
      else level fuel 3
  | fuel + 1, 8 => do
      let operand ← signed fuel
      let operand ← postfixes fuel operand
      filters fuel operand
  | fuel + 1, n => do
      let left ← level fuel (n + 1)
      joined fuel n left

def joined : Nat → Nat → Expr → Reads Expr
  | 0, _, _ => malformed
  | fuel + 1, n, left => do
      match ← joint? n with
      | some joint =>
          let right ← level fuel (n + 1)
          joined fuel n (joint.apply left right)
      | none => return left

def signed : Nat → Reads Expr
  | 0 => malformed
  | fuel + 1 => do
      if ← skip (.sign "-") then return .neg (← signed fuel)
      else primary fuel

def primary : Nat → Reads Expr
  | 0 => malformed
  | fuel + 1 => do
      match ← peek with
      | some (.word word) =>
          advance
          match Expr.constant? word with
          | some value => return .const value
          | none => return .var word
      | some (.str text) =>
          advance
          return .const (.str (← moreText fuel text) false)
      | some (.int n) =>
          advance
          return .const (.int n)
      | some (.real x) =>
          advance
          return .const (.real x)
      | some (.sign sign) =>
          advance
          if sign = "(" then
            if ← skip (.sign ")") then return .list []
            let first ← expr fuel
            if ← skip (.sign ",") then
              return .list (first :: (← items fuel ")"))
            expect (.sign ")")
            return first
          else if sign = "[" then return .list (← items fuel "]")
          else if sign = "\x7b" then
            let (keys, values) := (← entries fuel).unzip
            return .map keys values
          else malformed
      | _ => malformed

def items : Nat → String → Reads (List Expr)
  | 0, _ => malformed
  | fuel + 1, close => do
      if ← skip (.sign close) then return []
      let value ← expr fuel
      if ← skip (.sign ",") then return value :: (← items fuel close)
      expect (.sign close)
      return [value]

def entries : Nat → Reads (List (Expr × Expr))
  | 0 => malformed
  | fuel + 1 => do
      if ← skip (.sign "\x7d") then return []
      let key ← expr fuel
      expect (.sign ":")
      let value ← expr fuel
      if ← skip (.sign ",") then return (key, value) :: (← entries fuel)
      expect (.sign "\x7d")
      return [(key, value)]

def postfixes : Nat → Expr → Reads Expr
  | 0, _ => malformed
  | fuel + 1, operand => do
      if ← skip (.sign ".") then
        let name ← anyWord
        postfixes fuel (.attr operand name)
      else if ← skip (.sign "[") then
        let operand ← subscript fuel operand
        postfixes fuel operand
      else if ← skip (.sign "(") then
        let args ← arguments fuel false
        postfixes fuel (callOf operand args)
      else return operand

def subscript : Nat → Expr → Reads Expr
  | 0, _ => malformed
  | fuel + 1, operand => do
      let bound (ends : List Token) : Reads Expr := do
        if ← isNext ends then return .const .nothing else expr fuel
      let start ← bound [.sign ":"]
      if ← skip (.sign ":") then
        let stop ← bound [.sign ":", .sign "]"]
        let step ← if ← skip (.sign ":") then bound [.sign "]"] else pure (.const .nothing)
        expect (.sign "]")
        return .slice operand start stop step
      expect (.sign "]")
      return .item operand start

def arguments : Nat → (named : Bool) → Reads (List (Passing × Expr))
  | 0, _ => malformed
  | fuel + 1, named => do
      if ← skip (.sign ")") then return []
      let (arg, named) ← argument fuel named
      if ← skip (.sign ",") then return arg :: (← arguments fuel named)
      expect (.sign ")")
      return [arg]

/-- One argument, and whether one with a name has been read; no other follows such a one. -/
def argument : Nat → (named : Bool) → Reads ((Passing × Expr) × Bool)
  | 0, _ => malformed
  | fuel + 1, named => do
      if ← skip (.sign "**") then return ((.map, ← expr fuel), true)
      else if ← skip (.sign "*") then return ((.list, ← expr fuel), named)
      let value ← expr fuel
      match value with
      | .var name =>
          if ← skip (.sign "=") then return ((.name name, ← expr fuel), true)
          else if named then malformed
          else return ((.position, value), named)
      | value => if named then malformed else return ((.position, value), named)

def arguments? : Nat → Reads (List (Passing × Expr))
  | 0 => malformed
  | fuel + 1 => do if ← skip (.sign "(") then arguments fuel false else return []

def filters : Nat → Expr → Reads Expr
  | 0, _ => malformed
  | fuel + 1, operand => do
      if ← skip (.sign "|") then
        let name ← anyWord
        let (passing, args) := (← arguments? fuel).unzip
        filters fuel (.filter name operand passing args)
      else if ← skip (.word "is") then
        let negated ← skip (.word "not")
        let name ← anyWord
        let (passing, args) ← if startsArgument (← peek) then do
            let arg ← level fuel 8
            pure ([Passing.position], [arg])
          else do pure (← arguments? fuel).unzip
        let test := .test name operand passing args
        filters fuel (if negated then .not test else test)
      else return operand

end

/-! ## Statements -/

def filterChain : Nat → Reads (List FilterUse)
  | 0 => malformed
  | fuel + 1 => do
      let name ← anyWord
      let (passing, args) := (← arguments? fuel).unzip
      let use : FilterUse := ⟨name, passing, args⟩
      if ← skip (.sign "|") then return use :: (← filterChain fuel)
      return [use]

mutual

def target : Nat → Reads Target
  | 0 => malformed
  | fuel + 1 => do
      let (parts, several) ← targets fuel
      match parts, several with
      | [one], false => return one
      | parts, _ => return .parts parts

def targets : Nat → Reads (List Target × Bool)
  | 0 => malformed
  | fuel + 1 => do
      if ← isNext [.sign ")", .closePrint, .closeBlock, .word "in"] then return ([], false)
      let one ← if ← skip (.sign "(") then do
          let inner ← target fuel
          expect (.sign ")")
          pure inner
        else do pure (Target.var (← freshName))
      if ← skip (.sign ",") then return (one :: (← targets fuel).1, true)
      return ([one], false)

end

def dotted : Nat → Expr → Target → Reads Target
  | 0, _, _ => malformed
  | fuel + 1, holder, target => do
      if ← skip (.sign ".") then
        let name ← anyWord
        dotted fuel (.attr holder name) (.attr holder name)
      else return target

def params : Nat → (defaulted : Bool) → Reads (List Param)
  | 0, _ => malformed
  | fuel + 1, defaulted => do
      if ← skip (.sign ")") then return []
      let name ← freshName
      let default ← if ← skip (.sign "=") then do pure (some (← expr fuel))
        else if defaulted then malformed
        else pure none
      let param : Param := ⟨name, default⟩
      if ← skip (.sign ",") then return param :: (← params fuel (defaulted || default.isSome))
      expect (.sign ")")
      return [param]

def bindings : Nat → (first : Bool) → Reads (List (Target × Expr))
  | 0, _ => malformed
  | fuel + 1, first => do
      if ← isNext [.closeBlock] then return []
      unless first do expect (.sign ",")
      let goal ← if ← skip (.sign "(") then do
          let inner ← target fuel
          expect (.sign ")")
          pure inner
        else do pure (Target.var (← freshName))
      expect (.sign "=")
      let value ← expr fuel
      return (goal, value) :: (← bindings fuel false)

def importedNames : Nat → Reads Unit
  | 0 => malformed
  | fuel + 1 => do
      let _ ← freshName
      if ← skip (.word "as") then
        let _ ← freshName
      if ← skip (.sign ",") then
        if ← isNext [.closeBlock] then return
        importedNames fuel
      else return

def isCall : Expr → Bool
  | .call _ _ _ | .method _ _ _ _ | .apply _ _ _ => true
  | _ => false

/-- Marks a block as met; no block is defined twice, nor inside a routine. -/
def meetBlock (name : String) : Reads Unit := do
  let source ← get
  if source.inRoutine || source.blocks.contains name then malformed
  else set { source with blocks := name :: source.blocks }

mutual

/-- Statements up to a tag that starts with one of the given words, which is left to be read. -/
def body : Nat → (ends : List String) → Reads (List Stmt)
  | 0, _ => malformed
  | fuel + 1, ends => do
      match ← peek with
      | none => if ends.isEmpty then return [] else malformed
      | some (.text text) =>
          advance
          return .text text :: (← body fuel ends)
      | some .openPrint =>
          advance
          let value ← expr fuel
          expect .closePrint
          return .print value :: (← body fuel ends)
      | some .openBlock =>
          advance
          match ← peek with
          | some (.word word) =>
              if ends.contains word then return []
              advance
              let stmt ← statement fuel word
              expect .closeBlock
              return stmt :: (← body fuel ends)
          | _ => malformed
      | some _ => malformed

def enclosed : Nat → (close : String) → Reads (List Stmt)
  | 0, _ => malformed
  | fuel + 1, close => do
      expect .closeBlock
      let stmts ← body fuel [close]
      advance
      return stmts

def branches : Nat → Expr → Reads Stmt
  | 0, _ => malformed
  | fuel + 1, condition => do
      expect .closeBlock
      let yes ← body fuel ["endif", "else", "elif"]
      if ← skip (.word "else") then
        let no ← enclosed fuel "endif"
        return .choose condition yes no
      else if ← skip (.word "elif") then
        let next ← expr fuel
        return .choose condition yes [← branches fuel next]
      else
        expect (.word "endif")
        return .choose condition yes []

def routineBody : Nat → (close : String) → Reads (List Stmt)
  | 0, _ => malformed
  | fuel + 1, close => do
      let outer := (← get).inRoutine
      modify fun s => { s with inRoutine := true }
      let stmts ← enclosed fuel close
      modify fun s => { s with inRoutine := outer }
      return stmts

def statement : Nat → (word : String) → Reads Stmt
  | 0, _ => malformed
  | fuel + 1, word => do
      if word = "for" then
        let goal ← target fuel
        expect (.word "in")
        let values ← level fuel 0
        let keep ← if ← skip (.word "if") then do pure (some (← expr fuel)) else pure none
        let recursive ← skip (.word "recursive")
        expect .closeBlock
        let stmts ← body fuel ["endfor", "else"]
        let otherwise ← if ← skip (.word "else") then enclosed fuel "endfor"
          else do
            expect (.word "endfor")
            pure []
        return .loop goal values keep recursive stmts otherwise
      else if word = "if" then
        let condition ← expr fuel
        branches fuel condition
      else if word = "with" then
        let (goals, values) := (← bindings fuel true).unzip
        return .scope goals values (← enclosed fuel "endwith")
      else if word = "set" then
        if ← skip (.sign "(") then
          let goal ← target fuel
          expect (.sign ")")
          expect (.sign "=")
          return .set goal (← expr fuel)
        let name ← freshName
        let goal ← dotted fuel (.var name) (.var name)
        if ← skip (.sign "|") then
          let chain ← filterChain fuel
          return .setText goal chain (← enclosed fuel "endset")
        else if ← isNext [.closeBlock] then
          return .setText goal [] (← enclosed fuel "endset")
        expect (.sign "=")
        return .set goal (← expr fuel)
      else if word = "autoescape" then
        let mode ← expr fuel
        return .escaping mode (← enclosed fuel "endautoescape")
      else if word = "filter" then
        let chain ← filterChain fuel
        return .filtered chain (← enclosed fuel "endfilter")
      else if word = "block" then
        let name ← anyWord
        meetBlock name
        let stmts ← enclosed fuel "endblock"
        match ← peek with
        | some (.word close) =>
            unless close = name do malformed
            advance
        | _ => pure ()
        return .block name stmts
      else if word = "macro" then
        let name ← anyWord
        expect (.sign "(")
        let ps ← params fuel false
        return .routine name ps (← routineBody fuel "endmacro")
      else if word = "call" then
        let ps ← if ← skip (.sign "(") then params fuel false else pure []
        let callee ← expr fuel
        unless isCall callee do malformed
        return .callWith callee ps (← routineBody fuel "endcall")
      else if word = "do" then
        let call ← expr fuel
        unless isCall call do malformed
        return .run call
      else if word = "include" then
        let name ← expr fuel
        let optional ← skip (.word "ignore")
        if optional then expect (.word "missing")
        return .include name optional
      else if word = "extends" then return .import (← expr fuel)
      else if word = "import" then
        let name ← expr fuel
        expect (.word "as")
        let _ ← freshName
        return .import name
      else if word = "from" then
        let name ← expr fuel
        expect (.word "import")
        importedNames fuel
        return .import name
      else malformed

end

end Grammar

def readTemplate (source : String) : Except Fault (List Stmt) := do
  let tokens := Token.scan source
  let (stmts, _) ← (Grammar.body (16 * (tokens.length + 2)) []).run { tokens := tokens }
  return stmts

end RpcContract.Template
