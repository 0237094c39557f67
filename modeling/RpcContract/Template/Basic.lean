import RpcContract.Template.Value

/-!
# Templates

A template is a list of statements: text that is copied, expressions that are printed, and the
statements of control.  Statements end where their last word stands, so that no position is kept.
-/

namespace RpcContract.Template

inductive Operation where
  | add | sub | mul | div | intDiv | rem | pow | concat
  | eq | ne | lt | le | gt | ge | isIn
deriving DecidableEq, Repr

/-- How an argument is given: by position, by name, or several at once from a list or a map. -/
inductive Passing where
  | position
  | name (name : String)
  | list
  | map
deriving DecidableEq, Repr

inductive Expr where
  | const (value : Value)
  | var (name : String)
  | list (items : List Expr)
  | map (keys values : List Expr)
  | not (operand : Expr)
  | neg (operand : Expr)
  | binary (op : Operation) (left right : Expr)
  | and (left right : Expr)
  | or (left right : Expr)
  | choose (condition yes no : Expr)
  | attr (operand : Expr) (name : String)
  | item (operand key : Expr)
  | slice (operand start stop step : Expr)
  | filter (name : String) (operand : Expr) (passing : List Passing) (args : List Expr)
  | test (name : String) (operand : Expr) (passing : List Passing) (args : List Expr)
  | call (name : String) (passing : List Passing) (args : List Expr)
  | method (operand : Expr) (name : String) (passing : List Passing) (args : List Expr)
  | apply (callee : Expr) (passing : List Passing) (args : List Expr)
deriving Repr, Inhabited

structure FilterUse where
  name : String
  passing : List Passing
  args : List Expr
deriving Repr, Inhabited

inductive Target where
  | var (name : String)
  | attr (holder : Expr) (name : String)
  | parts (targets : List Target)
deriving Repr, Inhabited

structure Param where
  name : String
  default : Option Expr
deriving Repr, Inhabited

inductive Stmt where
  | text (text : String)
  | print (value : Expr)
  | loop (target : Target) (items : Expr) (keep : Option Expr) (recursive : Bool)
      (body otherwise : List Stmt)
  | choose (condition : Expr) (yes no : List Stmt)
  | scope (targets : List Target) (values : List Expr) (body : List Stmt)
  | set (target : Target) (value : Expr)
  | setText (target : Target) (filters : List FilterUse) (body : List Stmt)
  | escaping (mode : Expr) (body : List Stmt)
  | filtered (filters : List FilterUse) (body : List Stmt)
  | block (name : String) (body : List Stmt)
  | routine (name : String) (params : List Param) (body : List Stmt)
  | callWith (callee : Expr) (params : List Param) (body : List Stmt)
  | run (call : Expr)
  /-- Text of another template, of which there is none; it may be missing if so marked. -/
  | include (name : Expr) (optional : Bool)
  /-- Names or layout of another template, of which there is none. -/
  | import (name : Expr)
deriving Repr, Inhabited

namespace Expr

def constant? (word : String) : Option Value :=
  if word = "true" ∨ word = "True" then some (.bool true)
  else if word = "false" ∨ word = "False" then some (.bool false)
  else if word = "none" ∨ word = "None" then some .nothing
  else none

def isReserved (word : String) : Bool :=
  (constant? word).isSome || word == "loop" || word == "self"

end Expr

mutual

def Expr.mentions (name : String) : Expr → Bool
  | .const _ => false
  | .var n => n == name
  | .list items => Expr.mentionsAny name items
  | .map keys values => Expr.mentionsAny name keys || Expr.mentionsAny name values
  | .not e | .neg e | .attr e _ => e.mentions name
  | .binary _ a b | .and a b | .or a b | .item a b => a.mentions name || b.mentions name
  | .choose a b c => a.mentions name || b.mentions name || c.mentions name
  | .slice a b c d => a.mentions name || b.mentions name || c.mentions name || d.mentions name
  | .filter _ e _ args | .test _ e _ args | .method e _ _ args | .apply e _ args =>
      e.mentions name || Expr.mentionsAny name args
  | .call n _ args => n == name || Expr.mentionsAny name args

def Expr.mentionsAny (name : String) : List Expr → Bool
  | [] => false
  | e :: rest => e.mentions name || Expr.mentionsAny name rest

end

def FilterUse.mentions (name : String) (use : FilterUse) : Bool := Expr.mentionsAny name use.args

mutual

def Stmt.mentions (name : String) : Stmt → Bool
  | .text _ => false
  | .print e | .set _ e | .run e | .include e _ | .import e => e.mentions name
  | .loop _ items keep _ body otherwise =>
      items.mentions name || keep.any (Expr.mentions name) || Stmt.mentionsAny name body ||
        Stmt.mentionsAny name otherwise
  | .choose c yes no => c.mentions name || Stmt.mentionsAny name yes || Stmt.mentionsAny name no
  | .scope _ values body => Expr.mentionsAny name values || Stmt.mentionsAny name body
  | .setText _ filters body | .filtered filters body =>
      filters.any (FilterUse.mentions name) || Stmt.mentionsAny name body
  | .escaping e body => e.mentions name || Stmt.mentionsAny name body
  | .block _ body => Stmt.mentionsAny name body
  | .routine _ _ body => Stmt.mentionsAny name body
  | .callWith e _ body => e.mentions name || Stmt.mentionsAny name body

def Stmt.mentionsAny (name : String) : List Stmt → Bool
  | [] => false
  | s :: rest => s.mentions name || Stmt.mentionsAny name rest

end

end RpcContract.Template
