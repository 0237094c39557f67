import RpcContract.Template.Value

/-!
# Arguments of filters, tests and functions

Every callee says how many arguments it takes and what they are; these are the readers it does so
with.  A missing argument, one too many and one of the wrong kind are different faults.
-/

namespace RpcContract.Template.Args

abbrev Result := Except Fault

def invalid {α : Type} : Result α := .error .invalidOperation

def upTo (args : Args) (most : Nat) : Result (List Value) :=
  if args.all.length ≤ most then .ok args.all else .error .tooManyArguments

/-- The positional arguments of a callee that also takes the given names. -/
def withNames (args : Args) (most : Nat) (names : List String) : Result (List Value) :=
  if args.positional.length ≤ most ∧ args.named.all (fun entry => names.contains entry.1) then
    .ok args.positional
  else .error .tooManyArguments

def required (values : List Value) (n : Nat) : Result Value :=
  match values[n]? with
  | some value => .ok value
  | none => .error .missingArgument

/-- An argument that may be left out; undefined and absent values count as left out. -/
def optional (values : List Value) (n : Nat) : Option Value :=
  values[n]?.filter (!·.isAbsent)

def named? (args : Args) (name : String) : Option Value :=
  (lookupEntry name args.named).filter (!·.isAbsent)

def toNat (value : Value) : Result Nat :=
  match value.nat? with
  | some n => .ok n
  | none => invalid

def toInt (value : Value) : Result Int :=
  match value.int? with
  | some n => .ok n
  | none => invalid

def toBool : Value → Result Bool
  | .bool b => .ok b
  | _ => invalid

def flag (value : Option Value) : Result Bool :=
  match value with
  | some value => toBool value
  | none => .ok false

def itemsOf (value : Value) : Result (List Value) :=
  match value.items? with
  | some items => .ok items
  | none => invalid

end RpcContract.Template.Args
