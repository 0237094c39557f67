import RpcContract.Data.Dict
import RpcContract.Decimal.Binary

/-!
# JSON values

`Json` is the value that models, request data and metadata are made of.  Integers and
floating-point numbers are different values, as `1` and `1.0` are different texts.  An object keeps
the order of its fields: free data is kept in key order, a record in the order of its declaration.
-/

namespace RpcContract

inductive Json where
  | null
  | bool (value : Bool)
  | int (value : Int)
  | real (value : Binary64)
  | str (value : String)
  | arr (items : List Json)
  | obj (fields : List (String × Json))
deriving Repr, Inhabited

namespace Json

mutual

def decEq : (a b : Json) → Decidable (a = b)
  | .null, .null => .isTrue rfl
  | .bool a, .bool b =>
      if h : a = b then .isTrue (h ▸ rfl) else .isFalse (fun e => h (Json.bool.inj e))
  | .int a, .int b =>
      if h : a = b then .isTrue (h ▸ rfl) else .isFalse (fun e => h (Json.int.inj e))
  | .real a, .real b =>
      if h : a = b then .isTrue (h ▸ rfl) else .isFalse (fun e => h (Json.real.inj e))
  | .str a, .str b =>
      if h : a = b then .isTrue (h ▸ rfl) else .isFalse (fun e => h (Json.str.inj e))
  | .arr a, .arr b =>
      match decEqItems a b with
      | .isTrue h => .isTrue (h ▸ rfl)
      | .isFalse h => .isFalse (fun e => h (Json.arr.inj e))
  | .obj a, .obj b =>
      match decEqFields a b with
      | .isTrue h => .isTrue (h ▸ rfl)
      | .isFalse h => .isFalse (fun e => h (Json.obj.inj e))
  | .null, .bool _ | .null, .int _ | .null, .real _ | .null, .str _ | .null, .arr _
  | .null, .obj _ | .bool _, .null | .bool _, .int _ | .bool _, .real _ | .bool _, .str _
  | .bool _, .arr _ | .bool _, .obj _ | .int _, .null | .int _, .bool _ | .int _, .real _
  | .int _, .str _ | .int _, .arr _ | .int _, .obj _ | .real _, .null | .real _, .bool _
  | .real _, .int _ | .real _, .str _ | .real _, .arr _ | .real _, .obj _ | .str _, .null
  | .str _, .bool _ | .str _, .int _ | .str _, .real _ | .str _, .arr _ | .str _, .obj _
  | .arr _, .null | .arr _, .bool _ | .arr _, .int _ | .arr _, .real _ | .arr _, .str _
  | .arr _, .obj _ | .obj _, .null | .obj _, .bool _ | .obj _, .int _ | .obj _, .real _
  | .obj _, .str _ | .obj _, .arr _ => .isFalse nofun

def decEqItems : (a b : List Json) → Decidable (a = b)
  | [], [] => .isTrue rfl
  | x :: a, y :: b =>
      match decEq x y, decEqItems a b with
      | .isTrue h, .isTrue t => .isTrue (h ▸ t ▸ rfl)
      | .isFalse h, _ => .isFalse (fun e => h (List.cons.inj e).1)
      | _, .isFalse t => .isFalse (fun e => t (List.cons.inj e).2)
  | [], _ :: _ | _ :: _, [] => .isFalse nofun

def decEqFields : (a b : List (String × Json)) → Decidable (a = b)
  | [], [] => .isTrue rfl
  | (k, x) :: a, (l, y) :: b =>
      if hk : k = l then
        match decEq x y, decEqFields a b with
        | .isTrue h, .isTrue t => .isTrue (hk ▸ h ▸ t ▸ rfl)
        | .isFalse h, _ => .isFalse (fun e => h (Prod.mk.inj (List.cons.inj e).1).2)
        | _, .isFalse t => .isFalse (fun e => t (List.cons.inj e).2)
      else .isFalse (fun e => hk (Prod.mk.inj (List.cons.inj e).1).1)
  | [], _ :: _ | _ :: _, [] => .isFalse nofun

end

instance : DecidableEq Json := decEq

/-- An object of free data: in key order, the last of several fields with one key. -/
def ofEntries (fields : List (String × Json)) : Json := .obj (Dict.ofList fields).entries

def ofDict (fields : Dict Json) : Json := .obj fields.entries

def record (fields : List (String × Option Json)) : Json :=
  .obj (fields.filterMap fun field => field.2.map fun value => (field.1, value))

def ofOption (value : Option Json) : Json := value.getD .null

def isObject : Json → Bool
  | .obj _ => true
  | _ => false

def isBool : Json → Bool
  | .bool _ => true
  | _ => false

def isNull : Json → Bool
  | .null => true
  | _ => false

def get? (key : String) : Json → Option Json
  | .obj fields => lookupEntry key fields
  | _ => none

def str? : Json → Option String
  | .str text => some text
  | _ => none

def items? : Json → Option (List Json)
  | .arr items => some items
  | _ => none

def fields? : Json → Option (List (String × Json))
  | .obj fields => some fields
  | _ => none

instance : Coe String Json := ⟨.str⟩

instance : Coe Bool Json := ⟨.bool⟩

end Json

end RpcContract
