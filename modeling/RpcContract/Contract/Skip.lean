import RpcContract.Contract.Method

/-!
# Leaving parts of a call out

A `SkipSetting` is written as `false`, `true` or a list of parts.  A `SkipList` is the set of parts
that it stands for, in their fixed order.
-/

namespace RpcContract

inductive SkipSetting where
  | flag (all : Bool)
  | list (parts : List CallPart)
deriving DecidableEq, Repr

instance : Inhabited SkipSetting := ⟨.flag false⟩

structure SkipList where
  parts : List CallPart
deriving DecidableEq, Repr, Inhabited

namespace SkipList

def contains (skip : SkipList) (part : CallPart) : Bool := decide (part ∈ skip.parts)

def isEmpty (skip : SkipList) : Bool := skip.parts.isEmpty

def toList (skip : SkipList) : List CallPart := skip.parts

end SkipList

namespace SkipSetting

def resolve : SkipSetting → SkipList
  | .flag false => ⟨[]⟩
  | .flag true => ⟨CallPart.all⟩
  | .list parts => ⟨CallPart.all.filter (· ∈ parts)⟩

@[simp] theorem contains_resolve_list (parts : List CallPart) (part : CallPart) :
    (SkipSetting.list parts).resolve.contains part = decide (part ∈ parts) := by
  simp [resolve, SkipList.contains, CallPart.mem_all]

def read : Reading.Reader SkipSetting := fun form tree =>
  match Reading.flag form tree with
  | .ok all => pure (.flag all)
  | .error _ =>
      match Reading.list CallPart.read form tree with
      | .ok parts => pure (.list parts)
      | .error _ => throw (.noVariant "SkipSetting")

def toJson : SkipSetting → Json
  | .flag all => .bool all
  | .list parts => .arr (parts.map CallPart.toJson)

end SkipSetting

end RpcContract
