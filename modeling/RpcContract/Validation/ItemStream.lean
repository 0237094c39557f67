import RpcContract.Validation.Check

/-!
# Streams that are checked as they are read

An `ItemStream` is read item by item.  A checked stream reads one item of the stream inside it for
each of its own, checks the first one or all of them, and ends with the first error.
-/

namespace RpcContract

structure ItemCheck (σ : Type) where
  model : Json
  validator : Validator σ
  request : RequestInfo
  /-- All items are checked, and not the first one alone. -/
  every : Bool

inductive ItemStream (σ : Type) where
  /-- Each reading asks the surroundings for the next item. -/
  | source (next : StateM σ (Option Item))
  | checked (check : ItemCheck σ) (index : Nat) (done : Bool) (inner : ItemStream σ)

namespace ItemStream

def itemStatus : Nat := 200

/-- A checked item is passed on unchanged; a replacement is not used. -/
def verdict {σ : Type} (check : ItemCheck σ) (index : Nat) (item : Json) : StateM σ Item :=
  if check.every || index = 0 then do
    match ← (check.validator item check.model
        { part := .iteration, request := check.request, status := itemStatus }).run with
    | .ok _ => return .ok item
    | .error e => return .error e
  else return .ok item

def next {σ : Type} : ItemStream σ → StateM σ (Option Item × ItemStream σ)
  | .source poll => do return (← poll, .source poll)
  | .checked check index true inner => return (none, .checked check index true inner)
  | .checked check index false inner => do
      let (item, inner) ← next inner
      match item with
      | none => return (none, .checked check index false inner)
      | some (.error e) => return (some (.error e), .checked check index true inner)
      | some (.ok item) =>
          match ← verdict check index item with
          | .ok item => return (some (.ok item), .checked check (index + 1) false inner)
          | .error e => return (some (.error e), .checked check (index + 1) true inner)

def validate {σ : Type} (check : ItemCheck σ) (source : ItemStream σ) : ItemStream σ :=
  .checked check 0 false source

def take {σ : Type} : Nat → ItemStream σ → StateM σ (List Item × ItemStream σ)
  | 0, stream => return ([], stream)
  | count + 1, stream => do
      match ← stream.next with
      | (none, stream) => return ([], stream)
      | (some item, stream) =>
          let (items, stream) ← take count stream
          return (item :: items, stream)

end ItemStream

end RpcContract
