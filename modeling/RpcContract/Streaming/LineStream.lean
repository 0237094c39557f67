import RpcContract.Streaming.Lines
import RpcContract.Validation.ItemStream

/-!
# Line streams

The lines of an item stream are written as its items are read.  The line of an error is the last
one, and no item is read after it.
-/

namespace RpcContract

/-- The items whose lines are still to be written; none behind the last line. -/
structure LineStream (σ : Type) where
  items : Option (ItemStream σ)

namespace LineStream

variable {σ : Type}

def ofItems (items : ItemStream σ) : LineStream σ := ⟨some items⟩

def ended : LineStream σ := ⟨none⟩

def next (stream : LineStream σ) : StateM σ (Option String × LineStream σ) :=
  match stream.items with
  | none => return (none, ended)
  | some items => do
      match ← items.next with
      | (none, _) => return (none, ended)
      | (some (.ok value), items) => return (some (Lines.itemLine (.ok value)), ofItems items)
      | (some (.error e), _) => return (some (Lines.itemLine (.error e)), ended)

def take : Nat → LineStream σ → StateM σ (List String × LineStream σ)
  | 0, stream => return ([], stream)
  | count + 1, stream => do
      match ← stream.next with
      | (none, stream) => return ([], stream)
      | (some line, stream) =>
          let (lines, stream) ← take count stream
          return (line :: lines, stream)

def collect (count : Nat) (items : ItemStream σ) : StateM σ String := do
  let (lines, _) ← take count (ofItems items)
  return String.join lines

end LineStream

end RpcContract
