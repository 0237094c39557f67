import RpcContract.Proofs.Data.Dict
import RpcContract.Proofs.Json.RoundTrip

/-!
# Values that can be stored as text

A value whose numbers are read back, whose keys are in order and which is not nested too deeply for
the reader is the value of its own tree.
-/

namespace RpcContract.Json

mutual

/-- The value can be read back where at most `depth - 1` levels may be nested. -/
def Storable (depth : Nat) : Json → Prop
  | .int n => Fits n
  | .real x => ReadsBack x
  | .arr items => 1 < depth ∧ StorableItems (depth - 1) items
  | .obj fields => 1 < depth ∧ Ascending fields ∧ StorableFields (depth - 1) fields
  | .null | .bool _ | .str _ => True

def StorableItems (depth : Nat) : List Json → Prop
  | [] => True
  | item :: rest => Storable depth item ∧ StorableItems depth rest

def StorableFields (depth : Nat) : List (String × Json) → Prop
  | [] => True
  | (_, value) :: rest => Storable depth value ∧ StorableFields depth rest

end

mutual

theorem readable_of_storable : {value : Json} → {depth : Nat} → Storable depth value →
    Readable value
  | .null, _, _ | .bool _, _, _ | .str _, _, _ => trivial
  | .int _, _, h => h
  | .real _, _, h => h
  | .arr _, _, h => readableItems_of_storable h.2
  | .obj _, _, h => readableFields_of_storable h.2.2

theorem readableItems_of_storable : {items : List Json} → {depth : Nat} →
    StorableItems depth items → ReadableItems items
  | [], _, _ => trivial
  | _ :: _, _, h => ⟨readable_of_storable h.1, readableItems_of_storable h.2⟩

theorem readableFields_of_storable : {fields : List (String × Json)} → {depth : Nat} →
    StorableFields depth fields → ReadableFields fields
  | [], _, _ => trivial
  | (_, _) :: _, _, h => ⟨readable_of_storable h.1, readableFields_of_storable h.2⟩

end

theorem ReadsBack.isFinite {x : Binary64} (h : ReadsBack x) : x.isFinite = true := by
  by_cases hx : x.isFinite = true
  · exact hx
  · have hnull : readTree (scalarText (.real x)) = (.null, none) := by
      have hread := readTree_pretty (show Readable .null from trivial)
      rw [scalarText, if_neg hx]
      simpa [pretty, prettyAt, scalarText, toTree] using hread
    cases hnull.symm.trans h

mutual

theorem toJson_toTree : {value : Json} → {depth : Nat} → Storable depth value →
    value.toTree.toJson depth = .ok value
  | .null, _, _ | .bool _, _, _ | .str _, _, _ | .int _, _, _ => rfl
  | .real x, _, h => by
      rw [toTree, Tree.toJson, if_pos (ReadsBack.isFinite h)]
      rfl
  | .arr items, depth, h => by
      have hdepth : ¬ depth ≤ 1 := Nat.not_le_of_lt h.1
      have hitems := itemsToJson_toTrees h.2
      simp only [toTree, Tree.toJson, if_neg hdepth, hitems]
      rfl
  | .obj fields, depth, h => by
      have hdepth : ¬ depth ≤ 1 := Nat.not_le_of_lt h.1
      have hfields := fieldsToJson_toFieldTrees h.2.2
      have hentries : Json.ofEntries fields = .obj fields := by
        rw [Json.ofEntries, Dict.ofList_of_ascending h.2.1]
      simp only [toTree, Tree.toJson, if_neg hdepth, hfields]
      exact congrArg Except.ok hentries

theorem itemsToJson_toTrees : {items : List Json} → {depth : Nat} → StorableItems depth items →
    Tree.itemsToJson depth (toTrees items) = .ok items
  | [], _, _ => rfl
  | _ :: _, _, h => by
      rw [toTrees, Tree.itemsToJson, toJson_toTree h.1, itemsToJson_toTrees h.2]
      rfl

theorem fieldsToJson_toFieldTrees : {fields : List (String × Json)} → {depth : Nat} →
    StorableFields depth fields → Tree.fieldsToJson depth (toFieldTrees fields) = .ok fields
  | [], _, _ => rfl
  | (_, _) :: _, _, h => by
      rw [toFieldTrees, Tree.fieldsToJson, toJson_toTree h.1, fieldsToJson_toFieldTrees h.2]
      rfl

end

end RpcContract.Json
