import RpcContract.Proofs.Data.Dict
import RpcContract.Proofs.Json.Compact
import RpcContract.Streaming.Lines

/-!
# Splitting the body of a stream

No line has a newline inside, so the documents of a sequence can be told from its body: one for each
item up to the first error, where an error is the object that its line spells.
-/

namespace RpcContract.Lines

/-- A sequence up to its first error. -/
def cut : List Item → List Item
  | [] => []
  | .ok value :: rest => .ok value :: cut rest
  | .error e :: _ => [.error e]

/-- What stands on the line of an item. -/
def document : Item → Json
  | .ok value => value
  | .error e => .ofEntries [("isError", .bool true), ("reason", .str e.display)]

def documents (items : List Item) : List Json := (cut items).map document

variable {items others : List Item}

theorem cut_ok (values : List Json) : cut (values.map .ok) = values.map .ok := by
  induction values with
  | nil => rfl
  | cons value values ih => rw [List.map_cons, cut, ih]

theorem cut_error (values : List Json) (e : HttpError) (rest : List Item) :
    cut (values.map .ok ++ .error e :: rest) = values.map .ok ++ [.error e] := by
  induction values with
  | nil => rfl
  | cons value values ih => rw [List.map_cons, List.cons_append, cut, ih, List.cons_append]

theorem itemText_eq (item : Item) : itemText item = (document item).compact := by
  cases item <;> rfl

theorem abortText_eq (reason : String) :
    abortText reason = "\x7b\"isError\":true,\"reason\":" ++ Json.quote reason ++ "\x7d" := by
  have hsorted : Json.ofEntries [("isError", .bool true), ("reason", .str reason)] =
      .obj [("isError", .bool true), ("reason", .str reason)] := by
    have hascending : Ascending [("isError", Json.bool true), ("reason", .str reason)] :=
      List.pairwise_pair.mpr (show "isError" < "reason" by decide)
    rw [Json.ofEntries, Dict.ofList_of_ascending hascending]
  have hkeys : Json.quote "isError" = "\"isError\"" ∧ Json.quote "reason" = "\"reason\"" := by
    decide
  simp [abortText, hsorted, Json.compact, Json.compactFields, Json.scalarText, hkeys,
    ← String.append_assoc]

theorem lines_eq (items : List Item) : lines items = (cut items).map itemLine := by
  induction items with
  | nil => rfl
  | cons item rest ih =>
      cases item with
      | error e => rfl
      | ok value => rw [lines, cut, ih, List.map_cons]

theorem lines_ok (values : List Json) :
    lines (values.map .ok) = values.map fun value => value.compact ++ "\n" := by
  rw [lines_eq, cut_ok, List.map_map]
  rfl

theorem lines_error (values : List Json) (e : HttpError) (rest : List Item) :
    lines (values.map .ok ++ .error e :: rest) =
      (values.map fun value => value.compact ++ "\n") ++ [itemLine (.error e)] := by
  rw [lines_eq, cut_error, List.map_append, List.map_map]
  rfl

theorem lines_eq_documents (items : List Item) :
    lines items = (documents items).map fun value => value.compact ++ "\n" := by
  rw [lines_eq, documents, List.map_map]
  refine List.map_congr_left fun item _ => ?_
  rw [itemLine, itemText_eq, Function.comp_apply]

/-! ## The body at its newlines -/

theorem exists_of_mem_lines {line : String} (h : line ∈ lines items) :
    ∃ text, line = text ++ "\n" ∧ '\n' ∉ text.toList := by
  rw [lines_eq_documents, List.mem_map] at h
  obtain ⟨value, -, rfl⟩ := h
  exact ⟨_, rfl, (Json.unbroken_compact value).newline_notMem⟩

theorem intercalate_append_nil (sep : Char) (texts : List (List Char)) :
    [sep].intercalate (texts ++ [[]]) = texts.flatMap (· ++ [sep]) := by
  induction texts with
  | nil => rfl
  | cons text texts ih =>
      have hne : texts ++ [[]] ≠ [] := by simp
      rw [List.cons_append, List.intercalate_cons_of_ne_nil hne, ih, List.flatMap_cons]

theorem toList_body (items : List Item) :
    (body items).toList =
      ['\n'].intercalate ((documents items).map (fun value => value.compact.toList) ++ [[]]) := by
  rw [intercalate_append_nil, body, lines_eq_documents, String.toList_join, List.flatMap_map]
  simp [List.flatMap_def, List.map_map, Function.comp_def]

theorem splitOn_body (items : List Item) :
    (body items).toList.splitOn '\n' =
      (documents items).map (fun value => value.compact.toList) ++ [[]] := by
  rw [toList_body]
  refine List.splitOn_intercalate _ ?_ (by simp)
  intro text htext
  rw [List.mem_append, List.mem_map, List.mem_singleton] at htext
  rcases htext with ⟨value, -, rfl⟩ | rfl
  · exact (Json.unbroken_compact value).newline_notMem
  · exact List.not_mem_nil

theorem eq_of_map_eq {α β : Type} {f : α → β} : {xs ys : List α} →
    (∀ x ∈ xs, ∀ y ∈ ys, f x = f y → x = y) → xs.map f = ys.map f → xs = ys
  | [], [], _, _ => rfl
  | x :: xs, y :: ys, hinj, hmap => by
      obtain ⟨hhead, htail⟩ := List.cons.inj hmap
      have hrest : ∀ x ∈ xs, ∀ y ∈ ys, f x = f y → x = y := fun x hx y hy =>
        hinj x (.tail _ hx) y (.tail _ hy)
      rw [hinj x (.head _) y (.head _) hhead, eq_of_map_eq hrest htail]

/-- One body for two sequences means the same documents, if compact text tells these apart. -/
theorem body_eq_iff (hinj : ∀ v ∈ documents items, ∀ w ∈ documents others,
    v.compact = w.compact → v = w) :
    body items = body others ↔ documents items = documents others := by
  constructor
  · intro hbody
    have hsplit := splitOn_body items
    rw [hbody, splitOn_body, List.append_left_inj] at hsplit
    refine (eq_of_map_eq (fun v hv w hw htext => ?_) hsplit).symm
    exact (hinj w hw v hv (String.toList_inj.mp htext).symm).symm
  · intro hdocuments
    rw [body, body, lines_eq_documents, lines_eq_documents, hdocuments]

end RpcContract.Lines
