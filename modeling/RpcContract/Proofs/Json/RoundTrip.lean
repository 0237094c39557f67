import RpcContract.Proofs.Decimal.Layout
import RpcContract.Proofs.Json.Numbers
import RpcContract.Proofs.Json.Quoted

/-!
# Reading what is printed

The text of a value over several lines reads as the tree of the value, if its numbers are read back.
-/

namespace RpcContract.Json

mutual

/-- Every number in a value is read back. -/
def Readable : Json → Prop
  | .int n => Fits n
  | .real x => ReadsBack x
  | .arr items => ReadableItems items
  | .obj fields => ReadableFields fields
  | .null | .bool _ | .str _ => True

def ReadableItems : List Json → Prop
  | [] => True
  | item :: rest => Readable item ∧ ReadableItems rest

def ReadableFields : List (String × Json) → Prop
  | [] => True
  | (_, value) :: rest => Readable value ∧ ReadableFields rest

end

theorem readableFields_iff {fields : List (String × Json)} :
    ReadableFields fields ↔ ∀ field ∈ fields, field.2.Readable := by
  induction fields with
  | nil => simp [ReadableFields]
  | cons field rest ih =>
      rw [List.forall_mem_cons, ← ih]
      exact Iff.rfl

theorem readable_record {fields : List (String × Option Json)}
    (h : ∀ field ∈ fields, ∀ value ∈ field.2, value.Readable) : (record fields).Readable := by
  refine readableFields_iff.mpr fun written hwritten => ?_
  obtain ⟨field, hfield, hsome⟩ := List.mem_filterMap.mp hwritten
  obtain ⟨value, hvalue, rfl⟩ := Option.map_eq_some_iff.mp hsome
  exact h field hfield value hvalue

theorem readable_ofDict {α : Type} {d : Dict α} {write : α → Json}
    (h : ∀ entry ∈ d.entries, (write entry.2).Readable) :
    (ofDict (d.mapWithKey fun _ value => write value)).Readable := by
  refine readableFields_iff.mpr fun written hwritten => ?_
  obtain ⟨entry, hentry, rfl⟩ := List.mem_map.mp hwritten
  exact h entry hentry

/-! ## Printed text -/

abbrev printed (step depth : Nat) (value : Json) : List Char := (prettyAt step depth value).toList

/-- The items of a list as they stand between its brackets, without the blanks at both ends. -/
def printedItems (step depth : Nat) : List Json → List Char
  | [] => []
  | item :: rest => printed step (depth + 1) item ++ (prettyItems step depth rest).toList

def printedFields (step depth : Nat) : List (String × Json) → List Char
  | [] => []
  | (key, value) :: rest =>
      (quote key).toList ++ ':' :: ' ' :: printed step (depth + 1) value ++
        (prettyFields step depth rest).toList

section Printed

variable (step depth : Nat)

theorem skipSpace_replicate (n : Nat) : skipSpace (List.replicate n ' ') = [] := by
  induction n with
  | zero => rfl
  | succ n ih => exact ih

theorem skipSpace_indent (cs : List Char) :
    skipSpace ((indent step depth).toList ++ cs) = skipSpace cs := by
  refine skipSpace_append_of_nil ?_ cs
  rw [indent, String.toList_append, Layout.toList_pushn]
  exact skipSpace_replicate (step * depth)

theorem printed_arr (item : Json) (rest : List Json) :
    printed step depth (.arr (item :: rest)) =
      '[' :: ((indent step (depth + 1)).toList ++ printedItems step depth (item :: rest) ++
        (indent step depth).toList ++ [']']) := by
  simp [printed, prettyAt, printedItems]

theorem printed_obj (field : String × Json) (rest : List (String × Json)) :
    printed step depth (.obj (field :: rest)) =
      '\x7b' :: ((indent step (depth + 1)).toList ++ printedFields step depth (field :: rest) ++
        (indent step depth).toList ++ ['\x7d']) := by
  simp [printed, prettyAt, printedFields]

theorem toList_prettyItems (item : Json) (rest : List Json) :
    (prettyItems step depth (item :: rest)).toList =
      ',' :: ((indent step (depth + 1)).toList ++ printedItems step depth (item :: rest)) := by
  simp [prettyItems, printedItems]

theorem toList_prettyFields (field : String × Json) (rest : List (String × Json)) :
    (prettyFields step depth (field :: rest)).toList =
      ',' :: ((indent step (depth + 1)).toList ++ printedFields step depth (field :: rest)) := by
  simp [prettyFields, printedFields]

end Printed

/-! ## Reading printed text -/

/-- A text reads as a tree, and what stands behind it is left, perhaps without blanks. -/
def ReadsAs (fuel : Nat) (text : List Char) (tree : Tree) (rest : List Char) : Prop :=
  ∃ behind, readValue fuel (text ++ rest) = (tree, some behind) ∧ skipSpace behind = skipSpace rest

variable {step depth fuel : Nat} {rest cs : List Char}

theorem readWord_append (tree : Tree) (word rest : List Char) :
    readWord tree word (word ++ rest) = (tree, some rest) := by
  induction word with
  | nil => rfl
  | cons c word ih => rw [List.cons_append, readWord, if_pos rfl, ih]

theorem length_le_quote (text : String) : text.toList.length < (quote text).toList.length := by
  have hone (c : Char) : 1 ≤ (escapeChar c).length := by
    obtain ⟨hkept, -⟩ | ⟨tail, hescaped, -⟩ := escapeChar_cases c
    · simp [hkept]
    · simp [hescaped]
  have hall (cs : List Char) : cs.length ≤ (cs.flatMap escapeChar).length := by
    induction cs with
    | nil => simp
    | cons c cs ih =>
        have hc := hone c
        rw [List.flatMap_cons, List.length_append, List.length_cons]
        omega
  have hle := hall text.toList
  rw [toList_quote, List.length_cons, List.length_append]
  omega

theorem exists_of_readValue {tree : Tree} {behind : List Char}
    (h : readValue fuel cs = (tree, some behind)) :
    ∃ c tail, skipSpace cs = c :: tail ∧ c ≠ ']' := by
  cases fuel with
  | zero =>
      rw [readValue] at h
      cases h
  | succ fuel =>
      rw [readValue] at h
      cases hskip : skipSpace cs with
      | nil =>
          rw [hskip] at h
          cases h
      | cons c tail =>
          refine ⟨c, tail, rfl, ?_⟩
          rintro rfl
          rw [hskip] at h
          cases h

theorem endsNumber_of_cons {c : Char} (tail : List Char)
    (h : c.isDigit = false ∧ c ≠ '.' ∧ c ≠ 'e' ∧ c ≠ 'E') : EndsNumber (c :: tail) := by
  intro d hd
  cases hd
  exact h

theorem endsNumber_indent (step depth : Nat) (rest : List Char) :
    EndsNumber ((indent step depth).toList ++ rest) := by
  rw [indent, String.toList_append]
  exact endsNumber_of_cons _ (by decide)

theorem endsNumber_prettyItems (items : List Json) {closing : List Char} (h : EndsNumber closing) :
    EndsNumber ((prettyItems step depth items).toList ++ closing) := by
  cases items with
  | nil => exact h
  | cons item items =>
      rw [toList_prettyItems]
      exact endsNumber_of_cons _ (by decide)

/-! ### One step of the reader -/

section Steps

variable {c : Char} {tail behind more : List Char}

theorem readValue_brackets (fuel : Nat) (rest : List Char) :
    readValue (fuel + 1) ('[' :: ']' :: rest) = (.seq [] none, some rest) := by
  simp [readValue, skipSpace, isSpace]

theorem readValue_braces (fuel : Nat) (rest : List Char) :
    readValue (fuel + 1) ('\x7b' :: '\x7d' :: rest) = (.map [] none, some rest) := by
  simp [readValue, skipSpace, isSpace]

theorem readValue_quote {text : String} (h : text.toList.length < fuel) (rest : List Char) :
    readValue (fuel + 1) ((quote text).toList ++ rest) = (.str text, some rest) := by
  have hread := readQuoted_quoted text rest h
  simp [readValue, skipSpace, isSpace, toList_quote, hread]

theorem readValue_arr {items : List Tree} (hcs : skipSpace cs = c :: tail) (hc : c ≠ ']')
    (hitems : readItems fuel (c :: tail) = (items, none, some rest)) :
    readValue (fuel + 1) ('[' :: cs) = (.seq items none, some rest) := by
  have hopen : skipSpace ('[' :: cs) = '[' :: cs := by simp [skipSpace, isSpace]
  simp [readValue, hopen, hcs, hc, hitems]

theorem readValue_obj {fields : List (String × Tree)} (hcs : skipSpace cs = '"' :: tail)
    (hfields : readFields fuel ('"' :: tail) = (fields, none, some rest)) :
    readValue (fuel + 1) ('\x7b' :: cs) = (.map fields none, some rest) := by
  have hopen : skipSpace ('\x7b' :: cs) = '\x7b' :: cs := by simp [skipSpace, isSpace]
  simp [readValue, hopen, hcs, hfields]

theorem readItems_last {item : Tree} (hvalue : readValue fuel cs = (item, some behind))
    (hclose : skipSpace behind = ']' :: rest) :
    readItems (fuel + 1) cs = ([item], none, some rest) := by
  simp [readItems, hvalue, hclose]

theorem readItems_next {item : Tree} {items : List Tree}
    (hvalue : readValue fuel cs = (item, some behind)) (hcomma : skipSpace behind = ',' :: more)
    (hmore : skipSpace more = c :: tail) (hc : c ≠ ']')
    (hitems : readItems fuel (c :: tail) = (items, none, some rest)) :
    readItems (fuel + 1) cs = (item :: items, none, some rest) := by
  simp [readItems, hvalue, hcomma, hmore, hc, hitems]

theorem readFields_last {key : String} {value : Tree} {text : List Char}
    (hkey : key.toList.length < fuel) (hcs : skipSpace cs = (quote key).toList ++ ':' :: text)
    (hvalue : readValue fuel text = (value, some behind))
    (hclose : skipSpace behind = '\x7d' :: rest) :
    readFields (fuel + 1) cs = ([(key, value)], none, some rest) := by
  have hread := readQuoted_quoted key (':' :: text) hkey
  have hcolon : skipSpace (':' :: text) = ':' :: text := by simp [skipSpace, isSpace]
  simp [readFields, hcs, toList_quote, hread, hcolon, hvalue, hclose]

theorem readFields_next {key : String} {value : Tree} {fields : List (String × Tree)}
    {text : List Char} (hkey : key.toList.length < fuel)
    (hcs : skipSpace cs = (quote key).toList ++ ':' :: text)
    (hvalue : readValue fuel text = (value, some behind)) (hcomma : skipSpace behind = ',' :: more)
    (hmore : skipSpace more = c :: tail)
    (hfields : readFields fuel (c :: tail) = (fields, none, some rest)) :
    readFields (fuel + 1) cs = ((key, value) :: fields, none, some rest) := by
  have hread := readQuoted_quoted key (':' :: text) hkey
  have hcolon : skipSpace (':' :: text) = ':' :: text := by simp [skipSpace, isSpace]
  simp [readFields, hcs, toList_quote, hread, hcolon, hvalue, hcomma, hmore, hfields]

end Steps

/-! ### Whole values -/

theorem skipSpace_quote (text : String) (rest : List Char) :
    skipSpace ((quote text).toList ++ rest) = (quote text).toList ++ rest := by
  simp [toList_quote, skipSpace, isSpace]

theorem skipSpace_blank (cs : List Char) : skipSpace (' ' :: cs) = skipSpace cs := rfl

theorem skipSpace_close {c : Char} (h : isSpace c = false) (step depth : Nat)
    (rest : List Char) : skipSpace ((indent step depth).toList ++ c :: rest) = c :: rest := by
  rw [skipSpace_indent, skipSpace, List.dropWhile_cons_of_neg (by simp [h])]

-- Of two steps in a row one passes a character, so that two steps for each character are enough.

/-- A value reads wherever it is printed. -/
def Reads (step : Nat) (value : Json) : Prop :=
  ∀ (depth fuel : Nat) (rest : List Char), 2 * (printed step depth value).length < fuel →
    EndsNumber rest → ReadsAs fuel (printed step depth value) value.toTree rest

def ItemsRead (step : Nat) (items : List Json) : Prop :=
  ∀ (depth fuel : Nat) (cs rest : List Char),
    2 * (printedItems step depth items).length + 1 < fuel →
    skipSpace cs = skipSpace (printedItems step depth items ++
      ((indent step depth).toList ++ ']' :: rest)) →
    readItems fuel cs = (toTrees items, none, some rest)

def FieldsRead (step : Nat) (fields : List (String × Json)) : Prop :=
  ∀ (depth fuel : Nat) (cs rest : List Char),
    2 * (printedFields step depth fields).length + 1 < fuel →
    skipSpace cs = skipSpace (printedFields step depth fields ++
      ((indent step depth).toList ++ '\x7d' :: rest)) →
    readFields fuel cs = (toFieldTrees fields, none, some rest)

section Assemble

variable {item next value : Json} {items : List Json} {key : String} {field : String × Json}
  {fields : List (String × Json)}

theorem Reads.starts (h : Reads step value) (depth : Nat) {closing : List Char}
    (hclosing : EndsNumber closing) :
    ∃ c tail, skipSpace (printed step depth value ++ closing) = c :: tail ∧ c ≠ ']' := by
  obtain ⟨behind, hread, -⟩ := h depth _ closing (Nat.lt_succ_self _) hclosing
  exact exists_of_readValue hread

theorem Reads.starts_items (h : Reads step item) (items : List Json) (depth : Nat)
    (rest : List Char) :
    ∃ c tail, skipSpace (printedItems step depth (item :: items) ++
      ((indent step depth).toList ++ ']' :: rest)) = c :: tail ∧ c ≠ ']' := by
  rw [printedItems, List.append_assoc]
  exact h.starts _ (endsNumber_prettyItems items (endsNumber_indent _ _ _))

theorem reads_arr (hitem : Reads step item) (hitems : ItemsRead step (item :: items)) :
    Reads step (.arr (item :: items)) := by
  intro depth fuel rest hfuel hrest
  obtain ⟨fuel, rfl⟩ : ∃ less, fuel = less + 1 := ⟨fuel - 1, by omega⟩
  obtain ⟨c, tail, hstart, hc⟩ := hitem.starts_items items depth rest
  rw [printed_arr] at hfuel ⊢
  simp only [List.length_cons, List.length_append, List.length_nil] at hfuel
  have hread := hitems depth fuel (c :: tail) rest (by omega)
    (by rw [← hstart, skipSpace_skipSpace])
  refine ⟨rest, ?_, rfl⟩
  simp only [List.cons_append, List.append_assoc, List.nil_append]
  exact readValue_arr ((skipSpace_indent _ _ _).trans hstart) hc hread

theorem itemsRead_last (h : Reads step item) : ItemsRead step [item] := by
  intro depth fuel cs rest hfuel hcs
  obtain ⟨fuel, rfl⟩ : ∃ less, fuel = less + 1 := ⟨fuel - 1, by omega⟩
  have htext : printedItems step depth [item] = printed step (depth + 1) item := by
    simp [printedItems, prettyItems]
  rw [htext] at hfuel hcs
  obtain ⟨behind, hread, hbehind⟩ := h (depth + 1) fuel ((indent step depth).toList ++ ']' :: rest)
    (by omega) (endsNumber_indent _ _ _)
  rw [skipSpace_close (by decide)] at hbehind
  exact readItems_last ((readValue_congr hcs fuel).trans hread) hbehind

theorem itemsRead_next (h : Reads step item) (hnext : Reads step next)
    (hitems : ItemsRead step (next :: items)) : ItemsRead step (item :: next :: items) := by
  intro depth fuel cs rest hfuel hcs
  obtain ⟨fuel, rfl⟩ : ∃ less, fuel = less + 1 := ⟨fuel - 1, by omega⟩
  obtain ⟨c, tail, hstart, hc⟩ := hnext.starts_items items depth rest
  have htext : printedItems step depth (item :: next :: items) =
      printed step (depth + 1) item ++ ',' :: ((indent step (depth + 1)).toList ++
        printedItems step depth (next :: items)) := by
    rw [printedItems, toList_prettyItems]
  rw [htext] at hfuel hcs
  simp only [List.length_cons, List.length_append] at hfuel
  simp only [List.append_assoc, List.cons_append] at hcs
  have hends : EndsNumber (',' :: ((indent step (depth + 1)).toList ++
      (printedItems step depth (next :: items) ++ ((indent step depth).toList ++ ']' :: rest)))) :=
    endsNumber_of_cons _ (by decide)
  obtain ⟨behind, hread, hbehind⟩ := h (depth + 1) fuel _ (by omega) hends
  have hrest := hitems depth fuel (c :: tail) rest (by omega)
    (by rw [← hstart, skipSpace_skipSpace])
  exact readItems_next ((readValue_congr hcs fuel).trans hread) hbehind
    ((skipSpace_indent _ _ _).trans hstart) hc hrest

theorem starts_fields (step depth : Nat) (field : String × Json) (fields : List (String × Json))
    (rest : List Char) :
    ∃ tail, skipSpace (printedFields step depth (field :: fields) ++
      ((indent step depth).toList ++ '\x7d' :: rest)) = '"' :: tail := by
  simp only [printedFields, List.append_assoc, toList_quote, List.cons_append]
  exact ⟨_, rfl⟩

theorem reads_obj (hfields : FieldsRead step (field :: fields)) :
    Reads step (.obj (field :: fields)) := by
  intro depth fuel rest hfuel hrest
  obtain ⟨fuel, rfl⟩ : ∃ less, fuel = less + 1 := ⟨fuel - 1, by omega⟩
  obtain ⟨tail, hstart⟩ := starts_fields step depth field fields rest
  rw [printed_obj] at hfuel ⊢
  simp only [List.length_cons, List.length_append, List.length_nil] at hfuel
  have hread := hfields depth fuel ('"' :: tail) rest (by omega)
    (by rw [← hstart, skipSpace_skipSpace])
  refine ⟨rest, ?_, rfl⟩
  simp only [List.cons_append, List.append_assoc, List.nil_append]
  exact readValue_obj ((skipSpace_indent _ _ _).trans hstart) hread

theorem fieldsRead_last (h : Reads step value) : FieldsRead step [(key, value)] := by
  intro depth fuel cs rest hfuel hcs
  obtain ⟨fuel, rfl⟩ : ∃ less, fuel = less + 1 := ⟨fuel - 1, by omega⟩
  have hlength := length_le_quote key
  simp only [printedFields, prettyFields, List.length_cons, List.length_append,
    String.toList_empty, List.append_nil] at hfuel hcs
  simp only [List.append_assoc, List.cons_append, skipSpace_quote] at hcs
  obtain ⟨behind, hread, hbehind⟩ := h (depth + 1) fuel
    ((indent step depth).toList ++ '\x7d' :: rest) (by omega) (endsNumber_indent _ _ _)
  rw [skipSpace_close (by decide)] at hbehind
  exact readFields_last (by omega) hcs
    ((readValue_congr (skipSpace_blank _) fuel).trans hread) hbehind

theorem fieldsRead_next (h : Reads step value) (hfields : FieldsRead step (field :: fields)) :
    FieldsRead step ((key, value) :: field :: fields) := by
  intro depth fuel cs rest hfuel hcs
  obtain ⟨fuel, rfl⟩ : ∃ less, fuel = less + 1 := ⟨fuel - 1, by omega⟩
  have hlength := length_le_quote key
  obtain ⟨tail, hstart⟩ := starts_fields step depth field fields rest
  rw [printedFields, toList_prettyFields] at hfuel hcs
  simp only [List.length_cons, List.length_append] at hfuel
  simp only [List.append_assoc, List.cons_append, skipSpace_quote] at hcs
  have hends : EndsNumber (',' :: ((indent step (depth + 1)).toList ++
      (printedFields step depth (field :: fields) ++
        ((indent step depth).toList ++ '\x7d' :: rest)))) :=
    endsNumber_of_cons _ (by decide)
  obtain ⟨behind, hread, hbehind⟩ := h (depth + 1) fuel _ (by omega) hends
  have hrest := hfields depth fuel ('"' :: tail) rest (by omega)
    (by rw [← hstart, skipSpace_skipSpace])
  exact readFields_next (by omega) hcs
    ((readValue_congr (skipSpace_blank _) fuel).trans hread) hbehind
    ((skipSpace_indent _ _ _).trans hstart) hrest

end Assemble

section Scalars

variable (step : Nat)

theorem reads_null : Reads step .null := by
  intro depth fuel rest hfuel hrest
  obtain ⟨fuel, rfl⟩ : ∃ less, fuel = less + 1 := ⟨fuel - 1, by omega⟩
  have hread := readWord_append .null "ull".toList rest
  refine ⟨rest, ?_, rfl⟩
  simpa [printed, prettyAt, scalarText, readValue, skipSpace, isSpace, toTree] using hread

theorem reads_bool (b : Bool) : Reads step (.bool b) := by
  intro depth fuel rest hfuel hrest
  obtain ⟨fuel, rfl⟩ : ∃ less, fuel = less + 1 := ⟨fuel - 1, by omega⟩
  refine ⟨rest, ?_, rfl⟩
  cases b with
  | true =>
      have hread := readWord_append (.bool true) "rue".toList rest
      simpa [printed, prettyAt, scalarText, readValue, skipSpace, isSpace, toTree] using hread
  | false =>
      have hread := readWord_append (.bool false) "alse".toList rest
      simpa [printed, prettyAt, scalarText, readValue, skipSpace, isSpace, toTree] using hread

theorem reads_int {n : Int} (h : Fits n) : Reads step (.int n) := by
  intro depth fuel rest hfuel hrest
  obtain ⟨fuel, rfl⟩ : ∃ less, fuel = less + 1 := ⟨fuel - 1, by omega⟩
  exact ⟨rest, readValue_int hrest h fuel, rfl⟩

theorem reads_real {x : Binary64} (h : ReadsBack x) : Reads step (.real x) := by
  intro depth fuel rest hfuel hrest
  obtain ⟨fuel, rfl⟩ : ∃ less, fuel = less + 1 := ⟨fuel - 1, by omega⟩
  exact readValue_real hrest h fuel

theorem reads_str (text : String) : Reads step (.str text) := by
  intro depth fuel rest hfuel hrest
  obtain ⟨fuel, rfl⟩ : ∃ less, fuel = less + 1 := ⟨fuel - 1, by omega⟩
  have hlength := length_le_quote text
  have hfuel : 2 * (quote text).toList.length < fuel + 1 := hfuel
  exact ⟨rest, readValue_quote (by omega) rest, rfl⟩

theorem reads_arr_nil : Reads step (.arr []) := by
  intro depth fuel rest hfuel hrest
  obtain ⟨fuel, rfl⟩ : ∃ less, fuel = less + 1 := ⟨fuel - 1, by omega⟩
  have htext : printed step depth (.arr []) = ['[', ']'] := by simp [printed, prettyAt]
  exact ⟨rest, htext ▸ readValue_brackets fuel rest, rfl⟩

theorem reads_obj_nil : Reads step (.obj []) := by
  intro depth fuel rest hfuel hrest
  obtain ⟨fuel, rfl⟩ : ∃ less, fuel = less + 1 := ⟨fuel - 1, by omega⟩
  have htext : printed step depth (.obj []) = ['\x7b', '\x7d'] := by simp [printed, prettyAt]
  exact ⟨rest, htext ▸ readValue_braces fuel rest, rfl⟩

end Scalars

mutual

theorem reads_of_readable (step : Nat) : (value : Json) → value.Readable → Reads step value
  | .null, _ => reads_null step
  | .bool b, _ => reads_bool step b
  | .int _, h => reads_int step h
  | .real _, h => reads_real step h
  | .str text, _ => reads_str step text
  | .arr [], _ => reads_arr_nil step
  | .obj [], _ => reads_obj_nil step
  | .arr (item :: items), h =>
      reads_arr (reads_of_readable step item h.1)
        (itemsRead_of_readable step (item :: items) h (List.cons_ne_nil _ _))
  | .obj (field :: fields), h =>
      reads_obj (fieldsRead_of_readable step (field :: fields) h (List.cons_ne_nil _ _))

theorem itemsRead_of_readable (step : Nat) : (items : List Json) → ReadableItems items →
    items ≠ [] → ItemsRead step items
  | [], _, hne => absurd rfl hne
  | [item], h, _ => itemsRead_last (reads_of_readable step item h.1)
  | item :: next :: items, h, _ =>
      itemsRead_next (reads_of_readable step item h.1) (reads_of_readable step next h.2.1)
        (itemsRead_of_readable step (next :: items) h.2 (List.cons_ne_nil _ _))

theorem fieldsRead_of_readable (step : Nat) : (fields : List (String × Json)) →
    ReadableFields fields → fields ≠ [] → FieldsRead step fields
  | [], _, hne => absurd rfl hne
  | [(_, value)], h, _ => fieldsRead_last (reads_of_readable step value h.1)
  | (_, value) :: next :: fields, h, _ =>
      fieldsRead_next (reads_of_readable step value h.1)
        (fieldsRead_of_readable step (next :: fields) h.2 (List.cons_ne_nil _ _))

end

theorem readTree_pretty {value : Json} (h : value.Readable) :
    readTree value.pretty = (value.toTree, none) := by
  obtain ⟨behind, hread, hbehind⟩ := reads_of_readable 2 value h 0
    (2 * value.pretty.toList.length + 2) [] (Nat.lt_add_of_pos_right (by decide))
    (by simp [EndsNumber])
  rw [List.append_nil] at hread
  have hnothing : skipSpace behind = [] := hbehind
  unfold readTree
  simp only [pretty] at hread ⊢
  rw [hread]
  simp [hnothing]

end RpcContract.Json
