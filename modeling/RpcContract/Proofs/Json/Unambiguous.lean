import Std.Data.String.ToInt
import RpcContract.Proofs.Decimal.Value
import RpcContract.Proofs.Json.Quoted

/-!
# One compact text for one value

Values whose numbers are finite have different compact texts.  The first sign of a text tells what
kind of value it is, and what stands behind a value does not go on with it.
-/

namespace RpcContract.Json

mutual

def Finite : Json → Prop
  | .real x => x.isFinite = true
  | .arr items => FiniteItems items
  | .obj fields => FiniteFields fields
  | .null | .bool _ | .int _ | .str _ => True

def FiniteItems : List Json → Prop
  | [] => True
  | item :: rest => Finite item ∧ FiniteItems rest

def FiniteFields : List (String × Json) → Prop
  | [] => True
  | (_, value) :: rest => Finite value ∧ FiniteFields rest

end

/-! ## Kinds of values -/

inductive Kind where
  | null
  | bool (value : Bool)
  | number
  | str
  | arr
  | obj
deriving DecidableEq

def kind : Json → Kind
  | .null => .null
  | .bool b => .bool b
  | .int _ | .real _ => .number
  | .str _ => .str
  | .arr _ => .arr
  | .obj _ => .obj

def kindOf? (c : Char) : Option Kind :=
  if c = 'n' then some .null
  else if c = 't' then some (.bool true)
  else if c = 'f' then some (.bool false)
  else if c = '"' then some .str
  else if c = '[' then some .arr
  else if c = '\x7b' then some .obj
  else if Layout.IsNumeric c then some .number
  else none

/-! ## Numbers -/

section Numbers

variable {cs later rest other : List Char}

/-- What stands behind a number does not go on with it. -/
def Ends (rest : List Char) : Prop := ∀ c ∈ rest.head?, ¬ Layout.IsNumeric c

theorem takeWhile_isNumeric (h : ∀ c ∈ cs, Layout.IsNumeric c) (hrest : Ends rest) :
    (cs ++ rest).takeWhile (fun c => decide (Layout.IsNumeric c)) = cs := by
  rw [List.takeWhile_append_of_pos fun c hc => decide_eq_true (h c hc)]
  cases rest with
  | nil => simp
  | cons c rest => simp [hrest c rfl]

theorem eq_of_numeric (h : ∀ c ∈ cs, Layout.IsNumeric c) (hlater : ∀ c ∈ later, Layout.IsNumeric c)
    (hrest : Ends rest) (hother : Ends other) (heq : cs ++ rest = later ++ other) :
    cs = later ∧ rest = other := by
  have hcs : cs = later := by
    rw [← takeWhile_isNumeric h hrest, heq, takeWhile_isNumeric hlater hother]
  subst hcs
  exact ⟨rfl, List.append_cancel_left heq⟩

theorem numeric_toString_int (n : Int) : Layout.Numeric (toString n) := by
  cases n with
  | ofNat n => exact Layout.numeric_toString n
  | negSucc n =>
      have hminus : Layout.Numeric "-" := by decide
      exact hminus.append (Layout.numeric_toString (n + 1))

theorem toList_negSucc (n : Nat) :
    (toString (Int.negSucc n)).toList = '-' :: (toString (n + 1)).toList := String.toList_append

theorem isDigit_or_minus_of_mem {n : Int} {c : Char} (h : c ∈ (toString n).toList) :
    c.isDigit = true ∨ c = '-' := by
  cases n with
  | ofNat n => exact .inl (Digits.toString n c h)
  | negSucc n =>
      rw [toList_negSucc, List.mem_cons] at h
      exact h.symm.imp (Digits.toString (n + 1) c) id

theorem marked_render {x : Binary64} (h : x.isFinite = true) :
    '.' ∈ (numberLayout.render x).toList ∨ 'e' ∈ (numberLayout.render x).toList := by
  rw [Layout.render_eq h, String.toList_append, List.mem_append, List.mem_append]
  exact Layout.marked_unsigned.marked.imp .inr .inr

theorem toString_int_ne_render (n : Int) {x : Binary64} (h : x.isFinite = true) :
    toString n ≠ numberLayout.render x := by
  intro heq
  have hmarked := marked_render h
  rw [← heq] at hmarked
  rcases hmarked with hmark | hmark <;>
    exact absurd (isDigit_or_minus_of_mem hmark) (by decide)

end Numbers

theorem quote_append_inj {a b : String} {rest other : List Char}
    (h : (quote a).toList ++ rest = (quote b).toList ++ other) : a = b ∧ rest = other := by
  rw [toList_quote, toList_quote, List.cons_append, List.cons_append, List.cons_inj_right,
    List.append_assoc, List.append_assoc, List.singleton_append, List.singleton_append] at h
  have hfuel : a.toList.length < a.toList.length + b.toList.length + 1 := by omega
  have hread := readQuoted_quoted a rest hfuel
  rw [h, readQuoted_quoted b other (by omega)] at hread
  cases hread
  exact ⟨rfl, rfl⟩

/-! ## Values -/

theorem kindOf?_of_isNumeric {c : Char} (h : Layout.IsNumeric c) : kindOf? c = some .number := by
  have hne (mark : Char) (hmark : ¬ Layout.IsNumeric mark) : c ≠ mark := fun heq => hmark (heq ▸ h)
  rw [kindOf?, if_neg (hne _ (by decide)), if_neg (hne _ (by decide)), if_neg (hne _ (by decide)),
    if_neg (hne _ (by decide)), if_neg (hne _ (by decide)), if_neg (hne _ (by decide)), if_pos h]

theorem compact_real {x : Binary64} (h : x.isFinite = true) :
    compact (.real x) = numberLayout.render x := by
  rw [compact, scalarText, if_pos h]

theorem toList_compact_arr (items : List Json) :
    (compact (.arr items)).toList = '[' :: ((compactItems items).toList ++ [']']) := by
  simp [compact]

theorem toList_compact_obj (fields : List (String × Json)) :
    (compact (.obj fields)).toList = '\x7b' :: ((compactFields fields).toList ++ ['\x7d']) := by
  simp [compact]

theorem compact_of_number {a : Json} (h : a.Finite) (hkind : a.kind = .number) :
    a.compact.toList ≠ [] ∧ Layout.Numeric a.compact := by
  cases a with
  | int n =>
      refine ⟨?_, numeric_toString_int n⟩
      cases n with
      | ofNat n => exact toString_ne_nil n
      | negSucc n => exact fun hnil => by cases (toList_negSucc n).symm.trans hnil
  | real x =>
      have hx : x.isFinite = true := h
      rw [compact_real hx]
      refine ⟨fun hnil => ?_, Layout.numeric_render _ hx⟩
      have hmarked := marked_render hx
      simp [hnil] at hmarked
  | _ => cases hkind

theorem exists_compact {a : Json} (h : a.Finite) : ∃ c cs,
    a.compact.toList = c :: cs ∧ kindOf? c = some a.kind := by
  have hnumber (hkind : a.kind = .number) : ∃ c cs,
      a.compact.toList = c :: cs ∧ kindOf? c = some .number := by
    obtain ⟨hnonempty, hnumeric⟩ := compact_of_number h hkind
    obtain ⟨c, cs, hcs⟩ := List.exists_cons_of_ne_nil hnonempty
    exact ⟨c, cs, hcs, kindOf?_of_isNumeric (hnumeric c (by rw [hcs]; exact .head _))⟩
  cases a with
  | null => exact ⟨'n', _, rfl, rfl⟩
  | bool b => cases b <;> exact ⟨_, _, rfl, rfl⟩
  | int n => exact hnumber rfl
  | real x => exact hnumber rfl
  | str text => exact ⟨'"', _, toList_quote text, rfl⟩
  | arr items => exact ⟨'[', _, toList_compact_arr items, rfl⟩
  | obj fields => exact ⟨'\x7b', _, toList_compact_obj fields, rfl⟩

theorem kind_eq {a b : Json} {rest other : List Char} (ha : a.Finite) (hb : b.Finite)
    (h : a.compact.toList ++ rest = b.compact.toList ++ other) : a.kind = b.kind := by
  obtain ⟨c, cs, hcs, hc⟩ := exists_compact ha
  obtain ⟨d, ds, hds, hd⟩ := exists_compact hb
  rw [hcs, hds, List.cons_append, List.cons_append, List.cons.injEq] at h
  rw [h.1] at hc
  exact Option.some.inj (hc.symm.trans hd)

theorem compact_append_ne {a : Json} {c : Char} {rest other : List Char} (h : a.Finite)
    (hc : kindOf? c = none) : a.compact.toList ++ rest ≠ c :: other := by
  obtain ⟨d, ds, hds, hd⟩ := exists_compact h
  rw [hds, List.cons_append]
  intro heq
  rw [(List.cons.inj heq).1, hc] at hd
  cases hd

theorem eq_of_numbers {a b : Json} {rest other : List Char} (ha : a.Finite) (hb : b.Finite)
    (hkind : a.kind = .number) (hsame : b.kind = .number) (hrest : Ends rest) (hother : Ends other)
    (h : a.compact.toList ++ rest = b.compact.toList ++ other) : a = b ∧ rest = other := by
  obtain ⟨htext, hrests⟩ := eq_of_numeric (compact_of_number ha hkind).2
    (compact_of_number hb hsame).2 hrest hother h
  refine ⟨?_, hrests⟩
  have htext := String.toList_inj.mp htext
  cases a with
  | int m =>
      cases b with
      | int n => exact congrArg _ (Int.repr_injective htext)
      | real y =>
          rw [compact_real hb] at htext
          exact absurd htext (toString_int_ne_render m hb)
      | _ => cases hsame
  | real x =>
      rw [compact_real ha] at htext
      cases b with
      | int n => exact absurd htext.symm (toString_int_ne_render n ha)
      | real y =>
          rw [compact_real hb] at htext
          exact congrArg _ (Layout.render_inj ha hb htext)
      | _ => cases hsame
  | _ => cases hkind

/-! ## Values inside longer text -/

def afterItem (rest : List Char) : List Json → List Char
  | [] => ']' :: rest
  | items => ',' :: ((compactItems items).toList ++ ']' :: rest)

def afterField (rest : List Char) : List (String × Json) → List Char
  | [] => '\x7d' :: rest
  | fields => ',' :: ((compactFields fields).toList ++ '\x7d' :: rest)

section After

variable (rest : List Char) (items : List Json) (fields : List (String × Json))

theorem ends_afterItem : Ends (afterItem rest items) := by
  unfold afterItem
  split <;> exact fun c hc => by cases hc; decide

theorem ends_afterField : Ends (afterField rest fields) := by
  unfold afterField
  split <;> exact fun c hc => by cases hc; decide

theorem toList_compactItems (item : Json) : (compactItems (item :: items)).toList ++ ']' :: rest =
    item.compact.toList ++ afterItem rest items := by
  cases items <;> simp [compactItems, afterItem]

theorem toList_compactFields (key : String) (value : Json) :
    (compactFields ((key, value) :: fields)).toList ++ '\x7d' :: rest =
      (quote key).toList ++ ':' :: (value.compact.toList ++ afterField rest fields) := by
  cases fields <;> simp [compactFields, afterField]

end After

/-- A value and what stands behind it are known from the whole text. -/
def Unambiguous (a : Json) : Prop :=
  ∀ (b : Json) (rest other : List Char), b.Finite → Ends rest → Ends other →
    a.compact.toList ++ rest = b.compact.toList ++ other → a = b ∧ rest = other

def ItemsUnambiguous (items : List Json) : Prop :=
  ∀ (others : List Json) (rest other : List Char), FiniteItems others →
    (compactItems items).toList ++ ']' :: rest = (compactItems others).toList ++ ']' :: other →
      items = others ∧ rest = other

def FieldsUnambiguous (fields : List (String × Json)) : Prop :=
  ∀ (others : List (String × Json)) (rest other : List Char), FiniteFields others →
    (compactFields fields).toList ++ '\x7d' :: rest =
        (compactFields others).toList ++ '\x7d' :: other →
      fields = others ∧ rest = other

theorem unambiguous_arr {items : List Json} (ha : (Json.arr items).Finite)
    (hitems : ItemsUnambiguous items) : Unambiguous (.arr items) := by
  intro b rest other hb _ _ h
  have hkind := kind_eq ha hb h
  cases b with
  | arr others =>
      rw [toList_compact_arr, toList_compact_arr] at h
      simp only [List.cons_append, List.append_assoc, List.cons_inj_right, List.nil_append] at h
      obtain ⟨rfl, hrest⟩ := hitems others rest other hb h
      exact ⟨rfl, hrest⟩
  | _ => cases hkind

theorem unambiguous_obj {fields : List (String × Json)} (ha : (Json.obj fields).Finite)
    (hfields : FieldsUnambiguous fields) : Unambiguous (.obj fields) := by
  intro b rest other hb _ _ h
  have hkind := kind_eq ha hb h
  cases b with
  | obj others =>
      rw [toList_compact_obj, toList_compact_obj] at h
      simp only [List.cons_append, List.append_assoc, List.cons_inj_right, List.nil_append] at h
      obtain ⟨rfl, hrest⟩ := hfields others rest other hb h
      exact ⟨rfl, hrest⟩
  | _ => cases hkind

theorem unambiguous_null : Unambiguous .null := by
  intro b rest other hb _ _ h
  have hkind := kind_eq (a := .null) trivial hb h
  cases b with
  | null => exact ⟨rfl, List.append_cancel_left h⟩
  | _ => cases hkind

theorem unambiguous_bool (value : Bool) : Unambiguous (.bool value) := by
  intro b rest other hb _ _ h
  have hkind := kind_eq (a := .bool value) trivial hb h
  cases b with
  | bool later =>
      cases hkind
      exact ⟨rfl, List.append_cancel_left h⟩
  | _ => cases hkind

theorem unambiguous_str (text : String) : Unambiguous (.str text) := by
  intro b rest other hb _ _ h
  have hkind := kind_eq (a := .str text) trivial hb h
  cases b with
  | str later =>
      obtain ⟨rfl, hrest⟩ := quote_append_inj h
      exact ⟨rfl, hrest⟩
  | _ => cases hkind

theorem unambiguous_number {a : Json} (ha : a.Finite) (hkind : a.kind = .number) :
    Unambiguous a := by
  intro b rest other hb hrest hother h
  exact eq_of_numbers ha hb hkind ((kind_eq ha hb h).symm.trans hkind) hrest hother h

theorem itemsUnambiguous_nil : ItemsUnambiguous [] := by
  intro others rest other hothers h
  cases others with
  | nil => exact ⟨rfl, List.tail_eq_of_cons_eq h⟩
  | cons next others =>
      rw [toList_compactItems] at h
      exact absurd h.symm (compact_append_ne hothers.1 (by decide))

theorem itemsUnambiguous_cons {item : Json} {items : List Json} (ha : item.Finite)
    (hitem : Unambiguous item) (hitems : ItemsUnambiguous items) :
    ItemsUnambiguous (item :: items) := by
  intro others rest other hothers h
  rw [toList_compactItems] at h
  cases others with
  | nil => exact absurd h (compact_append_ne ha (by decide))
  | cons next others =>
      rw [toList_compactItems] at h
      obtain ⟨rfl, hafter⟩ := hitem next _ _ hothers.1 (ends_afterItem _ _) (ends_afterItem _ _) h
      cases items <;> cases others <;> simp only [afterItem, List.cons.injEq] at hafter
      · exact ⟨rfl, hafter.2⟩
      · exact absurd hafter.1 (by decide)
      · exact absurd hafter.1 (by decide)
      · obtain ⟨heq, hrest⟩ := hitems _ _ _ hothers.2 hafter.2
        exact ⟨congrArg _ heq, hrest⟩

theorem fieldsUnambiguous_nil : FieldsUnambiguous [] := by
  intro others rest other hothers h
  cases others with
  | nil => exact ⟨rfl, List.tail_eq_of_cons_eq h⟩
  | cons next others =>
      rw [toList_compactFields, toList_quote] at h
      cases h

theorem fieldsUnambiguous_cons {key : String} {value : Json} {fields : List (String × Json)}
    (hvalue : Unambiguous value) (hfields : FieldsUnambiguous fields) :
    FieldsUnambiguous ((key, value) :: fields) := by
  intro others rest other hothers h
  rw [toList_compactFields] at h
  cases others with
  | nil =>
      rw [toList_quote] at h
      cases h
  | cons next others =>
      obtain ⟨nextKey, nextValue⟩ := next
      rw [toList_compactFields] at h
      obtain ⟨rfl, hbehind⟩ := quote_append_inj h
      obtain ⟨rfl, hafter⟩ := hvalue nextValue _ _ hothers.1 (ends_afterField _ _)
        (ends_afterField _ _) (List.tail_eq_of_cons_eq hbehind)
      cases fields <;> cases others <;> simp only [afterField, List.cons.injEq] at hafter
      · exact ⟨rfl, hafter.2⟩
      · exact absurd hafter.1 (by decide)
      · exact absurd hafter.1 (by decide)
      · obtain ⟨heq, hrest⟩ := hfields _ _ _ hothers.2 hafter.2
        exact ⟨congrArg _ heq, hrest⟩

mutual

theorem unambiguous : (a : Json) → a.Finite → Unambiguous a
  | .null, _ => unambiguous_null
  | .bool b, _ => unambiguous_bool b
  | .int _, h => unambiguous_number h rfl
  | .real _, h => unambiguous_number h rfl
  | .str text, _ => unambiguous_str text
  | .arr items, h => unambiguous_arr h (itemsUnambiguous items h)
  | .obj fields, h => unambiguous_obj h (fieldsUnambiguous fields h)

theorem itemsUnambiguous : (items : List Json) → FiniteItems items → ItemsUnambiguous items
  | [], _ => itemsUnambiguous_nil
  | item :: rest, h =>
      itemsUnambiguous_cons h.1 (unambiguous item h.1) (itemsUnambiguous rest h.2)

theorem fieldsUnambiguous : (fields : List (String × Json)) → FiniteFields fields →
    FieldsUnambiguous fields
  | [], _ => fieldsUnambiguous_nil
  | (_, value) :: rest, h =>
      fieldsUnambiguous_cons (unambiguous value h.1) (fieldsUnambiguous rest h.2)

end

theorem compact_inj {a b : Json} (ha : a.Finite) (hb : b.Finite) (h : a.compact = b.compact) :
    a = b :=
  (unambiguous a ha b [] [] hb nofun nofun (congrArg (fun text => text.toList ++ []) h)).1

end RpcContract.Json
