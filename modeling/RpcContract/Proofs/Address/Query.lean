import RpcContract.Address.Query
import RpcContract.Proofs.Address.Percent

/-!
# Reading query strings

A query string is taken apart at its separators: pairs, then key and value, then the parts of the
key.  What is read are the scalars of the data that was written, in their order, each with the part
of its path that a key keeps.
-/

namespace RpcContract.Query

/-! ## Scalars and their paths -/

inductive Step where
  | key (name : String)
  | index (position : Nat)
deriving DecidableEq, Repr

def Step.text : Step → String
  | .key name => name
  | .index position => toString position

/-- The parts of a key: what stands before the first bracket, and what stands in brackets. -/
structure Key where
  head : String
  groups : List String
deriving DecidableEq, Repr

/-- Empty names at the start of a path are left out.  If a name follows, it is the head; all else is
in brackets. -/
def Key.ofPath : List Step → Key
  | .key name :: rest => if name = "" then ofPath rest else ⟨name, rest.map Step.text⟩
  | rest => ⟨"", rest.map Step.text⟩

structure Leaf where
  path : List Step
  text : String
deriving DecidableEq, Repr

def Leaf.key (leaf : Leaf) : Key := .ofPath leaf.path

mutual

/-- The scalars of a value that stands at a path, depth first. -/
def leaves (path : List Step) : Json → List Leaf
  | .null => []
  | .obj fields => fieldLeaves path fields
  | .arr items => itemLeaves path 0 items
  | .str text => [⟨path, text⟩]
  | .bool value => [⟨path, (Json.bool value).compact⟩]
  | .int value => [⟨path, (Json.int value).compact⟩]
  | .real value => [⟨path, (Json.real value).compact⟩]

def fieldLeaves (path : List Step) : List (String × Json) → List Leaf
  | [] => []
  | (name, value) :: rest => leaves (path ++ [.key name]) value ++ fieldLeaves path rest

def itemLeaves (path : List Step) (position : Nat) : List Json → List Leaf
  | [] => []
  | item :: rest =>
      leaves (path ++ [.index position]) item ++ itemLeaves path (position + 1) rest

end

/-! ## Reading -/

def readGroup (piece : List Char) : Option String :=
  if piece.getLast? = some ']' then Percent.decode? piece.dropLast else none

def readKey (cs : List Char) : Option Key :=
  match cs.splitOn '[' with
  | [] => none
  | head :: pieces => do
      let head ← Percent.decode? head
      let groups ← pieces.mapM readGroup
      return ⟨head, groups⟩

def readPair (cs : List Char) : Option (Key × String) :=
  match cs.dropWhile (· != '=') with
  | [] => none
  | _ :: value => do
      let key ← readKey (cs.takeWhile (· != '='))
      let text ← Percent.decode? value
      return (key, text)

/-- The keys and values of a query string. -/
def decode? (query : String) : Option (List (Key × String)) :=
  if query.isEmpty then some [] else (query.toList.splitOn '&').mapM readPair

/-! ## Writing pairs -/

def Key.written (key : Key) : String :=
  Percent.encode key.head ++ String.join (key.groups.map fun g => "[" ++ Percent.encode g ++ "]")

def Leaf.written (leaf : Leaf) : String :=
  leaf.key.written ++ "=" ++ Percent.encode leaf.text

def extend (key : String) : Step → String
  | .key name => nest key (Percent.encode name)
  | .index position => key ++ "[" ++ toString position ++ "]"

theorem isUnreserved_of_isDigit {c : Char} (h : c.isDigit = true) :
    Percent.isUnreserved c = true := by
  simp [Percent.isUnreserved, Char.isAlphanum, h]

theorem encode_toString (n : Nat) : Percent.encode (toString n) = toString n := by
  refine Percent.encode_eq_self fun c hc => isUnreserved_of_isDigit ?_
  rw [Nat.toString_eq_repr, Nat.toList_repr] at hc
  exact Nat.isDigit_of_mem_toDigits (by omega) (by omega) hc

theorem extend_of_ne_empty {key : String} (h : key ≠ "") (step : Step) :
    extend key step = key ++ "[" ++ Percent.encode step.text ++ "]" := by
  cases step with
  | key name => simp [extend, nest, h, Step.text]
  | index position => rw [extend, Step.text, encode_toString]

theorem foldl_extend {key : String} (h : key ≠ "") (path : List Step) :
    path.foldl extend key = key ++ String.join (path.map fun step =>
      "[" ++ Percent.encode step.text ++ "]") := by
  induction path generalizing key with
  | nil => simp
  | cons step rest ih =>
      have hextended : extend key step ≠ "" := by simp [extend_of_ne_empty h]
      rw [List.foldl_cons, ih hextended, extend_of_ne_empty h, List.map_cons, String.join_cons]
      simp only [String.append_assoc]

theorem foldl_extend_empty (path : List Step) :
    path.foldl extend "" = (Key.ofPath path).written := by
  induction path with
  | nil => rfl
  | cons step rest ih =>
      cases step with
      | key name =>
          -- An empty name leaves the key empty, and any other one is the head from then on.
          by_cases hname : name = ""
          · simpa [hname, Key.ofPath, extend, nest] using ih
          · have hencoded : Percent.encode name ≠ "" := fun h =>
              hname (Percent.encode_eq_empty_iff.mp h)
            rw [List.foldl_cons, Key.ofPath, if_neg hname]
            simpa [extend, nest, Key.written, Function.comp_def] using foldl_extend hencoded rest
      | index position =>
          have hgroup : extend "" (.index position) ≠ "" := by simp [extend]
          have hkey : Key.ofPath (.index position :: rest) =
              ⟨"", toString position :: rest.map Step.text⟩ := rfl
          rw [List.foldl_cons, foldl_extend hgroup, hkey, Key.written, List.map_cons,
            String.join_cons, encode_toString, Percent.encode_empty, List.map_map]
          rfl

mutual

theorem pairs_foldl (path : List Step) (value : Json) :
    pairs (path.foldl extend "") value = (leaves path value).map Leaf.written := by
  cases value with
  | null => rfl
  | obj fields => exact fieldPairs_foldl path fields
  | arr items => exact itemPairs_foldl path 0 items
  | str | bool | int | real => simp [pairs, leaves, Leaf.written, Leaf.key, foldl_extend_empty]

theorem fieldPairs_foldl (path : List Step) (fields : List (String × Json)) :
    fieldPairs (path.foldl extend "") fields = (fieldLeaves path fields).map Leaf.written := by
  cases fields with
  | nil => rfl
  | cons field rest =>
      obtain ⟨name, value⟩ := field
      have hvalue := pairs_foldl (path ++ [.key name]) value
      rw [List.foldl_append, List.foldl_cons, List.foldl_nil, extend] at hvalue
      rw [fieldPairs, fieldLeaves, List.map_append, hvalue, fieldPairs_foldl path rest]

theorem itemPairs_foldl (path : List Step) (position : Nat) (items : List Json) :
    itemPairs (path.foldl extend "") position items =
      (itemLeaves path position items).map Leaf.written := by
  cases items with
  | nil => rfl
  | cons item rest =>
      have hitem := pairs_foldl (path ++ [.index position]) item
      rw [List.foldl_append, List.foldl_cons, List.foldl_nil, extend] at hitem
      rw [itemPairs, itemLeaves, List.map_append, hitem, itemPairs_foldl path (position + 1) rest]

end

theorem encode_obj (fields : List (String × Json)) :
    encode (.obj fields) = "&".intercalate ((fieldLeaves [] fields).map Leaf.written) :=
  congrArg ("&".intercalate ·) (fieldPairs_foldl [] fields)

/-! ## Reading what has been written -/

theorem mapM_map_eq_some {α β γ : Type} {read : β → Option γ} {write : α → β} {value : α → γ}
    (h : ∀ a, read (write a) = some (value a)) (items : List α) :
    (items.map write).mapM read = some (items.map value) := by
  induction items with
  | nil => rfl
  | cons a items ih => simp [h, ih]

theorem not_mem_encode {sign : Char} (h : sign ∈ ['&', '=', '[', ']']) (text : String) :
    sign ∉ (Percent.encode text).toList := by
  intro hmem
  have hsign : Percent.isUnreserved sign = false ∧ sign ≠ '%' := by
    simp only [List.mem_cons, List.not_mem_nil, or_false] at h
    rcases h with rfl | rfl | rfl | rfl <;> decide
  obtain ⟨hreserved, hpercent⟩ := hsign
  rcases Percent.of_mem_encode hmem with hunreserved | rfl
  · rw [hreserved] at hunreserved
    cases hunreserved
  · exact hpercent rfl

def groupPiece (text : String) : List Char := (Percent.encode text).toList ++ [']']

theorem readGroup_groupPiece (text : String) : readGroup (groupPiece text) = some text := by
  simp [readGroup, groupPiece, Percent.decode?_encode]

theorem toList_written (key : Key) :
    key.written.toList =
      ['['].intercalate ((Percent.encode key.head).toList :: key.groups.map groupPiece) := by
  obtain ⟨head, groups⟩ := key
  have hgroups (pieces : List (List Char)) (first : List Char) :
      ['['].intercalate (first :: pieces) = first ++ pieces.flatMap ('[' :: ·) := by
    induction pieces generalizing first with
    | nil => simp
    | cons piece pieces ih => simp [List.intercalate_cons_cons, ih]
  rw [hgroups, Key.written, String.toList_append, String.toList_join, List.flatMap_map,
    List.flatMap_map]
  simp [groupPiece]

theorem readKey_written (key : Key) : readKey key.written.toList = some key := by
  have hpieces : ∀ piece ∈ (Percent.encode key.head).toList :: key.groups.map groupPiece,
      '[' ∉ piece := by
    refine List.forall_mem_cons.mpr ⟨not_mem_encode (by decide) _, fun piece hpiece => ?_⟩
    obtain ⟨text, -, rfl⟩ := List.mem_map.mp hpiece
    simpa [groupPiece] using not_mem_encode (by decide) text
  have hgroups : (key.groups.map groupPiece).mapM readGroup = some key.groups := by
    have hread := mapM_map_eq_some readGroup_groupPiece key.groups
    rwa [List.map_id'] at hread
  rw [readKey, toList_written, List.splitOn_intercalate '[' hpieces (by simp)]
  simp [Percent.decode?_encode, hgroups]

theorem written_injective {key other : Key} (h : key.written = other.written) : key = other := by
  have hread := readKey_written key
  rw [h, readKey_written] at hread
  exact (Option.some.inj hread).symm

theorem not_mem_written {sign : Char} (h : sign ∈ ['&', '=']) (key : Key) :
    sign ∉ key.written.toList := by
  have hencoded (text : String) : sign ∉ (Percent.encode text).toList :=
    not_mem_encode (List.mem_append_left ['[', ']'] h) text
  have hbrackets : sign ≠ '[' ∧ sign ≠ ']' := by
    revert h
    simp only [List.mem_cons, List.not_mem_nil, or_false]
    rintro (rfl | rfl) <;> decide
  simp [Key.written, String.toList_join, hencoded, hbrackets]

theorem readPair_written (leaf : Leaf) :
    readPair leaf.written.toList = some (leaf.key, leaf.text) := by
  have hkey : ∀ c ∈ leaf.key.written.toList, (c != '=') = true := fun c hc =>
    bne_iff_ne.mpr fun h => not_mem_written (by decide) _ (h ▸ hc)
  rw [readPair, Leaf.written, String.toList_append, String.toList_append, List.append_assoc,
    List.dropWhile_append_of_pos hkey, List.takeWhile_append_of_pos hkey]
  simp [readKey_written, Percent.decode?_encode]

theorem not_mem_leaf_written (leaf : Leaf) : '&' ∉ leaf.written.toList := by
  simp [Leaf.written, not_mem_written, not_mem_encode]

theorem written_ne_empty (leaf : Leaf) : leaf.written ≠ "" := by simp [Leaf.written]

theorem intercalate_written_eq_empty_iff (leaves : List Leaf) :
    "&".intercalate (leaves.map Leaf.written) = "" ↔ leaves = [] := by
  cases leaves with
  | nil => simp
  | cons leaf rest =>
      cases rest with
      | nil => simpa using written_ne_empty leaf
      | cons => simp [String.intercalate_cons_cons]

theorem decode?_intercalate (leaves : List Leaf) :
    decode? ("&".intercalate (leaves.map Leaf.written)) =
      some (leaves.map fun leaf => (leaf.key, leaf.text)) := by
  cases leaves with
  | nil => rfl
  | cons leaf rest =>
      have hseparate : ∀ piece ∈ ((leaf :: rest).map Leaf.written).map String.toList,
          '&' ∉ piece := by
        simp [not_mem_leaf_written]
      have hnonempty : ("&".intercalate ((leaf :: rest).map Leaf.written)).isEmpty = false := by
        simpa using mt (intercalate_written_eq_empty_iff (leaf :: rest)).mp (by simp)
      have hsplit := List.splitOn_intercalate '&' hseparate (by simp)
      rw [decode?, hnonempty, if_neg Bool.false_ne_true, String.toList_intercalate]
      change (List.splitOn '&' (['&'].intercalate _)).mapM readPair = _
      rw [hsplit, List.map_map]
      exact mapM_map_eq_some readPair_written _

/-- Reading the query string of an object gives its scalars, nulls apart, in their order: their
texts, and what a key keeps of their paths.  The query string is empty if there are none, and keys
are equal just if they keep the same. -/
theorem decode?_encode_obj (fields : List (String × Json)) :
    let scalars := leaves [] (.obj fields)
    decode? (encode (.obj fields)) =
      some (scalars.map fun leaf => (Key.ofPath leaf.path, leaf.text)) ∧
    encode (.obj fields) = "&".intercalate (scalars.map fun leaf =>
      (Key.ofPath leaf.path).written ++ "=" ++ Percent.encode leaf.text) ∧
    (encode (.obj fields) = "" ↔ scalars = []) ∧
    ∀ path other : List Step,
      (Key.ofPath path).written = (Key.ofPath other).written ↔
        Key.ofPath path = Key.ofPath other := by
  intro scalars
  have hencode : encode (.obj fields) = "&".intercalate (scalars.map Leaf.written) :=
    encode_obj fields
  refine ⟨?_, hencode, ?_, fun path other => ⟨written_injective, congrArg Key.written⟩⟩
  · rw [hencode, decode?_intercalate]
    rfl
  · rw [hencode, intercalate_written_eq_empty_iff]

example : (leaves [] (.obj [("", .obj [("a", .arr [.null, .str "x&y"]), ("", .bool true)])])).map
    (fun leaf => (leaf.key, leaf.text)) =
    [(⟨"a", ["1"]⟩, "x&y"), (⟨"", []⟩, "true")] := by decide +kernel

/-! ## Characters of a query string -/

/-- What stands in a query string is part of an encoded text, or it takes the string apart. -/
def IsQueryChar (c : Char) : Prop :=
  Percent.isUnreserved c = true ∨ c ∈ ['%', '&', '=', '[', ']']

theorem isQueryChar_of_mem_encode {c : Char} {text : String}
    (h : c ∈ (Percent.encode text).toList) : IsQueryChar c := by
  rcases Percent.of_mem_encode h with hunreserved | rfl
  · exact .inl hunreserved
  · exact .inr (by decide)

theorem isQueryChar_of_mem_written {c : Char} {leaf : Leaf} (h : c ∈ leaf.written.toList) :
    IsQueryChar c := by
  simp only [Leaf.written, Key.written, String.toList_append, String.toList_join,
    List.flatMap_map, List.mem_append, List.mem_flatMap] at h
  rcases h with (((hhead | ⟨group, -, (hopen | hgroup) | hclose⟩) | hequals) | htext)
  · exact isQueryChar_of_mem_encode hhead
  · exact .inr (by simp_all)
  · exact isQueryChar_of_mem_encode hgroup
  · exact .inr (by simp_all)
  · exact .inr (by simp_all)
  · exact isQueryChar_of_mem_encode htext

theorem isQueryChar_of_mem_encode_query {c : Char} {query : Json}
    (h : c ∈ (encode query).toList) : IsQueryChar c := by
  have hleaves (leaves : List Leaf)
      (h : c ∈ ("&".intercalate (leaves.map Leaf.written)).toList) : IsQueryChar c := by
    induction leaves with
    | nil => simp at h
    | cons leaf rest ih =>
        cases rest with
        | nil => exact isQueryChar_of_mem_written (by simpa using h)
        | cons next rest =>
            simp only [List.map_cons, String.intercalate_cons_cons, String.toList_append,
              List.mem_append] at h ih
            rcases h with (hleaf | hsign) | hrest
            · exact isQueryChar_of_mem_written hleaf
            · exact .inr (by simp_all)
            · exact ih hrest
  cases query with
  | obj fields =>
      rw [encode_obj] at h
      exact hleaves _ h
  | _ => simp [encode] at h

end RpcContract.Query
