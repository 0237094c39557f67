/-!
# Dictionaries in key order

`Dict α` maps names to values.  The entries stand in strictly ascending key order, so two
dictionaries with the same entries are the same value, and a walk over one is a walk in key order.
Strings are ordered by code point, which is also the order of their UTF-8 bytes.
-/

namespace RpcContract

universe u v

def lookupEntry {α : Type u} (key : String) : List (String × α) → Option α
  | [] => none
  | (k, value) :: rest => if k = key then some value else lookupEntry key rest

/-- Put an entry at its place in a list in ascending order, instead of an entry with the same key.
-/
def insertEntry {α : Type u} (key : String) (value : α) : List (String × α) → List (String × α)
  | [] => [(key, value)]
  | (k, old) :: rest =>
      if key < k then (key, value) :: (k, old) :: rest
      else if key = k then (key, value) :: rest
      else (k, old) :: insertEntry key value rest

def Ascending {α : Type u} (entries : List (String × α)) : Prop :=
  entries.Pairwise (fun a b => a.1 < b.1)

theorem mem_insertEntry {α : Type u} {key : String} {value : α} {entries : List (String × α)}
    {entry : String × α} (h : entry ∈ insertEntry key value entries) :
    entry = (key, value) ∨ entry ∈ entries := by
  induction entries with
  | nil => simpa [insertEntry] using h
  | cons head rest ih =>
      obtain ⟨k, old⟩ := head
      simp only [insertEntry] at h
      split at h
      · simpa using h
      · split at h
        · rcases List.mem_cons.1 h with h | h
          · exact .inl h
          · exact .inr (List.mem_cons_of_mem _ h)
        · rcases List.mem_cons.1 h with h | h
          · exact .inr (h ▸ List.mem_cons_self)
          · rcases ih h with h | h
            · exact .inl h
            · exact .inr (List.mem_cons_of_mem _ h)

theorem ascending_insertEntry {α : Type u} (key : String) (value : α)
    {entries : List (String × α)} (h : Ascending entries) :
    Ascending (insertEntry key value entries) := by
  induction entries with
  | nil => simp [insertEntry, Ascending]
  | cons head rest ih =>
      obtain ⟨k, old⟩ := head
      obtain ⟨first, others⟩ := List.pairwise_cons.1 h
      simp only [insertEntry]
      split
      next less =>
        refine List.pairwise_cons.2 ⟨fun entry mem => ?_, h⟩
        rcases List.mem_cons.1 mem with rfl | mem
        · exact less
        · exact String.lt_trans less (first entry mem)
      next notLess =>
        split
        next same =>
          subst same
          exact List.pairwise_cons.2 ⟨first, others⟩
        next differ =>
          refine List.pairwise_cons.2 ⟨fun entry mem => ?_, ih others⟩
          rcases mem_insertEntry mem with rfl | mem
          · rcases Decidable.em (k < key) with less | notLess'
            · exact less
            · exact absurd (String.le_antisymm (String.not_lt.1 notLess')
                (String.not_lt.1 notLess)) differ
          · exact first entry mem

structure Dict (α : Type u) where
  entries : List (String × α)
  ascending : Ascending entries
deriving DecidableEq

namespace Dict

variable {α : Type u} {β : Type v}

protected def empty : Dict α := ⟨[], .nil⟩

instance : EmptyCollection (Dict α) := ⟨.empty⟩

instance : Inhabited (Dict α) := ⟨.empty⟩

instance [Repr α] : Repr (Dict α) := ⟨fun d n => reprPrec d.entries n⟩

def get? (d : Dict α) (key : String) : Option α := lookupEntry key d.entries

def contains (d : Dict α) (key : String) : Bool := (d.get? key).isSome

def size (d : Dict α) : Nat := d.entries.length

def isEmpty (d : Dict α) : Bool := d.entries.isEmpty

def keys (d : Dict α) : List String := d.entries.map Prod.fst

def values (d : Dict α) : List α := d.entries.map Prod.snd

def toList (d : Dict α) : List (String × α) := d.entries

def insert (d : Dict α) (key : String) (value : α) : Dict α :=
  ⟨insertEntry key value d.entries, ascending_insertEntry key value d.ascending⟩

def filter (keep : String → α → Bool) (d : Dict α) : Dict α :=
  ⟨d.entries.filter (fun entry => keep entry.1 entry.2), d.ascending.filter _⟩

def mapWithKey (f : String → α → β) (d : Dict α) : Dict β :=
  ⟨d.entries.map (fun entry => (entry.1, f entry.1 entry.2)),
    List.pairwise_map.2 (d.ascending.imp (fun h => h))⟩

def erase (d : Dict α) (key : String) : Dict α := d.filter (fun k _ => k != key)

/-- Insert entries one after another: the last of several with one key stays. -/
def ofList (entries : List (String × α)) : Dict α :=
  entries.foldl (fun d entry => d.insert entry.1 entry.2) ∅

theorem mem_toList_of_get? {d : Dict α} {key : String} {value : α}
    (h : d.get? key = some value) : (key, value) ∈ d.toList := by
  have hentries (entries : List (String × α)) (h : lookupEntry key entries = some value) :
      (key, value) ∈ entries := by
    induction entries with
    | nil => cases h
    | cons entry rest ih =>
        by_cases hkey : entry.1 = key
        · rw [lookupEntry, if_pos hkey] at h
          cases h
          rw [← hkey]
          exact List.mem_cons_self
        · rw [lookupEntry, if_neg hkey] at h
          exact List.mem_cons_of_mem _ (ih h)
  exact hentries d.entries h

@[ext] theorem ext {a b : Dict α} (h : a.entries = b.entries) : a = b := by
  cases a; cases b; cases h; rfl

end Dict

end RpcContract
