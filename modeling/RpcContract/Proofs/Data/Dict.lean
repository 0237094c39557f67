import RpcContract.Data.Dict

/-!
# Building and mapping dictionaries

Entries in strictly ascending key order are the entries of the dictionary that is built from them,
and what is found under each key makes a dictionary out.
-/

namespace RpcContract

universe u v w

variable {α : Type u}

theorem insertEntry_append (key : String) (value : α) {entries : List (String × α)}
    (h : ∀ entry ∈ entries, entry.1 < key) :
    insertEntry key value entries = entries ++ [(key, value)] := by
  induction entries with
  | nil => rfl
  | cons entry rest ih =>
      have hless : entry.1 < key := h entry (.head _)
      have hnotLess : ¬ key < entry.1 := fun hgreater =>
        String.lt_irrefl key (String.lt_trans hgreater hless)
      have hne : key ≠ entry.1 := fun heq => String.lt_irrefl key (heq ▸ hless)
      rw [insertEntry, if_neg hnotLess, if_neg hne, ih fun other hother => h other (.tail _ hother),
        List.cons_append]

theorem lookupEntry_insertEntry (key other : String) (value : α) (entries : List (String × α)) :
    lookupEntry other (insertEntry key value entries) =
      if key = other then some value else lookupEntry other entries := by
  induction entries with
  | nil => rfl
  | cons entry rest ih =>
      simp only [insertEntry]
      split
      · rfl
      split
      · next hkey =>
          subst hkey
          by_cases hother : entry.1 = other <;> simp [lookupEntry, hother]
      · next hne =>
          rw [lookupEntry, ih, lookupEntry]
          by_cases hother : entry.1 = other
          · rw [if_pos hother, if_pos hother, if_neg fun hkey => hne (hkey.trans hother.symm)]
          · rw [if_neg hother, if_neg hother]

namespace Dict

private theorem entries_foldl {entries : List (String × α)} (start : Dict α)
    (h : Ascending (start.entries ++ entries)) :
    (entries.foldl (fun d entry => d.insert entry.1 entry.2) start).entries =
      start.entries ++ entries := by
  induction entries generalizing start with
  | nil => simp
  | cons entry rest ih =>
      have hbefore : ∀ other ∈ start.entries, other.1 < entry.1 := fun other hother =>
        (List.pairwise_append.mp h).2.2 other hother entry (.head _)
      have hinsert : (start.insert entry.1 entry.2).entries = start.entries ++ [entry] :=
        insertEntry_append _ _ hbefore
      have hrest := ih (start.insert entry.1 entry.2) (by simpa [hinsert] using h)
      rw [List.foldl_cons, hrest, hinsert, List.append_assoc, List.singleton_append]

theorem ofList_of_ascending {entries : List (String × α)} (h : Ascending entries) :
    ofList entries = ⟨entries, h⟩ :=
  ext (entries_foldl ∅ h)

private theorem mem_of_mem_foldl {entries : List (String × α)} {start : Dict α}
    {entry : String × α}
    (h : entry ∈ (entries.foldl (fun d entry => d.insert entry.1 entry.2) start).entries) :
    entry ∈ entries ∨ entry ∈ start.entries := by
  induction entries generalizing start with
  | nil => exact .inr h
  | cons first rest ih =>
      rcases ih h with hrest | hinsert
      · exact .inl (.tail _ hrest)
      · rcases mem_insertEntry hinsert with rfl | hstart
        · exact .inl (.head _)
        · exact .inr hstart

theorem mem_of_mem_ofList {entries : List (String × α)} {entry : String × α}
    (h : entry ∈ (ofList entries).entries) : entry ∈ entries := by
  rcases mem_of_mem_foldl h with hentries | hempty
  · exact hentries
  · cases hempty

/-! ## Looking up -/

theorem lookupEntry_eq_none_of_not_mem {key : String} {entries : List (String × α)}
    (h : key ∉ entries.map Prod.fst) : lookupEntry key entries = none := by
  induction entries with
  | nil => rfl
  | cons entry rest ih =>
      rw [List.map_cons, List.mem_cons, not_or] at h
      rw [lookupEntry, if_neg (Ne.symm h.1), ih h.2]

theorem get?_eq_some_iff {d : Dict α} {key : String} {value : α} :
    d.get? key = some value ↔ (key, value) ∈ d.entries := by
  refine ⟨mem_toList_of_get?, fun h => ?_⟩
  obtain ⟨entries, ascending⟩ := d
  induction entries with
  | nil => cases h
  | cons entry rest ih =>
      obtain ⟨hfirst, hrest⟩ := List.pairwise_cons.mp ascending
      rcases List.mem_cons.mp h with rfl | hmem
      · exact if_pos rfl
      · have hless : entry.1 < key := hfirst (key, value) hmem
        have hne : entry.1 ≠ key := fun heq => String.lt_irrefl key (heq ▸ hless)
        exact (if_neg hne).trans (ih hrest hmem)

@[simp] theorem get?_empty (key : String) : (∅ : Dict α).get? key = none := rfl

@[simp] theorem get?_insert (d : Dict α) (key other : String) (value : α) :
    (d.insert key value).get? other = if key = other then some value else d.get? other :=
  lookupEntry_insertEntry key other value d.entries

@[simp] theorem contains_insert (d : Dict α) (key other : String) (value : α) :
    (d.insert key value).contains other = (decide (key = other) || d.contains other) := by
  rw [contains, get?_insert, contains]
  by_cases h : key = other <;> simp [h]

theorem keys_nodup (d : Dict α) : d.keys.Nodup := by
  refine List.pairwise_map.mpr (d.ascending.imp ?_)
  rintro _ _ hless heq
  exact String.lt_irrefl _ (heq ▸ hless)

theorem mem_keys_iff {d : Dict α} {key : String} :
    key ∈ d.keys ↔ ∃ value, d.get? key = some value := by
  simp only [keys, get?_eq_some_iff, List.mem_map, Prod.exists, exists_and_right, exists_eq_right]

theorem ext_get? {a b : Dict α} (h : ∀ key, a.get? key = b.get? key) : a = b := by
  have hmem (entry : String × α) : entry ∈ a.entries ↔ entry ∈ b.entries := by
    rw [← get?_eq_some_iff, ← get?_eq_some_iff, h]
  have hnodup (d : Dict α) : d.entries.Nodup :=
    List.Pairwise.of_map Prod.fst (fun _ _ hne heq => hne (congrArg Prod.fst heq)) d.keys_nodup
  have hperm : a.entries.Perm b.entries :=
    (List.perm_ext_iff_of_nodup (hnodup a) (hnodup b)).mpr hmem
  refine ext (hperm.eq_of_pairwise ?_ a.ascending b.ascending)
  intro x y _ _ hxy hyx
  exact absurd (String.lt_trans hxy hyx) (String.lt_irrefl _)

theorem ext_getD {a b : Dict α} (otherwise : String → α)
    (hkeys : ∀ key, a.contains key = true ↔ b.contains key = true)
    (h : ∀ key, (a.get? key).getD (otherwise key) = (b.get? key).getD (otherwise key)) :
    a = b := by
  refine ext_get? fun key => ?_
  have hkey := hkeys key
  have hvalue := h key
  rw [contains, contains] at hkey
  cases ha : a.get? key <;> cases hb : b.get? key <;> simp_all

/-! ## Values by key -/

variable {β : Type v} {γ : Type w}

theorem mapWithKey_mapWithKey (d : Dict α) (g : String → α → β) (f : String → β → γ) :
    (d.mapWithKey g).mapWithKey f = d.mapWithKey fun key value => f key (g key value) :=
  ext (by simp [mapWithKey])

theorem mapWithKey_congr {d : Dict α} {f g : String → α → β}
    (h : ∀ entry ∈ d.entries, f entry.1 entry.2 = g entry.1 entry.2) :
    d.mapWithKey f = d.mapWithKey g :=
  ext (List.map_congr_left fun entry hentry => by rw [h entry hentry])

theorem mapWithKey_eq_self {d : Dict α} {f : String → α → α}
    (h : ∀ entry ∈ d.entries, f entry.1 entry.2 = entry.2) : d.mapWithKey f = d := by
  have hsame : d.mapWithKey f = d.mapWithKey fun _ value => value := mapWithKey_congr h
  rw [hsame]
  exact ext (List.map_id _)

end Dict

end RpcContract
