import RpcContract.Json.Merge
import RpcContract.Json.Pointer
import RpcContract.Proofs.Data.Dict

/-!
# Laws of merging

Under every key, the merge of two objects holds the merge of what the two hold there.  From this
one fact the laws of `Json.merge` follow along paths of keys: what is put over a value is there
afterwards, what it does not reach stays, and nothing else appears.
-/

namespace RpcContract.Json

variable {a b c base extra value : Json} {key : String} {path : List String}

/-! ## Paths of keys -/

/-- What a path of object keys leads to. -/
def descend? : List String → Json → Option Json
  | [], value => some value
  | key :: keys, value => (value.get? key).bind (descend? keys)

@[simp] theorem descend?_nil : descend? [] = some := funext fun _ => rfl

@[simp] theorem descend?_cons (key : String) (path : List String) (value : Json) :
    value.descend? (key :: path) = (value.get? key).bind (descend? path) := rfl

theorem descend?_singleton (key : String) : descend? [key] = Json.get? key :=
  funext fun value => by simp

@[simp] theorem follow?_nil (value : Json) : value.follow? [] = some value := rfl

theorem get?_of_not_isObject (h : value.isObject = false) : value.get? key = none := by
  cases value <;> simp [isObject] at h <;> rfl

theorem isObject_of_get? {under : Json} (h : value.get? key = some under) :
    value.isObject = true := by
  cases value with
  | obj fields => rfl
  | _ => cases h

theorem follow?_cons_of_isObject (h : value.isObject = true) :
    value.follow? (key :: path) = (value.get? key).bind (follow? path) := by
  cases value <;> simp [isObject] at h
  rfl

theorem follow?_append_of_descend? {under : Json} {rest : List String}
    (h : value.descend? path = some under) : value.follow? (path ++ rest) = under.follow? rest := by
  induction path generalizing value with
  | nil =>
      cases h
      rfl
  | cons key path ih =>
      obtain ⟨next, hnext, hpath⟩ := Option.bind_eq_some_iff.mp h
      rw [List.cons_append, follow?_cons_of_isObject (isObject_of_get? hnext), hnext]
      exact ih hpath

/-! ## Objects in key order -/

/-- Every object that is reached by keys alone has its fields in key order, each key once, as free
data has. -/
inductive KeyOrdered : Json → Prop
  | leaf {value : Json} : value.isObject = false → KeyOrdered value
  | object {fields : List (String × Json)} :
      Ascending fields →
      (∀ key value, lookupEntry key fields = some value → KeyOrdered value) →
      KeyOrdered (.obj fields)

namespace KeyOrdered

theorem get? {under : Json} (h : value.KeyOrdered) (hkey : value.get? key = some under) :
    under.KeyOrdered := by
  cases h with
  | leaf hleaf =>
      rw [get?_of_not_isObject hleaf] at hkey
      cases hkey
  | object _ hfields => exact hfields key under hkey

theorem exists_fields (h : value.KeyOrdered) (hobject : value.isObject = true) :
    ∃ fields, value = .obj fields ∧ Ascending fields := by
  cases h with
  | leaf hleaf =>
      rw [hleaf] at hobject
      cases hobject
  | @object fields hascending _ => exact ⟨fields, rfl, hascending⟩

theorem of_fields {fields : List (String × Json)} (h : Ascending fields)
    (hfields : ∀ field ∈ fields, field.2.KeyOrdered) : (Json.obj fields).KeyOrdered :=
  .object h fun _ _ hlookup =>
    hfields _ (Dict.mem_toList_of_get? (d := ⟨fields, h⟩) hlookup)

theorem ext_get? (ha : a.KeyOrdered) (hb : b.KeyOrdered) (haobj : a.isObject = true)
    (hbobj : b.isObject = true) (h : ∀ key, a.get? key = b.get? key) : a = b := by
  obtain ⟨fields, rfl, hfields⟩ := ha.exists_fields haobj
  obtain ⟨others, rfl, hothers⟩ := hb.exists_fields hbobj
  have hsame : (⟨fields, hfields⟩ : Dict Json) = ⟨others, hothers⟩ := Dict.ext_get? h
  rw [(Dict.mk.injEq _ _ _ _).mp hsame]

end KeyOrdered

/-! ## One level of a merge -/

theorem merge_of_not_isObject (h : extra.isObject = false) : base.merge extra = extra := by
  cases extra <;> simp [isObject] at h <;> rfl

theorem merge_over_leaf (h : base.isObject = false) : base.merge extra = extra := by
  cases extra with
  | obj fields => cases base <;> simp [isObject] at h <;> rfl
  | _ => rfl

theorem isObject_merge (h : extra.isObject = true) : (base.merge extra).isObject = true := by
  cases extra <;> simp [isObject] at h
  cases base <;> rfl

theorem ascending_mergeFields {base extra : List (String × Json)} (h : Ascending base) :
    Ascending (mergeFields base extra) := by
  induction extra generalizing base with
  | nil => simpa [mergeFields] using h
  | cons field rest ih =>
      rw [mergeFields]
      exact ih (ascending_insertEntry _ _ h)

theorem lookupEntry_mergeFields (key : String) {base extra : List (String × Json)}
    (h : Ascending extra) : lookupEntry key (mergeFields base extra) =
      Option.merge merge (lookupEntry key base) (lookupEntry key extra) := by
  induction extra generalizing base with
  | nil => simp [mergeFields, lookupEntry]
  | cons field rest ih =>
      obtain ⟨name, value⟩ := field
      obtain ⟨hfirst, hrest⟩ := List.pairwise_cons.mp h
      rw [mergeFields, ih hrest, lookupEntry_insertEntry, lookupEntry]
      by_cases hname : name = key
      · subst hname
        -- The key does not come again, so the rest of the fields leaves its value alone.
        have hnone : lookupEntry name rest = none :=
          Dict.lookupEntry_eq_none_of_not_mem fun hmem => by
            obtain ⟨field, hfield, hsame⟩ := List.mem_map.mp hmem
            exact String.lt_irrefl _ (hsame ▸ hfirst field hfield)
        rw [if_pos rfl, if_pos rfl, hnone]
        cases lookupEntry name base <;> rfl
      · rw [if_neg hname, if_neg hname]

theorem lookupEntry_mergeFields_of_none {base extra : List (String × Json)}
    (h : lookupEntry key extra = none) :
    lookupEntry key (mergeFields base extra) = lookupEntry key base := by
  induction extra generalizing base with
  | nil => rw [mergeFields]
  | cons field rest ih =>
      obtain ⟨name, value⟩ := field
      rw [lookupEntry] at h
      split at h
      · cases h
      · next hname => rw [mergeFields, ih h, lookupEntry_insertEntry, if_neg hname]

theorem get?_merge_of_none (hobject : extra.isObject = true) (h : extra.get? key = none) :
    (base.merge extra).get? key = base.get? key := by
  obtain ⟨fields, rfl⟩ : ∃ fields, extra = .obj fields := by
    cases extra <;> simp [isObject] at hobject
    exact ⟨_, rfl⟩
  cases base with
  | obj others => exact lookupEntry_mergeFields_of_none h
  | _ => exact h

theorem get?_merge (hextra : extra.KeyOrdered) (hobject : extra.isObject = true) (key : String) :
    (base.merge extra).get? key = Option.merge merge (base.get? key) (extra.get? key) := by
  obtain ⟨fields, rfl, hfields⟩ := hextra.exists_fields hobject
  cases base with
  | obj others => exact lookupEntry_mergeFields key hfields
  | _ => exact (Option.merge_none_left).symm

theorem KeyOrdered.merge (ha : a.KeyOrdered) (hb : b.KeyOrdered) : (a.merge b).KeyOrdered := by
  induction hb generalizing a with
  | leaf hleaf =>
      rw [merge_of_not_isObject hleaf]
      exact .leaf hleaf
  | @object fields hfields hunder ih =>
      have hobject : (Json.obj fields).KeyOrdered := .object hfields hunder
      by_cases haobj : a.isObject = true
      · obtain ⟨others, rfl, hothers⟩ := ha.exists_fields haobj
        refine .object (ascending_mergeFields hothers) fun key value hvalue => ?_
        rw [lookupEntry_mergeFields key hfields] at hvalue
        cases hold : lookupEntry key others <;> cases hnew : lookupEntry key fields <;>
          rw [hold, hnew] at hvalue <;> cases hvalue
        · exact hunder key _ hnew
        · exact ha.get? (show (Json.obj others).get? key = _ from hold)
        · exact ih key _ hnew (ha.get? (show (Json.obj others).get? key = _ from hold))
      · rw [merge_over_leaf (Bool.eq_false_iff.mpr haobj)]
        exact hobject

/-! ## Along a path -/

theorem follow?_merge {under : Json} (hb : b.KeyOrdered) (h : b.follow? path = some under)
    (hunder : under.isObject = false) : (a.merge b).follow? path = some under := by
  induction path generalizing a b with
  | nil =>
      cases h
      rw [merge_of_not_isObject hunder]
      rfl
  | cons key path ih =>
      by_cases hobject : b.isObject = true
      · rw [follow?_cons_of_isObject hobject] at h
        rw [follow?_cons_of_isObject (isObject_merge hobject), get?_merge hb hobject]
        obtain ⟨new, hnew, hpath⟩ := Option.bind_eq_some_iff.mp h
        rw [hnew]
        cases a.get? key with
        | none => exact hpath
        | some old => exact ih (hb.get? hnew) hpath
      · rw [merge_of_not_isObject (Bool.eq_false_iff.mpr hobject)]
        exact h

/-- Nothing stands at a path, and only objects stand on the way to it. -/
def Spares (extra : Json) (path : List String) : Prop :=
  extra.descend? path = none ∧ ∀ front under, front <+: path → front ≠ path →
    extra.descend? front = some under → under.isObject = true

theorem not_spares_nil : ¬ extra.Spares [] := by
  rintro ⟨hnone, -⟩
  cases hnone

theorem spares_cons_iff : extra.Spares (key :: path) ↔
    extra.isObject = true ∧ ∀ under, extra.get? key = some under → under.Spares path := by
  constructor
  · rintro ⟨hnone, hobjects⟩
    refine ⟨hobjects [] extra List.nil_prefix (by simp) rfl, fun under hunder => ⟨?_, ?_⟩⟩
    · simpa [hunder] using hnone
    · intro front value hfront hne hvalue
      refine hobjects (key :: front) value (List.prefix_cons_inj key |>.mpr hfront) ?_ ?_
      · simpa using hne
      · simpa [hunder] using hvalue
  · rintro ⟨hobject, hunder⟩
    constructor
    · cases hkey : extra.get? key with
      | none => simp [hkey]
      | some under => simpa [hkey] using (hunder under hkey).1
    · intro front value hfront hne hvalue
      cases front with
      | nil =>
          cases hvalue
          exact hobject
      | cons first front =>
          obtain ⟨rfl, hrest⟩ := List.cons_prefix_cons.mp hfront
          obtain ⟨under, hkey, hpath⟩ := Option.bind_eq_some_iff.mp hvalue
          exact (hunder under hkey).2 front value hrest (by simpa using hne) hpath

theorem descend?_merge_of_spares {under : Json} (hb : b.KeyOrdered)
    (h : a.descend? path = some under) (hspares : b.Spares path) :
    (a.merge b).descend? path = some under := by
  induction path generalizing a b with
  | nil => exact absurd hspares not_spares_nil
  | cons key path ih =>
      obtain ⟨old, hold, hpath⟩ := Option.bind_eq_some_iff.mp h
      obtain ⟨hobject, hunder⟩ := spares_cons_iff.mp hspares
      rw [descend?_cons, get?_merge hb hobject, hold]
      cases hnew : b.get? key with
      | none => exact hpath
      | some new => exact ih (hb.get? hnew) hpath (hunder new hnew)

theorem isSome_descend?_of_merge (hb : b.KeyOrdered)
    (h : ((a.merge b).descend? path).isSome = true) :
    (a.descend? path).isSome = true ∨ (b.descend? path).isSome = true := by
  induction path generalizing a b with
  | nil => exact .inl rfl
  | cons key path ih =>
      by_cases hobject : b.isObject = true
      · rw [descend?_cons, get?_merge hb hobject] at h
        cases hold : a.get? key <;> cases hnew : b.get? key <;> rw [hold, hnew] at h
        · cases h
        · exact .inr (by simpa [hnew] using h)
        · exact .inl (by simpa [hold] using h)
        · simpa [hold, hnew] using ih (hb.get? hnew) h
      · rw [merge_of_not_isObject (Bool.eq_false_iff.mpr hobject)] at h
        exact .inr h

/-! ## Merging three values -/

/-- Wherever the outer two hold objects, what stands between them is none but an object. -/
def Bridges (b a c : Json) : Prop :=
  ∀ path x y z, a.descend? path = some x → b.descend? path = some y → c.descend? path = some z →
    x.isObject = true → z.isObject = true → y.isObject = true

theorem Bridges.refl (a b : Json) : Bridges b a b := by
  intro path x y z _ hy hz _ hobject
  rw [hy] at hz
  cases hz
  exact hobject

theorem bridges_iff : Bridges b a c ↔
    (a.isObject = true → c.isObject = true → b.isObject = true) ∧
      ∀ key x y z, a.get? key = some x → b.get? key = some y → c.get? key = some z →
        Bridges y x z := by
  constructor
  · refine fun h => ⟨h [] a b c rfl rfl rfl, fun key x y z ha hb hc path x' y' z' hx hy hz => ?_⟩
    exact h (key :: path) x' y' z' (by simpa [ha] using hx) (by simpa [hb] using hy)
      (by simpa [hc] using hz)
  · rintro ⟨hroot, hkeys⟩ path x y z hx hy hz
    cases path with
    | nil =>
        cases hx
        cases hy
        cases hz
        exact hroot
    | cons key path =>
        obtain ⟨x', hx', hx⟩ := Option.bind_eq_some_iff.mp hx
        obtain ⟨y', hy', hy⟩ := Option.bind_eq_some_iff.mp hy
        obtain ⟨z', hz', hz⟩ := Option.bind_eq_some_iff.mp hz
        exact hkeys key x' y' z' hx' hy' hz' path x y z hx hy hz

theorem merge_assoc (ha : a.KeyOrdered) (hb : b.KeyOrdered) (hc : c.KeyOrdered)
    (h : Bridges b a c) : (a.merge b).merge c = a.merge (b.merge c) := by
  induction hc generalizing a b with
  | leaf hleaf => simp only [merge_of_not_isObject hleaf]
  | @object fields hfields hunder ih =>
      have hc : (Json.obj fields).KeyOrdered := .object hfields hunder
      obtain ⟨hroot, hkeys⟩ := bridges_iff.mp h
      by_cases hbobj : b.isObject = true
      · by_cases haobj : a.isObject = true
        · refine ((ha.merge hb).merge hc).ext_get? (ha.merge (hb.merge hc)) (isObject_merge rfl)
            (isObject_merge (isObject_merge rfl)) fun key => ?_
          rw [get?_merge hc rfl, get?_merge hb hbobj, get?_merge (hb.merge hc) (isObject_merge rfl),
            get?_merge hc rfl]
          -- Only where all three hold something does one merge stand inside another.
          cases hx : a.get? key <;> cases hy : b.get? key <;>
            cases hz : (Json.obj fields).get? key <;> try rfl
          exact congrArg some (ih key _ hz (ha.get? hx) (hb.get? hy) (hkeys key _ _ _ hx hy hz))
        · simp only [merge_over_leaf (Bool.eq_false_iff.mpr haobj)]
      · have hleaf : b.isObject = false := Bool.eq_false_iff.mpr hbobj
        have haleaf : a.isObject = false :=
          Bool.eq_false_iff.mpr fun haobj => hbobj (hroot haobj rfl)
        rw [merge_of_not_isObject hleaf, merge_over_leaf hleaf, merge_over_leaf haleaf]

theorem merge_self (hb : b.KeyOrdered) : b.merge b = b := by
  induction hb with
  | leaf hleaf => exact merge_of_not_isObject hleaf
  | @object fields hfields hunder ih =>
      have hobject : (Json.obj fields).KeyOrdered := .object hfields hunder
      refine (hobject.merge hobject).ext_get? hobject (isObject_merge rfl) rfl fun key => ?_
      rw [get?_merge hobject rfl]
      cases hvalue : (Json.obj fields).get? key with
      | none => rfl
      | some value => exact congrArg some (ih key value hvalue)

theorem merge_merge_self (ha : a.KeyOrdered) (hb : b.KeyOrdered) :
    (a.merge b).merge b = a.merge b := by
  rw [merge_assoc ha hb hb (.refl a b), merge_self hb]

end RpcContract.Json
