import RpcContract.Proofs.Data.Except
import RpcContract.Proofs.Json.Storable
import RpcContract.Reading.Record

/-!
# Records read from what was written

A record is written with its fields in the order of their declaration, without those that are
absent.  Read back, each of its fields goes into the draft once.
-/

namespace RpcContract.Reading

open Json

variable {α β δ : Type}

/-! ## Free data and dictionaries -/

/-- Data that is there, where null stands for none. -/
def present (value : Option Json) : Option Json := value.filter fun value => !value.isNull

@[simp] theorem present_none : present none = none := rfl

@[simp] theorem present_present (value : Option Json) :
    present (present value) = present value := by
  cases value with
  | none => rfl
  | some value => cases h : value.isNull <;> simp [present, h, Option.filter]

theorem present_eq_self_iff (value : Option Json) : present value = value ↔ value ≠ some .null := by
  cases value with
  | none => simp
  | some value => cases value <;> simp [present, isNull, Option.filter]

theorem mem_of_mem_present {value : Option Json} {json : Json} (h : json ∈ present value) :
    json ∈ value := by
  cases value with
  | none => cases h
  | some value =>
      cases hnull : value.isNull with
      | true => simp [present, hnull, Option.filter] at h
      | false => simpa [present, hnull, Option.filter] using h

theorem any_toTree {depth : Nat} {value : Json}
    (h : value.Storable (depthLimit .jsonText - depth)) :
    any depth .jsonText value.toTree = .ok value := toJson_toTree h

theorem optional_any_toTree {depth : Nat} {value : Json}
    (h : value.Storable (depthLimit .jsonText - depth)) :
    optional (any depth) .jsonText value.toTree = .ok (present (some value)) := by
  cases hvalue : value with
  | null => rfl
  | _ =>
      have hany := any_toTree h
      rw [hvalue] at hany
      simp only [toTree] at hany ⊢
      rw [optional, hany]
      · rfl
      · simp
      · simp

theorem dict_toTree {read : Reader β} {d : Dict α} {write : α → Json} {result : α → β}
    (h : ∀ entry ∈ d.entries, read .jsonText (write entry.2).toTree = .ok (result entry.2)) :
    dict read .jsonText (ofDict (d.mapWithKey fun _ value => write value)).toTree =
      .ok (d.mapWithKey fun _ value => result value) := by
  have hentries (entries : List (String × α))
      (h : ∀ entry ∈ entries, read .jsonText (write entry.2).toTree = .ok (result entry.2)) :
      ((toFieldTrees (entries.map fun entry => (entry.1, write entry.2))).mapM fun field =>
        return (field.1, ← read .jsonText field.2)) =
          Except.ok (ε := ReadError) (entries.map fun entry => (entry.1, result entry.2)) := by
    induction entries with
    | nil => rfl
    | cons entry rest ih =>
        have hrest := ih fun other hother => h other (.tail _ hother)
        have hhead := h entry (.head _)
        rw [List.map_cons, toFieldTrees, List.mapM_cons, hrest]
        simp only [hhead]
        rfl
  have hsorted := Dict.ofList_of_ascending (d.mapWithKey fun _ value => result value).ascending
  rw [ofDict, toTree, dict]
  simp only [Dict.mapWithKey, hentries d.entries h]
  exact congrArg Except.ok hsorted

/-! ## Records -/

namespace RecordFormat

/-- What reading the fields of a record makes of a draft. -/
inductive ReadsInto (format : RecordFormat δ) : List (String × Option Json) → δ → δ → Prop
  | nil (draft : δ) : ReadsInto format [] draft draft
  | absent {name : String} {rest : List (String × Option Json)} {draft result : δ} :
      ReadsInto format rest draft result → ReadsInto format ((name, none) :: rest) draft result
  | present {name : String} {value : Json} {rest : List (String × Option Json)}
      {draft middle result : δ} :
      format.read .jsonText name value.toTree draft = .ok middle →
      ReadsInto format rest middle result →
      ReadsInto format ((name, some value) :: rest) draft result

variable {format : RecordFormat δ} {fields : List (String × Option Json)} {draft result : δ}

theorem ReadsInto.optional {name : String} {value : Option Json} {middle : δ}
    (hnone : value = none → middle = draft)
    (hsome : ∀ json ∈ value, format.read .jsonText name json.toTree draft = .ok middle)
    (hrest : format.ReadsInto fields middle result) :
    format.ReadsInto ((name, value) :: fields) draft result := by
  cases value with
  | none => exact .absent (hnone rfl ▸ hrest)
  | some json => exact .present (hsome json rfl) hrest

theorem readFields_toFieldTrees (h : format.ReadsInto fields draft result) (seen : List String)
    (hknown : ∀ field ∈ fields, (format.fields.lookup field.1).isSome = true)
    (hfresh : ∀ field ∈ fields, field.1 ∉ seen) (hnodup : (fields.map Prod.fst).Nodup) :
    ∃ seen', format.readFields .jsonText seen draft (toFieldTrees (fields.filterMap fun field =>
        field.2.map fun value => (field.1, value))) = .ok (seen', result) ∧
      (∀ name ∈ seen, name ∈ seen') ∧ ∀ name value, (name, some value) ∈ fields → name ∈ seen' := by
  induction h generalizing seen with
  | nil draft => exact ⟨seen, rfl, fun _ h => h, by simp⟩
  | @absent name rest _ _ _ ih =>
      obtain ⟨seen', hread, hold, hnew⟩ := ih seen
        (fun field hfield => hknown field (.tail _ hfield))
        (fun field hfield => hfresh field (.tail _ hfield)) (List.nodup_cons.mp hnodup).2
      refine ⟨seen', hread, hold, fun other value hother => ?_⟩
      rcases List.mem_cons.mp hother with hhead | htail
      · cases hhead
      · exact hnew other value htail
  | @present name value rest draft middle _ hvalue _ ih =>
      -- The field has been seen from here on, and no field behind it has its name.
      obtain ⟨hname, hrestNodup⟩ := List.nodup_cons.mp hnodup
      have hrestFresh : ∀ field ∈ rest, field.1 ∉ name :: seen := fun field hfield hmem => by
        have hrest : field.1 ∈ rest.map Prod.fst := List.mem_map_of_mem hfield
        rcases List.mem_cons.mp hmem with heq | hmem
        · exact hname (heq ▸ hrest)
        · exact hfresh field (.tail _ hfield) hmem
      obtain ⟨seen', hread, hold, hnew⟩ := ih (name :: seen)
        (fun field hfield => hknown field (.tail _ hfield)) hrestFresh hrestNodup
      refine ⟨seen', ?_, fun other hother => hold other (.tail _ hother),
        fun other value' hother => ?_⟩
      · have hnotSeen : ¬ seen.contains name = true := by
          simpa using hfresh (name, some value) (.head _)
        simp only [List.filterMap_cons, Option.map_some, toFieldTrees]
        rw [readFields, if_pos (hknown _ (.head _)), if_neg hnotSeen, hvalue]
        exact hread
      · rcases List.mem_cons.mp hother with hhead | htail
        · cases hhead
          exact hold name (.head _)
        · exact hnew other value' htail

theorem run_toTree (h : format.ReadsInto fields format.empty result)
    (hnames : fields.map Prod.fst = format.fields.map Prod.fst)
    (hnodup : (format.fields.map Prod.fst).Nodup)
    (hrequired : ∀ name, (name, false) ∈ format.fields → (name, none) ∉ fields) :
    format.run .jsonText (Json.record fields).toTree = .ok result := by
  have hknown : ∀ field ∈ fields, (format.fields.lookup field.1).isSome = true := by
    intro field hfield
    have hmem : field.1 ∈ format.fields.map Prod.fst := hnames ▸ List.mem_map_of_mem hfield
    obtain ⟨known, hknown, hname⟩ := List.mem_map.mp hmem
    exact List.lookup_isSome_iff.mpr ⟨known, hknown, beq_iff_eq.mpr hname.symm⟩
  obtain ⟨seen, hread, -, hseen⟩ := readFields_toFieldTrees h [] hknown (by simp) (hnames ▸ hnodup)
  have hmissing : format.firstMissing seen = none := by
    rw [firstMissing, Option.map_eq_none_iff, List.find?_eq_none]
    rintro ⟨name, mayMiss⟩ hfield hbad
    simp only [Bool.and_eq_true, Bool.not_eq_true', List.contains_eq_mem, decide_eq_false_iff_not]
      at hbad
    obtain ⟨rfl, hnotSeen⟩ := hbad
    have hmem : name ∈ fields.map Prod.fst := hnames ▸ List.mem_map_of_mem hfield
    obtain ⟨⟨_, value⟩, hvalue, rfl⟩ := List.mem_map.mp hmem
    cases value with
    | none => exact hrequired _ hfield hvalue
    | some value => exact hnotSeen (hseen _ value hvalue)
  rw [Json.record, toTree, run, hread]
  simp only [bind, Except.bind, Tree.stopAt, hmissing]
  rfl

/-! ## Fields of a map -/

section

variable {form : Notation} {seen seen' : List String} {name : String} {trees : List (String × Tree)}
  {part : δ → α}

theorem readFields_cons {key : String} {tree : Tree}
    (h : format.readFields form seen draft ((key, tree) :: trees) = .ok (seen', result)) :
    (key ∉ seen ∧ ∃ middle, format.read form key tree draft = .ok middle ∧
      format.readFields form (key :: seen) middle trees = .ok (seen', result)) ∨
    ((format.fields.lookup key).isSome = false ∧
      format.readFields form seen draft trees = .ok (seen', result)) := by
  rw [readFields] at h
  split_ifs at h with hknown hseen
  · exact .inl ⟨by simpa using hseen, bind_eq_ok_iff.mp h⟩
  · obtain ⟨_, -, hrest⟩ := bind_eq_ok_iff.mp h
    exact .inr ⟨Bool.eq_false_iff.mpr hknown, hrest⟩

theorem lookup_eq_none_of_seen (hknown : (format.fields.lookup name).isSome = true)
    (hname : name ∈ seen) (h : format.readFields form seen draft trees = .ok (seen', result)) :
    trees.lookup name = none := by
  induction trees generalizing seen draft with
  | nil => rfl
  | cons entry trees ih =>
      obtain ⟨key, tree⟩ := entry
      obtain ⟨hfresh, middle, -, hrest⟩ | ⟨hunknown, hrest⟩ := readFields_cons h
      · have hne : name ≠ key := fun hsame => hfresh (hsame ▸ hname)
        rw [List.lookup_cons, beq_false_of_ne hne]
        exact ih (List.mem_cons_of_mem _ hname) hrest
      · have hne : name ≠ key := by
          rintro rfl
          rw [hunknown] at hknown
          cases hknown
        rw [List.lookup_cons, beq_false_of_ne hne]
        exact ih hname hrest

/-- A part of the draft that one field is put into stays as it is where the map does not have the
field. -/
theorem part_eq_of_lookup_eq_none
    (hpart : ∀ key tree before after, key ≠ name →
      format.read form key tree before = .ok after → part after = part before)
    (h : format.readFields form seen draft trees = .ok (seen', result))
    (hnone : trees.lookup name = none) : part result = part draft := by
  induction trees generalizing seen draft with
  | nil =>
      cases h
      rfl
  | cons entry trees ih =>
      obtain ⟨key, tree⟩ := entry
      rw [List.lookup_cons] at hnone
      split at hnone
      · cases hnone
      next hne =>
      obtain ⟨-, middle, hread, hrest⟩ | ⟨-, hrest⟩ := readFields_cons h
      · have hkey : key ≠ name := fun hsame => by simp [hsame] at hne
        rw [ih hrest hnone, hpart key tree draft middle hkey hread]
      · exact ih hrest hnone

/-- Where the map has the field, its value alone is put into the part. -/
theorem exists_part_eq_of_lookup {tree : Tree}
    (hpart : ∀ key tree before after, key ≠ name →
      format.read form key tree before = .ok after → part after = part before)
    (hknown : (format.fields.lookup name).isSome = true)
    (h : format.readFields form seen draft trees = .ok (seen', result))
    (hsome : trees.lookup name = some tree) :
    ∃ before after, format.read form name tree before = .ok after ∧ part result = part after := by
  induction trees generalizing seen draft with
  | nil => cases hsome
  | cons entry trees ih =>
      obtain ⟨key, value⟩ := entry
      rw [List.lookup_cons] at hsome
      split at hsome
      next hsame =>
        obtain rfl := beq_iff_eq.mp hsame
        obtain rfl := Option.some.inj hsome
        obtain ⟨-, after, hread, hrest⟩ | ⟨hunknown, -⟩ := readFields_cons h
        · have hlater := lookup_eq_none_of_seen hknown List.mem_cons_self hrest
          exact ⟨draft, after, hread, part_eq_of_lookup_eq_none hpart hrest hlater⟩
        · rw [hunknown] at hknown
          cases hknown
      next =>
        obtain ⟨-, middle, -, hrest⟩ | ⟨-, hrest⟩ := readFields_cons h
        · exact ih hrest hsome
        · exact ih hrest hsome

end

end RecordFormat

end RpcContract.Reading
