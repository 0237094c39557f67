import RpcContract.Proofs.Contract.Dump
import RpcContract.Proofs.Data.Except
import RpcContract.Proofs.Json.Literal

/-!
# Contracts read from JSON text

Null stands for what is absent when a contract is read from JSON, so a contract that has been read
holds no free data that is null.  Whatever each field keeps true of a draft is true of the record.
-/

namespace RpcContract

open Reading

/-! ## What is taken from a tree of JSON text -/

namespace Reading

variable {α δ : Type} {tree : Tree}

theorem eq_null_of_toJson {depth : Nat} (h : tree.Literal)
    (hjson : tree.toJson depth = .ok .null) : tree = .null := by
  cases h with
  | null => rfl
  | real hfinite =>
      rw [Tree.toJson, if_pos hfinite] at hjson
      cases hjson
  | seq stop _ =>
      rw [Tree.toJson] at hjson
      split at hjson
      · cases hjson
      · obtain ⟨items, -, hjson⟩ := bind_eq_ok_iff.mp hjson
        obtain ⟨_, -, hjson⟩ := bind_eq_ok_iff.mp hjson
        cases hjson
  | map stop _ =>
      rw [Tree.toJson] at hjson
      split at hjson
      · cases hjson
      · obtain ⟨fields, -, hjson⟩ := bind_eq_ok_iff.mp hjson
        obtain ⟨_, -, hjson⟩ := bind_eq_ok_iff.mp hjson
        cases hjson
  | _ => cases hjson

theorem of_optional {read : Reader α} {form : Notation} {value : Option α}
    (h : optional read form tree = .ok value) : ∀ result ∈ value, read form tree = .ok result := by
  intro result hresult
  unfold optional at h
  split at h
  · cases h
    cases hresult
  · cases h
    cases hresult
  · cases hread : read form tree with
    | error e =>
        rw [hread] at h
        cases h
    | ok got =>
        rw [hread] at h
        cases h
        cases hresult
        rfl

theorem ne_null_of_optional_any {depth : Nat} {value : Option Json} (h : tree.Literal)
    (hread : optional (any depth) .jsonText tree = .ok value) : value ≠ some .null := by
  rintro rfl
  have hnull : tree = .null := eq_null_of_toJson h (of_optional hread .null rfl)
  rw [hnull] at hread
  cases hread

theorem dict_holds {read : Reader α} {d : Dict α} {P : α → Prop} (h : tree.Literal)
    (hread : dict read .jsonText tree = .ok d)
    (hvalue : ∀ below value, below.Literal → read .jsonText below = .ok value → P value) :
    ∀ entry ∈ d.entries, P entry.2 := by
  cases h with
  | map stop hfields =>
      simp only [dict, bind_eq_ok_iff] at hread
      obtain ⟨entries, hentries, _, -, hd⟩ := hread
      cases hd
      intro entry hentry
      obtain ⟨⟨key, below⟩, hbelow, hresult⟩ :=
        (mem_of_forall₂ (mapM_eq_ok_iff.mp hentries)).2 entry (Dict.mem_of_mem_ofList hentry)
      obtain ⟨value, hvalue', hentry⟩ := bind_eq_ok_iff.mp hresult
      cases hentry
      exact hvalue below value (hfields _ hbelow) hvalue'
  | _ => cases hread

namespace RecordFormat

variable {format : RecordFormat δ} {P : δ → Prop} {draft result : δ}

theorem readFields_holds (hread : ∀ name item draft draft', item.Literal → P draft →
      format.read .jsonText name item draft = .ok draft' → P draft')
    {fields : List (String × Tree)} (h : ∀ field ∈ fields, field.2.Literal) (hdraft : P draft)
    {seen seen' : List String}
    (hfields : format.readFields .jsonText seen draft fields = .ok (seen', result)) :
    P result := by
  induction fields generalizing seen draft with
  | nil =>
      cases hfields
      exact hdraft
  | cons field rest ih =>
      obtain ⟨hfield, hrest⟩ := List.forall_mem_cons.mp h
      rw [readFields] at hfields
      split at hfields
      · split at hfields
        · cases hfields
        · obtain ⟨draft', hdraft', hfields⟩ := bind_eq_ok_iff.mp hfields
          exact ih hrest (hread _ _ _ _ hfield hdraft hdraft') hfields
      · obtain ⟨_, -, hfields⟩ := bind_eq_ok_iff.mp hfields
        exact ih hrest hdraft hfields

theorem readItems_holds (hread : ∀ name item draft draft', item.Literal → P draft →
      format.read .jsonText name item draft = .ok draft' → P draft')
    {count : Nat} {stop : Option Fault} {fields : List (String × Bool)} {items rest : List Tree}
    (h : ∀ item ∈ items, item.Literal) (hdraft : P draft)
    (hitems : format.readItems .jsonText count stop draft fields items = .ok (result, rest)) :
    P result := by
  induction fields generalizing items draft with
  | nil =>
      rw [readItems] at hitems
      cases hitems
      exact hdraft
  | cons field fields ih =>
      cases items with
      | nil =>
          rw [readItems] at hitems
          obtain ⟨_, -, hitems⟩ := bind_eq_ok_iff.mp hitems
          split at hitems
          · exact ih h hdraft hitems
          · cases hitems
      | cons item items =>
          obtain ⟨hitem, hitems'⟩ := List.forall_mem_cons.mp h
          rw [readItems] at hitems
          obtain ⟨draft', hdraft', hitems⟩ := bind_eq_ok_iff.mp hitems
          exact ih hitems' (hread _ _ _ _ hitem hdraft hdraft') hitems

/-- What holds of the empty draft and is kept by every field holds of the whole record. -/
theorem run_holds (hempty : P format.empty)
    (hread : ∀ name item draft draft', item.Literal → P draft →
      format.read .jsonText name item draft = .ok draft' → P draft')
    (h : tree.Literal) (hrun : format.run .jsonText tree = .ok result) : P result := by
  cases h with
  | map stop hfields =>
      rw [run] at hrun
      obtain ⟨⟨seen, draft⟩, hdraft, hrun⟩ := bind_eq_ok_iff.mp hrun
      obtain ⟨_, -, hrun⟩ := bind_eq_ok_iff.mp hrun
      have hholds := readFields_holds hread hfields hempty hdraft
      split at hrun
      · cases hrun
      · cases hrun
        exact hholds
  | seq stop hitems =>
      rw [run] at hrun
      · obtain ⟨⟨draft, rest⟩, hdraft, hrun⟩ := bind_eq_ok_iff.mp hrun
        have hholds := readItems_holds hread hitems hempty hdraft
        dsimp only at hrun
        split at hrun
        · obtain ⟨_, -, hrun⟩ := bind_eq_ok_iff.mp hrun
          cases hrun
          exact hholds
        · split at hrun <;> cases hrun
      · simp
  | _ => cases hrun

end RecordFormat

end Reading

/-! ## Contracts without what is null -/

theorem Models.withoutNulls_of_read {depth : Nat} {tree : Tree} {models : Models}
    (h : tree.Literal) (hread : Models.read depth .jsonText tree = .ok models) :
    models.withoutNulls = models := by
  refine withoutNulls_eq_self_iff.mpr
    (RecordFormat.run_holds (P := fun draft : Models => ∀ part, draft.get part ≠ some .null)
      (fun part => by cases part <;> simp [format, get]) ?_ h hread)
  intro name item draft draft' hitem hdraft hfield part
  simp only [format] at hfield
  split at hfield
  next found _ =>
    obtain ⟨model, hmodel, hfield⟩ := bind_eq_ok_iff.mp hfield
    cases hfield
    rw [get_put]
    split
    · exact ne_null_of_optional_any hitem hmodel
    · exact hdraft part
  · cases hfield
    exact hdraft part

def HandlerSpec.Draft.NoNulls (draft : Draft) : Prop :=
  draft.openapi ≠ some .null ∧ ∀ models ∈ draft.validation, models.withoutNulls = models

theorem HandlerSpec.withoutNulls_of_read {depth : Nat} {tree : Tree} {handler : HandlerSpec}
    (h : tree.Literal) (hread : HandlerSpec.read depth .jsonText tree = .ok handler) :
    handler.withoutNulls = handler := by
  obtain ⟨draft, hrun, hread⟩ := bind_eq_ok_iff.mp hread
  have hdraft : draft.NoNulls := by
    refine RecordFormat.run_holds (by simp [Draft.NoNulls, format]) ?_ h hrun
    intro name item draft draft' hitem hdraft hfield
    simp only [format] at hfield
    split at hfield
    · obtain ⟨method, -, hfield⟩ := bind_eq_ok_iff.mp hfield
      cases hfield
      exact hdraft
    · obtain ⟨path, -, hfield⟩ := bind_eq_ok_iff.mp hfield
      cases hfield
      exact hdraft
    · obtain ⟨openapi, hopenapi, hfield⟩ := bind_eq_ok_iff.mp hfield
      cases hfield
      exact ⟨ne_null_of_optional_any hitem hopenapi, hdraft.2⟩
    · obtain ⟨validation, hvalidation, hfield⟩ := bind_eq_ok_iff.mp hfield
      cases hfield
      exact ⟨hdraft.1, fun models hmodels =>
        Models.withoutNulls_of_read hitem (of_optional hvalidation models hmodels)⟩
    · cases hfield
      exact hdraft
  have hvalidation : draft.validation.map Models.withoutNulls = draft.validation := by
    cases hmodels : draft.validation with
    | none => rfl
    | some models => rw [Option.map_some, hdraft.2 models hmodels]
  have hopenapi : present draft.openapi = draft.openapi := (present_eq_self_iff _).mpr hdraft.1
  split at hread
  · cases hread
    rw [withoutNulls, hopenapi, hvalidation]
  · cases hread
  · cases hread

theorem ControllerSpec.mapHandlers_of_read {depth : Nat} {tree : Tree} {c : ControllerSpec}
    (h : tree.Literal) (hread : ControllerSpec.read depth .jsonText tree = .ok c) :
    c.mapHandlers HandlerSpec.withoutNulls = c := by
  have hhandlers : ∀ entry ∈ c.handlers.entries, entry.2.withoutNulls = entry.2 := by
    refine RecordFormat.run_holds (P := fun draft : ControllerSpec =>
      ∀ entry ∈ draft.handlers.entries, entry.2.withoutNulls = entry.2)
      (fun _ hentry => by cases hentry) ?_ h hread
    intro name item draft draft' hitem hdraft hfield
    simp only [format] at hfield
    split at hfield
    · obtain ⟨name, -, hfield⟩ := bind_eq_ok_iff.mp hfield
      cases hfield
      exact hdraft
    · obtain ⟨pathPrefix, -, hfield⟩ := bind_eq_ok_iff.mp hfield
      cases hfield
      exact hdraft
    · obtain ⟨handlers, hhandlers, hfield⟩ := bind_eq_ok_iff.mp hfield
      cases hfield
      exact dict_holds hitem hhandlers fun _ _ => HandlerSpec.withoutNulls_of_read
    · cases hfield
      exact hdraft
  rw [mapHandlers, Dict.mapWithKey_eq_self hhandlers]

theorem SegmentSpec.mapHandlers_of_read {depth : Nat} {tree : Tree} {s : SegmentSpec}
    (h : tree.Literal) (hread : SegmentSpec.read depth .jsonText tree = .ok s) :
    s.mapHandlers HandlerSpec.withoutNulls = s := by
  have hcontrollers : ∀ entry ∈ s.controllers.entries,
      entry.2.mapHandlers HandlerSpec.withoutNulls = entry.2 := by
    refine RecordFormat.run_holds (P := fun draft : SegmentSpec =>
      ∀ entry ∈ draft.controllers.entries,
        entry.2.mapHandlers HandlerSpec.withoutNulls = entry.2)
      (fun _ hentry => by cases hentry) ?_ h hread
    intro name item draft draft' hitem hdraft hfield
    simp only [format] at hfield
    split at hfield
    · obtain ⟨name, -, hfield⟩ := bind_eq_ok_iff.mp hfield
      cases hfield
      exact hdraft
    · obtain ⟨controllers, hcontrollers, hfield⟩ := bind_eq_ok_iff.mp hfield
      cases hfield
      exact dict_holds hitem hcontrollers fun _ _ => ControllerSpec.mapHandlers_of_read
    · obtain ⟨emit, -, hfield⟩ := bind_eq_ok_iff.mp hfield
      cases hfield
      exact hdraft
    · cases hfield
      exact hdraft
  rw [mapHandlers, Dict.mapWithKey_eq_self hcontrollers]

namespace Contract

theorem withoutNulls_of_read {tree : Tree} {contract : Contract} (h : tree.Literal)
    (hread : read .jsonText tree = .ok contract) : contract.withoutNulls = contract := by
  rw [read] at hread
  cases hsegments : dict (SegmentSpec.read 2) .jsonText tree with
  | error e =>
      rw [hsegments] at hread
      cases hread
  | ok segments =>
      rw [hsegments] at hread
      cases hread
      have hsame := dict_holds h hsegments fun _ _ => SegmentSpec.mapHandlers_of_read
      rw [withoutNulls, mapHandlers, Dict.mapWithKey_eq_self hsame]

theorem withoutNulls_of_readJson {text : String} {contract : Contract}
    (h : readJson text = .ok contract) : contract.withoutNulls = contract := by
  obtain ⟨read, hread, h⟩ := bind_eq_ok_iff.mp h
  obtain ⟨_, -, h⟩ := bind_eq_ok_iff.mp h
  cases h
  exact withoutNulls_of_read (Json.literal_readTree text) hread

theorem normalize_of_load {tree : FileTree} {path : Path} {loaded : Contract}
    (h : load tree path = .ok loaded) : loaded.normalize = loaded := by
  obtain ⟨text, -, h⟩ := bind_eq_ok_iff.mp h
  split at h
  all_goals
    obtain ⟨contract, -, h⟩ := bind_eq_ok_iff.mp h
    cases h
    exact normalize_normalize contract

theorem withoutNulls_of_load {tree : FileTree} {path : Path} {loaded : Contract}
    (hpath : isYaml path = false) (h : load tree path = .ok loaded) :
    loaded.withoutNulls = loaded := by
  obtain ⟨text, -, h⟩ := bind_eq_ok_iff.mp h
  rw [hpath] at h
  obtain ⟨contract, hread, h⟩ := bind_eq_ok_iff.mp h
  cases h
  have hnulls := withoutNulls_of_readJson (mapError_eq_ok_iff.mp hread)
  rw [withoutNulls_normalize, reloaded, hnulls]

end Contract

end RpcContract
