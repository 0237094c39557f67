import RpcContract.Contract.Load
import RpcContract.Proofs.Reading.Record

/-!
# Contracts read from their dumps

A contract is written as a tree of records and read back level by level.  A model or a description
that is null reads as absent, and nothing else changes.
-/

namespace RpcContract

open Reading Json RecordFormat

/-! ## Models -/

namespace Models

def withoutNulls (models : Models) : Models where
  body := present models.body
  query := present models.query
  params := present models.params
  output := present models.output
  iteration := present models.iteration

@[simp] theorem get_withoutNulls (models : Models) (part : CallPart) :
    models.withoutNulls.get part = present (models.get part) := by
  cases part <;> rfl

@[simp] theorem withoutNulls_withoutNulls (models : Models) :
    models.withoutNulls.withoutNulls = models.withoutNulls := ext_get (by simp)

theorem withoutNulls_eq_self_iff {models : Models} :
    models.withoutNulls = models ↔ ∀ part, models.get part ≠ some .null := by
  constructor
  · intro h part
    rw [← present_eq_self_iff, ← get_withoutNulls, h]
  · intro h
    refine ext_get fun part => ?_
    rw [get_withoutNulls, (present_eq_self_iff _).mpr (h part)]

/-- Every model can be read back where it stands. -/
def Storable (depth : Nat) (models : Models) : Prop :=
  ∀ part, ∀ model ∈ models.get part, model.Storable depth

theorem Storable.withoutNulls {depth : Nat} {models : Models} (h : models.Storable depth) :
    models.withoutNulls.Storable depth := by
  intro part model hmodel
  rw [get_withoutNulls] at hmodel
  exact h part model (mem_of_mem_present hmodel)

theorem readable_toJson {depth : Nat} {models : Models} (h : models.Storable depth) :
    models.toJson.Readable := by
  refine readable_record fun field hfield value hvalue => ?_
  obtain ⟨part, -, rfl⟩ := List.mem_map.mp hfield
  exact readable_of_storable (h part value hvalue)

theorem format_read {depth : Nat} {part : CallPart} {value : Json} (draft : Models)
    (h : value.Storable (depthLimit .jsonText - depth)) :
    (format depth).read .jsonText part.name value.toTree draft =
      .ok (draft.put part (present (some value))) := by
  have hpart : CallPart.all.find? (·.name = part.name) = some part := by cases part <;> decide
  simp only [format, hpart, optional_any_toTree h]
  rfl

theorem readsInto {depth : Nat} {models : Models}
    (h : models.Storable (depthLimit .jsonText - depth)) {parts : List CallPart}
    (hnodup : parts.Nodup) {draft : Models} (hdraft : ∀ part ∈ parts, draft.get part = none) :
    ∃ result, (format depth).ReadsInto (parts.map fun part => (part.name, models.get part))
        draft result ∧
      ∀ part, result.get part =
        if part ∈ parts then present (models.get part) else draft.get part := by
  induction parts generalizing draft with
  | nil => exact ⟨draft, .nil draft, by simp⟩
  | cons part parts ih =>
      -- The draft fills up, but the parts that are still to come are empty in it.
      obtain ⟨hpart, hrest⟩ := List.nodup_cons.mp hnodup
      have hnext : ∀ other ∈ parts,
          (draft.put part (present (models.get part))).get other = none := by
        intro other hother
        have hne : part ≠ other := fun heq => hpart (heq ▸ hother)
        rw [get_put, if_neg hne]
        exact hdraft other (.tail _ hother)
      obtain ⟨result, hreads, hresult⟩ := ih hrest hnext
      refine ⟨result, .optional (fun hnone => ext_get fun other => ?_) (fun model hmodel => ?_)
        hreads, fun other => ?_⟩
      · rw [get_put]
        split
        next heq => rw [← heq, hdraft part (.head _), hnone, present_none]
        · rfl
      · rw [format_read draft (h part model hmodel), Option.mem_def.mp hmodel]
      · rw [hresult, get_put]
        by_cases hsame : part = other
        · subst hsame
          simp
        · simp [hsame, Ne.symm hsame]

theorem read_toTree {depth : Nat} {models : Models}
    (h : models.Storable (depthLimit .jsonText - depth)) :
    read depth .jsonText models.toJson.toTree = .ok models.withoutNulls := by
  have hall : CallPart.all.Nodup := by decide
  have hempty : ∀ part ∈ CallPart.all, ({} : Models).get part = none := fun part _ => by
    cases part <;> rfl
  obtain ⟨result, hreads, hresult⟩ := readsInto h hall hempty
  have heq : result = models.withoutNulls := by
    refine ext_get fun part => ?_
    rw [hresult, if_pos (CallPart.mem_all part), get_withoutNulls]
  have hnodup : (CallPart.all.map CallPart.name).Nodup := by decide
  rw [← heq]
  refine run_toTree hreads ?_ ?_ ?_
  · simp [format]
  · simpa [format, Function.comp_def] using hnodup
  · simp [format]

end Models

/-! ## Handlers -/

theorem HttpMethod.read_toTree (method : HttpMethod) :
    HttpMethod.read .jsonText method.toJson.toTree = .ok method := by
  cases method <;> rfl

namespace HandlerSpec

def withoutNulls (handler : HandlerSpec) : HandlerSpec :=
  { handler with
    openapi := present handler.openapi
    validation := handler.validation.map Models.withoutNulls }

@[simp] theorem withoutNulls_withoutNulls (handler : HandlerSpec) :
    handler.withoutNulls.withoutNulls = handler.withoutNulls := by
  cases h : handler.validation <;> simp [withoutNulls, h]

theorem withoutNulls_eq_self_iff {handler : HandlerSpec} :
    handler.withoutNulls = handler ↔
      handler.openapi ≠ some .null ∧ ∀ part, handler.model part ≠ some .null := by
  have hmodels : handler.validation.map Models.withoutNulls = handler.validation ↔
      ∀ part, handler.model part ≠ some .null := by
    unfold model
    cases handler.validation with
    | none => simp
    | some models => simpa using Models.withoutNulls_eq_self_iff
  rw [← hmodels, ← present_eq_self_iff]
  obtain ⟨method, path, openapi, validation⟩ := handler
  simp [withoutNulls]

/-- The free data of a handler can be read back, where the handler stands inside `depth - 1`
containers. -/
structure Storable (depth : Nat) (handler : HandlerSpec) : Prop where
  openapi : ∀ value ∈ handler.openapi, value.Storable (depthLimit .jsonText - depth)
  validation : ∀ models ∈ handler.validation,
    models.Storable (depthLimit .jsonText - (depth + 1))

theorem Storable.withoutNulls {depth : Nat} {handler : HandlerSpec} (h : handler.Storable depth) :
    handler.withoutNulls.Storable depth := by
  refine ⟨fun value hvalue => h.openapi value (mem_of_mem_present hvalue), fun kept hkept => ?_⟩
  obtain ⟨models, hmodels, rfl⟩ := Option.map_eq_some_iff.mp hkept
  exact (h.validation models hmodels).withoutNulls

theorem readable_toJson {depth : Nat} {handler : HandlerSpec} (h : handler.Storable depth) :
    handler.toJson.Readable := by
  refine readable_record fun field hfield value hvalue => ?_
  simp only [List.mem_cons, List.not_mem_nil, or_false] at hfield
  rcases hfield with rfl | rfl | rfl | rfl
  · cases hvalue
    exact trivial
  · cases hvalue
    exact trivial
  · exact readable_of_storable (h.openapi value hvalue)
  · obtain ⟨models, hmodels, rfl⟩ := Option.map_eq_some_iff.mp hvalue
    exact Models.readable_toJson (h.validation models hmodels)

theorem optional_models_toTree {depth : Nat} {models : Models}
    (h : models.Storable (depthLimit .jsonText - depth)) :
    Reading.optional (Models.read depth) .jsonText models.toJson.toTree =
      .ok (some models.withoutNulls) := by
  have hread := Models.read_toTree h
  rw [Models.toJson, Json.record, toTree] at hread ⊢
  rw [Reading.optional, hread]
  · rfl
  · simp
  · simp

theorem format_openapi {depth : Nat} {value : Json} (draft : Draft)
    (h : value.Storable (depthLimit .jsonText - depth)) :
    (format depth).read .jsonText "openapi" value.toTree draft =
      .ok { draft with openapi := present (some value) } := by
  simp only [format, optional_any_toTree h]
  rfl

theorem format_validation {depth : Nat} {models : Models} (draft : Draft)
    (h : models.Storable (depthLimit .jsonText - (depth + 1))) :
    (format depth).read .jsonText "validation" models.toJson.toTree draft =
      .ok { draft with validation := some models.withoutNulls } := by
  simp only [format, optional_models_toTree h]
  rfl

theorem read_toTree {depth : Nat} {handler : HandlerSpec} (h : handler.Storable depth) :
    read depth .jsonText handler.toJson.toTree = .ok handler.withoutNulls := by
  let withMethod : Draft := { method := some handler.method }
  let withPath : Draft := { withMethod with path := some handler.path }
  let withOpenapi : Draft := { withPath with openapi := handler.withoutNulls.openapi }
  let whole : Draft := { withOpenapi with validation := handler.withoutNulls.validation }
  have hmethod : (format depth).read .jsonText "httpMethod" handler.method.toJson.toTree {} =
      .ok withMethod := by
    simp only [format, HttpMethod.read_toTree]
    rfl
  have hopenapi : ∀ value ∈ handler.openapi,
      (format depth).read .jsonText "openapi" value.toTree withPath = .ok withOpenapi := by
    intro value hvalue
    rw [format_openapi _ (h.openapi value hvalue), ← Option.mem_def.mp hvalue]
    rfl
  have hvalidation : ∀ json ∈ handler.validation.map Models.toJson,
      (format depth).read .jsonText "validation" json.toTree withOpenapi = .ok whole := by
    intro json hjson
    obtain ⟨models, hmodels, rfl⟩ := Option.map_eq_some_iff.mp hjson
    rw [format_validation _ (h.validation models hmodels)]
    simp [whole, withoutNulls, hmodels]
  have hrun : (format depth).run .jsonText handler.toJson.toTree = .ok whole := by
    refine run_toTree (.present hmethod (.present rfl (.optional ?_ hopenapi
      (.optional ?_ hvalidation (.nil whole))))) rfl (by simp [format]) (by simp [format])
    · intro hnone
      simp [withOpenapi, withPath, withMethod, withoutNulls, hnone]
    · intro hnone
      simp [whole, withOpenapi, withPath, withMethod, withoutNulls, Option.map_eq_none_iff.mp hnone]
  rw [read, hrun]
  rfl

end HandlerSpec

/-! ## Controllers and segments -/

def ControllerSpec.mapHandlers (f : HandlerSpec → HandlerSpec) (c : ControllerSpec) :
    ControllerSpec :=
  { c with handlers := c.handlers.mapWithKey fun _ handler => f handler }

def SegmentSpec.mapHandlers (f : HandlerSpec → HandlerSpec) (s : SegmentSpec) : SegmentSpec :=
  { s with controllers := s.controllers.mapWithKey fun _ c => c.mapHandlers f }

def Contract.mapHandlers (f : HandlerSpec → HandlerSpec) (contract : Contract) : Contract :=
  ⟨contract.segments.mapWithKey fun _ s => s.mapHandlers f⟩

namespace ControllerSpec

variable {depth : Nat} {c : ControllerSpec}

theorem readable_toJson (h : ∀ entry ∈ c.handlers.entries, entry.2.Storable depth) :
    c.toJson.Readable := by
  have hhandlers := readable_ofDict fun entry hentry =>
    HandlerSpec.readable_toJson (h entry hentry)
  exact ⟨trivial, trivial, hhandlers, trivial⟩

theorem read_toTree (h : ∀ entry ∈ c.handlers.entries, entry.2.Storable (depth + 2)) :
    read depth .jsonText c.toJson.toTree = .ok (c.mapHandlers HandlerSpec.withoutNulls) := by
  let named : ControllerSpec := { name := c.name }
  let prefixed : ControllerSpec := { named with pathPrefix := c.pathPrefix }
  have hhandlers : (format depth).read .jsonText "handlers"
      (Json.ofDict (c.handlers.mapWithKey fun _ h => h.toJson)).toTree prefixed =
        .ok (c.mapHandlers HandlerSpec.withoutNulls) := by
    simp only [format, dict_toTree fun entry hentry => HandlerSpec.read_toTree (h entry hentry)]
    rfl
  exact run_toTree (.present rfl (.present rfl (.present hhandlers (.nil _)))) rfl
    (by simp [format]) (by simp [format])

end ControllerSpec

namespace SegmentSpec

variable {depth : Nat} {s : SegmentSpec}

theorem readable_toJson (h : ∀ entry ∈ s.controllers.entries,
    ∀ below ∈ entry.2.handlers.entries, below.2.Storable depth) : s.toJson.Readable := by
  have hcontrollers := readable_ofDict fun entry hentry =>
    ControllerSpec.readable_toJson (h entry hentry)
  exact ⟨trivial, hcontrollers, trivial, trivial⟩

theorem read_toTree (h : ∀ entry ∈ s.controllers.entries,
    ∀ below ∈ entry.2.handlers.entries, below.2.Storable (depth + 4)) :
    read depth .jsonText s.toJson.toTree = .ok (s.mapHandlers HandlerSpec.withoutNulls) := by
  let named : SegmentSpec := { name := s.name }
  let filled : SegmentSpec := { named with
    controllers := (s.mapHandlers HandlerSpec.withoutNulls).controllers }
  have hcontrollers : (format depth).read .jsonText "controllers"
      (Json.ofDict (s.controllers.mapWithKey fun _ c => c.toJson)).toTree named = .ok filled := by
    simp only [format, dict_toTree fun entry hentry => ControllerSpec.read_toTree (h entry hentry)]
    rfl
  exact run_toTree (.present rfl (.present hcontrollers (.present rfl (.nil _)))) rfl
    (by simp [format]) (by simp [format])

end SegmentSpec

/-! ## Contracts -/

namespace Contract

variable {contract : Contract}

theorem mem_handlers {segment : String × SegmentSpec} {controller : String × ControllerSpec}
    {entry : String × HandlerSpec} (hsegment : segment ∈ contract.segments.entries)
    (hcontroller : controller ∈ segment.2.controllers.entries)
    (hentry : entry ∈ controller.2.handlers.entries) :
    (⟨segment.1, controller.1, entry.1, entry.2⟩ : Placed) ∈ contract.handlers :=
  List.mem_flatMap.mpr ⟨segment, hsegment, List.mem_flatMap.mpr ⟨controller, hcontroller,
    List.mem_map.mpr ⟨entry, hentry, rfl⟩⟩⟩

theorem exists_of_mem_handlers {placed : Placed} (h : placed ∈ contract.handlers) :
    ∃ segment ∈ contract.segments.entries, ∃ controller ∈ segment.2.controllers.entries,
      ∃ entry ∈ controller.2.handlers.entries,
        placed = ⟨segment.1, controller.1, entry.1, entry.2⟩ := by
  obtain ⟨segment, hsegment, h⟩ := List.mem_flatMap.mp h
  obtain ⟨controller, hcontroller, h⟩ := List.mem_flatMap.mp h
  obtain ⟨entry, hentry, rfl⟩ := List.mem_map.mp h
  exact ⟨segment, hsegment, controller, hcontroller, entry, hentry, rfl⟩

theorem handlers_mapHandlers (f : HandlerSpec → HandlerSpec) (contract : Contract) :
    (contract.mapHandlers f).handlers =
      contract.handlers.map fun placed => { placed with handler := f placed.handler } := by
  simp [handlers, mapHandlers, SegmentSpec.mapHandlers, ControllerSpec.mapHandlers,
    Dict.mapWithKey, Dict.toList, List.flatMap_map, List.map_flatMap, Function.comp_def]

theorem mapHandlers_eq_self_iff {f : HandlerSpec → HandlerSpec} :
    contract.mapHandlers f = contract ↔
      ∀ placed ∈ contract.handlers, f placed.handler = placed.handler := by
  constructor
  · intro h
    have hhandlers := handlers_mapHandlers f contract
    rw [h] at hhandlers
    have hall := List.map_inj_left.mp (hhandlers.symm.trans (List.map_id _).symm)
    exact fun placed hplaced => congrArg Placed.handler (hall placed hplaced)
  · intro h
    have hcontroller {segment : String × SegmentSpec} {controller : String × ControllerSpec}
        (hsegment : segment ∈ contract.segments.entries)
        (hcontroller : controller ∈ segment.2.controllers.entries) :
        controller.2.mapHandlers f = controller.2 := by
      rw [ControllerSpec.mapHandlers, Dict.mapWithKey_eq_self]
      exact fun _ hentry => h _ (mem_handlers hsegment hcontroller hentry)
    have hsegment {segment : String × SegmentSpec}
        (hsegment : segment ∈ contract.segments.entries) :
        segment.2.mapHandlers f = segment.2 := by
      rw [SegmentSpec.mapHandlers, Dict.mapWithKey_eq_self]
      exact fun _ hmem => hcontroller hsegment hmem
    rw [mapHandlers, Dict.mapWithKey_eq_self fun _ hmem => hsegment hmem]

theorem mapHandlers_mapHandlers (f g : HandlerSpec → HandlerSpec) (contract : Contract) :
    (contract.mapHandlers g).mapHandlers f = contract.mapHandlers (f ∘ g) := by
  simp [mapHandlers, SegmentSpec.mapHandlers, ControllerSpec.mapHandlers,
    Dict.mapWithKey_mapWithKey]

/-! ### Names -/

theorem normalize_mapHandlers (f : HandlerSpec → HandlerSpec) (contract : Contract) :
    (contract.mapHandlers f).normalize = contract.normalize.mapHandlers f := by
  simp [normalize, mapHandlers, SegmentSpec.mapHandlers, ControllerSpec.mapHandlers,
    Dict.mapWithKey_mapWithKey]

@[simp] theorem handlers_normalize (contract : Contract) :
    contract.normalize.handlers = contract.handlers := by
  simp [handlers, normalize, Dict.mapWithKey, Dict.toList, List.flatMap_map]

@[simp] theorem normalize_normalize (contract : Contract) :
    contract.normalize.normalize = contract.normalize := by
  have hname (name key : String) : (if (if name = "" then key else name) = "" then key
      else if name = "" then key else name) = if name = "" then key else name := by
    split <;> simp_all
  simp [normalize, Dict.mapWithKey_mapWithKey, hname]

/-! ### Dumps -/

/-- The contract without descriptions and models that are null. -/
def withoutNulls (contract : Contract) : Contract := contract.mapHandlers HandlerSpec.withoutNulls

/-- The free data of every handler can be read back.  A handler stands inside five containers. -/
def Storable (contract : Contract) : Prop :=
  ∀ placed ∈ contract.handlers, placed.handler.Storable 6

theorem readable_toJson (h : contract.Storable) : contract.toJson.Readable :=
  readable_ofDict fun _ hsegment => SegmentSpec.readable_toJson fun _ hcontroller _ hentry =>
    h _ (mem_handlers hsegment hcontroller hentry)

theorem read_toTree (h : contract.Storable) :
    read .jsonText contract.toJson.toTree = .ok contract.withoutNulls := by
  have hsegments := dict_toTree fun _ hsegment => SegmentSpec.read_toTree
    fun _ hcontroller _ hentry => h _ (mem_handlers hsegment hcontroller hentry)
  rw [read, toJson, hsegments]
  rfl

theorem readJson_dump (h : contract.Storable) :
    readJson contract.dump = .ok contract.withoutNulls := by
  rw [readJson, readText, dump, readTree_pretty (readable_toJson h)]
  simp only [read_toTree h]
  rfl

theorem handlers_withoutNulls (contract : Contract) :
    contract.withoutNulls.handlers =
      contract.handlers.map fun placed => { placed with handler := placed.handler.withoutNulls } :=
  handlers_mapHandlers _ _

theorem withoutNulls_eq_self_iff : contract.withoutNulls = contract ↔
    ∀ placed ∈ contract.handlers, placed.handler.openapi ≠ some .null ∧
      ∀ part, placed.handler.model part ≠ some .null := by
  simp only [withoutNulls, mapHandlers_eq_self_iff, HandlerSpec.withoutNulls_eq_self_iff]

@[simp] theorem withoutNulls_withoutNulls (contract : Contract) :
    contract.withoutNulls.withoutNulls = contract.withoutNulls := by
  have hsame : HandlerSpec.withoutNulls ∘ HandlerSpec.withoutNulls = HandlerSpec.withoutNulls :=
    funext HandlerSpec.withoutNulls_withoutNulls
  rw [withoutNulls, withoutNulls, mapHandlers_mapHandlers, hsame]

/-- What a dump is loaded as. -/
def reloaded (contract : Contract) : Contract := contract.withoutNulls.normalize

theorem handlers_reloaded (contract : Contract) :
    contract.reloaded.handlers = contract.handlers.map fun placed =>
      { placed with handler := placed.handler.withoutNulls } := by
  rw [reloaded, handlers_normalize, handlers_withoutNulls]

theorem withoutNulls_normalize (contract : Contract) :
    contract.normalize.withoutNulls = contract.reloaded := (normalize_mapHandlers _ _).symm

@[simp] theorem reloaded_reloaded (contract : Contract) :
    contract.reloaded.reloaded = contract.reloaded := by
  rw [← withoutNulls_normalize contract, reloaded, withoutNulls_withoutNulls,
    withoutNulls_normalize, reloaded, normalize_normalize]

theorem Storable.reloaded (h : contract.Storable) : contract.reloaded.Storable := by
  intro placed hplaced
  rw [handlers_reloaded] at hplaced
  obtain ⟨original, horiginal, rfl⟩ := List.mem_map.mp hplaced
  exact (h original horiginal).withoutNulls

theorem load_dump {tree : FileTree} {path : Path} (h : contract.Storable)
    (hpath : isYaml path = false) (hread : tree.readText path = .ok contract.dump) :
    load tree path = .ok contract.reloaded := by
  rw [load, hread]
  simp only [hpath, Bool.false_eq_true, if_false]
  change ((readJson contract.dump).mapError (LoadError.notJson path) >>= fun loaded =>
    pure loaded.normalize) = Except.ok contract.reloaded
  rw [readJson_dump h]
  rfl

end Contract

end RpcContract
