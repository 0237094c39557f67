import RpcContract.CommandLine.Run
import RpcContract.Proofs.Contract.Issues
import RpcContract.Proofs.Data.Except
import RpcContract.Proofs.Validation.CallRules

/-!
# Wrapped handlers in a contract

Handlers with checks around them are registered one after another, and a later one takes the place
of an earlier one.  The issues of the contract say beforehand which of those that remain will refuse
every call, so that a check of the contract fails for these.
-/

namespace RpcContract

variable {σ : Type}

/-! ## Refusals -/

namespace Layer

/-- Every call is refused because one value and a stream cannot both be the result; no validator is
asked and the handler does not run. -/
def RefusesAll (layer : Layer σ) (handle : Handler σ) : Prop :=
  ∀ context state, ((layer.observed 0).wrap (handle.observed 1) context).runFrom (.start state) =
    (.error (.configuration
      "Output and iteration are mutually exclusive. You can't use them together."), .start state)

/-- The same checks with other parts left out. -/
def skipping (layer : Layer σ) (skip : SkipSetting) : Layer σ :=
  { layer with options := { layer.options with skipChecks := skip } }

end Layer

theorem Asks.events_ne_nil {number : Nat} {validator : Validator σ} {questions : List Question}
    {state state₁ : σ} {events : List Event} {e : HttpError}
    (h : Asks number validator questions state events (.error e) state₁) : events ≠ [] := by
  generalize hanswers : (Except.error e : Except HttpError Answers) = answers at h
  cases h with
  | none => cases hanswers
  | rejected => exact List.cons_ne_nil _ _
  | accepted => exact List.cons_ne_nil _ _

theorem CallRun.refuses {layer : Layer σ} {handle : Handler σ} {context : RequestContext}
    {state state₁ : σ} {e : HttpError}
    (h : CallRun layer handle context state [] (.error e) state₁) : layer.Refuses e := by
  generalize hevents : ([] : List Event) = events at h
  generalize hresult : (Except.error e : Except HttpError (Output (Observed σ))) = result at h
  cases h with
  | refused hrefuses =>
      cases hresult
      exact hrefuses
  | rejected _ hasks => exact absurd hevents.symm hasks.events_ne_nil
  | failed | returned => simp at hevents

theorem Layer.refusesAll_iff [Nonempty σ] {layer : Layer σ} {handle : Handler σ} :
    layer.RefusesAll handle ↔ (∃ model, layer.models.get .output = some model) ∧
      ∃ model, layer.models.get .iteration = some model := by
  constructor
  · intro h
    obtain ⟨state⟩ := ‹Nonempty σ›
    have hrefuses := (CallRun.of_runFrom (h default state)).refuses
    generalize hreason : HttpError.configuration
      "Output and iteration are mutually exclusive. You can't use them together." = e at hrefuses
    cases hrefuses with
    | conflict ho hi => exact ⟨⟨_, ho⟩, _, hi⟩
    | everyItem => simp at hreason
  · rintro ⟨⟨_, ho⟩, _, hi⟩ context state
    exact wrap_refused (.conflict ho hi)

/-! ## Registered handlers -/

/-- A wrapped handler, and under which names it is registered with what it publishes. -/
structure Mounted (σ : Type) where
  segment : String
  controller : String
  key : String
  method : HttpMethod
  path : String
  openapi : Option Json
  layer : Layer σ
  handle : Handler σ

namespace Mounted

variable (m : Mounted σ)

def place : Place := (m.segment, m.controller, m.key)

def step : Registration.Step :=
  .register m.segment m.controller m.key m.method m.path
    { contributionOf m.layer.models m.layer.options with openapi := m.openapi }

def placed : Placed where
  segment := m.segment
  controller := m.controller
  key := m.key
  handler := ({ method := m.method, path := m.path, openapi := m.openapi } :
    HandlerSpec).withValidation (contributionOf m.layer.models m.layer.options).validation

/-- None of the handlers that are registered after it takes its place. -/
def Remains (mounts : List (Mounted σ)) : Prop :=
  (mounts.filter (·.place = m.place)).getLast? = some m

/-- Single items are not all checked, and the models of results are published. -/
structure Open : Prop where
  everyItem : m.layer.options.checkEveryItem = false
  output : ¬ m.layer.options.skipEmission.Covers .output
  iteration : ¬ m.layer.options.skipEmission.Covers .iteration

/-- Every call is refused for its setup, no matter which parts are left unchecked. -/
def Refuses : Prop := ∀ skip, (m.layer.skipping skip).RefusesAll m.handle

def published? (part : CallPart) : Option Json :=
  if m.layer.options.skipEmission.Covers part then none else m.layer.models.get part

def location : String := m.segment ++ "/" ++ m.controller ++ "." ++ m.key

open Classical in
noncomputable def issues : List Issue :=
  (if m.Refuses then
    [⟨m.location, .error, "output and iteration models are mutually exclusive"⟩] else []) ++
  (CallPart.all.filter fun part =>
    (m.published? part).any fun model => !model.isObject && !model.isBool).map fun part =>
      ⟨m.location, .warning, part.name ++ " model is not a JSON schema object"⟩

theorem model_placed (part : CallPart) : m.placed.handler.model part = m.published? part := by
  rw [placed, HandlerSpec.model_withValidation, contributionOf, Models.get_without,
    SkipSetting.contains_resolve, published?]
  simp only [decide_eq_true_eq]

variable {m} {mounts : List (Mounted σ)}

theorem refuses_iff [Nonempty σ] : m.Refuses ↔ m.layer.RefusesAll m.handle := by
  simp only [Refuses, Layer.refusesAll_iff, Layer.skipping, forall_const]

/-- A handler refuses every call just if its entry in a contract declares two kinds of results. -/
theorem declaresBoth_placed [Nonempty σ] (h : m.Open) :
    m.placed.handler.DeclaresBoth ↔ m.Refuses := by
  rw [HandlerSpec.DeclaresBoth, model_placed, model_placed, published?, published?,
    if_neg h.output, if_neg h.iteration, refuses_iff, Layer.refusesAll_iff]

theorem issues_placed [Nonempty σ] (h : m.Open) : m.placed.issues = m.issues := by
  classical
  rw [Placed.issues_eq, issues, Placed.warnings]
  simp only [model_placed]
  congr 1
  exact if_congr (declaresBoth_placed h) rfl rfl

theorem last?_handler? (segment controller key : String) :
    Registration.last? (Registration.Step.handler? segment controller key) (mounts.map step) =
      ((mounts.filter (·.place = (segment, controller, key))).getLast?).map
        (·.placed.handler) := by
  rw [Registration.last?, List.filterMap_map, ← List.getLast?_map, ← List.filterMap_eq_map,
    List.filterMap_filter]
  congr 2
  funext m
  simp only [Function.comp_apply, step, Registration.Step.handler?, Mounted.place, Prod.mk.injEq,
    decide_eq_true_eq, placed, HandlerSpec.withValidation_eq]

theorem mem_handlers_collect {entry : Placed} :
    entry ∈ (Registration.collect (mounts.map step)).handlers ↔
      ∃ m : Mounted σ, m.placed = entry ∧ m.Remains mounts := by
  rw [Contract.mem_handlers_iff, (Registration.records_collect _).handlers,
    last?_handler?, Option.map_eq_some_iff]
  constructor
  · rintro ⟨m, hlast, hhandler⟩
    have hplace : m.place = entry.place :=
      of_decide_eq_true (List.mem_filter.mp (List.mem_of_getLast? hlast)).2
    obtain ⟨hsegment, hcontroller, hkey⟩ : m.segment = entry.segment ∧
        m.controller = entry.controller ∧ m.key = entry.key := by
      simpa [place, Placed.place] using hplace
    refine ⟨m, ?_, by rw [Remains, hplace]; exact hlast⟩
    cases entry
    simp_all [placed]
  · rintro ⟨m, rfl, hremains⟩
    exact ⟨m, hremains, rfl⟩

theorem Remains.unique {other : Mounted σ} (h : m.Remains mounts) (hother : other.Remains mounts)
    (hplace : m.place = other.place) : m = other := by
  rw [Remains, hplace] at h
  exact Option.some.inj (h.symm.trans hother)

theorem Remains.mem (h : m.Remains mounts) : m ∈ mounts :=
  (List.mem_filter.mp (List.mem_of_getLast? h)).1

theorem exists_entries (mounts : List (Mounted σ)) : ∃ entries : List (Mounted σ),
    entries.map placed = (Registration.collect (mounts.map step)).handlers ∧
    entries.Pairwise (fun a b => a.place.Before b.place) ∧
    ∀ m : Mounted σ, m ∈ entries ↔ m.Remains mounts := by
  obtain ⟨entries, hall, hremains⟩ := exists_forall₂
    fun entry (hentry : entry ∈ (Registration.collect (mounts.map step)).handlers) =>
      mem_handlers_collect.mp hentry
  have hentries : entries.map placed = (Registration.collect (mounts.map step)).handlers := by
    have heq : List.Forall₂ Eq (entries.map placed)
        (Registration.collect (mounts.map step)).handlers :=
      List.forall₂_map_left_iff.mpr hall.flip
    exact List.forall₂_eq_eq_eq ▸ heq
  refine ⟨entries, hentries, ?_, fun m => ⟨hremains m, fun hm => ?_⟩⟩
  · have hpairwise := Contract.handlers_pairwise (Registration.collect (mounts.map step))
    rw [← hentries] at hpairwise
    exact hpairwise.of_map placed fun _ _ => id
  · have hmem := mem_handlers_collect.mpr ⟨m, rfl, hm⟩
    rw [← hentries] at hmem
    obtain ⟨other, hother, hplaced⟩ := List.mem_map.mp hmem
    exact (hremains other hother).unique hm (congrArg Placed.place hplaced) ▸ hother

end Mounted

/-! ## Checks of a contract -/

theorem CommandLine.result_check {tree : FileTree} {path : Path} {contract : Contract}
    (hload : Contract.load tree path = .ok contract) (environment : Environment)
    (banner : String) :
    let conflicts := contract.handlers.countP (·.handler.DeclaresBoth)
    (CommandLine.run (.check path true) environment tree banner).result =
      if 0 < conflicts then .error (.issues conflicts path) else .ok () := by
  intro conflicts
  have herrors : (contract.issues.filter (·.severity = .error)).length = conflicts := by
    rw [contract.filter_error_issues, List.length_map]
    exact List.countP_eq_length_filter.symm
  simp only [CommandLine.run, CommandLine.runCheck, hload]
  split
  · next hissues =>
      rw [hissues] at herrors
      rw [← herrors]
      rfl
  · rw [herrors]
    simp only [true_and]

/-- The issues of a contract, in the order of its places, are those that the handlers remaining in
it have: an error where every call is refused, and a warning for each model of a wrong form.  A
check of a contract that has been read fails just if a handler declares two kinds of results. -/
theorem issues_predict [Nonempty σ] (mounts : List (Mounted σ)) (hopen : ∀ m ∈ mounts, m.Open) :
    (∃ entries : List (Mounted σ),
      entries.Pairwise (fun a b => a.place.Before b.place) ∧
      (∀ m : Mounted σ, m ∈ entries ↔ m.Remains mounts) ∧
      (Registration.collect (mounts.map Mounted.step)).issues =
        entries.flatMap Mounted.issues) ∧
    ∀ (tree : FileTree) (path : Path) (contract : Contract) (environment : Environment)
      (banner : String), Contract.load tree path = .ok contract →
      let checked :=
        (CommandLine.run (.check path true) environment tree banner).result
      ((∃ e, checked = .error e) ↔
        ∃ placed ∈ contract.handlers, placed.handler.DeclaresBoth) ∧
      ∀ e, checked = .error e → ∀ templateText formText, e.message templateText formText =
        toString (contract.handlers.countP (·.handler.DeclaresBoth)) ++ " error(s) found in " ++
          path.text := by
  refine ⟨?_, fun tree path contract environment banner hload => ?_⟩
  · obtain ⟨entries, hentries, hpairwise, hmem⟩ := Mounted.exists_entries mounts
    refine ⟨entries, hpairwise, hmem, ?_⟩
    rw [Contract.issues, ← hentries, List.flatMap_map]
    exact List.flatMap_congr fun m hm =>
      Mounted.issues_placed (hopen m ((hmem m).mp hm).mem)
  · intro checked
    have hchecked : checked = _ := CommandLine.result_check hload environment banner
    have hcount : 0 < contract.handlers.countP (·.handler.DeclaresBoth) ↔
        ∃ placed ∈ contract.handlers, placed.handler.DeclaresBoth := by
      simp [List.countP_pos_iff]
    rw [hchecked, ← hcount]
    split
    · next hpos =>
        refine ⟨⟨fun _ => hpos, fun _ => ⟨_, rfl⟩⟩, fun e he templateText formText => ?_⟩
        cases he
        rfl
    · next hzero =>
        refine ⟨⟨fun hfails => ?_, fun hpos => absurd hpos hzero⟩, fun e he => ?_⟩
        · obtain ⟨e, he⟩ := hfails
          cases he
        · cases he

def usersMount (key : String) (models : Models) (skip : SkipSetting) : Mounted Unit where
  segment := "api"
  controller := "Users"
  key := key
  method := .post
  path := key
  openapi := none
  layer := ⟨models, fun _ _ _ => pure none, { skipChecks := skip }⟩
  handle := fun _ => pure .empty

/-- Of two handlers under one name the first declares two kinds of results and the second does not.
Another handler declares both, and its model of the body has a wrong form. -/
def usersMounts : List (Mounted Unit) := [
  usersMount "list" { output := some (.bool true), iteration := some (.bool true) } (.flag false),
  usersMount "list" { output := some (.bool true) } (.flag false),
  usersMount "all" { body := some (.str "User"), output := some (.bool true),
                     iteration := some (.bool true) } (.flag true)]

def usersCollected : Contract := Registration.collect (usersMounts.map Mounted.step)

theorem usersCollected_storable : usersCollected.Storable := by
  intro entry hentry
  obtain ⟨m, rfl, hremains⟩ := Mounted.mem_handlers_collect.mp hentry
  have hm := hremains.mem
  simp only [usersMounts, List.mem_cons, List.not_mem_nil, or_false] at hm
  constructor
  · rcases hm with rfl | rfl | rfl <;> exact nofun
  · intro models hmodels part model hmodel
    rcases hm with rfl | rfl | rfl <;> cases hmodels <;> cases part <;> cases hmodel <;>
      exact trivial

def usersTree : FileTree := ⟨[(["users.json"], .file (.text usersCollected.dump))], []⟩

theorem issues_predict_users :
    (∀ m ∈ usersMounts, m.Open) ∧
      (∃ entries : List (Mounted Unit), (∀ m : Mounted Unit, m ∈ entries ↔ m.Remains usersMounts) ∧
        usersCollected.issues = entries.flatMap Mounted.issues) ∧
      ∃ e, (CommandLine.run (.check ⟨"users.json"⟩ true) {} usersTree "").result = .error e ∧
        e.message (fun _ => "") "" = "1 error(s) found in users.json" := by
  have hopen : ∀ m ∈ usersMounts, m.Open := by
    intro m hm
    have hoptions : m.layer.options.checkEveryItem = false ∧
        m.layer.options.skipEmission = .flag false := by
      revert m
      simp [usersMounts, usersMount]
    exact ⟨hoptions.1, by simp [hoptions.2, SkipSetting.Covers],
      by simp [hoptions.2, SkipSetting.Covers]⟩
  have htext : usersTree.readText ⟨"users.json"⟩ = .ok usersCollected.dump := by decide +kernel
  have hload : Contract.load usersTree ⟨"users.json"⟩ = .ok usersCollected.reloaded :=
    Contract.load_dump usersCollected_storable (by decide +kernel) htext
  obtain ⟨⟨entries, -, hentries, hissues⟩, hcheck⟩ := issues_predict usersMounts hopen
  obtain ⟨hfails, hmessage⟩ := hcheck usersTree ⟨"users.json"⟩ _ {} "" hload
  obtain ⟨e, he⟩ := hfails.mpr (by decide +kernel)
  exact ⟨hopen, ⟨entries, hentries, hissues⟩, e, he, (hmessage e he _ _).trans (by decide +kernel)⟩

end RpcContract
