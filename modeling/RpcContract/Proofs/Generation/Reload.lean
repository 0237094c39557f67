import RpcContract.Proofs.Contract.Load
import RpcContract.Proofs.Generation.Postcondition

/-!
# Loading what a run has dumped

A contract that a run dumps is loaded as the part of it that is emitted, with its names filled in
and without free data that is null.  A contract that has been loaded from a dump is loaded from its
own dump unchanged.
-/

namespace RpcContract

/-! ## What the assembled contract holds -/

namespace Contract

variable {contract assembled result : Contract} {names : List String}

theorem storable_of_segments (h : ∀ segment ∈ contract.segments.entries,
    ∀ controller ∈ segment.2.controllers.entries, ∀ entry ∈ controller.2.handlers.entries,
      entry.2.Storable 6) : contract.Storable := by
  intro placed hplaced
  obtain ⟨segment, hsegment, controller, hcontroller, entry, hentry, rfl⟩ :=
    exists_of_mem_handlers hplaced
  exact h segment hsegment controller hcontroller entry hentry

theorem Storable.insert {segment : SegmentSpec} (h : assembled.Storable)
    (hsegment : ∀ controller ∈ segment.controllers.entries,
      ∀ entry ∈ controller.2.handlers.entries, entry.2.Storable 6) :
    (assembled.insert segment).Storable := by
  refine storable_of_segments fun placed hplaced controller hcontroller entry hentry => ?_
  rcases mem_insertEntry hplaced with rfl | hold
  · exact hsegment controller hcontroller entry hentry
  · exact h _ (mem_handlers hold hcontroller hentry)

theorem Storable.assembleOnto (h : contract.Storable) (hassembled : assembled.Storable)
    (hresult : contract.assembleOnto assembled names = .ok result) : result.Storable := by
  induction names generalizing assembled with
  | nil =>
      cases hresult
      exact hassembled
  | cons name names ih =>
      rw [Contract.assembleOnto] at hresult
      cases hname : contract.get? name with
      | none =>
          rw [hname] at hresult
          cases hresult
      | some segment =>
          rw [hname] at hresult
          have hsegment : (name, segment) ∈ contract.segments.entries :=
            Dict.mem_toList_of_get? hname
          have hinsert : (assembled.insert { segment with name := name }).Storable :=
            hassembled.insert fun _ hcontroller _ hentry =>
              h _ (mem_handlers hsegment hcontroller hentry)
          exact ih hinsert hresult

theorem Storable.assemble (h : contract.Storable)
    (hassembled : contract.assemble names = .ok assembled) : assembled.Storable := by
  have hempty : ({} : Contract).Storable := fun placed hplaced => by cases hplaced
  exact h.assembleOnto hempty hassembled

theorem Storable.emitted (h : contract.Storable) : contract.emitted.Storable := by
  refine storable_of_segments fun _ hsegment _ hcontroller _ hentry => ?_
  exact h _ (mem_handlers (List.mem_filter.mp hsegment).1 hcontroller hentry)

end Contract

/-! ## Dumps of runs -/

namespace Generation

open FileTree

variable {job : Job} {tree after : FileTree} {written : List Path} {report : Report}

/-- A dump in JSON that no output overwrites is loaded as the emitted part of the contract. -/
theorem Job.Ends.load_dump (h : job.contract.Storable)
    (hends : job.Ends tree after written (.ok report)) :
    ∃ files assembled, job.selection.resolve tree = .ok files ∧ job.assembled = .ok assembled ∧
      assembled.emitted.Storable ∧
      ∀ path ∈ job.options.dumpsOf files, Contract.isYaml path = false →
        (∀ file ∈ files, job.Stale tree file → after.Apart path (job.options.pathOf file)) →
        Contract.load after path = .ok assembled.emitted.reloaded := by
  obtain ⟨files, assembled, outputs, hfiles, hassembled, houtputs, -, hcarried⟩ := hends.carried
  have hstorable := (h.assemble hassembled).emitted
  refine ⟨files, assembled, hfiles, hassembled, hstorable, fun path hpath hjson hapart => ?_⟩
  exact Contract.load_dump hstorable hjson
    (hcarried.readText_dump hassembled houtputs hpath hapart)

/-- Loading undoes dumping, but for free data that is null.  A contract is read back from its dump
without it; what a run dumps is loaded as the emitted part of the contract with its names filled in,
and is loaded again from its own dump; and so is whatever has been loaded from JSON. -/
theorem dump_reloads :
    (∀ contract : Contract, contract.Storable →
      Contract.readJson contract.dump = .ok contract.withoutNulls ∧
      (Contract.readJson contract.dump = .ok contract ↔
        ∀ placed ∈ contract.handlers, placed.handler.openapi ≠ some .null ∧
          ∀ part, placed.handler.model part ≠ some .null)) ∧
    (∀ (job : Job) (tree after : FileTree) (written : List Path) (report : Report),
      job.contract.Storable → job.Ends tree after written (.ok report) →
      ∃ files assembled, job.selection.resolve tree = .ok files ∧ job.assembled = .ok assembled ∧
        ∀ path ∈ job.options.dumpsOf files, Contract.isYaml path = false →
          (∀ file ∈ files, job.Stale tree file → after.Apart path (job.options.pathOf file)) →
          ∃ loaded, Contract.load after path = .ok loaded ∧
            loaded = assembled.emitted.withoutNulls.normalize ∧
            loaded.handlers = (assembled.emitted.handlers.map fun placed =>
              { placed with handler := placed.handler.withoutNulls }) ∧
            ∀ (tree' : FileTree) (path' : Path), Contract.isYaml path' = false →
              tree'.readText path' = .ok loaded.dump → Contract.load tree' path' = .ok loaded) ∧
    ∀ (tree tree' : FileTree) (path path' : Path) (loaded : Contract),
      Contract.load tree path = .ok loaded → loaded.Storable → Contract.isYaml path' = false →
      tree'.readText path' = .ok loaded.dump →
      Contract.load tree' path' = .ok loaded.withoutNulls ∧
      (Contract.isYaml path = false → loaded.withoutNulls = loaded) := by
  refine ⟨fun contract h => ⟨Contract.readJson_dump h, ?_⟩,
    fun job tree after written report h hends => ?_,
    fun tree tree' path path' loaded hload h hpath' hread' => ⟨?_, ?_⟩⟩
  · rw [Contract.readJson_dump h, Except.ok.injEq, Contract.withoutNulls_eq_self_iff]
  · obtain ⟨files, assembled, hfiles, hassembled, hstorable, hdumps⟩ := hends.load_dump h
    refine ⟨files, assembled, hfiles, hassembled, fun path hpath hjson hapart =>
      ⟨_, hdumps path hpath hjson hapart, rfl, Contract.handlers_reloaded _,
        fun tree' path' hpath' hread' => ?_⟩⟩
    rw [Contract.load_dump hstorable.reloaded hpath' hread', Contract.reloaded_reloaded]
  · rw [Contract.load_dump h hpath' hread', ← Contract.withoutNulls_normalize,
      Contract.normalize_of_load hload]
  · exact fun hpath => Contract.withoutNulls_of_load hpath hload

def limitModel : Json := .obj [("maximum", .real ⟨0x3FF8000000000000⟩), ("type", .str "number")]

def listHandler : HandlerSpec where
  method := .get
  path := "list"
  openapi := some .null
  validation := some { query := some .null, output := some limitModel }

def userController : ControllerSpec where
  pathPrefix := "users"
  handlers := Dict.ofList [("list", listHandler)]

/-- Names are missing, free data is null, and one of the segments is not emitted. -/
def usersContract : Contract :=
  ⟨Dict.ofList [("internal", { emit := false }),
    ("users", { controllers := Dict.ofList [("UserRpc", userController)] })]⟩

def usersJob : Job :=
  { greetingJob .standard with
    contract := usersContract
    segments := [{ name := "users" }, { name := "internal" }] }

def usersAssembled : Contract :=
  ⟨Dict.ofList [("internal", { name := "internal", emit := false }),
    ("users", { name := "users", controllers := Dict.ofList [("UserRpc", userController)] })]⟩

def usersLoaded : Contract :=
  ⟨Dict.ofList [("users", { name := "users", controllers := Dict.ofList [("UserRpc",
    { userController with
      name := "UserRpc"
      handlers := Dict.ofList [("list", { listHandler with
        openapi := none
        validation := some { output := some limitModel } })] })] })]⟩

theorem limitModel_storable : limitModel.Storable 121 := by
  have hnumber : Json.ReadsBack ⟨0x3FF8000000000000⟩ := by decide
  exact ⟨by decide, List.pairwise_pair.mpr (by decide), hnumber, trivial, trivial⟩

theorem usersContract_storable : usersContract.Storable := by
  have hhandlers : usersContract.handlers = [⟨"users", "UserRpc", "list", listHandler⟩] :=
    rfl
  intro placed hplaced
  rw [hhandlers, List.mem_singleton] at hplaced
  subst hplaced
  constructor
  · rintro value hvalue
    cases hvalue
    exact trivial
  · rintro models hmodels part model hmodel
    cases hmodels
    cases part with
    | query =>
        cases hmodel
        exact trivial
    | output =>
        cases hmodel
        exact limitModel_storable
    | _ => cases hmodel

def usersAfter : FileTree := (usersJob.generate greetingTree).1

def dumpTree (contract : Contract) : FileTree :=
  ⟨[(["dump.json"], .file (.text contract.dump))], []⟩

/-- The handler is loaded without what is null, the segment that is not emitted is not loaded, and
the names are those of the keys. -/
theorem dump_reloads_users :
    Contract.readJson usersContract.dump = .ok usersContract.withoutNulls ∧
      Contract.readJson usersContract.dump ≠ .ok usersContract ∧
      Contract.load usersAfter ⟨"out/full-schema.json"⟩ = .ok usersLoaded ∧
      Contract.load (dumpTree usersLoaded) ⟨"dump.json"⟩ = .ok usersLoaded ∧
      usersLoaded.withoutNulls = usersLoaded := by
  have hrun : (usersJob.generate greetingTree).2 = .ok ⟨true, ⟨"out"⟩, ["x"]⟩ := by decide +kernel
  have husers : usersJob.assembled = .ok usersAssembled := by decide +kernel
  have hreloaded : usersAssembled.emitted.withoutNulls.normalize = usersLoaded := by
    decide +kernel
  have htext : (dumpTree usersLoaded).readText ⟨"dump.json"⟩ = .ok usersLoaded.dump := by
    decide +kernel
  obtain ⟨hread, hsame⟩ := dump_reloads.1 usersContract usersContract_storable
  obtain ⟨written, hends⟩ := generate_ends usersJob greetingTree
  rw [hrun] at hends
  obtain ⟨files, assembled, hfiles, hassembled, hdumps⟩ :=
    dump_reloads.2.1 usersJob greetingTree _ _ _ usersContract_storable hends
  cases greetingJob_files.symm.trans hfiles
  cases husers.symm.trans hassembled
  have hout : usersAfter.Leads (usersJob.options.pathOf greetingFile) ["out", "x"]
      (.text "hello") := by
    unfold Leads
    decide +kernel
  have hdump : usersAfter.Leads ⟨"out/full-schema.json"⟩ ["out", "full-schema.json"]
      (.text usersAssembled.emitted.dump) := by
    unfold Leads
    decide +kernel
  obtain ⟨loaded, hload, hloaded, -, hagain⟩ := hdumps ⟨"out/full-schema.json"⟩
    (by decide +kernel) (by decide +kernel) fun file hfile _ => by
      obtain rfl := List.mem_singleton.mp hfile
      exact hdump.apart hout (by decide)
  rw [hreloaded] at hloaded
  subst hloaded
  have hstorable : usersLoaded.Storable :=
    hreloaded ▸ (usersContract_storable.assemble husers).emitted.reloaded
  have hload' := dump_reloads.2.2 usersAfter (dumpTree usersLoaded) _ _ usersLoaded hload
    hstorable (by decide +kernel) htext
  refine ⟨hread, fun heq => ?_, hload, hagain _ _ (by decide +kernel) htext,
    hload'.2 (by decide +kernel)⟩
  have hnull := hsame.mp heq ⟨"users", "UserRpc", "list", listHandler⟩ (by decide +kernel)
  exact hnull.1 rfl

end Generation

end RpcContract
