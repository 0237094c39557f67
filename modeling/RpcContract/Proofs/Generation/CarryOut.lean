import Mathlib.Data.List.Pairwise
import RpcContract.Generation.Plan
import RpcContract.Proofs.Files.Targets

/-!
# What a plan has done

A plan that has been carried out has made its directories, its dumps and its outputs, and has left
every other file as it was.  Dumps that are there already can be written again without a change.
-/

namespace RpcContract.Generation

open FileTree

variable {tree after : FileTree}

/-- A path can be written, and leads to a file with a text. -/
def HasText (tree : FileTree) (path : Path) (text : String) : Prop :=
  path.text.toList.getLast? ≠ some '/' ∧ ∃ location, tree.Leads path location (.text text)

theorem related_of_pairwise {R : Path → Path → Prop} {outputs : List Output} {output other : Output}
    (hsymm : ∀ {path other}, R path other → R other path)
    (h : outputs.Pairwise fun output other => R output.path other.path) (houtput : output ∈ outputs)
    (hother : other ∈ outputs) (hne : output ≠ other) : R output.path other.path := by
  have : Std.Symm fun output other : Output => R output.path other.path :=
    ⟨fun _ _ => hsymm⟩
  exact h.forall houtput hother hne

namespace Plan

theorem makeParents_ok {paths : List Path} (h : makeParents tree paths = (after, .ok ())) :
    ∃ entries, Grows tree entries after ∧ (∀ entry ∈ entries, entry.2 = .dir) ∧
      ∀ path ∈ paths, after.Ready path := by
  induction paths generalizing tree with
  | nil =>
      cases h
      exact ⟨[], .none _, by simp, by simp⟩
  | cons path rest ih =>
      unfold makeParents at h
      rcases hmake : tree.makeDirectories path with ⟨made, fault | ⟨⟩⟩
      · rw [hmake] at h
        cases h
      rw [hmake] at h
      obtain ⟨entries, hgrows, hentries, hready⟩ := makeDirectories_ok hmake
      obtain ⟨later, hlater, hdirectories, hrest⟩ := ih h
      refine ⟨_, hgrows.append hlater, fun entry hentry => ?_, fun other hother => ?_⟩
      · rcases List.mem_append.mp hentry with hfirst | hsecond
        · exact hentries entry hfirst
        · exact hdirectories entry hsecond
      · rcases List.mem_cons.mp hother with rfl | hother
        · exact hlater.ready hready
        · exact hrest other hother

theorem makeParents_of_ready {paths : List Path} (h : ∀ path ∈ paths, tree.Ready path) :
    makeParents tree paths = (tree, .ok ()) := by
  induction paths with
  | nil => rfl
  | cons path rest ih =>
      rw [makeParents, makeDirectories_of_ready (h path (by simp))]
      exact ih fun other hother => h other (by simp [hother])

theorem writeDumps_of_hasText {text : String} {paths : List Path}
    (h : ∀ path ∈ paths, HasText tree path text) :
    writeDumps text tree paths = (tree, .ok ()) := by
  induction paths with
  | nil => rfl
  | cons path rest ih =>
      obtain ⟨hslash, location, hleads⟩ := h path (by simp)
      rw [writeDumps, write_of_leads hslash hleads]
      exact ih fun other hother => h other (by simp [hother])

/-! ## The writes of a plan -/

theorem writeDumps_eq_ok_iff {text : String} {paths : List Path} :
    writeDumps text tree paths = (after, .ok ()) ↔ Writes tree (paths.map (·, text)) after := by
  induction paths generalizing tree with
  | nil =>
      refine ⟨fun h => ?_, fun h => ?_⟩
      · cases h
        exact .none _
      · cases h
        rfl
  | cons path rest ih =>
      rw [writeDumps]
      refine ⟨fun h => ?_, fun h => ?_⟩
      · cases hwrite : tree.write path (.text text) with
        | error fault =>
            rw [hwrite] at h
            cases h
        | ok written =>
            rw [hwrite] at h
            exact .write hwrite (ih.mp h)
      · cases h with
        | write hwrite hrest =>
            rw [hwrite]
            exact ih.mpr hrest

theorem writeOutputs_eq_ok_iff {outputs : List Output} :
    writeOutputs tree outputs = (after, .ok ()) ↔
      Writes tree (outputs.map fun output => (output.path, output.text)) after := by
  induction outputs generalizing tree with
  | nil =>
      refine ⟨fun h => ?_, fun h => ?_⟩
      · cases h
        exact .none _
      · cases h
        rfl
  | cons output rest ih =>
      rw [writeOutputs]
      refine ⟨fun h => ?_, fun h => ?_⟩
      · cases hwrite : tree.write output.path (.text output.text) with
        | error fault =>
            rw [hwrite] at h
            cases h
        | ok written =>
            rw [hwrite] at h
            exact .write hwrite (ih.mp h)
      · cases h with
        | write hwrite hrest =>
            rw [hwrite]
            exact ih.mpr hrest

def writes (plan : Plan) (order : List Output) : List (Path × String) :=
  plan.dumps.map (·, plan.dumpText) ++ order.map fun output => (output.path, output.text)

/-- The part of a plan before any file is written. -/
def prepare (plan : Plan) (tree : FileTree) : FileTree × Except Error Unit :=
  match tree.makeDirectories plan.outDir with
  | (tree, .error fault) => (tree, .error (.noOutputDirectory plan.outDir fault))
  | (tree, .ok ()) => makeParents tree (parentDirectories plan.paths)

theorem prepare_eq_ok_iff {plan : Plan} {made : FileTree} :
    plan.prepare tree = (made, .ok ()) ↔
      ∃ opened, tree.makeDirectories plan.outDir = (opened, .ok ()) ∧
        makeParents opened (parentDirectories plan.paths) = (made, .ok ()) := by
  unfold prepare
  rcases tree.makeDirectories plan.outDir with ⟨opened, fault | ⟨⟩⟩
  · simp
  · simp

theorem prepare_ok {plan : Plan} {made : FileTree} (h : plan.prepare tree = (made, .ok ())) :
    ∃ entries, Grows tree entries made ∧ (∀ entry ∈ entries, entry.2 = .dir) ∧
      made.Ready plan.outDir ∧ ∀ path ∈ parentDirectories plan.paths, made.Ready path := by
  obtain ⟨opened, hopened, hparents⟩ := prepare_eq_ok_iff.mp h
  obtain ⟨first, hgrows, hfirst, houtDir⟩ := makeDirectories_ok hopened
  obtain ⟨second, hlater, hsecond, hready⟩ := makeParents_ok hparents
  refine ⟨_, hgrows.append hlater, fun entry hentry => ?_, hlater.ready houtDir, hready⟩
  exact (List.mem_append.mp hentry).elim (hfirst entry) (hsecond entry)

theorem carryOut_eq (plan : Plan) (tree : FileTree) :
    plan.carryOut tree =
      match plan.prepare tree with
      | (made, .error error) => (made, .error error)
      | (made, .ok ()) =>
          match writeDumps plan.dumpText made plan.dumps with
          | (dumped, .error error) => (dumped, .error error)
          | (dumped, .ok ()) => writeOutputs dumped plan.outputs := by
  unfold carryOut prepare
  rcases tree.makeDirectories plan.outDir with ⟨opened, fault | ⟨⟩⟩
  · rfl
  · rfl

theorem carryOut_eq_ok_iff {plan : Plan} :
    plan.carryOut tree = (after, .ok ()) ↔
      ∃ made, plan.prepare tree = (made, .ok ()) ∧
        Writes made (plan.writes plan.outputs) after := by
  rw [carryOut_eq]
  constructor
  · intro h
    rcases hprepare : plan.prepare tree with ⟨made, error | ⟨⟩⟩
    · rw [hprepare] at h
      cases h
    rw [hprepare] at h
    dsimp only at h
    rcases hdumps : writeDumps plan.dumpText made plan.dumps with ⟨dumped, error | ⟨⟩⟩
    · rw [hdumps] at h
      cases h
    rw [hdumps] at h
    exact ⟨made, rfl, (writeDumps_eq_ok_iff.mp hdumps).append (writeOutputs_eq_ok_iff.mp h)⟩
  · rintro ⟨made, hprepare, hwrites⟩
    obtain ⟨dumped, hdumps, houtputs⟩ := hwrites.split
    rw [hprepare]
    dsimp only
    rw [writeDumps_eq_ok_iff.mpr hdumps]
    exact writeOutputs_eq_ok_iff.mpr houtputs

/-! ## A plan that has been carried out -/

/-- The directories and the dumps of a plan are made, and its outputs written in some order. -/
def Finished (plan : Plan) (before after : FileTree) (order : List Output) : Prop :=
  order.Perm plan.outputs ∧
    ∃ made, plan.prepare before = (made, .ok ()) ∧ Writes made (plan.writes order) after

namespace Finished

variable {plan : Plan} {order : List Output}

theorem of_carryOut (h : plan.carryOut tree = (after, .ok ())) :
    plan.Finished tree after plan.outputs := ⟨.refl _, carryOut_eq_ok_iff.mp h⟩

theorem grows (h : plan.Finished tree after order) :
    ∃ made directories files, Grows tree directories made ∧ Grows made files after ∧
      (∀ entry ∈ directories, entry.2 = .dir) ∧
      ∀ entry ∈ files, ∃ content, entry.2 = .file content := by
  obtain ⟨-, made, hprepare, hwrites⟩ := h
  obtain ⟨directories, hmade, hdirectories, -⟩ := prepare_ok hprepare
  obtain ⟨files, hgrows, hfiles⟩ := hwrites.grows
  exact ⟨made, directories, files, hmade, hgrows, hdirectories, hfiles⟩

theorem ready (h : plan.Finished tree after order) :
    after.Ready plan.outDir ∧ ∀ path ∈ parentDirectories plan.paths, after.Ready path := by
  obtain ⟨-, made, hprepare, hwrites⟩ := h
  obtain ⟨-, -, -, houtDir, hparents⟩ := prepare_ok hprepare
  obtain ⟨files, hgrows, -⟩ := hwrites.grows
  exact ⟨hgrows.ready houtDir, fun path hpath => hgrows.ready (hparents path hpath)⟩

theorem mem_order (h : plan.Finished tree after order) {output : Output} :
    output ∈ order ↔ output ∈ plan.outputs := h.1.mem_iff

/-- An output has its text if no other one leads to the same file. -/
theorem output (h : plan.Finished tree after order) {output : Output}
    (houtput : output ∈ plan.outputs)
    (hapart : ∀ other ∈ plan.outputs, other ≠ output → after.Apart other.path output.path) :
    output.path.text.toList.getLast? ≠ some '/' ∧
      ∃ location, after.Leads output.path location (.text output.text) := by
  obtain ⟨made, hprepare, hwrites⟩ := h.2
  obtain ⟨dumped, hdumps, houtputs⟩ := hwrites.split
  have hwrite : (output.path, output.text) ∈
      order.map fun output => (output.path, output.text) :=
    List.mem_map.mpr ⟨output, h.mem_order.mpr houtput, rfl⟩
  obtain ⟨location, text, htarget, hleads⟩ := houtputs.leads hwrite
  refine ⟨(houtputs.writable hwrite).1, location, ?_⟩
  rcases houtputs.node? location with ⟨write, hmem, hgoes, hnode⟩ | ⟨hnone, -⟩
  · obtain ⟨other, hother, rfl⟩ := List.mem_map.mp hmem
    have hlast := (houtputs.target_iff.mp hgoes).leads hnode
    by_cases hsame : other = output
    · exact hsame ▸ hlast
    · exact absurd hleads (hapart other (h.mem_order.mp hother) hsame location _ _ hlast)
  · exact absurd htarget (hnone _ hwrite)

/-- A dump has its text if no output leads to the same file.  All dumps have one text, so that a
later one over an earlier one does no harm. -/
theorem dump (h : plan.Finished tree after order) {path : Path} (hpath : path ∈ plan.dumps)
    (hapart : ∀ output ∈ plan.outputs, after.Apart path output.path) :
    HasText after path plan.dumpText := by
  obtain ⟨made, hprepare, hwrites⟩ := h.2
  have hwrite : (path, plan.dumpText) ∈ plan.writes order :=
    List.mem_append_left _ (List.mem_map.mpr ⟨path, hpath, rfl⟩)
  obtain ⟨location, text, htarget, hleads⟩ := hwrites.leads hwrite
  refine ⟨(hwrites.writable hwrite).1, location, ?_⟩
  rcases hwrites.node? location with ⟨write, hmem, hgoes, hnode⟩ | ⟨hnone, -⟩
  · have hlast := (hwrites.target_iff.mp hgoes).leads hnode
    rcases List.mem_append.mp hmem with hdump | hlater
    · obtain ⟨other, hother, rfl⟩ := List.mem_map.mp hdump
      exact (hwrites.target_iff.mp htarget).leads hnode
    · obtain ⟨output, houtput, rfl⟩ := List.mem_map.mp hlater
      exact absurd hlast (hapart output (h.mem_order.mp houtput) location _ _ hleads)
  · exact absurd htarget (hnone _ hwrite)

theorem mem_paths (h : plan.Finished tree after order) {write : Path × String}
    (hwrite : write ∈ plan.writes order) : write.1 ∈ plan.paths := by
  rcases List.mem_append.mp hwrite with hdump | hlater
  · obtain ⟨path, hpath, rfl⟩ := List.mem_map.mp hdump
    exact List.mem_append_left _ hpath
  · obtain ⟨output, houtput, rfl⟩ := List.mem_map.mp hlater
    exact List.mem_append_right _ (List.mem_map.mpr ⟨output, h.mem_order.mp houtput, rfl⟩)

theorem others (h : plan.Finished tree after order) {location : Location}
    (hothers : ∀ path ∈ plan.paths, ∀ content, ¬ after.Leads path location content)
    (content : Content) :
    after.node? location = some (.file content) ↔ tree.node? location = some (.file content) := by
  obtain ⟨made, hprepare, hwrites⟩ := h.2
  obtain ⟨directories, hmade, hdirectories, -⟩ := prepare_ok hprepare
  rcases hwrites.node? location with ⟨write, hmem, hgoes, hnode⟩ | ⟨-, hnode⟩
  · have hlast := (hwrites.target_iff.mp hgoes).leads hnode
    exact absurd hlast (hothers write.1 (h.mem_paths hmem) _)
  · rw [hnode]
    exact hmade.node?_file_iff hdirectories

end Finished

/-- What a plan leaves whose outputs lead to different files. -/
structure Left (plan : Plan) (before after : FileTree) : Prop where
  grows : ∃ entries, Grows before entries after
  outputs : ∀ output ∈ plan.outputs,
    ∃ location, after.Leads output.path location (.text output.text)
  others : ∀ location content, before.node? location = some (.file content) →
    (∀ path ∈ plan.paths, ∀ content', ¬ after.Leads path location content') →
    after.node? location = some (.file content)

/-- What a plan leaves whose dumps lead to other files than its outputs. -/
structure Done (plan : Plan) (before after : FileTree) : Prop extends plan.Left before after where
  dumps : ∀ path ∈ plan.dumps, HasText after path plan.dumpText

theorem Left.of_isEmpty {plan : Plan} (h : plan.isEmpty = true) : plan.Left tree tree := by
  simp only [isEmpty, Bool.and_eq_true, List.isEmpty_iff] at h
  exact {
    grows := ⟨[], .none _⟩
    outputs := by simp [h.2]
    others := fun _ _ hnode _ => hnode }

theorem Done.of_isEmpty {plan : Plan} (h : plan.isEmpty = true) : plan.Done tree tree where
  toLeft := .of_isEmpty h
  dumps := by
    simp only [isEmpty, Bool.and_eq_true, List.isEmpty_iff] at h
    simp [h.1]

theorem Finished.left {plan : Plan} {order : List Output} (h : plan.Finished tree after order)
    (houtputs : plan.outputs.Pairwise fun output other => after.Apart output.path other.path) :
    plan.Left tree after := by
  obtain ⟨made, directories, files, hmade, hwritten, -⟩ := h.grows
  refine ⟨⟨_, hmade.append hwritten⟩, fun output houtput => ?_, ?_⟩
  · exact (h.output houtput fun other hother hne =>
      related_of_pairwise Apart.symm houtputs hother houtput hne).2
  · exact fun location content hnode hothers => (h.others hothers content).mpr hnode

/-- Outputs that lead to different files, also from those of the dumps, are all there in the end,
and so are the directories. -/
theorem carryOut_ok {plan : Plan} (h : plan.carryOut tree = (after, .ok ()))
    (houtputs : plan.outputs.Pairwise fun output other => after.Apart output.path other.path)
    (hdumps : ∀ path ∈ plan.dumps, ∀ output ∈ plan.outputs, after.Apart path output.path) :
    plan.Done tree after ∧ after.Ready plan.outDir ∧
      ∀ path ∈ parentDirectories plan.paths, after.Ready path := by
  have hfinished := Finished.of_carryOut h
  exact ⟨⟨hfinished.left houtputs, fun path hpath => hfinished.dump hpath (hdumps path hpath)⟩,
    hfinished.ready⟩

theorem carryOut_of_hasText {plan : Plan} (houtputs : plan.outputs = [])
    (houtDir : tree.Ready plan.outDir)
    (hparents : ∀ path ∈ parentDirectories plan.paths, tree.Ready path)
    (hdumps : ∀ path ∈ plan.dumps, HasText tree path plan.dumpText) :
    plan.carryOut tree = (tree, .ok ()) := by
  unfold carryOut
  rw [makeDirectories_of_ready houtDir]
  dsimp only
  rw [makeParents_of_ready hparents]
  dsimp only
  rw [writeDumps_of_hasText hdumps, houtputs]
  rfl

end Plan

end RpcContract.Generation
