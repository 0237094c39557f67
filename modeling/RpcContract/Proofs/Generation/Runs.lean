import Mathlib.Data.List.Pairwise
import RpcContract.Proofs.Generation.CarryOut
import RpcContract.Proofs.Generation.Compared
import RpcContract.Proofs.Generation.Sources

/-!
# The parts of a run

A run that succeeds has resolved its selection, assembled the contract, rendered every file and
carried out its plan.
-/

namespace RpcContract.Generation

open FileTree

def contextOf (assembled : Contract) (segments : List Segment) (options : Options)
    (banner : String) : Client.Context :=
  .ofSegments options.apiRoot options.imports assembled (withMetadata segments options.metadata)
    banner

def textOf (tree : FileTree) (contract : Contract) (segments : List Segment) (options : Options)
    (banner : String) (file : TemplateFile) (format : Formatting := Formatter.format) :
    Except Error String := do
  let assembled ← (contract.assemble (segments.map (·.name))).mapError .missingSegment
  file.renderedText tree (contextOf assembled segments options banner) options.formatter format

namespace Options

def pathOf (options : Options) (file : TemplateFile) : Path := options.outDir.join file.out

/-- Where a run writes the contract itself. -/
def dumpsOf (options : Options) (files : List TemplateFile) : List Path :=
  dumpPaths options.outDir options.dump (files.map fun file => (file.out, file.dump))

end Options

/-- The plan of a run that gives these outputs, changed or not. -/
def Plan.ofOutputs (options : Options) (files : List TemplateFile) (assembled : Contract)
    (outputs : List Output) : Plan where
  outDir := options.outDir
  dumps := options.dumpsOf files
  dumpText := assembled.emitted.dump
  outputs := outputs.filter (·.changed)

def Renders (tree : FileTree) (context : Client.Context) (options : Options)
    (files : List TemplateFile) (outputs : List Output)
    (format : Formatting := Formatter.format) : Prop :=
  List.Forall₂ (fun file output =>
    file.render tree context options.formatter options.outDir format = .ok output) files outputs

variable {tree after : FileTree} {contract : Contract} {segments : List Segment}
  {selection : Selection} {options : Options} {banner : String} {files : List TemplateFile}
  {format : Formatting}

theorem render_eq_ok_iff {file : TemplateFile} {context : Client.Context}
    {formatter : Option (List String)} {outDir : Path} {output : Output} :
    file.render tree context formatter outDir format = .ok output ↔
      ∃ text existing, file.renderedText tree context formatter format = .ok text ∧
        readExisting tree (outDir.join file.out) = .ok existing ∧
        output = ⟨file.name, outDir.join file.out, text, shouldWrite existing text⟩ := by
  simp only [TemplateFile.render, bind_eq_ok_iff, pure, Except.pure, Except.ok.injEq]
  constructor
  · rintro ⟨text, htext, existing, hexisting, rfl⟩
    exact ⟨text, existing, htext, hexisting, rfl⟩
  · rintro ⟨text, existing, htext, hexisting, rfl⟩
    exact ⟨text, htext, existing, hexisting, rfl⟩

theorem plan_eq_ok_iff {plan : Plan} :
    Generation.plan tree contract segments selection options banner format = .ok plan ↔
      ∃ files assembled outputs, selection.resolve tree = .ok files ∧
        contract.assemble (segments.map (·.name)) = .ok assembled ∧
        Renders tree (contextOf assembled segments options banner) options files outputs format ∧
        plan = .ofOutputs options files assembled outputs := by
  simp only [Generation.plan, bind_eq_ok_iff, mapM_eq_ok_iff, mapError_eq_ok_iff, pure, Except.pure,
    Except.ok.injEq]
  constructor
  · rintro ⟨files, hfiles, assembled, hassembled, outputs, houtputs, rfl⟩
    exact ⟨files, assembled, outputs, hfiles, hassembled, houtputs, rfl⟩
  · rintro ⟨files, assembled, outputs, hfiles, hassembled, houtputs, rfl⟩
    exact ⟨files, hfiles, assembled, hassembled, outputs, houtputs, rfl⟩

theorem of_generate {report : Report}
    (h : generate tree contract segments selection options banner format = (after, .ok report)) :
    ∃ plan, Generation.plan tree contract segments selection options banner format = .ok plan ∧
      (plan.isEmpty = true ∧ after = tree ∨
        plan.isEmpty = false ∧ plan.carryOut tree = (after, .ok ())) := by
  unfold generate at h
  cases hplan : Generation.plan tree contract segments selection options banner format with
  | error e =>
      rw [hplan] at h
      cases h
  | ok plan =>
      rw [hplan] at h
      dsimp only at h
      refine ⟨plan, rfl, ?_⟩
      split at h
      · next hempty =>
          cases h
          exact .inl ⟨hempty, rfl⟩
      · next hempty =>
          refine .inr ⟨by simpa using hempty, ?_⟩
          rcases hcarried : plan.carryOut tree with ⟨result, e | ⟨⟩⟩
          · rw [hcarried] at h
            cases h
          · rw [hcarried] at h
            cases h
            rfl

theorem generate_of_carryOut {plan : Plan}
    (hplan : Generation.plan tree contract segments selection options banner format = .ok plan)
    (h : plan.isEmpty = false → plan.carryOut tree = (tree, .ok ())) :
    generate tree contract segments selection options banner format = (tree, .ok plan.report) := by
  unfold generate
  rw [hplan]
  dsimp only
  split
  · rfl
  · next hempty =>
      rw [h (by simpa using hempty)]
      rfl

theorem textOf_eq_ok_iff {file : TemplateFile} {text : String} {assembled : Contract}
    (hassembled : contract.assemble (segments.map (·.name)) = .ok assembled) :
    textOf tree contract segments options banner file format = .ok text ↔
      file.renderedText tree (contextOf assembled segments options banner) options.formatter
        format = .ok text := by
  rw [textOf, hassembled]
  rfl

/-! ## Rendered outputs -/

theorem Renders.of_mem {context : Client.Context} {outputs : List Output} {output : Output}
    (h : Renders tree context options files outputs format) (houtput : output ∈ outputs) :
    ∃ file ∈ files, ∃ text existing,
      file.renderedText tree context options.formatter format = .ok text ∧
      readExisting tree (options.pathOf file) = .ok existing ∧
      output = ⟨file.name, options.pathOf file, text, shouldWrite existing text⟩ := by
  obtain ⟨file, hfile, hrender⟩ := (mem_of_forall₂ h).2 output houtput
  exact ⟨file, hfile, render_eq_ok_iff.mp hrender⟩

theorem Renders.pairwise {context : Client.Context} {outputs : List Output} {R : Path → Path → Prop}
    (h : Renders tree context options files outputs format)
    (hfiles : files.Pairwise fun file other => R (options.pathOf file) (options.pathOf other)) :
    outputs.Pairwise fun output other => R output.path other.path := by
  have hpaths : outputs.map (·.path) = files.map options.pathOf := by
    clear hfiles
    induction h with
    | nil => rfl
    | cons hrender _ ih =>
        obtain ⟨text, existing, -, -, rfl⟩ := render_eq_ok_iff.mp hrender
        rw [List.map_cons, List.map_cons, ih]
        rfl
  rw [← List.pairwise_map (f := fun output : Output => output.path), hpaths]
  exact List.pairwise_map.mpr hfiles

theorem readText_of_unchanged {file : TemplateFile} {context : Client.Context}
    {formatter : Option (List String)} {outDir : Path} {output : Output}
    (h : file.render tree context formatter outDir format = .ok output)
    (hunchanged : output.changed = false) :
    ∃ existing, tree.readText output.path = .ok existing ∧
      comparedPart existing = comparedPart output.text := by
  obtain ⟨text, existing, -, hexisting, rfl⟩ := render_eq_ok_iff.mp h
  cases existing with
  | none => cases hunchanged
  | some existing =>
      refine ⟨existing, readExisting_eq_some_iff.mp hexisting, ?_⟩
      simpa [shouldWrite] using hunchanged

theorem Plan.Left.settled {context : Client.Context} {outputs : List Output} {assembled : Contract}
    (hleft : (Plan.ofOutputs options files assembled outputs).Left tree after)
    (houtputs : Renders tree context options files outputs format)
    (hapart : outputs.Pairwise fun output other => after.Apart output.path other.path)
    {output : Output} (houtput : output ∈ outputs)
    (hdumps : output.changed = false →
      ∀ path ∈ options.dumpsOf files, after.Apart path output.path) :
    ∃ existing, after.readText output.path = .ok existing ∧
      comparedPart existing = comparedPart output.text := by
  by_cases hwritten : output.changed = true
  · obtain ⟨location, hleads⟩ := hleft.outputs output (List.mem_filter.mpr ⟨houtput, hwritten⟩)
    exact ⟨output.text, readText_eq_ok_iff.mpr ⟨location, hleads⟩, rfl⟩
  -- The output was there before, with the text that counts, and nothing else is written to it.
  have hunchanged : output.changed = false := by simpa using hwritten
  obtain ⟨file, -, hrender⟩ := (mem_of_forall₂ houtputs).2 output houtput
  obtain ⟨existing, hread, hsame⟩ := readText_of_unchanged hrender hunchanged
  obtain ⟨location, hleads⟩ := readText_eq_ok_iff.mp hread
  obtain ⟨entries, hgrows⟩ := hleft.grows
  obtain ⟨final, hfinal⟩ := hgrows.leads hleads
  have hnode : after.node? location = some (.file (.text existing)) := by
    refine hleft.others location _ hleads.node?_eq fun path hpath content hcontent => ?_
    rcases List.mem_append.mp hpath with hdump | hchangedPath
    · exact hdumps hunchanged path hdump location content final hcontent hfinal
    · obtain ⟨other, hother, rfl⟩ := List.mem_map.mp hchangedPath
      obtain ⟨hmem, hotherWritten⟩ := List.mem_filter.mp hother
      have hne : other ≠ output := by
        rintro rfl
        exact hwritten hotherWritten
      have hotherApart := related_of_pairwise (R := after.Apart) Apart.symm hapart hmem houtput hne
      exact hotherApart location content final hcontent hfinal
  exact ⟨existing, readText_eq_ok_iff.mpr ⟨location, hgrows.leads_of_node?_eq hleads hnode⟩, hsame⟩

end RpcContract.Generation
