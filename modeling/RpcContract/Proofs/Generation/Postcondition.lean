import RpcContract.Proofs.Files.Closed
import RpcContract.Proofs.Generation.Endings
import RpcContract.Proofs.Generation.Outputs

/-!
# What a successful run leaves

In a tree without links a successful run leaves the text of every output that it writes, and of
every other one a text that counts as its own, unless a dump leads to the file.  Every dump holds
the contract, unless an output that is written leads to its file.
-/

namespace RpcContract.Generation

open FileTree

variable {job : Job} {tree after : FileTree} {assembled : Contract} {files : List TemplateFile}
  {file : TemplateFile} {outputs : List Output} {output : Output} {written : List Path}
  {report : Report}

/-- The output of a file is missing, or counts as another text. -/
def Job.Stale (job : Job) (tree : FileTree) (file : TemplateFile) : Prop :=
  ∃ text, job.textOf tree file = .ok text ∧
    (tree.readText (job.options.pathOf file) = .error .notFound ∨
      ∃ existing, tree.readText (job.options.pathOf file) = .ok existing ∧
        comparedPart existing ≠ comparedPart text)

theorem of_render (hassembled : job.assembled = .ok assembled)
    (hrender : job.render tree assembled file = .ok output) :
    output.name = file.name ∧ output.path = job.options.pathOf file ∧
      job.textOf tree file = .ok output.text ∧ (output.changed = true ↔ job.Stale tree file) := by
  obtain ⟨text, existing, htext, hexisting, rfl⟩ := render_eq_ok_iff.mp hrender
  have htextOf : job.textOf tree file = .ok text := (textOf_eq_ok_iff hassembled).mpr htext
  refine ⟨rfl, rfl, htextOf, (shouldWrite_iff hexisting).trans ⟨fun h => ⟨text, htextOf, h⟩, ?_⟩⟩
  rintro ⟨text', htext', h⟩
  cases htextOf.symm.trans htext'
  exact h

/-- What a run leaves at its outputs and dumps. -/
structure Job.Settled (job : Job) (before after : FileTree) (files : List TemplateFile)
    (assembled : Contract) : Prop where
  stale : ∀ file ∈ files, job.Stale before file → ∃ text,
    job.textOf before file = .ok text ∧ after.readText (job.options.pathOf file) = .ok text
  kept : ∀ file ∈ files, ¬ job.Stale before file →
    (∀ path ∈ job.options.dumpsOf files, after.Apart path (job.options.pathOf file)) →
    ∃ text existing, job.textOf before file = .ok text ∧
      after.readText (job.options.pathOf file) = .ok existing ∧
      comparedPart existing = comparedPart text
  dumps : ∀ path ∈ job.options.dumpsOf files,
    (∀ file ∈ files, job.Stale before file → after.Apart path (job.options.pathOf file)) →
    after.readText path = .ok assembled.emitted.dump

/-- An output that has been removed is written again. -/
theorem Job.Settled.restores {place : Location} {content : Content} {text : String}
    (h : job.Settled (tree.remove place) after files assembled) (hclosed : tree.Closed)
    (hleads : tree.Leads (job.options.pathOf file) place content) (hfile : file ∈ files)
    (htext : job.textOf (tree.remove place) file = .ok text) :
    after.readText (job.options.pathOf file) = .ok text := by
  have hstale : job.Stale (tree.remove place) file :=
    ⟨text, htext, .inl (hclosed.readText_remove hleads)⟩
  obtain ⟨text', htext', hread⟩ := h.stale file hfile hstale
  cases htext.symm.trans htext'
  exact hread

/-- A dump holds the contract, unless an output that is written leads to its file. -/
theorem Plan.Carried.readText_dump {path : Path} (hassembled : job.assembled = .ok assembled)
    (houtputs : Renders tree (job.context assembled) job.options files outputs job.format)
    (hcarried : (Plan.ofOutputs job.options files assembled outputs).Carried tree after written)
    (hpath : path ∈ job.options.dumpsOf files)
    (hapart : ∀ file ∈ files, job.Stale tree file →
      after.Apart path (job.options.pathOf file)) :
    after.readText path = .ok assembled.emitted.dump := by
  obtain ⟨-, hleads⟩ := hcarried.dump hpath fun output houtput => by
    obtain ⟨hmem, hchanged⟩ := List.mem_filter.mp houtput
    obtain ⟨file, hfile, hrender⟩ := (mem_of_forall₂ houtputs).2 output hmem
    obtain ⟨-, hout, -, hiff⟩ := of_render hassembled hrender
    exact hout ▸ hapart file hfile (hiff.mp hchanged)
  exact readText_eq_ok_iff.mpr hleads

/-- A plan that is carried out settles outputs and dumps, if the outputs are different files. -/
theorem Plan.Carried.settled (hassembled : job.assembled = .ok assembled)
    (houtputs : Renders tree (job.context assembled) job.options files outputs job.format)
    (hcarried : (Plan.ofOutputs job.options files assembled outputs).Carried tree after written)
    (hapart : files.Pairwise fun file other =>
      after.Apart (job.options.pathOf file) (job.options.pathOf other)) :
    job.Settled tree after files assembled := by
  have hpairs := houtputs.pairwise (R := after.Apart) hapart
  have hleft := hcarried.left (hpairs.filter _)
  refine ⟨fun file hfile hstale => ?_, fun file hfile hstale hdumps => ?_,
    fun path hpath hstale => hcarried.readText_dump hassembled houtputs hpath hstale⟩
  · obtain ⟨output, houtput, hrender⟩ := (mem_of_forall₂ houtputs).1 file hfile
    obtain ⟨-, hout, htext, hchanged⟩ := of_render hassembled hrender
    obtain ⟨location, hleads⟩ :=
      hleft.outputs output (List.mem_filter.mpr ⟨houtput, hchanged.mpr hstale⟩)
    exact ⟨output.text, htext, readText_eq_ok_iff.mpr ⟨location, hout ▸ hleads⟩⟩
  · obtain ⟨output, houtput, hrender⟩ := (mem_of_forall₂ houtputs).1 file hfile
    obtain ⟨-, hout, htext, -⟩ := of_render hassembled hrender
    obtain ⟨existing, hexisting, hsame⟩ := hleft.settled houtputs hpairs houtput
      fun _ path hpath => hout ▸ hdumps path hpath
    exact ⟨output.text, existing, htext, hout ▸ hexisting, hsame⟩

/-- Without links a run that succeeds settles its outputs and dumps, in whatever order its tasks go
on. -/
theorem successful_run_settles (hplain : tree.Plain)
    (hends : job.Ends tree after written (.ok report)) :
    ∃ files assembled, job.selection.resolve tree = .ok files ∧ job.assembled = .ok assembled ∧
      job.Settled tree after files assembled := by
  obtain ⟨files, assembled, outputs, hfiles, hassembled, houtputs, -, hcarried⟩ := hends.carried
  have hparted := resolve_parted job.options hplain
    (hcarried.linkless hplain.linkless) hfiles
  exact ⟨files, assembled, hfiles, hassembled,
    hcarried.settled hassembled houtputs (hparted.imp Parted.apart)⟩

def greetingTree : FileTree := ⟨[(["x"], .file (.text "hello"))], []⟩

def greetingFile : TemplateFile := ⟨"x", "x", ⟨"x"⟩, .disabled, .file ⟨"x"⟩⟩

def greetingJob (dump : DumpTarget) : Job where
  contract := {}
  segments := []
  selection := ⟨["x"], Dict.ofList [("x", ⟨⟨"x"⟩, .disabled⟩)]⟩
  options := { outDir := ⟨"out"⟩, dump := dump }
  banner := "1"
  format := Formatter.format

theorem greetingTree_plain : greetingTree.Plain := by
  constructor
  · simp [greetingTree]
  · decide +kernel

def greetingAfter : FileTree :=
  ⟨[(["x"], .file (.text "hello")), (["out"], .dir),
    (["out", "full-schema.json"], .file (.text "{}")), (["out", "x"], .file (.text "hello"))], []⟩

theorem greetingJob_run : (greetingJob .standard).generate greetingTree =
    (greetingAfter, .ok ⟨true, ⟨"out"⟩, ["x"]⟩) := by decide +kernel

theorem greetingJob_files : (greetingJob .standard).selection.resolve greetingTree =
    .ok [greetingFile] := by decide +kernel

theorem greetingFile_text : (greetingJob .standard).textOf greetingTree greetingFile =
    .ok "hello" := by decide +kernel

theorem greetingFile_stale : (greetingJob .standard).Stale greetingTree greetingFile :=
  ⟨"hello", greetingFile_text, .inl (by decide +kernel)⟩

theorem successful_run_settles_greeting :
    (greetingJob .standard).generate greetingTree = (greetingAfter, .ok ⟨true, ⟨"out"⟩, ["x"]⟩) ∧
      greetingAfter.readText ⟨"out/x"⟩ = .ok "hello" ∧
      greetingAfter.readText ⟨"out/full-schema.json"⟩ = .ok "{}" := by
  obtain ⟨written, hends⟩ := generate_ends (greetingJob .standard) greetingTree
  rw [greetingJob_run] at hends
  obtain ⟨files, assembled, hfiles, hassembled, hsettled⟩ :=
    successful_run_settles greetingTree_plain hends
  cases greetingJob_files.symm.trans hfiles
  cases hassembled
  have hout : greetingAfter.Leads ((greetingJob .standard).options.pathOf greetingFile)
      ["out", "x"] (.text "hello") := by
    unfold Leads
    decide +kernel
  have hdump : greetingAfter.Leads ⟨"out/full-schema.json"⟩ ["out", "full-schema.json"]
      (.text "{}") := by
    unfold Leads
    decide +kernel
  refine ⟨greetingJob_run, ?_, ?_⟩
  · obtain ⟨text, htext, hread⟩ := hsettled.stale greetingFile (by simp) greetingFile_stale
    cases greetingFile_text.symm.trans htext
    exact hread
  · refine hsettled.dumps ⟨"out/full-schema.json"⟩ (by decide +kernel) fun file hfile _ => ?_
    obtain rfl := List.mem_singleton.mp hfile
    exact hdump.apart hout (by decide)

/-- A dump may have the path of an output.  The output is written last, and the contract is lost. -/
theorem successful_run_overwrites_dump :
    ¬ ∀ (job : Job) (tree after : FileTree) (written : List Path) (report : Report)
      (files : List TemplateFile) (assembled : Contract), tree.Plain →
      job.Ends tree after written (.ok report) → job.selection.resolve tree = .ok files →
      job.assembled = .ok assembled →
      (∀ file ∈ files, ∃ text existing, job.textOf tree file = .ok text ∧
        after.readText (job.options.pathOf file) = .ok existing ∧
        comparedPart existing = comparedPart text) ∧
      ∀ path ∈ job.options.dumpsOf files, after.readText path = .ok assembled.emitted.dump := by
  intro hall
  obtain ⟨written, hends⟩ := generate_ends (greetingJob (.file "x")) greetingTree
  have hrun : (greetingJob (.file "x")).generate greetingTree =
      (⟨[(["x"], .file (.text "hello")), (["out"], .dir),
        (["out", "x"], .file (.text "hello"))], []⟩, .ok ⟨true, ⟨"out"⟩, ["x"]⟩) := by
    decide +kernel
  rw [hrun] at hends
  have hresolve : (greetingJob (.file "x")).selection.resolve greetingTree =
      .ok [greetingFile] := by decide +kernel
  obtain ⟨-, hdumps⟩ := hall _ _ _ _ _ _ {} greetingTree_plain hends hresolve rfl
  have hdump := hdumps ⟨"out/x"⟩ (by decide +kernel)
  revert hdump
  decide +kernel

end RpcContract.Generation
