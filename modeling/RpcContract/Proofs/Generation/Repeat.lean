import Mathlib.Data.List.Pairwise
import RpcContract.Proofs.Files.Components
import RpcContract.Proofs.Generation.Runs

/-!
# Running twice

A second run of the same inputs finds its outputs as the first run has left them, although every
banner is another one, and changes no file.
-/

namespace RpcContract.Generation

open FileTree

variable {tree after : FileTree} {contract : Contract} {segments : List Segment}
  {selection : Selection} {options : Options} {banner : String} {files : List TemplateFile}

/-- Different outputs lead to different files, also from those of the dumps. -/
structure Separate (options : Options) (files : List TemplateFile) (tree : FileTree) : Prop where
  outputs : ∀ file ∈ files, ∀ other ∈ files, file.out ≠ other.out →
    tree.Apart (options.pathOf file) (options.pathOf other)
  dumps : ∀ path ∈ options.dumpsOf files, ∀ file ∈ files, tree.Apart path (options.pathOf file)

/-- A run leaves the templates that it reads as they were, and the directories of those that are
given by a directory. -/
structure Spares (selection : Selection) (files : List TemplateFile) (before after : FileTree) :
    Prop where
  sources : ∀ file ∈ files, ∀ path location content, file.source = .file path →
    before.Leads path location content → after.node? location = before.node? location
  overrides : ∀ entry ∈ selection.overrides.toList, ∀ location,
    before.find true entry.2.path = .ok (.node location .dir) → before.SameBelow after location

/-- Texts with one banner are those with another one but for the first line. -/
def SameButBanner (tree : FileTree) (contract : Contract) (segments : List Segment)
    (options : Options) (files : List TemplateFile) (banner banner' : String)
    (format : Formatting := Formatter.format) : Prop :=
  ∀ file ∈ files, ∀ text, textOf tree contract segments options banner file format = .ok text →
    ∃ text', textOf tree contract segments options banner' file format = .ok text' ∧
      afterFirstLine text'.toList = afterFirstLine text.toList

section FirstRun

variable {context : Client.Context} {outputs : List Output} {format : Formatting}

theorem outputs_apart
    (houtputs : Renders tree context options files outputs format)
    (hpairs : files.Pairwise fun file other => file.out ≠ other.out)
    (hseparate : Separate options files after) :
    outputs.Pairwise fun output other => after.Apart output.path other.path :=
  houtputs.pairwise (R := after.Apart) (hpairs.imp_of_mem fun hfile hother hout =>
    hseparate.outputs _ hfile _ hother hout)

/-- What a first run leaves at the output of a file counts as the text of the file, whether it was
written or was there before. -/
theorem Plan.Done.settled {assembled : Contract}
    (hdone : (Plan.ofOutputs options files assembled outputs).Done tree after)
    (houtputs : Renders tree context options files outputs format)
    (hpairs : files.Pairwise fun file other => file.out ≠ other.out)
    (hseparate : Separate options files after) {file : TemplateFile} (hfile : file ∈ files) :
    ∃ text existing, file.renderedText tree context options.formatter format = .ok text ∧
      readExisting after (options.pathOf file) = .ok (some existing) ∧
      comparedPart existing = comparedPart text := by
  obtain ⟨output, houtput, hrender⟩ := (mem_of_forall₂ houtputs).1 file hfile
  obtain ⟨text, existing, htext, hexisting, rfl⟩ := render_eq_ok_iff.mp hrender
  obtain ⟨final, hfinal, hsame⟩ := hdone.toLeft.settled houtputs
    (outputs_apart houtputs hpairs hseparate) houtput
    fun _ path hpath => hseparate.dumps path hpath file hfile
  exact ⟨text, final, htext, readExisting_eq_some_iff.mpr hfinal, hsame⟩

end FirstRun

/-! ## Directories of more paths -/

theorem parentDirectories_append {path : Path} {paths : List Path} (more : List Path)
    (h : path ∈ parentDirectories paths) : path ∈ parentDirectories (paths ++ more) := by
  unfold parentDirectories at h ⊢
  rw [List.filterMap_append, List.filter_append]
  exact Path.mem_sortDistinct_append _ h

/-! ## The second run -/

theorem generate_done {report : Report} {format : Formatting}
    (hrun : generate tree contract segments selection options banner format = (after, .ok report))
    (hfiles : selection.resolve tree = .ok files) (hseparate : Separate options files after) :
    ∃ assembled outputs, contract.assemble (segments.map (·.name)) = .ok assembled ∧
      Renders tree (contextOf assembled segments options banner) options files outputs format ∧
      let plan := Plan.ofOutputs options files assembled outputs
      plan.Done tree after ∧
      (plan.isEmpty = false → after.Ready plan.outDir ∧
        ∀ path ∈ parentDirectories plan.paths, after.Ready path) := by
  obtain ⟨plan, hplan, hcarried⟩ := of_generate hrun
  obtain ⟨files', assembled, outputs, hfiles', hassembled, houtputs, rfl⟩ :=
    plan_eq_ok_iff.mp hplan
  obtain rfl : files' = files := Except.ok.inj (hfiles'.symm.trans hfiles)
  refine ⟨assembled, outputs, hassembled, houtputs, ?_⟩
  rcases hcarried with ⟨hempty, rfl⟩ | ⟨hnonempty, hcarried⟩
  · exact ⟨.of_isEmpty hempty, fun hnonempty => by simp [hempty] at hnonempty⟩
  have hapart := outputs_apart houtputs (resolve_outputs hfiles) hseparate
  have hdumps : ∀ path ∈ options.dumpsOf files', ∀ output ∈ outputs.filter (·.changed),
      after.Apart path output.path := by
    intro path hpath output houtput
    obtain ⟨file, hfile, hrender⟩ :=
      (mem_of_forall₂ houtputs).2 output (List.mem_filter.mp houtput).1
    obtain ⟨text, existing, -, -, rfl⟩ := render_eq_ok_iff.mp hrender
    exact hseparate.dumps path hpath file hfile
  obtain ⟨hdone, hready⟩ := Plan.carryOut_ok hcarried (hapart.filter _) hdumps
  exact ⟨hdone, fun _ => hready⟩

/-- A second run of the same inputs with any other banner changes no file, and reports no changed
template.  If there are dumps they are written again with the texts they have, and nothing else is
written. -/
theorem generate_repeat {report : Report} {format : Formatting}
    (hrun : generate tree contract segments selection options banner format =
      (after, .ok report))
    (hfiles : selection.resolve tree = .ok files)
    (hspares : Spares selection files tree after) (hseparate : Separate options files after)
    (banner' : String)
    (hbanner : SameButBanner tree contract segments options files banner banner' format) :
    generate after contract segments selection options banner' format =
      (after, .ok ⟨!(options.dumpsOf files).isEmpty, options.outDir, []⟩) ∧
    ∃ second,
      Generation.plan after contract segments selection options banner' format = .ok second ∧
      second.outputs = [] ∧ second.dumps = options.dumpsOf files ∧
      ∀ path ∈ second.dumps, after.readText path = .ok second.dumpText := by
  obtain ⟨assembled, outputs, hassembled, houtputs, hdone, hready⟩ :=
    generate_done hrun hfiles hseparate
  have hpairs := resolve_outputs hfiles
  obtain ⟨entries, hgrows⟩ := hdone.grows
  have hrendered : ∀ file ∈ files, ∃ output, file.render after
      (contextOf assembled segments options banner') options.formatter options.outDir format =
        .ok output ∧ output.changed = false := by
    intro file hfile
    obtain ⟨text, existing, htext, hexisting, hsame⟩ :=
      hdone.settled houtputs hpairs hseparate hfile
    obtain ⟨text', htext', hline⟩ :=
      hbanner file hfile text ((textOf_eq_ok_iff hassembled).mpr htext)
    have hagain := renderedText_stays hgrows (hspares.sources file hfile)
      ((textOf_eq_ok_iff hassembled).mp htext')
    refine ⟨_, render_eq_ok_iff.mpr ⟨text', some existing, hagain, hexisting, rfl⟩, ?_⟩
    simp [shouldWrite, hsame, comparedPart_congr hline]
  obtain ⟨outputs', houtputs', hunchanged⟩ := exists_forall₂ hrendered
  have hnone : outputs'.filter (·.changed) = [] := by simpa using hunchanged
  have hsecond := plan_eq_ok_iff.mpr ⟨files, assembled, outputs',
    resolve_stays hgrows hspares.overrides hfiles, hassembled, houtputs', rfl⟩
  have hcarried : (Plan.ofOutputs options files assembled outputs').isEmpty = false →
      (Plan.ofOutputs options files assembled outputs').carryOut after = (after, .ok ()) := by
    intro hnonempty
    have hdumps : (Plan.ofOutputs options files assembled outputs).isEmpty = false := by
      simp_all [Plan.isEmpty, Plan.ofOutputs]
    obtain ⟨houtDir, hparents⟩ := hready hdumps
    refine Plan.carryOut_of_hasText hnone houtDir (fun path hpath => ?_) hdone.dumps
    refine hparents path (parentDirectories_append _ ?_)
    simpa [Plan.paths, Plan.ofOutputs, hnone] using hpath
  refine ⟨(generate_of_carryOut hsecond hcarried).trans ?_, _, hsecond, hnone, rfl, ?_⟩
  · simp [Plan.report, Plan.isEmpty, Plan.ofOutputs, hnone, distinctNames]
  · intro path hpath
    obtain ⟨-, hleads⟩ := hdone.dumps path hpath
    exact readText_eq_ok_iff.mpr hleads

def bannerTree : FileTree := ⟨[(["t.tpl"], .file (.text "<%= t.banner %>\nx"))], []⟩

def bannerFile : TemplateFile := ⟨"t", "t.tpl", ⟨"t"⟩, .standard, .file ⟨"t.tpl"⟩⟩

def bannerSelection : Selection := ⟨["t"], Dict.ofList [("t", ⟨⟨"t.tpl"⟩, .standard⟩)]⟩

def outOptions : Options := { outDir := ⟨"out"⟩ }

def bannerAfter : FileTree :=
  ⟨[(["t.tpl"], .file (.text "<%= t.banner %>\nx")), (["out"], .dir),
    (["out", "full-schema.json"], .file (.text "{}")), (["out", "t"], .file (.text "1\nx"))], []⟩

theorem generate_repeat_banner :
    generate bannerAfter {} [] bannerSelection outOptions "2" =
      (bannerAfter, .ok ⟨true, ⟨"out"⟩, []⟩) := by
  have hrun : generate bannerTree {} [] bannerSelection outOptions "1" =
      (bannerAfter, .ok ⟨true, ⟨"out"⟩, ["t"]⟩) := by decide +kernel
  have hfiles : bannerSelection.resolve bannerTree = .ok [bannerFile] := by decide +kernel
  have hsource : bannerTree.Leads ⟨"t.tpl"⟩ ["t.tpl"] (.text "<%= t.banner %>\nx") := by
    unfold Leads
    decide +kernel
  have hspares : Spares bannerSelection [bannerFile] bannerTree bannerAfter := by
    refine ⟨fun file hfile path location content hpath hleads => ?_,
      fun entry hentry location hfind => ?_⟩
    · obtain rfl := List.mem_singleton.mp hfile
      cases hpath
      rw [← (hsource.unique hleads).1]
      decide
    · have hentries : bannerSelection.overrides.toList = [("t", ⟨⟨"t.tpl"⟩, .standard⟩)] := by
        decide +kernel
      rw [hentries, List.mem_singleton] at hentry
      subst hentry
      cases hsource.symm.trans hfind
  have hdump : bannerAfter.Leads ⟨"out/full-schema.json"⟩ ["out", "full-schema.json"]
      (.text "{}") := by
    unfold Leads
    decide +kernel
  have hout : bannerAfter.Leads (outOptions.pathOf bannerFile) ["out", "t"] (.text "1\nx") := by
    unfold Leads
    decide +kernel
  have hseparate : Separate outOptions [bannerFile] bannerAfter := by
    refine ⟨fun file hfile other hother hne => ?_, fun path hpath file hfile => ?_⟩
    · rw [List.mem_singleton] at hfile hother
      exact absurd (by rw [hfile, hother]) hne
    · have hdumps : outOptions.dumpsOf [bannerFile] = [⟨"out/full-schema.json"⟩] := by
        decide +kernel
      rw [hdumps, List.mem_singleton] at hpath
      rw [List.mem_singleton] at hfile
      subst hpath hfile
      exact hdump.apart hout (by decide)
  have hbanner : SameButBanner bannerTree {} [] outOptions [bannerFile] "1" "2" := by
    intro file hfile text htext
    obtain rfl := List.mem_singleton.mp hfile
    have hfirst : textOf bannerTree {} [] outOptions "1" bannerFile = .ok "1\nx" := by
      decide +kernel
    have hsecond : textOf bannerTree {} [] outOptions "2" bannerFile = .ok "2\nx" := by
      decide +kernel
    cases hfirst.symm.trans htext
    exact ⟨"2\nx", hsecond, by decide⟩
  exact (generate_repeat hrun hfiles hspares hseparate "2" hbanner).1

/-- Two outputs, of which one stands behind a link to the other. -/
def linkedTree (text : String) : FileTree :=
  ⟨[(["a"], .file (.text "x\nA")), (["b"], .file (.text "x\nB")), (["out"], .dir),
    (["out", "a"], .file (.text text)), (["out", "b"], .link ⟨"a"⟩)], []⟩

def linkedSelection : Selection :=
  ⟨["a", "b"], Dict.ofList [("a", ⟨⟨"a"⟩, .disabled⟩), ("b", ⟨⟨"b"⟩, .disabled⟩)]⟩

def linkedFiles : List TemplateFile :=
  [⟨"a", "a", ⟨"a"⟩, .disabled, .file ⟨"a"⟩⟩, ⟨"b", "b", ⟨"b"⟩, .disabled, .file ⟨"b"⟩⟩]

/-- It is not enough that no dump leads to the file of an output: two outputs with different paths
may be one file, and then every run undoes the one before. -/
theorem generate_not_settled :
    ¬ ∀ (tree after : FileTree) (contract : Contract) (segments : List Segment)
      (selection : Selection) (options : Options) (banner banner' : String)
      (files : List TemplateFile) (report : Report),
      generate tree contract segments selection options banner = (after, .ok report) →
      selection.resolve tree = .ok files → Spares selection files tree after →
      (∀ path ∈ options.dumpsOf files, ∀ file ∈ files, after.Apart path (options.pathOf file)) →
      SameButBanner tree contract segments options files banner banner' →
      ∃ report', generate after contract segments selection options banner' =
        (after, .ok report') ∧ report'.changed = [] := by
  intro hall
  have hrun : generate (linkedTree "x\nA") {} [] linkedSelection outOptions "1" =
      (linkedTree "x\nB", .ok ⟨true, ⟨"out"⟩, ["b"]⟩) := by decide +kernel
  have hfiles : linkedSelection.resolve (linkedTree "x\nA") = .ok linkedFiles := by
    decide +kernel
  have hsources : (linkedTree "x\nA").Leads ⟨"a"⟩ ["a"] (.text "x\nA") ∧
      (linkedTree "x\nA").Leads ⟨"b"⟩ ["b"] (.text "x\nB") := by
    unfold Leads
    decide +kernel
  have hspares : Spares linkedSelection linkedFiles (linkedTree "x\nA") (linkedTree "x\nB") := by
    refine ⟨fun file hfile path location content hpath hleads => ?_,
      fun entry hentry location hfind => ?_⟩
    · simp only [linkedFiles, List.mem_cons, List.not_mem_nil, or_false] at hfile
      rcases hfile with rfl | rfl
      · cases hpath
        rw [← (hsources.1.unique hleads).1]
        decide
      · cases hpath
        rw [← (hsources.2.unique hleads).1]
        decide
    · have hentries : linkedSelection.overrides.toList =
          [("a", ⟨⟨"a"⟩, .disabled⟩), ("b", ⟨⟨"b"⟩, .disabled⟩)] := by decide +kernel
      rw [hentries] at hentry
      simp only [List.mem_cons, List.not_mem_nil, or_false] at hentry
      rcases hentry with rfl | rfl
      · cases hsources.1.symm.trans hfind
      · cases hsources.2.symm.trans hfind
  have hdumps : outOptions.dumpsOf linkedFiles = [] := by decide +kernel
  have hbanner : SameButBanner (linkedTree "x\nA") {} [] outOptions linkedFiles "1" "2" := by
    intro file hfile text htext
    simp only [linkedFiles, List.mem_cons, List.not_mem_nil, or_false] at hfile
    refine ⟨text, ?_, rfl⟩
    rw [← htext]
    rcases hfile with rfl | rfl <;> decide +kernel
  obtain ⟨report, hsecond, hchanged⟩ := hall _ _ _ _ _ _ "1" "2" _ _ hrun hfiles hspares
    (by simp [hdumps]) hbanner
  have hundone : (generate (linkedTree "x\nB") {} [] linkedSelection outOptions "2").1 ≠
      linkedTree "x\nB" := by decide +kernel
  exact hundone (by rw [hsecond])

end RpcContract.Generation
