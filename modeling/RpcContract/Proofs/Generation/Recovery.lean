import RpcContract.Proofs.Files.Closed
import RpcContract.Proofs.Generation.Interruption
import RpcContract.Proofs.Generation.Postcondition
import RpcContract.Proofs.Generation.Repeat

/-!
# Runs after stopped ones

A run that succeeds after others were stopped leaves what it would have left without them.  What
the stopped runs have written is no template and stands in no directory of templates, so that the
run sees the same templates; and it writes every file that does not count as its text yet.
-/

namespace RpcContract.Generation

open FileTree

/-! ## Trees that a run and stopped runs have grown -/

/-- Directories have been made, and files of some paths have been written. -/
structure Grown (start : FileTree) (paths : List Path) (tree : FileTree) : Prop where
  closed : tree.Closed
  grows : ∃ entries, Grows start entries tree ∧ ∀ entry ∈ entries, entry.2 = .dir ∨
    (∃ content, entry.2 = .file content) ∧ ∃ path ∈ paths, start.Denotes path entry.1

namespace Grown

variable {start tree next : FileTree} {paths : List Path} {path : Path}

theorem refl (h : start.Closed) : Grown start paths start := ⟨h, [], .none _, by simp⟩

theorem denotes {entries : List (Location × FileNode)} {location : Location} {content : Content}
    (h : Grown start paths tree) (hgrows : Grows tree entries next)
    (hentries : ∀ entry ∈ entries, ∀ target, entry.2 ≠ .link target)
    (hleads : next.Leads path location content) : start.Denotes path location := by
  obtain ⟨-, before, hbefore, hkinds⟩ := h
  refine ⟨_, next, content, hbefore.append hgrows, fun entry hentry target htarget => ?_, hleads⟩
  rcases List.mem_append.mp hentry with hold | hnew
  · rcases hkinds entry hold with hdir | ⟨⟨content, hfile⟩, -⟩
    · cases hdir.symm.trans htarget
    · cases hfile.symm.trans htarget
  · exact hentries entry hnew target htarget

theorem makeDirectory (h : Grown start paths tree) (hmake : tree.makeDirectory path = .ok next) :
    Grown start paths next := by
  refine ⟨h.closed.makeDirectory hmake, ?_⟩
  obtain ⟨place, hplace, -⟩ := makeDirectory_ok hmake
  obtain ⟨-, entries, hgrows, hentries⟩ := h
  refine ⟨_, hgrows.append hplace, fun entry hentry => ?_⟩
  rcases List.mem_append.mp hentry with hold | hnew
  · exact hentries entry hold
  · rw [List.mem_singleton.mp hnew]
    exact .inl rfl

theorem write {content : Content} (h : Grown start paths tree) (hpath : path ∈ paths)
    (hwrite : tree.write path content = .ok next) : Grown start paths next := by
  refine ⟨h.closed.write hwrite, ?_⟩
  obtain ⟨-, place, hplace, hleads⟩ := write_ok hwrite
  have hdenotes := h.denotes hplace (by simp) hleads
  obtain ⟨-, entries, hgrows, hentries⟩ := h
  refine ⟨_, hgrows.append hplace, fun entry hentry => ?_⟩
  rcases List.mem_append.mp hentry with hold | hnew
  · exact hentries entry hold
  · rw [List.mem_singleton.mp hnew]
    exact .inr ⟨⟨content, rfl⟩, path, hpath, hdenotes⟩

theorem stopped {plan : Plan} {before : FileTree} (h : Grown start paths before)
    (hpaths : ∀ path ∈ plan.paths, path ∈ paths) (hstopped : plan.Stopped before tree) :
    Grown start paths tree := by
  induction hstopped with
  | none => exact h
  | directory _ hmake ih => exact ih.makeDirectory hmake
  | @file tree next write _ hplanned hwrite ih =>
      refine ih.write (hpaths write.1 ?_) hwrite
      rcases List.mem_append.mp hplanned with hdump | houtput
      · obtain ⟨path, hpath, rfl⟩ := List.mem_map.mp hdump
        exact List.mem_append_left _ hpath
      · obtain ⟨output, hmem, rfl⟩ := List.mem_map.mp houtput
        exact List.mem_append_right _ (List.mem_map.mpr ⟨output, hmem, rfl⟩)

end Grown

/-! ## Inputs that stay as they are -/

namespace Job

/-- The paths that a run may write. -/
def destinations (job : Job) (files : List TemplateFile) : List Path :=
  job.options.dumpsOf files ++ files.map job.options.pathOf

/-- The destinations of a run are different files, none of which is a template or inside a directory
of templates. -/
structure Separated (job : Job) (start : FileTree) (files : List TemplateFile) : Prop where
  distinct : (job.destinations files).Pairwise fun path other =>
    ∀ location, start.Denotes path location → ¬ start.Denotes other location
  sources : ∀ path ∈ job.destinations files, ∀ location, start.Denotes path location →
    ∀ file ∈ files, ∀ source content, file.source = .file source →
      ¬ start.Leads source location content
  overrides : ∀ path ∈ job.destinations files, ∀ location, start.Denotes path location →
    ∀ entry ∈ job.selection.overrides.toList, ∀ directory,
      start.find true entry.2.path = .ok (.node directory .dir) → ¬ directory <+: location

variable {job : Job} {start tree stopped after : FileTree} {files : List TemplateFile}
  {banner : String}

theorem Separated.resolve (h : job.Separated start files) (hclosed : start.Closed)
    (hgrown : Grown start (job.destinations files) tree)
    (hfiles : job.selection.resolve start = .ok files) :
    job.selection.resolve tree = .ok files := by
  obtain ⟨-, entries, hgrows, hentries⟩ := hgrown
  refine resolve_of_listing hgrows (fun override hoverride directory hfind => ?_) hfiles
  refine hgrows.filesBelow_of_directories hclosed fun entry hentry hbelow => ?_
  rcases hentries entry hentry with hdir | ⟨-, path, hpath, hdenotes⟩
  · exact hdir
  · exact absurd hbelow (h.overrides path hpath _ hdenotes override hoverride directory hfind)

theorem Separated.textOf {file : TemplateFile} {text : String} (h : job.Separated start files)
    (hgrown : Grown start (job.destinations files) tree) (hfile : file ∈ files)
    (htext : (job.withBanner banner).textOf start file = .ok text) :
    (job.withBanner banner).textOf tree file = .ok text := by
  obtain ⟨-, entries, hgrows, hentries⟩ := hgrown
  obtain ⟨assembled, hassembled, hrendered⟩ := bind_eq_ok_iff.mp htext
  refine bind_eq_ok_iff.mpr ⟨assembled, hassembled, renderedText_stays hgrows ?_ hrendered⟩
  intro source location content hsource hleads
  rw [hleads.node?_eq]
  -- No directory can be made in place of a template, and no destination is one.
  refine hgrows.node?_kept hleads.node?_eq fun entry hentry hat => ?_
  rcases hentries entry hentry with hdir | ⟨-, path, hpath, hdenotes⟩
  · have hstays := hgrows.stays_of_mem hentry (hat ▸ hleads.node?_eq)
    rw [hdir] at hstays
    cases hstays
  · exact absurd (hat ▸ hleads) (h.sources path hpath _ hdenotes file hfile source content hsource)

theorem Interrupted.grown (h : job.Interrupted start tree) (hclosed : start.Closed)
    (hfiles : job.selection.resolve start = .ok files) (hseparated : job.Separated start files) :
    Grown start (job.destinations files) tree := by
  induction h with
  | none => exact .refl hclosed
  | run _ hplan hstopped ih =>
      obtain ⟨files', assembled, outputs, hfiles', -, houtputs, rfl⟩ := plan_eq_ok_iff.mp hplan
      cases (hseparated.resolve hclosed ih hfiles).symm.trans hfiles'
      refine ih.stopped (fun path hpath => ?_) hstopped
      rcases List.mem_append.mp hpath with hdump | houtput
      · exact List.mem_append_left _ hdump
      · obtain ⟨output, hmem, rfl⟩ := List.mem_map.mp houtput
        obtain ⟨file, hfile, -, -, -, -, rfl⟩ := houtputs.of_mem (List.mem_of_mem_filter hmem)
        exact List.mem_append_right _ (List.mem_map.mpr ⟨file, hfile, rfl⟩)

/-! ## The run that succeeds -/

/-- What a successful run leaves after stopped ones, by the texts of the first of them, and what it
has not skipped. -/
structure Recovered (job : Job) (start stopped after : FileTree) (files : List TemplateFile)
    (dumpText : String) (written : List Path) : Prop where
  dumps : ∀ path ∈ job.options.dumpsOf files, after.readText path = .ok dumpText
  outputs : ∀ file ∈ files, ∃ text existing, job.textOf start file = .ok text ∧
    after.readText (job.options.pathOf file) = .ok existing ∧
    comparedPart existing = comparedPart text
  dumped : ∀ path ∈ job.options.dumpsOf files, path ∈ written
  skipped : ∀ file ∈ files, job.options.pathOf file ∉ written → ∃ text existing,
    job.textOf start file = .ok text ∧
    stopped.readText (job.options.pathOf file) = .ok existing ∧
    comparedPart existing = comparedPart text

theorem Separated.apart {entries : List (Location × FileNode)} (h : job.Separated start files)
    (hgrown : Grown start (job.destinations files) stopped) (hgrows : Grows stopped entries after)
    (hentries : ∀ entry ∈ entries, ∀ target, entry.2 ≠ .link target) :
    (job.destinations files).Pairwise fun path other => after.Apart path other :=
  h.distinct.imp fun hdistinct location _ _ hpath hother =>
    hdistinct location (hgrown.denotes hgrows hentries hpath)
      (hgrown.denotes hgrows hentries hother)

theorem Interrupted.recovered {plan : Plan} {written : List Path} {report : Report}
    (hclosed : start.Closed) (hplan : job.plan start = .ok plan)
    (hfiles : job.selection.resolve start = .ok files) (hseparated : job.Separated start files)
    (hbanner : SameButBanner start job.contract job.segments job.options files job.banner banner
      job.format)
    (hstopped : job.Interrupted start stopped)
    (hlater : (job.withBanner banner).Ends stopped after written (.ok report)) :
    job.Recovered start stopped after files plan.dumpText written := by
  have hgrown := hstopped.grown hclosed hfiles hseparated
  obtain ⟨files', assembled, first, hfiles', hassembled, hfirst, rfl⟩ := plan_eq_ok_iff.mp hplan
  cases hfiles.symm.trans hfiles'
  obtain ⟨files', assembled', outputs, hfiles', hassembled', houtputs, -, hcarried⟩ :=
    hlater.carried
  cases (hseparated.resolve hclosed hgrown hfiles).symm.trans hfiles'
  cases Except.ok.inj (hassembled.symm.trans hassembled')
  have hassembled : job.assembled = .ok assembled := hassembled
  -- The texts of this run are those of the first one but for the banner.
  have htexts (file : TemplateFile) (hfile : file ∈ files) : ∃ text text',
      job.textOf start file = .ok text ∧
      (job.withBanner banner).textOf stopped file = .ok text' ∧
      comparedPart text' = comparedPart text := by
    obtain ⟨output, -, hrender⟩ := (mem_of_forall₂ hfirst).1 file hfile
    obtain ⟨-, -, htext, -⟩ := of_render hassembled hrender
    obtain ⟨text', htext', hline⟩ := hbanner file hfile output.text htext
    exact ⟨output.text, text', htext, hseparated.textOf hgrown hfile htext',
      comparedPart_congr hline⟩
  obtain ⟨entries, hgrows, hentries⟩ := hcarried.grows
  obtain ⟨-, houtputsApart, hdumpsApart⟩ :=
    List.pairwise_append.mp (hseparated.apart hgrown hgrows hentries)
  have hapart : ∀ path ∈ job.options.dumpsOf files, ∀ file ∈ files,
      after.Apart path (job.options.pathOf file) := fun path hpath file hfile =>
    hdumpsApart path hpath _ (List.mem_map.mpr ⟨file, hfile, rfl⟩)
  have hsettled := hcarried.settled hassembled' houtputs (List.pairwise_map.mp houtputsApart)
  refine {
    dumps := fun path hpath =>
      hsettled.dumps path hpath fun file hfile _ => hapart path hpath file hfile
    outputs := fun file hfile => ?_
    dumped := fun path hpath => hcarried.mem_written.mpr (List.mem_append_left _ hpath)
    skipped := fun file hfile hskipped => ?_ }
  · obtain ⟨text, text', htext, htext', hsame⟩ := htexts file hfile
    by_cases hstale : (job.withBanner banner).Stale stopped file
    · obtain ⟨final, hfinal, hread⟩ := hsettled.stale file hfile hstale
      cases htext'.symm.trans hfinal
      exact ⟨text, text', htext, hread, hsame⟩
    · obtain ⟨final, existing, hfinal, hread, hcounts⟩ := hsettled.kept file hfile hstale
        fun path hpath => hapart path hpath file hfile
      cases htext'.symm.trans hfinal
      exact ⟨text, existing, htext, hread, hcounts.trans hsame⟩
  · obtain ⟨text, text', htext, htext', hsame⟩ := htexts file hfile
    obtain ⟨output, houtput, hrender⟩ := (mem_of_forall₂ houtputs).1 file hfile
    obtain ⟨-, hpath, hfinal, -⟩ := of_render hassembled' hrender
    cases htext'.symm.trans hfinal
    have hunchanged : output.changed = false := by
      by_contra hchanged
      refine hskipped (hcarried.mem_written.mpr (List.mem_append_right _ ?_))
      exact List.mem_map.mpr ⟨output, List.mem_filter.mpr ⟨houtput, by simpa using hchanged⟩, hpath⟩
    obtain ⟨existing, hread, hcounts⟩ := readText_of_unchanged hrender hunchanged
    exact ⟨text, existing, htext, hpath ▸ hread, hcounts.trans hsame⟩

end Job

/-- A run that succeeds after others were stopped, whatever they had written, leaves every dump and
every output as a run leaves them that nothing came before.  It writes every dump, and every output
that does not count as its text yet. -/
theorem interrupted_run_recovers {job : Job} {start stopped after : FileTree} {plan : Plan}
    {files : List TemplateFile} {banner : String} {written : List Path} {report : Report}
    (hclosed : start.Closed) (hplan : job.plan start = .ok plan)
    (hfiles : job.selection.resolve start = .ok files) (hseparated : job.Separated start files)
    (hbanner : SameButBanner start job.contract job.segments job.options files job.banner banner
      job.format)
    (hstopped : job.Interrupted start stopped)
    (hlater : (job.withBanner banner).Ends stopped after written (.ok report)) :
    job.Recovered start stopped after files plan.dumpText written ∧
      ∀ whole written' report', job.Ends start whole written' (.ok report') →
        (∀ path ∈ job.options.dumpsOf files, after.readText path = whole.readText path) ∧
        ∀ file ∈ files, ∃ existing existing',
          after.readText (job.options.pathOf file) = .ok existing ∧
          whole.readText (job.options.pathOf file) = .ok existing' ∧
          comparedPart existing = comparedPart existing' := by
  have hrecovered := hstopped.recovered hclosed hplan hfiles hseparated hbanner hlater
  refine ⟨hrecovered, fun whole written' report' hwhole => ?_⟩
  have hnone : job.Interrupted start start := .none
  have hsame : SameButBanner start job.contract job.segments job.options files job.banner job.banner
      job.format := fun file hfile text htext => ⟨text, htext, rfl⟩
  have hfirst := hnone.recovered hclosed hplan hfiles hseparated hsame hwhole
  refine ⟨fun path hpath => ?_, fun file hfile => ?_⟩
  · rw [hrecovered.dumps path hpath, hfirst.dumps path hpath]
  · obtain ⟨text, existing, htext, hread, hsame⟩ := hrecovered.outputs file hfile
    obtain ⟨text', existing', htext', hread', hsame'⟩ := hfirst.outputs file hfile
    cases htext.symm.trans htext'
    exact ⟨existing, existing', hread, hread', hsame.trans hsame'.symm⟩

def bannerJob : Job where
  contract := {}
  segments := []
  selection := bannerSelection
  options := outOptions
  banner := "1"
  format := Formatter.format

def bannerPlan : Plan :=
  ⟨⟨"out"⟩, [⟨"out/full-schema.json"⟩], "{}", [⟨"t", ⟨"out/t"⟩, "1\nx", true⟩]⟩

/-- The output has been written, and the dump has not. -/
def bannerStopped : FileTree :=
  ⟨[(["t.tpl"], .file (.text "<%= t.banner %>\nx")), (["out"], .dir),
    (["out", "t"], .file (.text "1\nx"))], []⟩

def bannerRecovered : FileTree :=
  ⟨[(["t.tpl"], .file (.text "<%= t.banner %>\nx")), (["out"], .dir),
    (["out", "t"], .file (.text "1\nx")), (["out", "full-schema.json"], .file (.text "{}"))], []⟩

theorem bannerPlan_stopped : bannerPlan.Stopped bannerTree bannerStopped := by
  have hmake : bannerTree.makeDirectory ⟨"out"⟩ =
      .ok ⟨[(["t.tpl"], .file (.text "<%= t.banner %>\nx")), (["out"], .dir)], []⟩ := by
    decide +kernel
  have hwrite : FileTree.write
      ⟨[(["t.tpl"], .file (.text "<%= t.banner %>\nx")), (["out"], .dir)], []⟩ ⟨"out/t"⟩
      (.text "1\nx") = .ok bannerStopped := by decide +kernel
  have houtput : (⟨"t", ⟨"out/t"⟩, "1\nx", true⟩ : Output) ∈ bannerPlan.outputs := by
    simp [bannerPlan]
  exact (Plan.Stopped.none.directory hmake).output houtput hwrite

theorem bannerJob_separated : bannerJob.Separated bannerTree [bannerFile] := by
  have hplain : bannerTree.Plain := by
    constructor
    · simp [bannerTree]
    · decide +kernel
  have hdestinations : bannerJob.destinations [bannerFile] =
      [⟨"out/full-schema.json"⟩, ⟨"out/t"⟩] := by decide +kernel
  have hdump {location : Location} (h : bannerTree.Denotes ⟨"out/full-schema.json"⟩ location) :
      location = ["out", "full-schema.json"] :=
    (hplain.linkless.denotes h).trans (by decide +kernel)
  have hout {location : Location} (h : bannerTree.Denotes ⟨"out/t"⟩ location) :
      location = ["out", "t"] := (hplain.linkless.denotes h).trans (by decide +kernel)
  have hsource : bannerTree.Leads ⟨"t.tpl"⟩ ["t.tpl"] (.text "<%= t.banner %>\nx") := by
    unfold Leads
    decide +kernel
  refine ⟨?_, fun path hpath location hdenotes file hfile source content hfrom hleads => ?_,
    fun path _ location _ entry hentry directory hfind => ?_⟩
  · rw [hdestinations]
    simp only [List.pairwise_cons, List.mem_singleton, forall_eq, List.not_mem_nil,
      IsEmpty.forall_iff, implies_true, List.Pairwise.nil, and_true]
    intro location hfirst hsecond
    exact absurd ((hdump hfirst).symm.trans (hout hsecond)) (by decide)
  · obtain rfl := List.mem_singleton.mp hfile
    cases hfrom
    obtain ⟨rfl, -⟩ := hsource.unique hleads
    rw [hdestinations] at hpath
    simp only [List.mem_cons, List.not_mem_nil, or_false] at hpath
    rcases hpath with rfl | rfl
    · exact absurd (hdump hdenotes) (by decide)
    · exact absurd (hout hdenotes) (by decide)
  · have hentries : bannerJob.selection.overrides.toList = [("t", ⟨⟨"t.tpl"⟩, .standard⟩)] := by
      decide +kernel
    rw [hentries, List.mem_singleton] at hentry
    subst hentry
    cases hsource.symm.trans hfind

theorem interrupted_run_recovers_banner :
    (bannerJob.withBanner "2").generate bannerStopped =
        (bannerRecovered, .ok ⟨true, ⟨"out"⟩, []⟩) ∧
      bannerRecovered.readText ⟨"out/full-schema.json"⟩ = .ok "{}" ∧
      ∃ existing, bannerRecovered.readText ⟨"out/t"⟩ = .ok existing ∧
        comparedPart existing = comparedPart "1\nx" := by
  have hrun : (bannerJob.withBanner "2").generate bannerStopped =
      (bannerRecovered, .ok ⟨true, ⟨"out"⟩, []⟩) := by decide +kernel
  have hplan : bannerJob.plan bannerTree = .ok bannerPlan := by decide +kernel
  have hstopped : bannerJob.Interrupted bannerTree bannerStopped :=
    .run .none (show (bannerJob.withBanner "1").plan bannerTree = _ from hplan) bannerPlan_stopped
  have hfiles : bannerJob.selection.resolve bannerTree = .ok [bannerFile] := by decide +kernel
  have hclosed : bannerTree.Closed := .of_nodes (by decide +kernel) rfl
  have hfirst : bannerJob.textOf bannerTree bannerFile = .ok "1\nx" := by decide +kernel
  have hbanner : SameButBanner bannerTree bannerJob.contract bannerJob.segments bannerJob.options
      [bannerFile] bannerJob.banner "2" bannerJob.format := by
    intro file hfile text htext
    obtain rfl := List.mem_singleton.mp hfile
    cases hfirst.symm.trans htext
    exact ⟨"2\nx", by decide +kernel, by decide +kernel⟩
  obtain ⟨written, hends⟩ := generate_ends (bannerJob.withBanner "2") bannerStopped
  rw [hrun] at hends
  obtain ⟨hrecovered, -⟩ := interrupted_run_recovers hclosed hplan hfiles bannerJob_separated
    hbanner hstopped hends
  obtain ⟨text, existing, htext, hread, hsame⟩ := hrecovered.outputs bannerFile (by simp)
  cases hfirst.symm.trans htext
  exact ⟨hrun, hrecovered.dumps ⟨"out/full-schema.json"⟩ (by decide +kernel), existing, hread,
    hsame⟩

end RpcContract.Generation
