import RpcContract.Proofs.Contract.Assembly
import RpcContract.Proofs.Generation.Endings

/-!
# Failing before anything is written

A run fails before it writes if its selection cannot be resolved, a segment is missing from the
contract, or a selected file fails.  It then changes no file at any time, and reports the failure
that comes first in the order of the selection, in whatever order its tasks finish.
-/

namespace RpcContract.Generation

open FileTree

/-! ## How a file fails -/

/-- A file fails if it cannot be read, rendered or formatted, or if what stands at its output cannot
be read. -/
inductive Job.Fails (job : Job) (tree : FileTree) (assembled : Contract) (file : TemplateFile) :
    Error → Prop
  | unread {path : Path} {fault : FileFault} : file.source = .file path →
      tree.readText path = .error fault →
      Fails job tree assembled file (.unreadableTemplate path fault)
  | unrendered {source : String} {e : Client.TemplateError} : file.readSource tree = .ok source →
      Client.render file.path source (job.context assembled) = .error e →
      Fails job tree assembled file (.template e)
  | unformatted {source text : String} {command : List String} {e : Error} :
      file.readSource tree = .ok source →
      Client.render file.path source (job.context assembled) = .ok text →
      job.options.formatter = some command → job.format command text = .error e →
      Fails job tree assembled file e
  | unreadOutput {text : String} {fault : FileFault} :
      file.renderedText tree (job.context assembled) job.options.formatter job.format = .ok text →
      tree.readText (job.options.pathOf file) = .error fault → fault ≠ .notFound →
      Fails job tree assembled file (.unreadableOutput (job.options.pathOf file) fault)

theorem readExisting_eq_error_iff {tree : FileTree} {path : Path} {e : Error} :
    readExisting tree path = .error e ↔
      ∃ fault, tree.readText path = .error fault ∧ fault ≠ .notFound ∧
        e = .unreadableOutput path fault := by
  unfold readExisting
  cases htext : tree.readText path with
  | ok text => simp
  | error fault => cases fault <;> simp [eq_comm]

theorem readSource_eq_error_iff {tree : FileTree} {file : TemplateFile} {e : Error} :
    file.readSource tree = .error e ↔
      ∃ path fault, file.source = .file path ∧ tree.readText path = .error fault ∧
        e = .unreadableTemplate path fault := by
  unfold TemplateFile.readSource
  cases hsource : file.source with
  | builtin text => simp
  | file path => cases htext : tree.readText path <;> simp [Except.mapError, eq_comm, htext]

variable {job : Job} {tree : FileTree} {assembled : Contract} {file : TemplateFile} {e : Error}

theorem renderedText_eq_error_iff :
    file.renderedText tree (job.context assembled) job.options.formatter job.format = .error e ↔
      file.readSource tree = .error e ∨
      (∃ source, file.readSource tree = .ok source ∧
        ∃ cause, Client.render file.path source (job.context assembled) = .error cause ∧
          e = .template cause) ∨
      ∃ source text command, file.readSource tree = .ok source ∧
        Client.render file.path source (job.context assembled) = .ok text ∧
        job.options.formatter = some command ∧ job.format command text = .error e := by
  rw [Job.renderedText_eq_bind, bind_eq_error_iff]
  refine or_congr Iff.rfl ?_
  simp only [bind_eq_error_iff, Job.renderSource, Job.formatText, mapError_eq_ok_iff]
  constructor
  · rintro ⟨source, hsource, hrender | ⟨text, htext, hformat⟩⟩
    · cases hcause : Client.render file.path source (job.context assembled) with
      | error cause =>
          rw [hcause] at hrender
          cases hrender
          exact .inl ⟨source, hsource, cause, hcause, rfl⟩
      | ok text =>
          rw [hcause] at hrender
          cases hrender
    · cases hcommand : job.options.formatter with
      | none =>
          rw [hcommand] at hformat
          cases hformat
      | some command =>
          rw [hcommand] at hformat
          exact .inr ⟨source, text, command, hsource, htext, rfl, hformat⟩
  · rintro (⟨source, hsource, cause, hcause, rfl⟩ |
      ⟨source, text, command, hsource, htext, hcommand, hformat⟩)
    · exact ⟨source, hsource, .inl (by rw [hcause]; rfl)⟩
    · exact ⟨source, hsource, .inr ⟨text, htext, by rw [hcommand]; exact hformat⟩⟩

theorem render_eq_error_iff :
    job.render tree assembled file = .error e ↔ job.Fails tree assembled file e := by
  have hcompare (text : String) : job.compareText tree file text = .error e ↔
      readExisting tree (job.options.pathOf file) = .error e := by
    unfold Job.compareText
    cases readExisting tree (job.options.pathOf file) <;> simp [Except.map]
  rw [Job.render_eq_renderedText_bind, bind_eq_error_iff, renderedText_eq_error_iff,
    readSource_eq_error_iff]
  simp only [hcompare, readExisting_eq_error_iff]
  constructor
  · rintro ((⟨path, fault, hsource, hread, rfl⟩ | ⟨source, hsource, cause, hcause, rfl⟩ |
      ⟨source, text, command, hsource, htext, hcommand, hformat⟩) |
      ⟨text, htext, fault, hread, hfault, rfl⟩)
    · exact .unread hsource hread
    · exact .unrendered hsource hcause
    · exact .unformatted hsource htext hcommand hformat
    · exact .unreadOutput htext hread hfault
  · intro h
    cases h with
    | unread hsource hread => exact .inl (.inl ⟨_, _, hsource, hread, rfl⟩)
    | unrendered hsource hcause => exact .inl (.inr (.inl ⟨_, hsource, _, hcause, rfl⟩))
    | unformatted hsource htext hcommand hformat =>
        exact .inl (.inr (.inr ⟨_, _, _, hsource, htext, hcommand, hformat⟩))
    | unreadOutput htext hread hfault => exact .inr ⟨_, htext, _, hread, hfault, rfl⟩

/-! ## How a run fails -/

/-- What a run reports that fails before it writes: that its selection cannot be resolved, else the
first segment that is missing, else the failure of the first file that fails. -/
inductive Job.FirstFailure (job : Job) (tree : FileTree) : Error → Prop
  | selection {e : Error} : job.selection.resolve tree = .error e → FirstFailure job tree e
  | segment {files : List TemplateFile} {before after : List Segment} {segment : Segment} :
      job.selection.resolve tree = .ok files → job.segments = before ++ segment :: after →
      (∀ earlier ∈ before, job.contract.get? earlier.name ≠ none) →
      job.contract.get? segment.name = none →
      FirstFailure job tree (.missingSegment ⟨segment.name⟩)
  | template {before after : List TemplateFile} {file : TemplateFile} {assembled : Contract}
      {e : Error} :
      job.selection.resolve tree = .ok (before ++ file :: after) → job.assembled = .ok assembled →
      (∀ earlier ∈ before, ∀ e', ¬ job.Fails tree assembled earlier e') →
      job.Fails tree assembled file e → FirstFailure job tree e

theorem assembled_eq_error_iff {missing : MissingSegment} :
    job.assembled = .error missing ↔
      ∃ before segment after, job.segments = before ++ segment :: after ∧
        (∀ earlier ∈ before, job.contract.get? earlier.name ≠ none) ∧
        job.contract.get? segment.name = none ∧ missing = ⟨segment.name⟩ := by
  rw [Job.assembled, Contract.assemble_eq_error_iff]
  constructor
  · rintro ⟨before, name, after, hnames, hbefore, hname, rfl⟩
    obtain ⟨before, rest, hsegments, rfl, hrest⟩ := List.map_eq_append_iff.mp hnames
    obtain ⟨segment, after, rfl, rfl, rfl⟩ := List.map_eq_cons_iff.mp hrest
    refine ⟨before, segment, after, hsegments, fun earlier hearlier => ?_, hname, rfl⟩
    exact hbefore _ (List.mem_map.mpr ⟨earlier, hearlier, rfl⟩)
  · rintro ⟨before, segment, after, hsegments, hbefore, hsegment, rfl⟩
    refine ⟨before.map (·.name), segment.name, after.map (·.name), by simp [hsegments],
      fun name hname => ?_, hsegment, rfl⟩
    obtain ⟨earlier, hearlier, rfl⟩ := List.mem_map.mp hname
    exact hbefore earlier hearlier

theorem render_eq_ok_iff_not_fails {tree : FileTree} {assembled : Contract} {file : TemplateFile} :
    (∃ output, job.render tree assembled file = .ok output) ↔
      ∀ e, ¬ job.Fails tree assembled file e := by
  simp only [← render_eq_error_iff]
  cases job.render tree assembled file <;> simp

theorem plan_eq_error_iff : job.plan tree = .error e ↔ job.FirstFailure tree e := by
  cases hfiles : job.selection.resolve tree with
  | error cause =>
      rw [Job.plan_of_resolve_error hfiles]
      constructor
      · intro h
        cases h
        exact .selection hfiles
      · intro h
        cases h with
        | selection h =>
            cases hfiles.symm.trans h
            rfl
        | segment h => cases hfiles.symm.trans h
        | template h => cases hfiles.symm.trans h
  | ok files =>
      cases hassembled : job.assembled with
      | error missing =>
          rw [Job.plan_of_assembled_error hfiles hassembled]
          constructor
          · intro h
            cases h
            obtain ⟨before, segment, after, hsegments, hbefore, hsegment, rfl⟩ :=
              assembled_eq_error_iff.mp hassembled
            exact .segment hfiles hsegments hbefore hsegment
          · intro h
            cases h with
            | selection h => cases hfiles.symm.trans h
            | segment _ hsegments hbefore hsegment =>
                cases hassembled.symm.trans (assembled_eq_error_iff.mpr
                  ⟨_, _, _, hsegments, hbefore, hsegment, rfl⟩)
                rfl
            | template _ h => cases hassembled.symm.trans h
      | ok assembled =>
          have hplan : job.plan tree = .error e ↔
              files.mapM (job.render tree assembled) = .error e := by
            rw [Job.plan_of_assembled hfiles hassembled]
            cases files.mapM (job.render tree assembled) <;> simp [Except.map]
          rw [hplan, mapM_eq_error_iff]
          constructor
          · rintro ⟨before, file, after, rfl, hbefore, hfile⟩
            exact .template hfiles hassembled
              (fun earlier hearlier => render_eq_ok_iff_not_fails.mp (hbefore earlier hearlier))
              (render_eq_error_iff.mp hfile)
          · intro h
            cases h with
            | selection h => cases hfiles.symm.trans h
            | segment _ hsegments hbefore hsegment =>
                cases hassembled.symm.trans (assembled_eq_error_iff.mpr
                  ⟨_, _, _, hsegments, hbefore, hsegment, rfl⟩)
            | template hfiles' hassembled' hbefore hfile =>
                cases hfiles.symm.trans hfiles'
                cases hassembled.symm.trans hassembled'
                exact ⟨_, _, _, rfl, fun earlier hearlier =>
                  render_eq_ok_iff_not_fails.mpr (hbefore earlier hearlier),
                  render_eq_error_iff.mpr hfile⟩

/-- A selection that cannot be resolved, a segment that the contract does not have, or files that
fail, one or more of them. -/
def Job.Unready (job : Job) (tree : FileTree) : Prop :=
  (∃ e, job.selection.resolve tree = .error e) ∨
    (∃ segment ∈ job.segments, job.contract.get? segment.name = none) ∨
    ∃ files assembled, job.selection.resolve tree = .ok files ∧ job.assembled = .ok assembled ∧
      ∃ file ∈ files, ∃ e, job.Fails tree assembled file e

theorem Job.Unready.plan_fails (h : job.Unready tree) : ∃ e, job.plan tree = .error e := by
  cases hplan : job.plan tree with
  | error e => exact ⟨e, rfl⟩
  | ok plan =>
      obtain ⟨files, assembled, outputs, hfiles, hassembled, houtputs, -⟩ :=
        Generation.plan_eq_ok_iff.mp hplan
      rcases h with ⟨e, hresolve⟩ | ⟨segment, hsegment, hmissing⟩ |
        ⟨files', assembled', hfiles', hassembled', file, hfile, e, hfails⟩
      · cases hfiles.symm.trans hresolve
      · exact absurd hmissing (Contract.get?_ne_none_of_assembleOnto hassembled segment.name
          (List.mem_map.mpr ⟨segment, hsegment, rfl⟩))
      · cases hfiles.symm.trans hfiles'
        cases Except.ok.inj (hassembled.symm.trans hassembled')
        obtain ⟨output, -, hrender⟩ := (mem_of_forall₂ houtputs).1 file hfile
        cases hrender.symm.trans (render_eq_error_iff.mpr hfails)

theorem Job.Sound.of_plan_error {moment : Moment} (h : job.Sound tree moment)
    (hplan : job.plan tree = .error e) :
    moment.tree = tree ∧ moment.written = [] ∧
      ∀ result, moment.stage = .ended result → result = .error e := by
  obtain ⟨files, written, stage⟩ := moment
  cases stage with
  | rendering assembled tasks => exact ⟨h.1, h.2.1, by simp⟩
  | opening plan => cases hplan.symm.trans h.2.2.1
  | making plan rest => cases hplan.symm.trans h.2.1
  | dumping plan rest => cases hplan.symm.trans h.1
  | writing plan tasks => cases hplan.symm.trans h.1
  | ended result =>
      cases result with
      | error e' =>
          rcases h with ⟨hplan', htree, hwritten⟩ | ⟨plan, hplan', -⟩
          · refine ⟨htree, hwritten, fun result hresult => ?_⟩
            cases hresult
            cases hplan.symm.trans hplan'
            rfl
          · cases hplan.symm.trans hplan'
      | ok report =>
          obtain ⟨plan, hplan', -⟩ := h
          cases hplan.symm.trans hplan'

/-- A run that is not ready fails with its first failure, in whatever order its tasks go on, and at
no moment has it changed a file or made a directory. -/
theorem unready_run_fails (h : job.Unready tree) :
    ∃ e, job.FirstFailure tree e ∧ job.generate tree = (tree, .error e) ∧
      (∀ moment, job.Reaches tree moment → moment.tree = tree ∧ moment.written = []) ∧
      ∀ after written result, job.Ends tree after written result → result = .error e := by
  obtain ⟨e, hplan⟩ := h.plan_fails
  refine ⟨e, plan_eq_error_iff.mp hplan, Job.generate_of_plan_error hplan, fun moment hmoment => ?_,
    fun after written result hends => ?_⟩
  · obtain ⟨htree, hwritten, -⟩ := hmoment.sound.of_plan_error hplan
    exact ⟨htree, hwritten⟩
  · exact (hends.sound.of_plan_error hplan).2.2 result rfl

/-- Three templates, of which the second is malformed and the third is no text. -/
def malformedTree : FileTree :=
  ⟨[(["a"], .file (.text "x")), (["b.tpl"], .file (.text "<% if %>")),
    (["c"], .file (.bytes [0xff]))], []⟩

def malformedFiles : List TemplateFile :=
  [⟨"a", "a", ⟨"a"⟩, .disabled, .file ⟨"a"⟩⟩, ⟨"b", "b.tpl", ⟨"b"⟩, .disabled, .file ⟨"b.tpl"⟩⟩,
    ⟨"c", "c", ⟨"c"⟩, .disabled, .file ⟨"c"⟩⟩]

def malformedJob : Job where
  contract := {}
  segments := []
  selection := ⟨["a", "b", "c"], Dict.ofList [("a", ⟨⟨"a"⟩, .disabled⟩),
    ("b", ⟨⟨"b.tpl"⟩, .disabled⟩), ("c", ⟨⟨"c"⟩, .disabled⟩)]⟩
  options := { outDir := ⟨"out"⟩, dump := .standard }
  banner := "1"
  format := Formatter.format

theorem unready_run_fails_malformed :
    malformedJob.generate malformedTree =
        (malformedTree, .error (.template ⟨"b.tpl", .malformed⟩)) ∧
      ∀ after written result, malformedJob.Ends malformedTree after written result →
        after = malformedTree ∧ written = [] ∧
          result = .error (.template ⟨"b.tpl", .malformed⟩) := by
  have hfiles : malformedJob.selection.resolve malformedTree = .ok malformedFiles := by
    decide +kernel
  have hread : malformedTree.readText ⟨"c"⟩ = .error .notText := by decide +kernel
  have hunready : malformedJob.Unready malformedTree :=
    .inr (.inr ⟨malformedFiles, {}, hfiles, rfl, ⟨"c", "c", ⟨"c"⟩, .disabled, .file ⟨"c"⟩⟩,
      by simp [malformedFiles], _, .unread rfl hread⟩)
  have hrun : malformedJob.generate malformedTree =
      (malformedTree, .error (.template ⟨"b.tpl", .malformed⟩)) := by decide +kernel
  obtain ⟨e, -, hgenerate, hmoments, hends⟩ := unready_run_fails hunready
  obtain rfl : e = .template ⟨"b.tpl", .malformed⟩ := by
    simpa using hgenerate.symm.trans hrun
  refine ⟨hrun, fun after written result hend => ?_⟩
  obtain ⟨htree, hwritten⟩ := hmoments _ hend
  exact ⟨htree, hwritten, hends after written result hend⟩

end RpcContract.Generation
