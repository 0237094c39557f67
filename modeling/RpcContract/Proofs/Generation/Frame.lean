import RpcContract.Proofs.Generation.Postcondition

/-!
# What a successful run touches

In a tree without links a successful run writes its dumps and its stale outputs and nothing else,
and its report says so.  In which order its tasks go on does not matter, neither for the files nor
for the report.
-/

namespace RpcContract

def FileTree.Alike (tree other : FileTree) : Prop :=
  tree.current = other.current ∧ ∀ location, tree.node? location = other.node? location

namespace Generation

open FileTree

/-! ## Names of changed outputs -/

theorem distinctNames_spec (names : List String) :
    (distinctNames names).Nodup ∧ (distinctNames names).Sublist names ∧
      ∀ name, name ∈ distinctNames names ↔ name ∈ names := by
  -- What has been kept stands first, and what is added comes from the names that are left.
  have hfold (names kept : List String) : ∃ added,
      names.foldl (fun kept name => if kept.contains name then kept else kept ++ [name]) kept =
        kept ++ added ∧ (kept.Nodup → (kept ++ added).Nodup) ∧ added.Sublist names ∧
      ∀ name ∈ names, name ∈ kept ++ added := by
    induction names generalizing kept with
    | nil => exact ⟨[], by simp⟩
    | cons name rest ih =>
        by_cases hmem : name ∈ kept
        · obtain ⟨added, hadded, hnodup, hsublist, hall⟩ := ih kept
          refine ⟨added, ?_, hnodup, hsublist.cons name, fun other hother => ?_⟩
          · rw [List.foldl_cons, if_pos (by simpa using hmem), hadded]
          · rcases List.mem_cons.mp hother with rfl | hother
            · exact List.mem_append_left _ hmem
            · exact hall other hother
        · obtain ⟨added, hadded, hnodup, hsublist, hall⟩ := ih (kept ++ [name])
          rw [List.append_assoc, List.singleton_append] at hadded hnodup hall
          refine ⟨name :: added, ?_, fun hkept => hnodup ?_, hsublist.cons_cons name,
            fun other hother => ?_⟩
          · rw [List.foldl_cons, if_neg (by simpa using hmem), hadded]
          · refine List.nodup_append.mpr ⟨hkept, by simp, fun other hother last hlast hsame => ?_⟩
            rw [hsame, List.mem_singleton.mp hlast] at hother
            exact hmem hother
          · rcases List.mem_cons.mp hother with rfl | hother
            · simp
            · exact hall other hother
  obtain ⟨added, hadded, hnodup, hsublist, hall⟩ := hfold names []
  rw [List.nil_append] at hadded hnodup hall
  unfold distinctNames
  rw [hadded]
  exact ⟨hnodup .nil, hsublist, fun name => ⟨fun hname => hsublist.subset hname, hall name⟩⟩

variable {plan : Plan} {job : Job} {tree before after : FileTree} {written : List Path}

/-! ## The order of the outputs -/

/-- Outputs that go to different places can be written in any order. -/
theorem Plan.Finished.alike {after' : FileTree} {order order' : List Output}
    (h : plan.Finished before after order) (h' : plan.Finished before after' order')
    (hparted : plan.outputs.Pairwise fun output other => after.Parted output.path other.path) :
    after.Alike after' := by
  obtain ⟨hperm, made, hprepare, hwrites⟩ := h
  obtain ⟨hperm', made', hprepare', hwrites'⟩ := h'
  cases hprepare.symm.trans hprepare'
  obtain ⟨dumped, hdumps, houtputs⟩ := hwrites.split
  obtain ⟨dumped', hdumps', houtputs'⟩ := hwrites'.split
  obtain rfl := hdumps.unique hdumps'
  obtain ⟨entries, hgrows, -⟩ := houtputs.grows
  obtain ⟨entries', hgrows', -⟩ := houtputs'.grows
  refine ⟨hgrows.current_eq.trans hgrows'.current_eq.symm, fun location => ?_⟩
  refine houtputs.node?_eq_of_perm houtputs' ((hperm.trans hperm'.symm).map _) ?_ location
  intro write hwrite write' hwrite' place hgoes hgoes'
  obtain ⟨output, houtput, rfl⟩ := List.mem_map.mp hwrite
  obtain ⟨output', houtput', rfl⟩ := List.mem_map.mp hwrite'
  by_cases hsame : output = output'
  · rw [hsame]
  · have hapart := related_of_pairwise (R := after.Parted) Parted.symm hparted
      (hperm.mem_iff.mp houtput) (hperm.mem_iff.mp houtput') hsame
    exact absurd (houtputs.target_iff.mp hgoes') (hapart place (houtputs.target_iff.mp hgoes))

namespace Plan.Carried

variable {after' : FileTree} {written' : List Path}

theorem alike (h : plan.Carried before after written) (h' : plan.Carried before after' written')
    (hparted : plan.outputs.Pairwise fun output other => after.Parted output.path other.path) :
    after.Alike after' ∧ written.Perm written' := by
  rcases h with ⟨hempty, rfl, rfl⟩ | ⟨hnonempty, order, hfinished, rfl⟩ <;>
    rcases h' with ⟨hempty', rfl, rfl⟩ | ⟨hnonempty', order', hfinished', rfl⟩
  · exact ⟨⟨rfl, fun _ => rfl⟩, .refl _⟩
  · cases hempty.symm.trans hnonempty'
  · cases hempty'.symm.trans hnonempty
  · exact ⟨hfinished.alike hfinished' hparted,
      ((hfinished.1.trans hfinished'.1.symm).map _).append_left _⟩

theorem isEmpty_iff (h : plan.Carried before after written) :
    plan.isEmpty = true ↔ written = [] := by
  have hpaths : plan.isEmpty = true ↔ plan.paths = [] := by simp [Plan.isEmpty, paths]
  rw [hpaths, List.eq_nil_iff_forall_not_mem, List.eq_nil_iff_forall_not_mem]
  simp only [h.mem_written]

end Plan.Carried

/-- A run succeeds in every order of its tasks if it succeeds in one. -/
theorem Job.Ends.carried_of_plan {result : Except Error Report} (hplan : job.plan tree = .ok plan)
    {after' : FileTree} {written' : List Path} (hcarried : plan.Carried tree after written)
    (h : job.Ends tree after' written' result) :
    result = .ok plan.report ∧ plan.Carried tree after' written' := by
  have hsound := h.sound
  cases result with
  | ok report =>
      obtain ⟨plan', hplan', rfl, hcarried'⟩ := hsound
      cases hplan.symm.trans hplan'
      exact ⟨rfl, hcarried'⟩
  | error e =>
      rcases hsound with ⟨hfails, -⟩ | ⟨plan', hplan', hnonempty, hblocked⟩
      · cases hplan.symm.trans hfails
      · cases hplan.symm.trans hplan'
        rcases hcarried with ⟨hempty, -⟩ | ⟨-, order, hfinished, -⟩
        · cases hempty.symm.trans hnonempty
        · exact absurd hblocked hfinished.not_blocked

/-! ## What is written -/

/-- What a run has written, what it has left alone, and what it reports. -/
structure Job.Framed (job : Job) (before after : FileTree) (files : List TemplateFile)
    (written : List Path) (report : Report) : Prop where
  mem_written : ∀ path, path ∈ written ↔ path ∈ job.options.dumpsOf files ∨
    ∃ file ∈ files, job.Stale before file ∧ path = job.options.pathOf file
  others : ∀ location content,
    (∀ path ∈ written, ∀ content', ¬ after.Leads path location content') →
    (after.node? location = some (.file content) ↔ before.node? location = some (.file content))
  written_iff : report.written = true ↔ written ≠ []
  unwritten : report.written = false → after = before
  nodup : report.changed.Nodup
  sublist : report.changed.Sublist (files.map (·.name))
  mem_changed : ∀ name, name ∈ report.changed ↔
    ∃ file ∈ files, file.name = name ∧ job.Stale before file

variable {assembled : Contract} {files : List TemplateFile} {outputs : List Output}

theorem Renders.mem_changed_iff (hassembled : job.assembled = .ok assembled)
    (houtputs : Renders tree (job.context assembled) job.options files outputs job.format)
    {P : String → Path → Prop} :
    (∃ output ∈ outputs.filter (·.changed), P output.name output.path) ↔
      ∃ file ∈ files, job.Stale tree file ∧ P file.name (job.options.pathOf file) := by
  constructor
  · rintro ⟨output, houtput, hP⟩
    obtain ⟨hmem, hchanged⟩ := List.mem_filter.mp houtput
    obtain ⟨file, hfile, hrender⟩ := (mem_of_forall₂ houtputs).2 output hmem
    obtain ⟨hname, hpath, -, hiff⟩ := of_render hassembled hrender
    exact ⟨file, hfile, hiff.mp hchanged, hname ▸ hpath ▸ hP⟩
  · rintro ⟨file, hfile, hstale, hP⟩
    obtain ⟨output, houtput, hrender⟩ := (mem_of_forall₂ houtputs).1 file hfile
    obtain ⟨hname, hpath, -, hiff⟩ := of_render hassembled hrender
    exact ⟨output, List.mem_filter.mpr ⟨houtput, hiff.mpr hstale⟩, hname ▸ hpath ▸ hP⟩

theorem Renders.map_name (hassembled : job.assembled = .ok assembled)
    (houtputs : Renders tree (job.context assembled) job.options files outputs job.format) :
    outputs.map (·.name) = files.map (·.name) := by
  unfold Renders at houtputs
  induction houtputs with
  | nil => rfl
  | cons hrender _ ih =>
      rw [List.map_cons, List.map_cons, ih, (of_render hassembled hrender).1]

theorem Plan.Carried.framed (hassembled : job.assembled = .ok assembled)
    (houtputs : Renders tree (job.context assembled) job.options files outputs job.format)
    (hcarried : (Plan.ofOutputs job.options files assembled outputs).Carried tree after written) :
    job.Framed tree after files written
      (Plan.ofOutputs job.options files assembled outputs).report := by
  have hchanged := distinctNames_spec ((outputs.filter (·.changed)).map (·.name))
  have hnames : ((outputs.filter (·.changed)).map (·.name)).Sublist (files.map (·.name)) :=
    houtputs.map_name hassembled ▸ List.filter_sublist.map _
  exact {
    mem_written := fun path => by
      have hstale := houtputs.mem_changed_iff hassembled (P := fun _ out => out = path)
      rw [hcarried.mem_written, Plan.paths, List.mem_append, List.mem_map]
      refine or_congr Iff.rfl (hstale.trans ?_)
      simp only [eq_comm]
    others := fun location content hothers => hcarried.others hothers content
    written_iff := by
      rw [ne_eq, ← hcarried.isEmpty_iff]
      simp [Plan.report]
    unwritten := fun hunwritten => by
      rcases hcarried with ⟨-, hsame, -⟩ | ⟨hnonempty, -⟩
      · exact hsame
      · simp [Plan.report, hnonempty] at hunwritten
    nodup := hchanged.1
    sublist := hchanged.2.1.trans hnames
    mem_changed := fun name => by
      have hstale := houtputs.mem_changed_iff hassembled (P := fun other _ => other = name)
      refine (hchanged.2.2 name).trans (List.mem_map.trans (hstale.trans ?_))
      simp only [and_comm] }

/-- Without links a run that succeeds writes its dumps and its stale outputs and nothing else, and
reports just this.  In every other order of its tasks it ends with the same files and the same
report. -/
theorem successful_run_framed {report : Report} (hplain : tree.Plain)
    (hends : job.Ends tree after written (.ok report)) :
    (∃ files, job.selection.resolve tree = .ok files ∧
      job.Framed tree after files written report) ∧
    (∀ after' written' result, job.Ends tree after' written' result →
      result = .ok report ∧ after.Alike after' ∧ written.Perm written') ∧
    (job.generate tree).2 = .ok report ∧ after.Alike (job.generate tree).1 := by
  obtain ⟨files, assembled, outputs, hfiles, hassembled, houtputs, rfl, hcarried⟩ := hends.carried
  have hparted := resolve_parted job.options hplain
    (hcarried.linkless hplain.linkless) hfiles
  have hpairs := (houtputs.pairwise (R := after.Parted) hparted).filter (·.changed)
  have hplan : job.plan tree = .ok (.ofOutputs job.options files assembled outputs) :=
    plan_eq_ok_iff.mpr ⟨files, assembled, outputs, hfiles, hassembled, houtputs, rfl⟩
  have horders (after' : FileTree) (written' : List Path) (result : Except Error Report)
      (hends' : job.Ends tree after' written' result) :
      result = .ok (Plan.ofOutputs job.options files assembled outputs).report ∧
        after.Alike after' ∧ written.Perm written' := by
    obtain ⟨hresult, hcarried'⟩ := hends'.carried_of_plan hplan hcarried
    exact ⟨hresult, hcarried.alike hcarried' hpairs⟩
  obtain ⟨written', hgenerate⟩ := generate_ends job tree
  obtain ⟨hresult, halike, -⟩ := horders _ _ _ hgenerate
  exact ⟨⟨files, hfiles, hcarried.framed hassembled houtputs⟩, horders, hresult, halike⟩

theorem successful_run_framed_greeting :
    (∃ written, (greetingJob .standard).Ends greetingTree greetingAfter written
      (.ok ⟨true, ⟨"out"⟩, ["x"]⟩)) ∧
    ∀ after written result, (greetingJob .standard).Ends greetingTree after written result →
      result = .ok ⟨true, ⟨"out"⟩, ["x"]⟩ ∧ greetingAfter.Alike after ∧
      ∀ path, path ∈ written ↔ path = ⟨"out/full-schema.json"⟩ ∨ path = ⟨"out/x"⟩ := by
  obtain ⟨written, hends⟩ := generate_ends (greetingJob .standard) greetingTree
  rw [greetingJob_run] at hends
  obtain ⟨⟨files, hfiles, hframed⟩, horders, -⟩ := successful_run_framed greetingTree_plain hends
  cases greetingJob_files.symm.trans hfiles
  have hdumps : (greetingJob .standard).options.dumpsOf [greetingFile] =
      [⟨"out/full-schema.json"⟩] := by decide +kernel
  have hout : (greetingJob .standard).options.pathOf greetingFile = ⟨"out/x"⟩ := by decide +kernel
  refine ⟨⟨written, hends⟩, fun after written' result hends' => ?_⟩
  obtain ⟨hresult, halike, hperm⟩ := horders after written' result hends'
  refine ⟨hresult, halike, fun path => ?_⟩
  rw [← hperm.mem_iff, hframed.mem_written, hdumps]
  simp [greetingFile_stale, hout]

end Generation

end RpcContract
