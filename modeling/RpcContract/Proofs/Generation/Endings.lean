import RpcContract.Proofs.Files.Plain
import RpcContract.Proofs.Generation.Schedule

/-!
# How runs end

`Sound` says of every moment of a run what has been done so far.  A run that fails before it writes
fails like its plan, and leaves the files as they are.  A run that succeeds has carried out its
plan, with the outputs written in some order; whether it can be carried out does not depend on the
order.
-/

namespace RpcContract.Generation

open FileTree Relation

/-- A plan that cannot be carried out: a directory cannot be made, or a file cannot be written once
the directories are there. -/
def Plan.Blocked (plan : Plan) (tree : FileTree) : Prop :=
  (∃ made e, plan.prepare tree = (made, .error e)) ∨
    ∃ made, plan.prepare tree = (made, .ok ()) ∧ ∃ path ∈ plan.paths, ¬ made.Writable path

theorem Plan.Finished.not_blocked {plan : Plan} {before after : FileTree} {order : List Output}
    (h : plan.Finished before after order) : ¬ plan.Blocked before := by
  obtain ⟨made, hprepare, hwrites⟩ := h.2
  rintro (⟨made', e, hfails⟩ | ⟨made', hprepare', path, hpath, hblocked⟩)
  · cases hprepare.symm.trans hfails
  · cases hprepare.symm.trans hprepare'
    rcases List.mem_append.mp hpath with hdump | houtput
    · exact hblocked (hwrites.writable
        (List.mem_append_left _ (List.mem_map.mpr ⟨path, hdump, rfl⟩)))
    · obtain ⟨output, hmem, rfl⟩ := List.mem_map.mp houtput
      exact hblocked (hwrites.writable (List.mem_append_right _
        (List.mem_map.mpr ⟨output, h.mem_order.mpr hmem, rfl⟩)))

/-- What a run has done that succeeds with a plan. -/
def Plan.Carried (plan : Plan) (before after : FileTree) (written : List Path) : Prop :=
  plan.isEmpty = true ∧ after = before ∧ written = [] ∨
    plan.isEmpty = false ∧ ∃ order, plan.Finished before after order ∧
      written = plan.dumps ++ order.map (·.path)

namespace Plan.Carried

variable {plan : Plan} {before after : FileTree} {written : List Path}

theorem grows (h : plan.Carried before after written) : ∃ entries, Grows before entries after ∧
    ∀ entry ∈ entries, ∀ target, entry.2 ≠ .link target := by
  rcases h with ⟨-, rfl, -⟩ | ⟨-, order, hfinished, -⟩
  · exact ⟨[], .none _, by simp⟩
  · obtain ⟨made, directories, files, hmade, hwritten, hdirectories, hfiles⟩ := hfinished.grows
    refine ⟨_, hmade.append hwritten, fun entry hentry target htarget => ?_⟩
    rcases List.mem_append.mp hentry with hdirectory | hfile
    · cases (hdirectories entry hdirectory).symm.trans htarget
    · obtain ⟨content, hcontent⟩ := hfiles entry hfile
      cases hcontent.symm.trans htarget

theorem linkless (h : plan.Carried before after written) (hbefore : before.Linkless) :
    after.Linkless := by
  obtain ⟨entries, hgrows, hentries⟩ := h.grows
  exact hgrows.linkless hbefore hentries

theorem left (h : plan.Carried before after written)
    (houtputs : plan.outputs.Pairwise fun output other => after.Apart output.path other.path) :
    plan.Left before after := by
  rcases h with ⟨hempty, rfl, -⟩ | ⟨-, order, hfinished, -⟩
  · exact .of_isEmpty hempty
  · exact hfinished.left houtputs

theorem dump (h : plan.Carried before after written) {path : Path} (hpath : path ∈ plan.dumps)
    (hapart : ∀ output ∈ plan.outputs, after.Apart path output.path) :
    HasText after path plan.dumpText := by
  rcases h with ⟨hempty, -, -⟩ | ⟨-, order, hfinished, -⟩
  · simp only [isEmpty, Bool.and_eq_true, List.isEmpty_iff] at hempty
    rw [hempty.1] at hpath
    cases hpath
  · exact hfinished.dump hpath hapart

theorem mem_written (h : plan.Carried before after written) {path : Path} :
    path ∈ written ↔ path ∈ plan.paths := by
  rcases h with ⟨hempty, -, rfl⟩ | ⟨-, order, hfinished, rfl⟩
  · simp only [isEmpty, Bool.and_eq_true, List.isEmpty_iff] at hempty
    simp [paths, hempty.1, hempty.2]
  · simp only [paths, List.mem_append, List.mem_map, hfinished.mem_order]

theorem others (h : plan.Carried before after written) {location : Location}
    (hothers : ∀ path ∈ written, ∀ content, ¬ after.Leads path location content)
    (content : Content) :
    after.node? location = some (.file content) ↔
      before.node? location = some (.file content) := by
  have hpaths : ∀ path ∈ plan.paths, ∀ content, ¬ after.Leads path location content :=
    fun path hpath => hothers path (h.mem_written.mpr hpath)
  rcases h with ⟨-, rfl, -⟩ | ⟨-, order, hfinished, -⟩
  · rfl
  · exact hfinished.others hpaths content

end Plan.Carried

theorem forall_mem_replaced {α : Type} {P : α → Prop} {before after : List α} {old new : α}
    (h : ∀ task ∈ before ++ old :: after, P task) (hnew : P old → P new) :
    ∀ task ∈ before ++ new :: after, P task := by
  simp only [List.forall_mem_append, List.forall_mem_cons] at h ⊢
  obtain ⟨hbefore, hold, hafter⟩ := h
  exact ⟨hbefore, hnew hold, hafter⟩

def writtenOutputs (tasks : List (Output × Option (Except FileFault Unit))) : List Output :=
  tasks.filterMap fun task =>
    match task.2 with
    | some (.ok ()) => some task.1
    | _ => none

section WrittenOutputs

variable {before after : List (Output × Option (Except FileFault Unit))} {output : Output}

theorem writtenOutputs_append :
    writtenOutputs (before ++ after) = writtenOutputs before ++ writtenOutputs after :=
  List.filterMap_append

theorem writtenOutputs_pending :
    writtenOutputs ((output, none) :: after) = writtenOutputs after := rfl

theorem writtenOutputs_failed {fault : FileFault} :
    writtenOutputs ((output, some (.error fault)) :: after) = writtenOutputs after := rfl

theorem writtenOutputs_done :
    writtenOutputs ((output, some (.ok ())) :: after) = output :: writtenOutputs after := rfl

theorem writtenOutputs_waiting (outputs : List Output) :
    writtenOutputs (outputs.map (·, none)) = [] := by
  simp [writtenOutputs]

end WrittenOutputs

namespace Job

def Concluded (job : Job) (start tree : FileTree) (written : List Path) :
    Except Error Report → Prop
  | .error e =>
      (job.plan start = .error e ∧ tree = start ∧ written = []) ∨
        ∃ plan, job.plan start = .ok plan ∧ plan.isEmpty = false ∧ plan.Blocked start
  | .ok report =>
      ∃ plan, job.plan start = .ok plan ∧ report = plan.report ∧ plan.Carried start tree written

def Sound (job : Job) (start : FileTree) (moment : Moment) : Prop :=
  match moment.stage with
  | .rendering assembled tasks =>
      moment.tree = start ∧ moment.written = [] ∧
        job.selection.resolve start = .ok (tasks.map (·.1)) ∧ job.assembled = .ok assembled ∧
        ∀ task ∈ tasks,
          job.outcome start assembled task.1 task.2 = job.render start assembled task.1
  | .opening plan =>
      moment.tree = start ∧ moment.written = [] ∧ job.plan start = .ok plan ∧
        plan.isEmpty = false
  | .making plan rest =>
      moment.written = [] ∧ job.plan start = .ok plan ∧ plan.isEmpty = false ∧
        plan.prepare start = Plan.makeParents moment.tree rest
  | .dumping plan rest =>
      job.plan start = .ok plan ∧ plan.isEmpty = false ∧ ∃ made,
        plan.prepare start = (made, .ok ()) ∧ plan.dumps = moment.written ++ rest ∧
        Writes made (moment.written.map (·, plan.dumpText)) moment.tree
  | .writing plan tasks =>
      job.plan start = .ok plan ∧ plan.isEmpty = false ∧ tasks.map (·.1) = plan.outputs ∧
        ∃ made order, plan.prepare start = (made, .ok ()) ∧ order.Perm (writtenOutputs tasks) ∧
          moment.written = plan.dumps ++ order.map (·.path) ∧
          Writes made (plan.writes order) moment.tree ∧
          ∀ task ∈ tasks, ∀ fault, task.2 = some (.error fault) → ¬ made.Writable task.1.path
  | .ended result => job.Concluded start moment.tree moment.written result

variable {job : Job} {start : FileTree} {moment moment' : Moment}

theorem sound_start (job : Job) (start : FileTree) : job.Sound start (job.start start) := by
  unfold Job.start
  cases hfiles : job.selection.resolve start with
  | error e => exact .inl ⟨plan_of_resolve_error hfiles, rfl, rfl⟩
  | ok files =>
      cases hassembled : job.assembled with
      | error missing => exact .inl ⟨plan_of_assembled_error hfiles hassembled, rfl, rfl⟩
      | ok assembled =>
          refine ⟨rfl, rfl, ?_, hassembled, fun task htask => ?_⟩
          · rw [List.map_map]
            exact hfiles.trans (congrArg Except.ok (List.map_id files).symm)
          obtain ⟨file, -, rfl⟩ := List.mem_map.mp htask
          rfl

theorem sound_planned {assembled : Contract} {files : List TemplateFile}
    (hfiles : job.selection.resolve start = .ok files)
    (hassembled : job.assembled = .ok assembled) :
    job.Sound start
      ⟨start, [], job.planned assembled files (files.mapM (job.render start assembled))⟩ := by
  have hplan := plan_of_assembled hfiles hassembled
  cases houtputs : files.mapM (job.render start assembled) with
  | error e =>
      rw [houtputs] at hplan
      exact .inl ⟨hplan, rfl, rfl⟩
  | ok outputs =>
      rw [houtputs] at hplan
      rw [planned]
      by_cases hempty : (Plan.ofOutputs job.options files assembled outputs).isEmpty = true
      · rw [if_pos hempty]
        exact ⟨_, hplan, rfl, .inl ⟨hempty, rfl, rfl⟩⟩
      · rw [if_neg hempty]
        exact ⟨rfl, rfl, hplan, by simpa using hempty⟩

theorem sound_gathered {tree : FileTree} {written : List Path} {assembled : Contract}
    {tasks : List (TemplateFile × Except Error Output)}
    (h : job.Sound start ⟨tree, written,
      .rendering assembled (tasks.map fun task => (task.1, .finished task.2))⟩) :
    job.Sound start
      ⟨tree, written, job.planned assembled (tasks.map (·.1)) (tasks.mapM (·.2))⟩ := by
  obtain ⟨rfl, hwritten, hfiles, hassembled, htasks⟩ := h
  dsimp only at hwritten
  subst hwritten
  have hmap : tasks.map (·.2) = tasks.map fun task => job.render tree assembled task.1 :=
    List.map_congr_left fun task htask =>
      htasks (task.1, .finished task.2) (List.mem_map.mpr ⟨task, htask, rfl⟩)
  have hresults : tasks.mapM (·.2) = (tasks.map (·.1)).mapM (job.render tree assembled) := by
    have hmapM := congrArg (List.mapM id) hmap
    rw [List.mapM_map, List.mapM_map] at hmapM
    rw [List.mapM_map]
    exact hmapM
  rw [hresults]
  refine sound_planned ?_ hassembled
  simpa [Function.comp_def] using hfiles

theorem sound_concluded {tree : FileTree} {written : List Path} {plan : Plan}
    {tasks : List (Output × Except FileFault Unit)}
    (h : job.Sound start
      ⟨tree, written, .writing plan (tasks.map fun task => (task.1, some task.2))⟩) :
    job.Concluded start tree written (plan.concluded tasks) := by
  obtain ⟨hplan, hnonempty, htasks, made, order, hprepare, horder, hwritten, hwrites, hfails⟩ := h
  rw [List.map_map] at htasks
  by_cases hall : ∀ task ∈ tasks, task.2 = .ok ()
  -- Every task has written its output.
  · have hconcluded : plan.concluded tasks = .ok plan.report := by
      have hresults : tasks.mapM writeResult = .ok (tasks.map fun _ => ()) := by
        rw [mapM_eq_ok_iff, List.forall₂_map_right_iff, List.forall₂_same]
        intro task htask
        rw [writeResult, hall task htask]
        rfl
      rw [Plan.concluded, hresults]
      rfl
    have houtputs : writtenOutputs (tasks.map fun task => (task.1, some task.2)) =
        plan.outputs := by
      rw [← htasks, writtenOutputs, List.filterMap_map, ← List.filterMap_eq_map]
      refine List.filterMap_congr fun task htask => ?_
      simp only [Function.comp_apply, hall task htask]
    rw [hconcluded]
    exact ⟨plan, hplan, rfl, .inr ⟨hnonempty, order,
      ⟨houtputs ▸ horder, made, hprepare, hwrites⟩, hwritten⟩⟩
  -- A task has failed, and would have failed in any other order.
  · cases hresults : tasks.mapM writeResult with
    | ok results =>
        refine absurd (fun task htask => ?_) hall
        obtain ⟨_, -, hresult⟩ := (mem_of_forall₂ (mapM_eq_ok_iff.mp hresults)).1 task htask
        exact mapError_eq_ok_iff.mp hresult
    | error e =>
        rw [Plan.concluded, hresults]
        refine .inr ⟨plan, hplan, hnonempty, .inr ⟨made, hprepare, ?_⟩⟩
        obtain ⟨⟨output, result⟩, htask, hresult⟩ : ∃ task ∈ tasks, task.2 ≠ .ok () := by
          simpa using hall
        cases result with
        | ok => exact absurd rfl hresult
        | error fault =>
            refine ⟨output.path, List.mem_append_right _ ?_, hfails
              (output, some (.error fault)) (List.mem_map.mpr ⟨_, htask, rfl⟩) fault rfl⟩
            rw [← htasks, List.map_map]
            exact List.mem_map.mpr ⟨_, htask, rfl⟩

end Job

variable {job : Job} {start : FileTree} {moment moment' : Moment}

theorem Step.sound (h : Step job moment moment') (hsound : job.Sound start moment) :
    job.Sound start moment' := by
  cases h with
  | @render tree written assembled before after file progress hprogress =>
      obtain ⟨rfl, hwritten, hfiles, hassembled, htasks⟩ := hsound
      exact ⟨rfl, hwritten, by simpa using hfiles, hassembled, forall_mem_replaced htasks
        (job.outcome_advance _ assembled file progress).trans⟩
  | gather tasks => exact Job.sound_gathered hsound
  | opened hmake =>
      obtain ⟨rfl, hwritten, hplan, hnonempty⟩ := hsound
      refine ⟨hwritten, hplan, hnonempty, ?_⟩
      rw [Plan.prepare, hmake]
  | @notOpened tree made written plan fault hmake =>
      obtain ⟨rfl, hwritten, hplan, hnonempty⟩ := hsound
      have hfails : plan.prepare tree = (made, .error (.noOutputDirectory plan.outDir fault)) := by
        rw [Plan.prepare, hmake]
      exact .inr ⟨plan, hplan, hnonempty, .inl ⟨made, _, hfails⟩⟩
  | made hmake =>
      obtain ⟨hwritten, hplan, hnonempty, hprepare⟩ := hsound
      refine ⟨hwritten, hplan, hnonempty, hprepare.trans ?_⟩
      rw [Plan.makeParents, hmake]
  | @notMade tree made written plan path rest fault hmake =>
      obtain ⟨hwritten, hplan, hnonempty, hprepare⟩ := hsound
      have hfails : Plan.makeParents tree (path :: rest) =
          (made, .error (.noDirectory path fault)) := by
        rw [Plan.makeParents, hmake]
      exact .inr ⟨plan, hplan, hnonempty, .inl ⟨made, _, hprepare.trans hfails⟩⟩
  | allMade =>
      obtain ⟨hwritten, hplan, hnonempty, hprepare⟩ := hsound
      dsimp only at hwritten
      subst hwritten
      exact ⟨hplan, hnonempty, _, hprepare, rfl, .none _⟩
  | dumped hwrite =>
      obtain ⟨hplan, hnonempty, made, hprepare, hdumps, hwrites⟩ := hsound
      refine ⟨hplan, hnonempty, made, hprepare, by simpa using hdumps, ?_⟩
      simpa using hwrites.concat hwrite
  | @notDumped tree written plan path rest fault hwrite =>
      obtain ⟨hplan, hnonempty, made, hprepare, hdumps, hwrites⟩ := hsound
      have hpath : path ∈ plan.dumps := by
        rw [hdumps]
        simp
      exact .inr ⟨plan, hplan, hnonempty, .inr ⟨made, hprepare, path,
        List.mem_append_left _ hpath, hwrites.not_writable hwrite⟩⟩
  | @allDumped tree written plan =>
      obtain ⟨hplan, hnonempty, made, hprepare, hdumps, hwrites⟩ := hsound
      rw [List.append_nil] at hdumps
      dsimp only at hdumps hwrites
      subst hdumps
      refine ⟨hplan, hnonempty, ?_, made, [], hprepare, ?_, by simp, ?_, fun task htask => ?_⟩
      · rw [List.map_map]
        exact List.map_id plan.outputs
      · rw [writtenOutputs_waiting]
      · simpa [Plan.writes] using hwrites
      · obtain ⟨output, -, rfl⟩ := List.mem_map.mp htask
        simp
  | @wrote tree next written plan before after output hwrite =>
      obtain ⟨hplan, hnonempty, htasks, made, order, hprepare, horder, hwritten, hwrites, hfails⟩ :=
        hsound
      refine ⟨hplan, hnonempty, by simpa using htasks, made, order ++ [output], hprepare, ?_, ?_,
        ?_, forall_mem_replaced hfails fun _ _ hfault => by cases hfault⟩
      · rw [writtenOutputs_append, writtenOutputs_done]
        rw [writtenOutputs_append, writtenOutputs_pending] at horder
        exact (List.perm_append_singleton output order).trans
          ((horder.cons output).trans List.perm_middle.symm)
      · dsimp only at hwritten
        rw [hwritten]
        simp
      · have hlast := hwrites.concat hwrite
        simpa [Plan.writes] using hlast
  | @notWritten tree written plan before after output fault hwrite =>
      obtain ⟨hplan, hnonempty, htasks, made, order, hprepare, horder, hwritten, hwrites, hfails⟩ :=
        hsound
      refine ⟨hplan, hnonempty, by simpa using htasks, made, order, hprepare, ?_, hwritten, hwrites,
        forall_mem_replaced hfails fun _ _ _ => hwrites.not_writable hwrite⟩
      rw [writtenOutputs_append, writtenOutputs_failed]
      rwa [writtenOutputs_append, writtenOutputs_pending] at horder
  | conclude tasks => exact Job.sound_concluded hsound

theorem Job.Reaches.sound (h : job.Reaches start moment) : job.Sound start moment := by
  induction h with
  | refl => exact Job.sound_start job start
  | tail _ hstep ih => exact hstep.sound ih

/-- A run that succeeds has rendered every file and carried out its plan. -/
theorem Job.Ends.carried {after : FileTree} {written : List Path} {report : Report}
    (h : job.Ends start after written (.ok report)) :
    ∃ files assembled outputs, job.selection.resolve start = .ok files ∧
      job.assembled = .ok assembled ∧
      Renders start (job.context assembled) job.options files outputs job.format ∧
      let plan := Plan.ofOutputs job.options files assembled outputs
      report = plan.report ∧ plan.Carried start after written := by
  obtain ⟨plan, hplan, hreport, hcarried⟩ := h.sound
  obtain ⟨files, assembled, outputs, hfiles, hassembled, houtputs, rfl⟩ := plan_eq_ok_iff.mp hplan
  exact ⟨files, assembled, outputs, hfiles, hassembled, houtputs, hreport, hcarried⟩

end RpcContract.Generation
