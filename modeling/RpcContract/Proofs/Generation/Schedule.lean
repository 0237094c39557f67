import Mathlib.Logic.Relation
import RpcContract.Proofs.Generation.Runs

/-!
# Tasks that take turns

Every selected file is rendered by a task of its own, and every changed output is written by one.
`Step` says what may happen next in a run: a task that has not finished goes on, whichever it is, or
the run itself goes on.  `generate` is one of these runs, in which the tasks go one after the other.
-/

namespace RpcContract.Generation

open FileTree Relation

structure Job where
  contract : Contract
  segments : List Segment
  selection : Selection
  options : Options
  banner : String
  format : Formatting

namespace Job

def context (job : Job) (assembled : Contract) : Client.Context :=
  contextOf assembled job.segments job.options job.banner

def assembled (job : Job) : Except MissingSegment Contract :=
  job.contract.assemble (job.segments.map (·.name))

def textOf (job : Job) (tree : FileTree) (file : TemplateFile) : Except Error String :=
  Generation.textOf tree job.contract job.segments job.options job.banner file job.format

def render (job : Job) (tree : FileTree) (assembled : Contract) (file : TemplateFile) :
    Except Error Output :=
  file.render tree (job.context assembled) job.options.formatter job.options.outDir job.format

def plan (job : Job) (tree : FileTree) : Except Error Plan :=
  Generation.plan tree job.contract job.segments job.selection job.options job.banner job.format

def generate (job : Job) (tree : FileTree) : FileTree × Except Error Report :=
  Generation.generate tree job.contract job.segments job.selection job.options job.banner
    job.format

end Job

/-! ## The task of a file -/

/-- How far the task that renders a file has come. -/
inductive Progress where
  | waiting
  | read (source : String)
  | rendered (text : String)
  | formatted (text : String)
  | finished (result : Except Error Output)

namespace Progress

def isFinished : Progress → Bool
  | .finished _ => true
  | _ => false

def ofExcept {α : Type} (next : α → Progress) : Except Error α → Progress
  | .ok value => next value
  | .error e => .finished (.error e)

end Progress

namespace Job

variable (job : Job) (tree : FileTree) (assembled : Contract) (file : TemplateFile)

def renderSource (source : String) : Except Error String :=
  (Client.render file.path source (job.context assembled)).mapError .template

def formatText (text : String) : Except Error String :=
  match job.options.formatter with
  | none => .ok text
  | some command => job.format command text

def compareText (text : String) : Except Error Output :=
  (readExisting tree (job.options.pathOf file)).map fun existing =>
    ⟨file.name, job.options.pathOf file, text, shouldWrite existing text⟩

def advance : Progress → Progress
  | .waiting => .ofExcept .read (file.readSource tree)
  | .read source => .ofExcept .rendered (job.renderSource assembled file source)
  | .rendered text => .ofExcept .formatted (job.formatText text)
  | .formatted text => .finished (job.compareText tree file text)
  | .finished result => .finished result

/-- What a task is going to end with, if the files stay as they are. -/
def outcome : Progress → Except Error Output
  | .waiting => job.render tree assembled file
  | .read source =>
      job.renderSource assembled file source >>= fun text =>
        job.formatText text >>= job.compareText tree file
  | .rendered text => job.formatText text >>= job.compareText tree file
  | .formatted text => job.compareText tree file text
  | .finished result => result

theorem renderedText_eq_bind :
    file.renderedText tree (job.context assembled) job.options.formatter job.format =
      file.readSource tree >>= fun source =>
        job.renderSource assembled file source >>= job.formatText := rfl

theorem render_eq_renderedText_bind :
    job.render tree assembled file =
      file.renderedText tree (job.context assembled) job.options.formatter job.format >>=
        job.compareText tree file := by
  unfold render TemplateFile.render
  refine congrArg _ (funext fun text => ?_)
  change (readExisting tree (job.options.pathOf file) >>= _) =
    (readExisting tree (job.options.pathOf file)).map _
  cases readExisting tree (job.options.pathOf file) <;> rfl

theorem render_eq_bind :
    job.render tree assembled file = file.readSource tree >>= fun source =>
      job.renderSource assembled file source >>= fun text =>
        job.formatText text >>= job.compareText tree file := by
  rw [render_eq_renderedText_bind, renderedText_eq_bind]
  cases file.readSource tree with
  | error e => rfl
  | ok source =>
      change (job.renderSource assembled file source >>= job.formatText) >>= _ =
        job.renderSource assembled file source >>= _
      cases job.renderSource assembled file source <;> rfl

theorem outcome_advance (progress : Progress) :
    job.outcome tree assembled file (job.advance tree assembled file progress) =
      job.outcome tree assembled file progress := by
  cases progress with
  | waiting =>
      change _ = job.render tree assembled file
      rw [render_eq_bind, advance]
      cases file.readSource tree <;> rfl
  | read source =>
      rw [advance, outcome]
      cases job.renderSource assembled file source <;> rfl
  | rendered text =>
      rw [advance, outcome]
      cases job.formatText text <;> rfl
  | formatted text => rfl
  | finished result => rfl

end Job

/-! ## A whole run -/

/-- Where a run stands: its tasks render files; it opens its output directory and makes the others;
it writes the dumps that are left; its tasks write outputs, each with its result once it is done; it
has ended. -/
inductive Stage where
  | rendering (assembled : Contract) (tasks : List (TemplateFile × Progress))
  | opening (plan : Plan)
  | making (plan : Plan) (rest : List Path)
  | dumping (plan : Plan) (rest : List Path)
  | writing (plan : Plan) (tasks : List (Output × Option (Except FileFault Unit)))
  | ended (result : Except Error Report)

/-- The files at a moment of a run, and the paths that it has written so far. -/
structure Moment where
  tree : FileTree
  written : List Path
  stage : Stage

namespace Job

def start (job : Job) (tree : FileTree) : Moment where
  tree := tree
  written := []
  stage :=
    match job.selection.resolve tree with
    | .error e => .ended (.error e)
    | .ok files =>
        match job.assembled with
        | .error missing => .ended (.error (.missingSegment missing))
        | .ok assembled => .rendering assembled (files.map (·, .waiting))

/-- How a run goes on with the results of its rendering tasks, in the order of the files. -/
def planned (job : Job) (assembled : Contract) (files : List TemplateFile) :
    Except Error (List Output) → Stage
  | .error e => .ended (.error e)
  | .ok outputs =>
      let plan := Plan.ofOutputs job.options files assembled outputs
      if plan.isEmpty then .ended (.ok plan.report) else .opening plan

end Job

def writeResult (task : Output × Except FileFault Unit) : Except Error Unit :=
  task.2.mapError (.noOutput task.1.path)

/-- How a run ends with the results of its writing tasks, in the order of the outputs. -/
def Plan.concluded (plan : Plan) (tasks : List (Output × Except FileFault Unit)) :
    Except Error Report :=
  (tasks.mapM writeResult).map fun _ => plan.report

inductive Step (job : Job) : Moment → Moment → Prop
  | render {tree : FileTree} {written : List Path} {assembled : Contract}
      {before after : List (TemplateFile × Progress)} {file : TemplateFile} {progress : Progress} :
      progress.isFinished = false →
      Step job ⟨tree, written, .rendering assembled (before ++ (file, progress) :: after)⟩
        ⟨tree, written, .rendering assembled
          (before ++ (file, job.advance tree assembled file progress) :: after)⟩
  | gather {tree : FileTree} {written : List Path} {assembled : Contract}
      (tasks : List (TemplateFile × Except Error Output)) :
      Step job
        ⟨tree, written, .rendering assembled (tasks.map fun task => (task.1, .finished task.2))⟩
        ⟨tree, written, job.planned assembled (tasks.map (·.1)) (tasks.mapM (·.2))⟩
  | opened {tree made : FileTree} {written : List Path} {plan : Plan} :
      tree.makeDirectories plan.outDir = (made, .ok ()) →
      Step job ⟨tree, written, .opening plan⟩
        ⟨made, written, .making plan (parentDirectories plan.paths)⟩
  | notOpened {tree made : FileTree} {written : List Path} {plan : Plan} {fault : FileFault} :
      tree.makeDirectories plan.outDir = (made, .error fault) →
      Step job ⟨tree, written, .opening plan⟩
        ⟨made, written, .ended (.error (.noOutputDirectory plan.outDir fault))⟩
  | made {tree made : FileTree} {written : List Path} {plan : Plan} {path : Path}
      {rest : List Path} :
      tree.makeDirectories path = (made, .ok ()) →
      Step job ⟨tree, written, .making plan (path :: rest)⟩ ⟨made, written, .making plan rest⟩
  | notMade {tree made : FileTree} {written : List Path} {plan : Plan} {path : Path}
      {rest : List Path} {fault : FileFault} :
      tree.makeDirectories path = (made, .error fault) →
      Step job ⟨tree, written, .making plan (path :: rest)⟩
        ⟨made, written, .ended (.error (.noDirectory path fault))⟩
  | allMade {tree : FileTree} {written : List Path} {plan : Plan} :
      Step job ⟨tree, written, .making plan []⟩ ⟨tree, written, .dumping plan plan.dumps⟩
  | dumped {tree next : FileTree} {written : List Path} {plan : Plan} {path : Path}
      {rest : List Path} :
      tree.write path (.text plan.dumpText) = .ok next →
      Step job ⟨tree, written, .dumping plan (path :: rest)⟩
        ⟨next, written ++ [path], .dumping plan rest⟩
  | notDumped {tree : FileTree} {written : List Path} {plan : Plan} {path : Path}
      {rest : List Path} {fault : FileFault} :
      tree.write path (.text plan.dumpText) = .error fault →
      Step job ⟨tree, written, .dumping plan (path :: rest)⟩
        ⟨tree, written, .ended (.error (.noDump path fault))⟩
  | allDumped {tree : FileTree} {written : List Path} {plan : Plan} :
      Step job ⟨tree, written, .dumping plan []⟩
        ⟨tree, written, .writing plan (plan.outputs.map (·, none))⟩
  | wrote {tree next : FileTree} {written : List Path} {plan : Plan}
      {before after : List (Output × Option (Except FileFault Unit))} {output : Output} :
      tree.write output.path (.text output.text) = .ok next →
      Step job ⟨tree, written, .writing plan (before ++ (output, none) :: after)⟩
        ⟨next, written ++ [output.path], .writing plan (before ++ (output, some (.ok ())) :: after)⟩
  | notWritten {tree : FileTree} {written : List Path} {plan : Plan}
      {before after : List (Output × Option (Except FileFault Unit))} {output : Output}
      {fault : FileFault} :
      tree.write output.path (.text output.text) = .error fault →
      Step job ⟨tree, written, .writing plan (before ++ (output, none) :: after)⟩
        ⟨tree, written, .writing plan (before ++ (output, some (.error fault)) :: after)⟩
  | conclude {tree : FileTree} {written : List Path} {plan : Plan}
      (tasks : List (Output × Except FileFault Unit)) :
      Step job ⟨tree, written, .writing plan (tasks.map fun task => (task.1, some task.2))⟩
        ⟨tree, written, .ended (plan.concluded tasks)⟩

namespace Job

/-- The moments of the runs that start from a tree. -/
def Reaches (job : Job) (tree : FileTree) (moment : Moment) : Prop :=
  ReflTransGen (Step job) (job.start tree) moment

/-- A run from a tree ends with these files and this result, and has written these paths. -/
def Ends (job : Job) (tree after : FileTree) (written : List Path)
    (result : Except Error Report) : Prop :=
  job.Reaches tree ⟨after, written, .ended result⟩

end Job

/-! ## One task after the other -/

section InOrder

variable (job : Job) (tree : FileTree) (written : List Path) (assembled : Contract)

theorem advance_finishes {file : TemplateFile} (progress : Progress)
    (before later : List (TemplateFile × Progress)) :
    ReflTransGen (Step job)
      ⟨tree, written, .rendering assembled (before ++ (file, progress) :: later)⟩
      ⟨tree, written, .rendering assembled
        (before ++ (file, .finished (job.outcome tree assembled file progress)) :: later)⟩ := by
  have hfinished (result : Except Error Output) : ReflTransGen (Step job)
      ⟨tree, written, .rendering assembled (before ++ (file, .finished result) :: later)⟩
      ⟨tree, written, .rendering assembled (before ++ (file, .finished
        (job.outcome tree assembled file (.finished result))) :: later)⟩ := .refl
  have hformatted (text : String) : ReflTransGen (Step job)
      ⟨tree, written, .rendering assembled (before ++ (file, .formatted text) :: later)⟩
      ⟨tree, written, .rendering assembled (before ++ (file, .finished
        (job.outcome tree assembled file (.formatted text))) :: later)⟩ := .head (.render rfl) .refl
  have hrendered (text : String) : ReflTransGen (Step job)
      ⟨tree, written, .rendering assembled (before ++ (file, .rendered text) :: later)⟩
      ⟨tree, written, .rendering assembled (before ++ (file, .finished
        (job.outcome tree assembled file (.rendered text))) :: later)⟩ := by
    rw [← job.outcome_advance]
    refine .head (.render rfl) ?_
    rw [Job.advance]
    cases job.formatText text with
    | error e => exact hfinished _
    | ok text => exact hformatted text
  have hread (source : String) : ReflTransGen (Step job)
      ⟨tree, written, .rendering assembled (before ++ (file, .read source) :: later)⟩
      ⟨tree, written, .rendering assembled (before ++ (file, .finished
        (job.outcome tree assembled file (.read source))) :: later)⟩ := by
    rw [← job.outcome_advance]
    refine .head (.render rfl) ?_
    rw [Job.advance]
    cases job.renderSource assembled file source with
    | error e => exact hfinished _
    | ok text => exact hrendered text
  cases progress with
  | waiting =>
      rw [← job.outcome_advance]
      refine .head (.render rfl) ?_
      rw [Job.advance]
      cases file.readSource tree with
      | error e => exact hfinished _
      | ok source => exact hread source
  | read source => exact hread source
  | rendered text => exact hrendered text
  | formatted text => exact hformatted text
  | finished result => exact hfinished result

theorem render_inOrder (files : List TemplateFile) (before : List (TemplateFile × Progress)) :
    ReflTransGen (Step job)
      ⟨tree, written, .rendering assembled (before ++ files.map (·, .waiting))⟩
      ⟨tree, written, .rendering assembled
        (before ++ files.map fun file => (file, .finished (job.render tree assembled file)))⟩ := by
  induction files generalizing before with
  | nil => exact .refl
  | cons file rest ih =>
      refine (advance_finishes job tree written assembled .waiting before
        (rest.map (·, .waiting))).trans ?_
      have hrest := ih (before ++ [(file, .finished (job.render tree assembled file))])
      rw [List.append_assoc, List.append_assoc] at hrest
      exact hrest

theorem make_inOrder (plan : Plan) (paths : List Path) :
    ReflTransGen (Step job) ⟨tree, written, .making plan paths⟩
      (match Plan.makeParents tree paths with
        | (after, .ok ()) => ⟨after, written, .making plan []⟩
        | (after, .error e) => ⟨after, written, .ended (.error e)⟩) := by
  induction paths generalizing tree with
  | nil => exact .refl
  | cons path rest ih =>
      rw [Plan.makeParents]
      rcases hmake : tree.makeDirectories path with ⟨made, fault | ⟨⟩⟩
      · exact .head (.notMade hmake) .refl
      · exact .head (.made hmake) (ih made)

theorem dump_inOrder (plan : Plan) (paths : List Path) :
    ∃ written', ReflTransGen (Step job) ⟨tree, written, .dumping plan paths⟩
      (match Plan.writeDumps plan.dumpText tree paths with
        | (after, .ok ()) => ⟨after, written', .dumping plan []⟩
        | (after, .error e) => ⟨after, written', .ended (.error e)⟩) := by
  induction paths generalizing tree written with
  | nil => exact ⟨written, .refl⟩
  | cons path rest ih =>
      rw [Plan.writeDumps]
      cases hwrite : tree.write path (.text plan.dumpText) with
      | error fault => exact ⟨written, .head (.notDumped hwrite) .refl⟩
      | ok next =>
          obtain ⟨written', hrest⟩ := ih next (written ++ [path])
          exact ⟨written', .head (.dumped hwrite) hrest⟩

theorem write_inOrder (plan : Plan) (outputs : List Output)
    (before : List (Output × Option (Except FileFault Unit))) :
    ∃ written' results, ReflTransGen (Step job)
      ⟨tree, written, .writing plan (before ++ outputs.map (·, none))⟩
      ⟨(Plan.writeOutputs tree outputs).1, written', .writing plan
        (before ++ results.map fun task : Output × Except FileFault Unit =>
          (task.1, some task.2))⟩ ∧
      plan.concluded results = (Plan.writeOutputs tree outputs).2.map fun _ => plan.report := by
  induction outputs generalizing tree written before with
  | nil => exact ⟨written, [], .refl, rfl⟩
  | cons output rest ih =>
      rw [Plan.writeOutputs]
      cases hwrite : tree.write output.path (.text output.text) with
      | error fault =>
          obtain ⟨written', results, hsteps, hresults⟩ := ih tree written
            (before ++ [(output, some (.error fault))])
          rw [List.append_assoc, List.append_assoc] at hsteps
          exact ⟨written', (output, .error fault) :: results,
            .head (.notWritten hwrite) hsteps, rfl⟩
      | ok next =>
          obtain ⟨written', results, hsteps, hresults⟩ := ih next
            (written ++ [output.path]) (before ++ [(output, some (.ok ()))])
          rw [List.append_assoc, List.append_assoc] at hsteps
          refine ⟨written', (output, .ok ()) :: results, .head (.wrote hwrite) hsteps, ?_⟩
          rw [← hresults, Plan.concluded, Plan.concluded, List.mapM_cons]
          change Except.map _ (results.mapM writeResult >>= _) = _
          cases results.mapM writeResult <;> rfl

theorem carryOut_inOrder (plan : Plan) :
    ∃ written', ReflTransGen (Step job) ⟨tree, written, .opening plan⟩
      ⟨(plan.carryOut tree).1, written',
        .ended ((plan.carryOut tree).2.map fun _ => plan.report)⟩ := by
  unfold Plan.carryOut
  rcases hopen : tree.makeDirectories plan.outDir with ⟨opened, fault | ⟨⟩⟩
  · exact ⟨written, .head (.notOpened hopen) .refl⟩
  have hmake := make_inOrder job opened written plan (parentDirectories plan.paths)
  dsimp only
  rcases hparents : Plan.makeParents opened (parentDirectories plan.paths) with ⟨made, e | ⟨⟩⟩
  · rw [hparents] at hmake
    exact ⟨written, .head (.opened hopen) hmake⟩
  rw [hparents] at hmake
  obtain ⟨written₁, hdump⟩ := dump_inOrder job made written plan plan.dumps
  dsimp only
  rcases hdumps : Plan.writeDumps plan.dumpText made plan.dumps with ⟨dumped, e | ⟨⟩⟩
  · rw [hdumps] at hdump
    exact ⟨written₁, .head (.opened hopen) (hmake.trans (.head .allMade hdump))⟩
  rw [hdumps] at hdump
  obtain ⟨written₂, results, hwrite, hresults⟩ := write_inOrder job dumped written₁ plan
    plan.outputs []
  refine ⟨written₂, .head (.opened hopen) (hmake.trans (.head .allMade (hdump.trans
    (.head .allDumped (hwrite.trans ?_)))))⟩
  dsimp only
  rw [← hresults]
  exact .head (.conclude results) .refl

variable {job tree assembled}

theorem Job.plan_of_resolve_error {e : Error} (h : job.selection.resolve tree = .error e) :
    job.plan tree = .error e := by
  unfold Job.plan Generation.plan
  rw [h]
  rfl

theorem Job.plan_of_assembled_error {files : List TemplateFile} {missing : MissingSegment}
    (hfiles : job.selection.resolve tree = .ok files) (h : job.assembled = .error missing) :
    job.plan tree = .error (.missingSegment missing) := by
  unfold Job.plan Generation.plan
  rw [hfiles, show job.contract.assemble (job.segments.map (·.name)) = _ from h]
  rfl

theorem Job.plan_of_assembled {files : List TemplateFile}
    (hfiles : job.selection.resolve tree = .ok files) (h : job.assembled = .ok assembled) :
    job.plan tree = (files.mapM (job.render tree assembled)).map
      (Plan.ofOutputs job.options files assembled) := by
  unfold Job.plan Generation.plan
  rw [hfiles, show job.contract.assemble (job.segments.map (·.name)) = _ from h]
  change (files.mapM (job.render tree assembled) >>= _) = _
  cases files.mapM (job.render tree assembled) <;> rfl

theorem Job.generate_of_plan_error {e : Error} (h : job.plan tree = .error e) :
    job.generate tree = (tree, .error e) := by
  unfold Job.generate Generation.generate
  rw [show Generation.plan _ _ _ _ _ _ _ = _ from h]

theorem Job.generate_of_plan {plan : Plan} (h : job.plan tree = .ok plan) :
    job.generate tree = if plan.isEmpty then (tree, .ok plan.report)
      else ((plan.carryOut tree).1, (plan.carryOut tree).2.map fun _ => plan.report) := by
  unfold Job.generate Generation.generate
  rw [show Generation.plan _ _ _ _ _ _ _ = _ from h]

/-- The run whose tasks go one after the other. -/
theorem generate_ends (job : Job) (tree : FileTree) :
    ∃ written, job.Ends tree (job.generate tree).1 written (job.generate tree).2 := by
  unfold Job.Ends Job.Reaches Job.start
  cases hfiles : job.selection.resolve tree with
  | error e =>
      rw [Job.generate_of_plan_error (Job.plan_of_resolve_error hfiles)]
      exact ⟨[], .refl⟩
  | ok files =>
      cases hassembled : job.assembled with
      | error missing =>
          rw [Job.generate_of_plan_error (Job.plan_of_assembled_error hfiles hassembled)]
          exact ⟨[], .refl⟩
      | ok assembled =>
          have hplan := Job.plan_of_assembled hfiles hassembled
          have hrender := render_inOrder job tree [] assembled files []
          have hgather := @Step.gather job tree [] assembled
            (files.map fun file => (file, job.render tree assembled file))
          simp only [List.map_map, List.mapM_map, Function.comp_def, List.map_id'] at hgather
          cases houtputs : files.mapM (job.render tree assembled) with
          | error e =>
              rw [houtputs] at hplan hgather
              rw [Job.generate_of_plan_error hplan]
              exact ⟨[], hrender.tail hgather⟩
          | ok outputs =>
              rw [houtputs] at hplan hgather
              rw [Job.generate_of_plan hplan]
              rw [Job.planned] at hgather
              by_cases hempty :
                  (Plan.ofOutputs job.options files assembled outputs).isEmpty = true
              · rw [if_pos hempty] at hgather ⊢
                exact ⟨[], hrender.tail hgather⟩
              · rw [if_neg hempty] at hgather ⊢
                obtain ⟨written, hcarried⟩ := carryOut_inOrder job tree []
                  (.ofOutputs job.options files assembled outputs)
                exact ⟨written, (hrender.tail hgather).trans hcarried⟩

end InOrder

end RpcContract.Generation
