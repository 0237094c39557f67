import Mathlib.Data.List.Induction
import RpcContract.Proofs.Files.Components
import RpcContract.Proofs.Generation.Interruption
import RpcContract.Proofs.Generation.Postcondition

/-!
# Where a run writes

The dumps of a run go to its own directory and beside the outputs of its templates, to each path
once.  Whatever a run writes, the directory of its path has been made before; a run that cannot make
one writes nothing.
-/

namespace RpcContract

/-! ## Paths by their first occurrences -/

namespace Path

theorem same_iff {path other : Path} : path.same other = true ↔
    path.components = other.components := by
  rw [same, decide_eq_true_iff]

theorem same_comm (path other : Path) : path.same other = other.same path := by
  rw [Bool.eq_iff_iff, same_iff, same_iff, eq_comm]

/-- Of the paths that are the same only the first is kept, in the order of the paths. -/
structure Firsts (paths firsts : List Path) : Prop where
  distinct : firsts.Pairwise fun path other => path.same other = false
  covered : ∀ path ∈ paths, ∃ first ∈ firsts, path.same first = true
  first : ∀ path ∈ firsts, ∃ before after, paths = before ++ path :: after ∧
    ∀ earlier ∈ before, path.same earlier = false
  ordered : firsts.Pairwise fun path other => ∃ before after, paths = before ++ path :: after ∧
    ∀ earlier ∈ before ++ [path], other.same earlier = false

namespace Firsts

variable {paths firsts : List Path} {path : Path}

theorem mem (h : Firsts paths firsts) (hpath : path ∈ firsts) : path ∈ paths := by
  obtain ⟨before, after, rfl, -⟩ := h.first path hpath
  simp

theorem old (h : Firsts paths firsts) (hold : ∃ first ∈ firsts, path.same first = true) :
    Firsts (paths ++ [path]) firsts where
  distinct := h.distinct
  covered other hother := by
    rcases List.mem_append.mp hother with hother | hother
    · exact h.covered other hother
    · exact List.mem_singleton.mp hother ▸ hold
  first other hother := by
    obtain ⟨before, after, rfl, hbefore⟩ := h.first other hother
    exact ⟨before, after ++ [path], by simp, hbefore⟩
  ordered := h.ordered.imp fun ⟨before, after, hpaths, hbefore⟩ =>
    ⟨before, after ++ [path], by simp [hpaths], hbefore⟩

theorem new (h : Firsts paths firsts) (hnew : ∀ first ∈ firsts, path.same first = false) :
    Firsts (paths ++ [path]) (firsts ++ [path]) := by
  have hfresh : ∀ other ∈ paths, path.same other = false := by
    intro other hother
    obtain ⟨first, hfirst, hsame⟩ := h.covered other hother
    rw [same_iff] at hsame
    rw [same, hsame]
    exact hnew first hfirst
  refine ⟨?distinct, fun other hother => ?covered, fun other hother => ?first, ?ordered⟩
  case distinct =>
    refine List.pairwise_append.mpr ⟨h.distinct, List.pairwise_singleton _ _, ?_⟩
    intro first hfirst other hother
    rw [List.mem_singleton.mp hother, same_comm]
    exact hnew first hfirst
  case covered =>
    rcases List.mem_append.mp hother with hother | hother
    · obtain ⟨first, hfirst, hsame⟩ := h.covered other hother
      exact ⟨first, List.mem_append_left _ hfirst, hsame⟩
    · exact ⟨path, by simp, by rw [List.mem_singleton.mp hother, same_iff]⟩
  case first =>
    rcases List.mem_append.mp hother with hother | hother
    · obtain ⟨before, after, rfl, hbefore⟩ := h.first other hother
      exact ⟨before, after ++ [path], by simp, hbefore⟩
    · rw [List.mem_singleton.mp hother]
      exact ⟨paths, [], rfl, hfresh⟩
  case ordered =>
    refine List.pairwise_append.mpr ⟨h.ordered.imp ?_, List.pairwise_singleton _ _, ?_⟩
    · rintro first other ⟨before, after, rfl, hbefore⟩
      exact ⟨before, after ++ [path], by simp, hbefore⟩
    · intro first hfirst other hother
      obtain ⟨before, after, rfl, -⟩ := h.first first hfirst
      rw [List.mem_singleton.mp hother]
      refine ⟨before, after ++ [path], by simp, fun earlier hearlier => hfresh earlier ?_⟩
      rw [← List.singleton_append, ← List.append_assoc]
      exact List.mem_append_left _ hearlier

end Firsts

theorem firsts_distinct (paths : List Path) : Firsts paths (distinct paths) := by
  induction paths using List.reverseRecOn with
  | nil => exact ⟨.nil, by simp, by simp [Path.distinct], .nil⟩
  | append_singleton paths path ih =>
      have hstep : distinct (paths ++ [path]) =
          if (distinct paths).any (same path) then distinct paths else distinct paths ++ [path] := by
        rw [distinct, List.foldl_append]
        rfl
      rw [hstep]
      split
      · next hold => exact ih.old (by simpa using hold)
      · next hnew => exact ih.new (by simpa using hnew)

end Path

namespace Generation

open FileTree

/-! ## Dumps -/

/-- The paths that dumps are wanted at: that of the run first, then those of its templates. -/
def wantedDumps (outDir : Path) (target : DumpTarget) (templates : List (Path × DumpTarget)) :
    List Path :=
  (dumpPath? outDir target).toList ++ templates.filterMap fun template =>
    dumpPath? (outDir.join (template.1.parent?.getD ⟨""⟩)) template.2

theorem dumpPath?_eq_some_iff {directory path : Path} {target : DumpTarget} :
    dumpPath? directory target = some path ↔
      ∃ name, target.fileName? = some name ∧ directory.join ⟨name⟩ = path := by
  rw [dumpPath?, Option.map_eq_some_iff]

theorem exists_dump_iff {outDir path : Path} {target : DumpTarget}
    {templates : List (Path × DumpTarget)} :
    (∃ entry ∈ dumpPaths outDir target templates, path.same entry = true) ↔
      (∃ name, target.fileName? = some name ∧ path.same (outDir.join ⟨name⟩) = true) ∨
      ∃ template ∈ templates, ∃ name, template.2.fileName? = some name ∧
        path.same ((outDir.join (template.1.parent?.getD ⟨""⟩)).join ⟨name⟩) = true := by
  have hfirsts := Path.firsts_distinct (wantedDumps outDir target templates)
  have hwanted : (∃ entry ∈ dumpPaths outDir target templates, path.same entry = true) ↔
      ∃ entry ∈ wantedDumps outDir target templates, path.same entry = true := by
    constructor
    · rintro ⟨entry, hentry, hsame⟩
      exact ⟨entry, hfirsts.mem hentry, hsame⟩
    · rintro ⟨entry, hentry, hsame⟩
      obtain ⟨first, hfirst, hfirstSame⟩ := hfirsts.covered entry hentry
      rw [Path.same_iff] at hsame hfirstSame
      exact ⟨first, hfirst, Path.same_iff.mpr (hsame.trans hfirstSame)⟩
  rw [hwanted, wantedDumps]
  simp only [List.mem_append, Option.mem_toList, List.mem_filterMap, dumpPath?_eq_some_iff]
  constructor
  · rintro ⟨entry, ⟨name, hname, rfl⟩ | ⟨template, htemplate, name, hname, rfl⟩, hsame⟩
    · exact .inl ⟨name, hname, hsame⟩
    · exact .inr ⟨template, htemplate, name, hname, hsame⟩
  · rintro (⟨name, hname, hsame⟩ | ⟨template, htemplate, name, hname, hsame⟩)
    · exact ⟨_, .inl ⟨name, hname, rfl⟩, hsame⟩
    · exact ⟨_, .inr ⟨template, htemplate, name, hname, rfl⟩, hsame⟩

/-! ## Directories before files -/

variable {job : Job} {start tree made : FileTree} {moment moment' : Moment} {plan : Plan}
  {path parent : Path}

theorem ready_of_prepare (h : plan.prepare tree = (made, .ok ())) (hpath : path ∈ plan.paths)
    (hparent : path.parent? = some parent) : made.Ready parent := by
  obtain ⟨-, -, -, -, hready⟩ := Plan.prepare_ok h
  by_cases hempty : parent.text.isEmpty = true
  · exact .inl hempty
  have hmem : parent ∈ (plan.paths.filterMap Path.parent?).filter fun path => !path.text.isEmpty :=
    List.mem_filter.mpr ⟨List.mem_filterMap.mpr ⟨path, hpath, hparent⟩, by simpa using hempty⟩
  obtain ⟨kept, hkept, hsame⟩ := Path.exists_mem_sortDistinct hmem
  exact (ready_of_components hsame).mp (hready kept hkept)

def Stage.writes? : Stage → Option Plan
  | .dumping plan _ => some plan
  | .writing plan _ => some plan
  | _ => none

theorem Job.Sound.plan_eq (h : job.Sound start moment) (hplan : moment.stage.writes? = some plan) :
    job.plan start = .ok plan := by
  obtain ⟨tree, written, stage⟩ := moment
  cases stage with
  | dumping | writing =>
      cases hplan
      exact h.1
  | rendering | opening | making | ended => cases hplan

theorem Job.Sound.ready (h : job.Sound start moment) (hplan : moment.stage.writes? = some plan)
    (hpath : path ∈ plan.paths) (hparent : path.parent? = some parent) :
    moment.tree.Ready parent := by
  obtain ⟨tree, written, stage⟩ := moment
  cases stage with
  | dumping plan' rest =>
      cases hplan
      obtain ⟨-, -, made, hprepare, -, hwrites⟩ := h
      obtain ⟨entries, hgrows, -⟩ := hwrites.grows
      exact hgrows.ready (ready_of_prepare hprepare hpath hparent)
  | writing plan' tasks =>
      cases hplan
      obtain ⟨-, -, -, made, order, hprepare, -, -, hwrites, -⟩ := h
      obtain ⟨entries, hgrows, -⟩ := hwrites.grows
      exact hgrows.ready (ready_of_prepare hprepare hpath hparent)
  | rendering | opening | making | ended => cases hplan

theorem Step.planned (h : Step job moment moment') (hsound : job.Sound start moment)
    (hwritten : moment'.written = moment.written ++ [path]) :
    ∃ plan content next, moment.stage.writes? = some plan ∧ path ∈ plan.paths ∧
      moment.tree.write path content = .ok next := by
  have hsame (written : List Path) : written ≠ written ++ [path] := by simp
  cases h with
  | @dumped tree next written plan path' rest hwrite =>
      obtain rfl : path' = path := by simpa using hwritten
      obtain ⟨-, -, made, -, hdumps, -⟩ := hsound
      exact ⟨plan, _, next, rfl, List.mem_append_left _ (by simp [hdumps]), hwrite⟩
  | @wrote tree next written plan before after output hwrite =>
      obtain rfl : output.path = path := by simpa using hwritten
      obtain ⟨-, -, htasks, -⟩ := hsound
      refine ⟨plan, _, next, rfl, List.mem_append_right _ (List.mem_map_of_mem ?_), hwrite⟩
      simp [← htasks]
  | render | gather | opened | notOpened | made | notMade | allMade | notDumped | allDumped
  | notWritten | conclude => exact absurd hwritten (hsame _)

/-! ## Runs that cannot make a directory -/

/-- A directory could not be made. -/
def Error.IsDirectoryFailure : Error → Prop
  | .noOutputDirectory _ _ => True
  | .noDirectory _ _ => True
  | _ => False

/-- Before anything is written only directories are made. -/
theorem Job.Reaches.unwritten (h : job.Reaches start moment) (hwritten : moment.written = []) :
    ∃ entries, Grows start entries moment.tree ∧ ∀ entry ∈ entries, entry.2 = .dir := by
  have hkeeps {tree made : FileTree} {path : Path}
      (hbefore : ∃ entries, Grows start entries tree ∧ ∀ entry ∈ entries, entry.2 = .dir)
      (hmake : tree.makeDirectory path = .ok made) :
      ∃ entries, Grows start entries made ∧ ∀ entry ∈ entries, entry.2 = .dir := by
    obtain ⟨entries, hgrows, hentries⟩ := hbefore
    obtain ⟨location, hlater, -⟩ := makeDirectory_ok hmake
    refine ⟨_, hgrows.append hlater, fun entry hentry => ?_⟩
    rcases List.mem_append.mp hentry with hentry | hentry
    · exact hentries entry hentry
    · rw [List.mem_singleton.mp hentry]
  induction h with
  | refl => exact ⟨[], .none _, by simp⟩
  | tail _ hstep ih =>
      cases hstep with
      | opened hmake | notOpened hmake | made hmake | notMade hmake =>
          exact makeDirectories_keeps hkeeps (ih hwritten) hmake
      | dumped | wrote => simp at hwritten
      | render | gather | allMade | notDumped | allDumped | notWritten | conclude =>
          exact ih hwritten

theorem Plan.not_isDirectoryFailure {tasks : List (Output × Except FileFault Unit)} {e : Error}
    (h : plan.concluded tasks = .error e) : ¬ e.IsDirectoryFailure := by
  unfold Plan.concluded at h
  cases hresults : tasks.mapM writeResult with
  | ok results =>
      rw [hresults] at h
      cases h
  | error e' =>
      rw [hresults] at h
      cases h
      obtain ⟨-, ⟨output, result⟩, -, -, -, hresult⟩ := mapM_eq_error_iff.mp hresults
      cases result with
      | ok => cases hresult
      | error fault =>
          cases hresult
          exact id

theorem Job.Reaches.unwritten_of_failure {e : Error} (h : job.Reaches start moment)
    (hended : moment.stage = .ended (.error e)) (hfailure : e.IsDirectoryFailure) :
    moment.written = [] := by
  rcases Relation.ReflTransGen.cases_tail h with hstart | ⟨before, hreaches, hstep⟩
  · rw [hstart]
    rfl
  have hsound := Job.Reaches.sound hreaches
  cases hstep with
  | gather => exact hsound.2.1
  | notOpened => exact hsound.2.1
  | notMade => exact hsound.1
  | notDumped =>
      cases hended
      exact hfailure.elim
  | conclude => exact absurd hfailure (Plan.not_isDirectoryFailure (Stage.ended.inj hended))
  | render | opened | made | allMade | dumped | allDumped | wrote | notWritten => cases hended

/-- Dumps are wanted by the run and by its templates, and go to every wanted path once, in the order
in which it is wanted first.  In a run whatever is written goes to a directory that is there, and
while there is something to be written the directories of all its paths are there.  Only a run that
cannot make a directory is without them, and it leaves every file as it was. -/
theorem dumps_in_place :
    (∀ (outDir : Path) (target : DumpTarget) (templates : List (Path × DumpTarget)),
      Path.Firsts (wantedDumps outDir target templates) (dumpPaths outDir target templates) ∧
      ∀ path : Path, (∃ entry ∈ dumpPaths outDir target templates, path.same entry = true) ↔
        (∃ name, target.fileName? = some name ∧ path.same (outDir.join ⟨name⟩) = true) ∨
        ∃ template ∈ templates, ∃ name, template.2.fileName? = some name ∧
          path.same ((outDir.join (template.1.parent?.getD ⟨""⟩)).join ⟨name⟩) = true) ∧
    ∀ (job : Job) (start : FileTree) (moment : Moment), job.Reaches start moment →
      (∀ plan, moment.stage.writes? = some plan → job.plan start = .ok plan ∧
        ∀ path ∈ plan.paths, ∀ parent, path.parent? = some parent → moment.tree.Ready parent) ∧
      (∀ next path, Step job moment next → next.written = moment.written ++ [path] →
        ∃ parent last, path.parent? = some parent ∧
          path.components = parent.components ++ [last] ∧ moment.tree.Ready parent) ∧
      ∀ e, moment.stage = .ended (.error e) → e.IsDirectoryFailure →
        moment.written = [] ∧ ∀ location content,
          moment.tree.node? location = some (.file content) ↔
            start.node? location = some (.file content) := by
  refine ⟨fun outDir target templates => ⟨Path.firsts_distinct _, fun path => exists_dump_iff⟩,
    fun job start moment hreaches => ?_⟩
  have hsound := Job.Reaches.sound hreaches
  refine ⟨?ready, ?written, ?failed⟩
  case ready =>
    exact fun plan hplan => ⟨hsound.plan_eq hplan, fun path hpath parent => hsound.ready hplan hpath⟩
  case written =>
    intro next path hstep hwritten
    obtain ⟨plan, content, after, hplan, hpath, hwrite⟩ := hstep.planned hsound hwritten
    obtain ⟨parent, hparent⟩ := exists_parent_of_write hwrite
    obtain ⟨last, hlast⟩ := Path.components_parent? hparent
    exact ⟨parent, last, hparent, hlast, hsound.ready hplan hpath hparent⟩
  case failed =>
    intro e hended hfailure
    have hwritten := hreaches.unwritten_of_failure hended hfailure
    obtain ⟨entries, hgrows, hentries⟩ := hreaches.unwritten hwritten
    exact ⟨hwritten, fun location content => hgrows.node?_file_iff hentries⟩

/-- A run that only dumps, to a directory below its own. -/
def nestedJob : Job where
  contract := {}
  segments := []
  selection := ⟨[noTemplates], {}⟩
  options := { outDir := ⟨"out"⟩, dump := .file "api/schema.json" }
  banner := "1"
  format := Formatter.format

theorem dumps_in_place_nested :
    let path : Path := ⟨"out/api/schema.json"⟩
    let plan : Plan := ⟨⟨"out"⟩, [path], "{}", []⟩
    let made : FileTree := ⟨[(["out"], .dir), (["out", "api"], .dir)], []⟩
    nestedJob.Reaches ⟨[], []⟩ ⟨made, [], .dumping plan [path]⟩ ∧
      ∃ parent last, path.parent? = some parent ∧
        path.components = parent.components ++ [last] ∧ made.Ready parent := by
  intro path plan made
  have hopen : (⟨[], []⟩ : FileTree).makeDirectories ⟨"out"⟩ =
      (⟨[(["out"], .dir)], []⟩, .ok ()) := by decide +kernel
  have hmake : (⟨[(["out"], .dir)], []⟩ : FileTree).makeDirectories ⟨"out/api"⟩ =
      (made, .ok ()) := by decide +kernel
  have hwrite : made.write path (.text "{}") =
      .ok (made.insert ["out", "api", "schema.json"] (.file (.text "{}"))) := by decide +kernel
  have hgather : Step nestedJob ⟨⟨[], []⟩, [], .rendering {} []⟩ ⟨⟨[], []⟩, [], .opening plan⟩ :=
    .gather []
  have hparents : parentDirectories plan.paths = [⟨"out/api"⟩] := by decide +kernel
  have hopened : Step nestedJob ⟨⟨[], []⟩, [], .opening plan⟩
      ⟨⟨[(["out"], .dir)], []⟩, [], .making plan [⟨"out/api"⟩]⟩ := hparents ▸ .opened hopen
  have hreaches : nestedJob.Reaches ⟨[], []⟩ ⟨made, [], .dumping plan [path]⟩ :=
    .head hgather (.head hopened (.head (.made hmake) (.head .allMade .refl)))
  obtain ⟨-, hruns⟩ := dumps_in_place
  exact ⟨hreaches, (hruns nestedJob _ _ hreaches).2.1 _ path (.dumped hwrite) rfl⟩

end Generation

end RpcContract
