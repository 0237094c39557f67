import RpcContract.Proofs.Generation.Endings

/-!
# Runs that are stopped

A run may be stopped at any moment of its write stage.  It has then made some directories and
written some of the files of its plan.
-/

namespace RpcContract.Generation

open FileTree

/-- What there may be when a plan is stopped: some of its files have been written, in any order. -/
inductive Plan.Stopped (plan : Plan) (before : FileTree) : FileTree → Prop
  | none : Stopped plan before before
  | directory {tree made : FileTree} {path : Path} : Stopped plan before tree →
      tree.makeDirectory path = .ok made → Stopped plan before made
  | file {tree next : FileTree} {write : Path × String} : Stopped plan before tree →
      write ∈ plan.writes plan.outputs → tree.write write.1 (.text write.2) = .ok next →
      Stopped plan before next

namespace Plan.Stopped

variable {plan : Plan} {before tree made next : FileTree} {path : Path}

theorem makeDirectories {result : Except FileFault Unit} (h : plan.Stopped before tree)
    (hmake : tree.makeDirectories path = (made, result)) : plan.Stopped before made :=
  makeDirectories_keeps .directory h hmake

theorem dump (h : plan.Stopped before tree) (hpath : path ∈ plan.dumps)
    (hwrite : tree.write path (.text plan.dumpText) = .ok next) : plan.Stopped before next := by
  have hplanned : (path, plan.dumpText) ∈ plan.writes plan.outputs :=
    List.mem_append_left _ (List.mem_map.mpr ⟨path, hpath, rfl⟩)
  exact .file h hplanned hwrite

theorem output {output : Output} (h : plan.Stopped before tree) (houtput : output ∈ plan.outputs)
    (hwrite : tree.write output.path (.text output.text) = .ok next) :
    plan.Stopped before next := by
  have hplanned : (output.path, output.text) ∈ plan.writes plan.outputs :=
    List.mem_append_right _ (List.mem_map.mpr ⟨output, houtput, rfl⟩)
  exact .file h hplanned hwrite

end Plan.Stopped

variable {job : Job} {start : FileTree} {moment moment' : Moment} {plan : Plan}

theorem Step.stopped (hplan : job.plan start = .ok plan) (h : Step job moment moment')
    (hsound : job.Sound start moment) (hstopped : plan.Stopped start moment.tree) :
    plan.Stopped start moment'.tree := by
  cases h with
  | render => exact hstopped
  | gather => exact hstopped
  | opened hmake => exact hstopped.makeDirectories hmake
  | notOpened hmake => exact hstopped.makeDirectories hmake
  | made hmake => exact hstopped.makeDirectories hmake
  | notMade hmake => exact hstopped.makeDirectories hmake
  | allMade => exact hstopped
  | dumped hwrite =>
      obtain ⟨hplan', -, made, -, hdumps, -⟩ := hsound
      cases hplan.symm.trans hplan'
      exact hstopped.dump (by simp [hdumps]) hwrite
  | notDumped => exact hstopped
  | allDumped => exact hstopped
  | @wrote tree next written plan' before after output hwrite =>
      obtain ⟨hplan', -, htasks, -⟩ := hsound
      cases hplan.symm.trans hplan'
      exact hstopped.output (by simp [← htasks]) hwrite
  | notWritten => exact hstopped
  | conclude => exact hstopped

theorem Job.Reaches.stopped (hplan : job.plan start = .ok plan) (h : job.Reaches start moment) :
    plan.Stopped start moment.tree := by
  induction h with
  | refl => exact .none
  | tail hreaches hstep ih => exact hstep.stopped hplan (Job.Reaches.sound hreaches) ih

def Job.withBanner (job : Job) (banner : String) : Job := { job with banner := banner }

/-- What there may be after runs that were stopped one after the other, each with its own banner.
-/
inductive Job.Interrupted (job : Job) (start : FileTree) : FileTree → Prop
  | none : Interrupted job start start
  | run {tree next : FileTree} {banner : String} {plan : Plan} : Interrupted job start tree →
      (job.withBanner banner).plan tree = .ok plan → plan.Stopped tree next →
      Interrupted job start next

end RpcContract.Generation
