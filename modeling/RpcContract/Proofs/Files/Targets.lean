import Mathlib.Data.List.Perm.Basic
import RpcContract.Proofs.Files.Writing

/-!
# Files written one after the other

`Target` says where a write to a path goes: to the file that the path leads to, or to a free place.
Writing files moves no target, so that many writes can be understood from the tree before the
first of them: a place holds what was last written to it, and a place that is no target is as it
was.
-/

namespace RpcContract.FileTree

variable {tree before after : FileTree} {path : Path} {location : Location} {content : Content}
  {entries : List (Location × FileNode)}

/-! ## Targets -/

/-- What was found is a file at a place, or room for one. -/
def Goes (found : Except FileFault Found) (location : Location) : Prop :=
  found = .ok (.nothing location false) ∨ ∃ content, found = .ok (.node location (.file content))

/-- Where a write to a path goes. -/
def Target (tree : FileTree) (path : Path) (location : Location) : Prop :=
  Goes (tree.find true path) location

def Writable (tree : FileTree) (path : Path) : Prop :=
  path.text.toList.getLast? ≠ some '/' ∧ ∃ location, tree.Target path location

theorem Leads.target (h : tree.Leads path location content) : tree.Target path location :=
  .inr ⟨content, h⟩

theorem Target.unique {location' : Location} (h : tree.Target path location)
    (h' : tree.Target path location') : location = location' := by
  unfold Target Goes at h h'
  rcases h with h | ⟨content, h⟩ <;> rcases h' with h' | ⟨content', h'⟩
  · simpa using h.symm.trans h'
  · cases h.symm.trans h'
  · cases h.symm.trans h'
  · exact (Leads.unique h h').1

theorem Target.accepts (h : tree.Target path location) (content : Content) :
    tree.Accepts location (.file content) := by
  rcases h with hfree | ⟨old, hleads⟩
  · exact accepts_of_nothing hfree (.file content)
  · exact accepts_of_file (Leads.node?_eq hleads) content

theorem Target.leads (h : tree.Target path location)
    (hnode : tree.node? location = some (.file content)) : tree.Leads path location content := by
  rcases h with hfree | ⟨old, hleads⟩
  · have hnone := (findPieces_holds hfree).2
    rw [hnode] at hnone
    cases hnone
  · have hsame := (Leads.node?_eq hleads).symm.trans hnode
    simp only [Option.some.injEq, FileNode.file.injEq] at hsame
    rwa [hsame] at hleads

/-- Writes to two paths never go to the same place. -/
def Parted (tree : FileTree) (path other : Path) : Prop :=
  ∀ location, tree.Target path location → ¬ tree.Target other location

theorem Parted.symm {other : Path} (h : tree.Parted path other) : tree.Parted other path :=
  fun location hother hpath => h location hpath hother

theorem Parted.apart {other : Path} (h : tree.Parted path other) : tree.Apart path other :=
  fun location _ _ hpath hother => h location hpath.target hother.target

theorem write_eq_ok_iff : tree.write path content = .ok after ↔
    path.text.toList.getLast? ≠ some '/' ∧
      ∃ location, tree.Target path location ∧ after = tree.insert location (.file content) := by
  unfold write Target Goes
  by_cases hslash : path.text.toList.getLast? = some '/'
  · rw [if_pos hslash]
    cases tree.findEntry path <;> simp [hslash, bind, Except.bind, throw, throwThe,
      MonadExceptOf.throw]
  rw [if_neg hslash]
  rcases tree.find true path with fault | ⟨place, _ | _ | _⟩ | ⟨place, slash⟩
  · simp [bind, Except.bind]
  · simp [hslash, bind, Except.bind, pure, Except.pure, eq_comm]
  · simp [bind, Except.bind, throw, throwThe, MonadExceptOf.throw]
  · simp [bind, Except.bind, throw, throwThe, MonadExceptOf.throw]
  · cases slash <;> simp [hslash, bind, Except.bind, pure, Except.pure, throw, throwThe,
      MonadExceptOf.throw, eq_comm]

theorem writable_iff : tree.Writable path ↔ ∃ after, tree.write path content = .ok after := by
  simp only [Writable, write_eq_ok_iff]
  constructor
  · rintro ⟨hslash, location, htarget⟩
    exact ⟨_, hslash, location, htarget, rfl⟩
  · rintro ⟨_, hslash, location, htarget, -⟩
    exact ⟨hslash, location, htarget⟩

/-! ## Writing moves no target -/

theorem Grows.node?_of_files (h : Grows before entries after)
    (hfiles : ∀ entry ∈ entries, ∃ content, entry.2 = .file content) (location : Location) :
    after.node? location = before.node? location ∨
      (∃ content, after.node? location = some (.file content)) ∧
        (before.node? location = .none ∨
          ∃ content, before.node? location = some (.file content)) := by
  induction h with
  | none => exact .inl rfl
  | @insert before after place node rest haccepts _ ih =>
      obtain ⟨content, hnode⟩ := hfiles (place, node) (by simp)
      dsimp only at hnode
      subst hnode
      have hrest := ih fun entry hentry => hfiles entry (by simp [hentry])
      rw [node?_insert haccepts.1] at hrest
      by_cases hplace : location = place
      · subst hplace
        rw [if_pos rfl] at hrest
        refine .inr ⟨?_, ?_⟩
        · rcases hrest with hsame | ⟨hfile, -⟩
          · exact ⟨content, hsame⟩
          · exact hfile
        · cases hbefore : before.node? location with
          | none => exact .inl rfl
          | some old =>
              have hstays := haccepts.2 old hbefore
              cases hstays with
              | same => exact .inr ⟨content, rfl⟩
              | rewritten old _ => exact .inr ⟨old, rfl⟩
      · rwa [if_neg hplace] at hrest

theorem Grows.follow_goes {again again' : Following} (h : Grows before entries after)
    (hfiles : ∀ entry ∈ entries, ∃ content, entry.2 = .file content)
    (hagain : ∀ location pieces place,
      Goes (again location pieces) place ↔ Goes (again' location pieces) place)
    (location : Location) (pieces : List String) (place : Location) :
    Goes (follow again before true location pieces) place ↔
      Goes (follow again' after true location pieces) place := by
  induction location, pieces using follow_induction with
  | done location => exact Iff.rfl
  | stay location piece rest hstay ih =>
      rw [follow_stay hstay, follow_stay hstay]
      exact ih
  | up location rest ih =>
      rw [follow_up, follow_up]
      exact ih
  | tooLong location piece rest hstay hup hlong =>
      rw [follow_tooLong hstay hup hlong, follow_tooLong hstay hup hlong]
  | names location piece rest hnames ih =>
      rw [follow_names hnames, follow_names hnames]
      rcases h.node?_of_files hfiles (location ++ [piece]) with hsame | ⟨⟨new, hnew⟩, hold⟩
      · rw [hsame]
        cases before.node? (location ++ [piece]) with
        | none => exact Iff.rfl
        | some node =>
            cases node with
            | file content => exact Iff.rfl
            | dir => exact ih
            | link target => simpa using hagain _ _ place
      -- The place is a target before and after, if the path ends there.
      · rw [hnew]
        rcases hold with hnone | ⟨old, hold⟩
        · rw [hnone]
          cases rest with
          | nil => simp [Goes]
          | cons next rest => cases (next :: rest).all String.isEmpty <;> simp [Goes]
        · rw [hold]
          cases rest with
          | nil => simp [Goes]
          | cons next rest => simp [Goes]

theorem Grows.walk_goes (h : Grows before entries after)
    (hfiles : ∀ entry ∈ entries, ∃ content, entry.2 = .file content) (links : Nat)
    (location : Location) (pieces : List String) (place : Location) :
    Goes (walk before true links location pieces) place ↔
      Goes (walk after true links location pieces) place := by
  induction links generalizing location pieces place with
  | zero => exact h.follow_goes hfiles (fun _ _ _ => Iff.rfl) location pieces place
  | succ links ih => exact h.follow_goes hfiles ih location pieces place

theorem Grows.target_iff (h : Grows before entries after)
    (hfiles : ∀ entry ∈ entries, ∃ content, entry.2 = .file content) :
    before.Target path location ↔ after.Target path location := by
  have hstart : after.startOf path = before.startOf path := by rw [startOf, startOf, h.current_eq]
  have hwalk := h.walk_goes hfiles linkLimit (before.startOf path) path.pieces location
  unfold Target Goes at hwalk ⊢
  simp only [find, findPieces_eq_ok_iff, hstart] at hwalk ⊢
  by_cases hproper : Proper path
  · simpa [hproper] using hwalk
  · simp [hproper]

/-! ## Many writes -/

inductive Writes : FileTree → List (Path × String) → FileTree → Prop
  | none (tree : FileTree) : Writes tree [] tree
  | write {before middle after : FileTree} {path : Path} {text : String}
      {rest : List (Path × String)} : before.write path (.text text) = .ok middle →
      Writes middle rest after → Writes before ((path, text) :: rest) after

namespace Writes

variable {middle : FileTree} {writes first later : List (Path × String)} {text : String}

theorem append (h : Writes before first middle) (h' : Writes middle later after) :
    Writes before (first ++ later) after := by
  induction h with
  | none => exact h'
  | write hwrite _ ih => exact .write hwrite (ih h')

theorem concat (h : Writes before writes middle)
    (hwrite : middle.write path (.text text) = .ok after) :
    Writes before (writes ++ [(path, text)]) after := h.append (.write hwrite (.none after))

theorem split (h : Writes before (first ++ later) after) :
    ∃ middle, Writes before first middle ∧ Writes middle later after := by
  induction first generalizing before with
  | nil => exact ⟨before, .none before, h⟩
  | cons write rest ih =>
      cases h with
      | write hwrite hrest =>
          obtain ⟨middle, hfirst, hlater⟩ := ih hrest
          exact ⟨middle, .write hwrite hfirst, hlater⟩

theorem unique {after' : FileTree} (h : Writes before writes after)
    (h' : Writes before writes after') : after = after' := by
  induction h with
  | none =>
      cases h'
      rfl
  | write hwrite _ ih =>
      cases h' with
      | write hwrite' hrest' =>
          cases hwrite.symm.trans hwrite'
          exact ih hrest'

theorem grows (h : Writes before writes after) : ∃ entries, Grows before entries after ∧
    ∀ entry ∈ entries, ∃ content, entry.2 = .file content := by
  induction h with
  | none tree => exact ⟨[], .none tree, by simp⟩
  | write hwrite _ ih =>
      obtain ⟨-, location, htarget, rfl⟩ := write_eq_ok_iff.mp hwrite
      obtain ⟨entries, hgrows, hfiles⟩ := ih
      refine ⟨_, .insert (htarget.accepts _) hgrows, fun entry hentry => ?_⟩
      rcases List.mem_cons.mp hentry with rfl | hentry
      · exact ⟨_, rfl⟩
      · exact hfiles entry hentry

theorem target_iff (h : Writes before writes after) :
    before.Target path location ↔ after.Target path location := by
  obtain ⟨entries, hgrows, hfiles⟩ := h.grows
  exact hgrows.target_iff hfiles

theorem writable_iff (h : Writes before writes after) :
    before.Writable path ↔ after.Writable path := by
  simp only [Writable, h.target_iff]

theorem not_writable (h : Writes before writes after) {fault : FileFault}
    (hwrite : after.write path (.text text) = .error fault) : ¬ before.Writable path := by
  intro hwritable
  obtain ⟨next, hnext⟩ := FileTree.writable_iff.mp (h.writable_iff.mp hwritable)
  cases hwrite.symm.trans hnext

theorem writable (h : Writes before writes after) {write : Path × String}
    (hwrite : write ∈ writes) : before.Writable write.1 := by
  induction h with
  | none => cases hwrite
  | @write before middle after path text rest hhead hrest ih =>
      have hone : Writes before [(path, text)] middle := .write hhead (.none middle)
      rcases List.mem_cons.mp hwrite with rfl | hwrite
      · exact FileTree.writable_iff.mpr ⟨middle, hhead⟩
      · exact hone.writable_iff.mpr (ih hwrite)

/-- A place holds the text of a write that goes there, or is as it was if there is none. -/
theorem node? (h : Writes before writes after) (location : Location) :
    (∃ write ∈ writes, before.Target write.1 location ∧
        after.node? location = some (.file (.text write.2))) ∨
      (∀ write ∈ writes, ¬ before.Target write.1 location) ∧
        after.node? location = before.node? location := by
  induction h with
  | none => exact .inr ⟨by simp, rfl⟩
  | @write before middle after path text rest hhead hrest ih =>
      have hone : Writes before [(path, text)] middle := .write hhead (.none middle)
      obtain ⟨-, place, htarget, rfl⟩ := write_eq_ok_iff.mp hhead
      rcases ih with ⟨write, hwrite, hgoes, hnode⟩ | ⟨hnone, hnode⟩
      · exact .inl ⟨write, by simp [hwrite], hone.target_iff.mpr hgoes, hnode⟩
      rw [node?_insert (htarget.accepts (.text text)).1] at hnode
      by_cases hplace : location = place
      · subst hplace
        rw [if_pos rfl] at hnode
        exact .inl ⟨(path, text), by simp, htarget, hnode⟩
      · rw [if_neg hplace] at hnode
        refine .inr ⟨fun write hwrite hgoes => ?_, hnode⟩
        rcases List.mem_cons.mp hwrite with rfl | hwrite
        · exact hplace (hgoes.unique htarget)
        · exact hnone write hwrite (hone.target_iff.mp hgoes)

/-- The order of writes does not matter if those to one place have one text. -/
theorem node?_eq_of_perm {writes' : List (Path × String)} {after' : FileTree}
    (h : Writes before writes after) (h' : Writes before writes' after')
    (hperm : writes.Perm writes')
    (hsame : ∀ write ∈ writes, ∀ write' ∈ writes, ∀ location, before.Target write.1 location →
      before.Target write'.1 location → write.2 = write'.2) (location : Location) :
    after.node? location = after'.node? location := by
  rcases h.node? location with ⟨write, hwrite, hgoes, hnode⟩ | ⟨hnone, hnode⟩
  · rcases h'.node? location with ⟨write', hwrite', hgoes', hnode'⟩ | ⟨hnone', -⟩
    · rw [hnode, hnode',
        hsame write hwrite write' (hperm.mem_iff.mpr hwrite') location hgoes hgoes']
    · exact absurd hgoes (hnone' write (hperm.mem_iff.mp hwrite))
  · rcases h'.node? location with ⟨write', hwrite', hgoes', -⟩ | ⟨-, hnode'⟩
    · exact absurd hgoes' (hnone write' (hperm.mem_iff.mpr hwrite'))
    · rw [hnode, hnode']

theorem leads (h : Writes before writes after) {write : Path × String} (hwrite : write ∈ writes) :
    ∃ location text, before.Target write.1 location ∧
      after.Leads write.1 location (.text text) := by
  obtain ⟨-, location, htarget⟩ := h.writable hwrite
  rcases h.node? location with ⟨other, -, -, hnode⟩ | ⟨hnone, -⟩
  · exact ⟨location, other.2, htarget, (h.target_iff.mp htarget).leads hnode⟩
  · exact absurd htarget (hnone write hwrite)

end Writes

end RpcContract.FileTree
