import RpcContract.Proofs.Files.Following

/-!
# Writing files and making directories

What an operation that succeeds has done: which nodes it has put into the tree, and where its path
leads afterwards.
-/

namespace RpcContract.FileTree

variable {tree after : FileTree} {path : Path} {location : Location} {content : Content}

theorem accepts_of_nothing {final slash : Bool} {pieces : List String}
    (h : tree.findPieces final path pieces = .ok (.nothing location slash)) (node : FileNode) :
    tree.Accepts location node := by
  obtain ⟨hroot, hnone⟩ := findPieces_holds h
  refine ⟨hroot, fun old hold => ?_⟩
  rw [hnone] at hold
  cases hold

theorem accepts_of_file (h : tree.node? location = some (.file content)) (content' : Content) :
    tree.Accepts location (.file content') := by
  refine ⟨fun hroot => ?_, fun old hold => ?_⟩
  · subst hroot
    cases h
  · rw [h] at hold
    cases hold
    exact .rewritten content content'

/-! ## Files -/

def Leads (tree : FileTree) (path : Path) (location : Location) (content : Content) : Prop :=
  tree.find true path = .ok (.node location (.file content))

theorem Leads.node?_eq (h : tree.Leads path location content) :
    tree.node? location = some (.file content) := node?_of_find_file h

theorem Leads.unique {location' : Location} {content' : Content}
    (h : tree.Leads path location content) (h' : tree.Leads path location' content') :
    location = location' ∧ content = content' := by
  have hsame := h.symm.trans h'
  simpa using hsame

theorem Grows.leads {entries : List (Location × FileNode)} (hgrows : Grows tree entries after)
    (h : tree.Leads path location content) :
    ∃ content', after.Leads path location content' := by
  obtain ⟨node, hafter, hstays⟩ := hgrows.find_stays h
  cases hstays with
  | same => exact ⟨content, hafter⟩
  | rewritten _ new => exact ⟨new, hafter⟩

theorem Grows.leads_of_node?_eq {entries : List (Location × FileNode)} {content' : Content}
    (hgrows : Grows tree entries after) (h : tree.Leads path location content)
    (hnode : after.node? location = some (.file content')) :
    after.Leads path location content' := by
  obtain ⟨found, hafter⟩ := hgrows.leads h
  have hsame := hafter.node?_eq.symm.trans hnode
  simp only [Option.some.injEq, FileNode.file.injEq] at hsame
  rwa [hsame] at hafter

/-- Two paths never lead to the same file. -/
def Apart (tree : FileTree) (path other : Path) : Prop :=
  ∀ location content content', tree.Leads path location content →
    ¬ tree.Leads other location content'

theorem Apart.symm {other : Path} (h : tree.Apart path other) : tree.Apart other path :=
  fun location content content' hother hpath => h location content' content hpath hother

theorem Leads.apart {other : Path} {location' : Location} {content' : Content}
    (h : tree.Leads path location content) (h' : tree.Leads other location' content')
    (hne : location ≠ location') : tree.Apart path other := by
  intro place _ _ hpath hother
  exact hne ((h.unique hpath).1.trans (h'.unique hother).1.symm)

theorem readText_eq_ok_iff {text : String} :
    tree.readText path = .ok text ↔ ∃ location, tree.Leads path location (.text text) := by
  unfold readText read Leads
  rcases tree.find true path with fault | found
  · simp [bind, Except.bind]
  rcases found with ⟨place, node⟩ | ⟨place, slash⟩
  · rcases node with content | _ | target
    · cases content <;> simp [bind, Except.bind, pure, Except.pure, throw, throwThe,
        MonadExceptOf.throw]
    · simp [bind, Except.bind, throw, throwThe, MonadExceptOf.throw]
    · simp [bind, Except.bind, throw, throwThe, MonadExceptOf.throw]
  · simp [bind, Except.bind, throw, throwThe, MonadExceptOf.throw]

theorem write_ok (h : tree.write path content = .ok after) :
    path.text.toList.getLast? ≠ some '/' ∧
      ∃ location, Grows tree [(location, .file content)] after ∧
        after.Leads path location content := by
  unfold write at h
  by_cases hslash : path.text.toList.getLast? = some '/'
  · rw [if_pos hslash] at h
    cases hentry : tree.findEntry path <;> rw [hentry] at h <;> cases h
  rw [if_neg hslash] at h
  refine ⟨hslash, ?_⟩
  cases hfind : tree.find true path with
  | error fault =>
      rw [hfind] at h
      cases h
  | ok found =>
      rw [hfind] at h
      rcases found with ⟨place, node⟩ | ⟨place, slash⟩
      · cases node with
        | dir => cases h
        | link target => cases h
        | file old =>
            cases h
            have haccepts := accepts_of_file (node?_of_find_file hfind) content
            have hgrows := Grows.single haccepts
            refine ⟨place, hgrows, hgrows.leads_of_node?_eq hfind ?_⟩
            rw [node?_insert haccepts.1, if_pos rfl]
      · cases slash with
        | true => cases h
        | false =>
            cases h
            have haccepts := accepts_of_nothing hfind (.file content)
            have hgrows := Grows.single haccepts
            refine ⟨place, hgrows, ?_⟩
            refine hgrows.find_filled hfind (List.append_nil _).symm (by simp [Blanks]) ?_ ?_
            · rw [node?_insert haccepts.1, if_pos rfl]
            · exact .inr ⟨⟨content, rfl⟩, rfl, rfl⟩

theorem write_of_leads (hslash : path.text.toList.getLast? ≠ some '/')
    (h : tree.Leads path location content) : tree.write path content = .ok tree := by
  unfold write
  rw [if_neg hslash]
  change (tree.find true path >>= _) = _
  rw [h]
  have haccepts := accepts_of_file h.node?_eq content
  exact congrArg Except.ok (insert_of_node? haccepts.1 h.node?_eq)

/-! ## Directories -/

theorem has_iff :
    tree.has path = true ↔ ∃ location node, tree.find true path = .ok (.node location node) := by
  unfold has
  split
  · next location node hfind => exact iff_of_true rfl ⟨location, node, hfind⟩
  · next hfind =>
      exact iff_of_false (by simp) fun ⟨location, node, hnode⟩ => hfind location node hnode

theorem isDirectory_iff :
    tree.isDirectory path = true ↔ ∃ location, tree.find true path = .ok (.node location .dir) := by
  unfold isDirectory
  split
  · next h => simp [h]
  · next h =>
      refine ⟨fun hfalse => (by cases hfalse), fun ⟨location, hlocation⟩ => ?_⟩
      exact absurd hlocation (h location)

theorem Grows.isDirectory {entries : List (Location × FileNode)} (hgrows : Grows tree entries after)
    (h : tree.isDirectory path = true) : after.isDirectory path = true := by
  obtain ⟨location, hfind⟩ := isDirectory_iff.mp h
  obtain ⟨node, hafter, hstays⟩ := hgrows.find_stays hfind
  cases hstays
  exact isDirectory_iff.mpr ⟨location, hafter⟩

theorem makeDirectory_ok (h : tree.makeDirectory path = .ok after) :
    ∃ location, Grows tree [(location, .dir)] after ∧ after.isDirectory path = true := by
  unfold makeDirectory at h
  cases hentry : tree.findEntry path with
  | error fault =>
      rw [hentry] at h
      cases h
  | ok found =>
      rw [hentry] at h
      cases found with
      | node place node => cases h
      | nothing place slash =>
          cases h
          obtain ⟨blanks, hblanks, hpieces⟩ := pieces_eq_stem_append path
          have haccepts := accepts_of_nothing hentry .dir
          have hgrows := Grows.single haccepts
          have hnode : (tree.insert place .dir).node? place = some .dir := by
            rw [node?_insert haccepts.1, if_pos rfl]
          have hfind := hgrows.find_filled hentry hpieces hblanks hnode (.inl rfl)
          exact ⟨place, hgrows, isDirectory_iff.mpr ⟨place, hfind⟩⟩

theorem makeDirectory_of_isDirectory (h : tree.isDirectory path = true) :
    tree.makeDirectory path = .error .exists := by
  obtain ⟨location, hfind⟩ := isDirectory_iff.mp h
  obtain ⟨place, node, hentry⟩ := findEntry_of_find hfind
  unfold makeDirectory
  rw [hentry]
  rfl

/-- There is nothing to be made for a path. -/
def Ready (tree : FileTree) (path : Path) : Prop :=
  path.text.isEmpty = true ∨ tree.isDirectory path = true

theorem Grows.ready {entries : List (Location × FileNode)} (hgrows : Grows tree entries after)
    (h : tree.Ready path) : after.Ready path := h.imp_right hgrows.isDirectory

theorem makeDirectories_of_ready (h : tree.Ready path) :
    tree.makeDirectories path = (tree, .ok ()) := by
  unfold makeDirectories makeDirectoriesAt
  rcases h with hempty | hdirectory
  · simp [hempty]
  · simp [makeDirectory_of_isDirectory hdirectory, hdirectory]

private theorem of_orThere {made : FileTree} {fault : FileFault}
    (h : (made, if made.isDirectory path then Except.ok () else .error fault) =
      (after, (.ok () : Except FileFault Unit))) :
    made = after ∧ after.isDirectory path = true := by
  by_cases hdirectory : made.isDirectory path = true
  · rw [if_pos hdirectory] at h
    cases h
    exact ⟨rfl, hdirectory⟩
  · rw [if_neg hdirectory] at h
    cases h

/-- The ways to succeed: the last directory is made in the tree as it is or with those above it
made, or is there already. -/
private theorem of_makeDirectoriesAt {fuel : Nat}
    (h : makeDirectoriesAt (fuel + 1) tree path = (after, .ok ())) :
    (path.text.isEmpty = true ∧ tree = after) ∨
      ∃ made, (tree = made ∨ ∃ above, makeDirectoriesAt fuel tree above = (made, .ok ())) ∧
        (made.makeDirectory path = .ok after ∨ made = after ∧ after.isDirectory path = true) := by
  unfold makeDirectoriesAt at h
  by_cases hempty : path.text.isEmpty = true
  · rw [if_pos hempty] at h
    cases h
    exact .inl ⟨hempty, rfl⟩
  rw [if_neg hempty] at h
  right
  cases hmake : tree.makeDirectory path with
  | ok made =>
      rw [hmake] at h
      cases h
      exact ⟨tree, .inl rfl, .inl hmake⟩
  | error fault =>
      rw [hmake] at h
      by_cases hmissing : fault = .notFound
      · subst hmissing
        cases hparent : path.parent? with
        | none =>
            rw [hparent] at h
            cases h
        | some above =>
            rw [hparent] at h
            dsimp only at h
            rcases habove : makeDirectoriesAt fuel tree above with ⟨made, fault | ⟨⟩⟩
            · rw [habove] at h
              cases h
            rw [habove] at h
            dsimp only at h
            refine ⟨made, .inr ⟨above, habove⟩, ?_⟩
            cases hagain : made.makeDirectory path with
            | ok made' =>
                rw [hagain] at h
                cases h
                exact .inl rfl
            | error fault =>
                rw [hagain] at h
                exact .inr (of_orThere h)
      · have hthere : (tree, if tree.isDirectory path then Except.ok () else .error fault) =
            (after, (.ok () : Except FileFault Unit)) := by
          cases fault <;> first | exact h | exact absurd rfl hmissing
        exact ⟨tree, .inl rfl, .inr (of_orThere hthere)⟩

theorem makeDirectoriesAt_ok {fuel : Nat}
    (h : makeDirectoriesAt fuel tree path = (after, .ok ())) :
    ∃ entries, Grows tree entries after ∧ (∀ entry ∈ entries, entry.2 = .dir) ∧
      after.Ready path := by
  induction fuel generalizing tree after path with
  | zero => cases h
  | succ fuel ih =>
      rcases of_makeDirectoriesAt h with ⟨hempty, rfl⟩ | ⟨made, habove, hlast⟩
      · exact ⟨[], .none _, by simp, .inl hempty⟩
      obtain ⟨entries, hgrows, hentries⟩ :
          ∃ entries, Grows tree entries made ∧ ∀ entry ∈ entries, entry.2 = .dir := by
        rcases habove with rfl | ⟨above, habove⟩
        · exact ⟨[], .none _, by simp⟩
        · obtain ⟨entries, hgrows, hentries, -⟩ := ih habove
          exact ⟨entries, hgrows, hentries⟩
      rcases hlast with hmake | ⟨rfl, hdirectory⟩
      · obtain ⟨location, hlast, hdirectory⟩ := makeDirectory_ok hmake
        refine ⟨_, hgrows.append hlast, fun entry hentry => ?_, .inr hdirectory⟩
        rcases List.mem_append.mp hentry with hold | hnew
        · exact hentries entry hold
        · rw [List.mem_singleton.mp hnew]
      · exact ⟨entries, hgrows, hentries, .inr hdirectory⟩

theorem makeDirectories_ok (h : tree.makeDirectories path = (after, .ok ())) :
    ∃ entries, Grows tree entries after ∧ (∀ entry ∈ entries, entry.2 = .dir) ∧
      after.Ready path := makeDirectoriesAt_ok h

section Keeping

variable {P : FileTree → Prop}

theorem makeDirectoriesAt_keeps
    (hkeeps : ∀ {tree after path}, P tree → makeDirectory tree path = .ok after → P after)
    (fuel : Nat) (path : Path) (h : P tree) : P (makeDirectoriesAt fuel tree path).1 := by
  induction fuel generalizing tree path with
  | zero => exact h
  | succ fuel ih =>
      rw [makeDirectoriesAt]
      by_cases hempty : path.text.isEmpty = true
      · rw [if_pos hempty]
        exact h
      rw [if_neg hempty]
      cases hmake : tree.makeDirectory path with
      | ok made => exact hkeeps h hmake
      | error fault =>
          by_cases hmissing : fault = .notFound
          · subst hmissing
            cases hparent : path.parent? with
            | none => exact h
            | some above =>
                have habove := ih above h
                dsimp only
                rcases hmade : makeDirectoriesAt fuel tree above with ⟨made, fault | ⟨⟩⟩
                · rw [hmade] at habove
                  exact habove
                rw [hmade] at habove
                dsimp only at habove ⊢
                cases hlast : made.makeDirectory path with
                | ok last => exact hkeeps habove hlast
                | error fault => exact habove
          · cases fault <;> first | exact h | exact absurd rfl hmissing

/-- What making one directory keeps is kept where those above it are made as well, also where that
fails. -/
theorem makeDirectories_keeps
    (hkeeps : ∀ {tree after path}, P tree → makeDirectory tree path = .ok after → P after)
    {result : Except FileFault Unit} (h : P tree)
    (hmake : tree.makeDirectories path = (after, result)) : P after := by
  have hat := makeDirectoriesAt_keeps hkeeps (path.text.length + 1) path h
  rwa [show makeDirectoriesAt _ _ _ = _ from hmake] at hat

end Keeping

end RpcContract.FileTree
