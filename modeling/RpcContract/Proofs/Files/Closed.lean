import Mathlib.Data.List.Induction
import Mathlib.Data.String.Basic
import RpcContract.Proofs.Files.Listing
import RpcContract.Proofs.Files.Targets

/-!
# Trees in which everything stands in a directory

In a closed tree nothing stands below a place where nothing is.  A directory that is made there is
empty, and no listing of files shows it.
-/

namespace RpcContract.FileTree

variable {before after tree : FileTree} {entries : List (Location × FileNode)}
  {location place : Location} {node : FileNode} {path : Path}

/-- Everything stands in a directory, and relative paths start from one. -/
structure Closed (tree : FileTree) : Prop where
  parents : ∀ location, tree.node? location ≠ none → tree.node? location.dropLast = some .dir
  current : tree.node? tree.current = some .dir

theorem Closed.of_nodes (h : ∀ entry ∈ tree.nodes, tree.node? entry.1.dropLast = some .dir)
    (hcurrent : tree.node? tree.current = some .dir) : tree.Closed := by
  refine ⟨fun location hnode => ?_, hcurrent⟩
  by_cases hroot : location = []
  · simp [hroot]
  obtain ⟨node, hnode⟩ := Option.ne_none_iff_exists'.mp hnode
  rw [node?_eq_lookupNode hroot] at hnode
  exact h _ (mem_of_lookupNode hnode)

theorem Closed.none_below (h : tree.Closed) (hnone : tree.node? place = none) (rest : Location) :
    tree.node? (place ++ rest) = none := by
  induction rest using List.reverseRecOn with
  | nil => simpa using hnone
  | append_singleton rest name ih =>
      by_contra hnode
      have hparent := h.parents _ hnode
      rw [← List.append_assoc, List.dropLast_concat, ih] at hparent
      cases hparent

/-- What stands below a place shows that a directory is there. -/
theorem Closed.dir_above {names : List String} (h : tree.Closed) (hne : names ≠ [])
    (hnode : tree.node? (location ++ names) ≠ none) : tree.node? location = some .dir := by
  induction names using List.reverseRecOn with
  | nil => exact absurd rfl hne
  | append_singleton names name ih =>
      have hparent := h.parents _ hnode
      rw [← List.append_assoc, List.dropLast_concat] at hparent
      by_cases hnames : names = []
      · subst hnames
        simpa using hparent
      · exact ih hnames (by simp [hparent])

theorem Closed.insert (h : tree.Closed) (haccepts : tree.Accepts place node)
    (hparent : tree.node? place.dropLast = some .dir) : (tree.insert place node).Closed := by
  have hkept {location : Location} (hdir : tree.node? location = some .dir) :
      (tree.insert place node).node? location = some .dir := by
    obtain ⟨node', hafter, hstays⟩ := (Grows.single haccepts).node?_stays hdir
    cases hstays
    exact hafter
  refine ⟨fun location hnode => hkept ?_, hkept h.current⟩
  rw [node?_insert haccepts.1] at hnode
  by_cases hplace : location = place
  · exact hplace ▸ hparent
  · rw [if_neg hplace] at hnode
    exact h.parents location hnode

/-! ## Where something can be made -/

theorem Closed.follow_nothing {again : Following} {final slash : Bool} (h : tree.Closed)
    (hagain : ∀ location pieces, tree.node? location = some .dir →
      again location pieces = .ok (.nothing place slash) → tree.node? place.dropLast = some .dir)
    (location : Location) (pieces : List String) (hdir : tree.node? location = some .dir)
    (hfollow : follow again tree final location pieces = .ok (.nothing place slash)) :
    tree.node? place.dropLast = some .dir := by
  induction location, pieces using follow_induction with
  | done location => cases hfollow
  | stay location piece rest hstay ih =>
      rw [follow_stay hstay] at hfollow
      exact ih hdir hfollow
  | up location rest ih =>
      rw [follow_up] at hfollow
      exact ih (h.parents location (by simp [hdir])) hfollow
  | tooLong location piece rest hstay hup hlong =>
      rw [follow_tooLong hstay hup hlong] at hfollow
      cases hfollow
  | names location piece rest hnames ih =>
      rw [follow_names hnames] at hfollow
      split at hfollow
      · split at hfollow <;> cases hfollow
        rwa [List.dropLast_concat]
      · next hnode => exact ih hnode hfollow
      · split at hfollow <;> cases hfollow
      · next target hnode =>
          split at hfollow
          · cases hfollow
          · refine hagain _ _ ?_ hfollow
            split
            · rfl
            · exact hdir

theorem Closed.walk_nothing {final slash : Bool} (h : tree.Closed) (links : Nat)
    (location : Location) (pieces : List String) (hdir : tree.node? location = some .dir)
    (hwalk : walk tree final links location pieces = .ok (.nothing place slash)) :
    tree.node? place.dropLast = some .dir := by
  induction links generalizing location pieces with
  | zero => exact h.follow_nothing (by simp) location pieces hdir hwalk
  | succ links ih => exact h.follow_nothing ih location pieces hdir hwalk

/-- What is made at a free place is made in a directory. -/
theorem Closed.findPieces_nothing {final slash : Bool} {pieces : List String} (h : tree.Closed)
    (hfind : tree.findPieces final path pieces = .ok (.nothing place slash)) :
    tree.node? place.dropLast = some .dir := by
  refine h.walk_nothing _ _ _ ?_ (findPieces_eq_ok_iff.mp hfind).2
  unfold startOf
  split
  · rfl
  · exact h.current

theorem Closed.write {content : Content} (h : tree.Closed)
    (hwrite : tree.write path content = .ok after) : after.Closed := by
  obtain ⟨-, place, htarget, rfl⟩ := write_eq_ok_iff.mp hwrite
  refine h.insert (htarget.accepts content) ?_
  rcases htarget with hfree | ⟨old, hleads⟩
  · exact h.findPieces_nothing hfree
  · exact h.parents place (by simp [Leads.node?_eq hleads])

theorem makeDirectory_eq_ok_iff : tree.makeDirectory path = .ok after ↔
    ∃ place slash, tree.findEntry path = .ok (.nothing place slash) ∧
      after = tree.insert place .dir := by
  unfold makeDirectory
  rcases tree.findEntry path with fault | ⟨place, node⟩ | ⟨place, slash⟩
  · simp [bind, Except.bind]
  · simp [bind, Except.bind, throw, throwThe, MonadExceptOf.throw]
  · simp [bind, Except.bind, pure, Except.pure, eq_comm]

theorem Closed.makeDirectory (h : tree.Closed) (hmake : tree.makeDirectory path = .ok after) :
    after.Closed := by
  obtain ⟨place, slash, hentry, rfl⟩ := makeDirectory_eq_ok_iff.mp hmake
  exact h.insert (accepts_of_nothing hentry .dir) (h.findPieces_nothing hentry)

/-! ## Removed files -/

section Removed

variable {content : Content}

theorem Closed.node?_remove (h : tree.Closed) (hfile : tree.node? place = some (.file content))
    (hnode : tree.node? location ≠ none) :
    (tree.remove place).node? location =
      if location = place then none else tree.node? location := by
  by_cases hroot : location = []
  · subst hroot
    have hplace : [] ≠ place := by
      rintro rfl
      cases hfile
    rw [if_neg hplace]
    rfl
  have hfilter : (tree.remove place).node? location =
      if !place.isPrefixOf location then tree.node? location else none := by
    rw [node?_eq_lookupNode hroot, node?_eq_lookupNode hroot]
    exact lookupNode_filter (fun at_ => !place.isPrefixOf at_) location tree.nodes
  rw [hfilter]
  by_cases hplace : location = place
  · simp [hplace]
  -- A file is no directory that other nodes could stand in.
  have hbelow : ¬ place <+: location := by
    rintro ⟨names, rfl⟩
    have hdir := h.dir_above (fun hnil => hplace (by simp [hnil])) hnode
    rw [hfile] at hdir
    cases hdir
  have hkept : (!place.isPrefixOf location) = true := by
    rwa [Bool.not_eq_true', ← Bool.not_eq_true, List.isPrefixOf_iff_prefix]
  rw [if_neg hplace, if_pos hkept]

theorem Closed.node?_remove_of_ne {node : FileNode} (h : tree.Closed)
    (hfile : tree.node? place = some (.file content)) (hnode : tree.node? location = some node)
    (hother : node ≠ .file content) : (tree.remove place).node? location = some node := by
  have hplace : location ≠ place := by
    rintro rfl
    exact hother (Option.some.inj (hnode.symm.trans hfile))
  rw [h.node?_remove hfile (by simp [hnode]), if_neg hplace, hnode]

theorem Closed.follow_remove {again again' : Following} (h : tree.Closed)
    (hfile : tree.node? place = some (.file content))
    (hagain : ∀ location pieces, tree.node? location = some .dir →
      again location pieces = .ok (.node place (.file content)) →
        again' location pieces = .ok (.nothing place false))
    (location : Location) (pieces : List String) (hdir : tree.node? location = some .dir)
    (hfollow : follow again tree true location pieces = .ok (.node place (.file content))) :
    follow again' (tree.remove place) true location pieces = .ok (.nothing place false) := by
  induction location, pieces using follow_induction with
  | done location => cases hfollow
  | stay location piece rest hstay ih =>
      rw [follow_stay hstay] at hfollow ⊢
      exact ih hdir hfollow
  | up location rest ih =>
      rw [follow_up] at hfollow ⊢
      exact ih (h.parents location (by simp [hdir])) hfollow
  | tooLong location piece rest hstay hup hlong =>
      rw [follow_tooLong hstay hup hlong] at hfollow
      cases hfollow
  | names location piece rest hnames ih =>
      rw [follow_names hnames] at hfollow ⊢
      cases hnode : tree.node? (location ++ [piece]) with
      | none =>
          rw [hnode] at hfollow
          dsimp only at hfollow
          split at hfollow <;> cases hfollow
      | some node =>
          rw [hnode] at hfollow
          cases node with
          | dir =>
              rw [h.node?_remove_of_ne hfile hnode (by simp)]
              exact ih hnode hfollow
          | link target =>
              rw [h.node?_remove_of_ne hfile hnode (by simp)]
              simp only [Bool.not_true, Bool.false_eq_true, and_false, if_false] at hfollow ⊢
              refine hagain _ _ ?_ hfollow
              split
              · rfl
              · exact hdir
          | file old =>
              dsimp only at hfollow
              split at hfollow
              next hrest =>
                cases hfollow
                rw [h.node?_remove hfile (by simp [hnode]), if_pos rfl, hrest]
                rfl
              next => cases hfollow

theorem Closed.walk_remove (h : tree.Closed) (hfile : tree.node? place = some (.file content))
    (links : Nat) (location : Location) (pieces : List String)
    (hdir : tree.node? location = some .dir)
    (hwalk : walk tree true links location pieces = .ok (.node place (.file content))) :
    walk (tree.remove place) true links location pieces = .ok (.nothing place false) := by
  induction links generalizing location pieces with
  | zero => exact h.follow_remove hfile (by simp) location pieces hdir hwalk
  | succ links ih => exact h.follow_remove hfile ih location pieces hdir hwalk

theorem Closed.readText_remove (h : tree.Closed) (hleads : tree.Leads path place content) :
    (tree.remove place).readText path = .error .notFound := by
  obtain ⟨hproper, hwalk⟩ := findPieces_eq_ok_iff.mp hleads
  have hstart : tree.node? (tree.startOf path) = some .dir := by
    unfold startOf
    split
    · rfl
    · exact h.current
  have hfind : (tree.remove place).find true path = .ok (.nothing place false) :=
    findPieces_eq_ok_iff.mpr ⟨hproper, h.walk_remove hleads.node?_eq _ _ _ hstart hwalk⟩
  rw [readText, read, hfind]
  rfl

end Removed

/-! ## Directories in a listing -/

section Sorting

variable {entry : String × FileNode} {sorted named : List (String × FileNode)}

theorem insertByName_of_lt (h : ∀ child ∈ sorted, entry.1 < child.1) :
    insertByName entry sorted = entry :: sorted := by
  cases sorted with
  | nil => rfl
  | cons child rest => rw [insertByName, if_pos (h child (by simp))]

theorem insertByName_pairwise (h : sorted.Pairwise fun child other => child.1 ≤ other.1) :
    (insertByName entry sorted).Pairwise fun child other => child.1 ≤ other.1 := by
  induction sorted with
  | nil => simp [insertByName]
  | cons child rest ih =>
      obtain ⟨hchild, hrest⟩ := List.pairwise_cons.mp h
      rw [insertByName]
      by_cases hlt : entry.1 < child.1
      · rw [if_pos hlt]
        refine List.pairwise_cons.mpr ⟨fun other hother => ?_, h⟩
        rcases List.mem_cons.mp hother with rfl | hother
        · exact hlt.le
        · exact hlt.le.trans (hchild other hother)
      · rw [if_neg hlt]
        refine List.pairwise_cons.mpr ⟨fun other hother => ?_, ih hrest⟩
        rcases mem_insertByName.mp hother with rfl | hother
        · exact not_lt.mp hlt
        · exact hchild other hother

theorem filter_insertByName (keep : String × FileNode → Bool)
    (h : sorted.Pairwise fun child other => child.1 ≤ other.1) :
    (insertByName entry sorted).filter keep =
      if keep entry then insertByName entry (sorted.filter keep) else sorted.filter keep := by
  induction sorted with
  | nil => cases hkeep : keep entry <;> simp [insertByName, hkeep]
  | cons child rest ih =>
      obtain ⟨hchild, hrest⟩ := List.pairwise_cons.mp h
      rw [insertByName]
      by_cases hlt : entry.1 < child.1
      · have hfirst : ∀ other ∈ (child :: rest).filter keep, entry.1 < other.1 := by
          intro other hother
          rcases List.mem_cons.mp (List.mem_of_mem_filter hother) with rfl | hother
          · exact hlt
          · exact hlt.trans_le (hchild other hother)
        rw [if_pos hlt, List.filter_cons, insertByName_of_lt hfirst]
      · rw [if_neg hlt, List.filter_cons, List.filter_cons, ih hrest]
        cases hkeep : keep child <;> cases hentry : keep entry <;> simp [insertByName, hlt]

theorem foldr_insertByName_pairwise (named : List (String × FileNode)) :
    (named.foldr insertByName []).Pairwise fun child other => child.1 ≤ other.1 := by
  induction named with
  | nil => exact .nil
  | cons entry rest ih => exact insertByName_pairwise ih

theorem filter_foldr_insertByName (keep : String × FileNode → Bool) :
    (named.foldr insertByName []).filter keep = (named.filter keep).foldr insertByName [] := by
  induction named with
  | nil => rfl
  | cons entry rest ih =>
      rw [List.foldr_cons, filter_insertByName keep (foldr_insertByName_pairwise rest), ih,
        List.filter_cons]
      cases hkeep : keep entry <;> simp

end Sorting

section Listing

theorem insertNode_of_lookupNode_none {nodes : List (Location × FileNode)}
    (h : lookupNode place nodes = none) (node : FileNode) :
    insertNode place node nodes = nodes ++ [(place, node)] := by
  induction nodes with
  | nil => rfl
  | cons entry rest ih =>
      rw [lookupNode] at h
      by_cases hentry : entry.1 = place
      · rw [if_pos hentry] at h
        cases h
      · rw [if_neg hentry] at h
        rw [insertNode, if_neg hentry, ih h, List.cons_append]

theorem insertAll_directories (nodes : List (Location × FileNode))
    {directories : List (Location × FileNode)}
    (hdirectories : ∀ entry ∈ directories, entry.2 = .dir)
    (hkept : ∀ entry ∈ directories, ∀ old, lookupNode entry.1 nodes = some old → old = .dir) :
    ∃ added, insertAll nodes directories = nodes ++ added ∧
      ∀ entry ∈ added, entry ∈ directories ∧ lookupNode entry.1 nodes = none := by
  induction directories generalizing nodes with
  | nil => exact ⟨[], by simp [insertAll]⟩
  | cons directory rest ih =>
      obtain ⟨place, node⟩ := directory
      obtain rfl : node = .dir := hdirectories (place, node) (by simp)
      have hrest := fun entry hentry => hdirectories entry (List.mem_cons_of_mem _ hentry)
      cases hlookup : lookupNode place nodes with
      | some old =>
          obtain rfl := hkept (place, .dir) (by simp) old hlookup
          obtain ⟨added, hadded, hnew⟩ := ih nodes hrest fun entry hentry =>
            hkept entry (by simp [hentry])
          refine ⟨added, ?_, fun entry hentry => ?_⟩
          · rw [← hadded, insertAll, List.foldl_cons, insertNode_of_lookupNode hlookup]
            rfl
          · obtain ⟨hmem, hnone⟩ := hnew entry hentry
            exact ⟨List.mem_cons_of_mem _ hmem, hnone⟩
      | none =>
          have hinsert := insertNode_of_lookupNode_none hlookup .dir
          have hlater (location : Location) : lookupNode location (nodes ++ [(place, .dir)]) =
              if location = place then some .dir else lookupNode location nodes := by
            rw [← hinsert, lookupNode_insertNode]
          obtain ⟨added, hadded, hnew⟩ := ih (nodes ++ [(place, .dir)]) hrest
            fun entry hentry old hold => by
              rw [hlater] at hold
              split at hold
              · cases hold
                rfl
              · exact hkept entry (by simp [hentry]) old hold
          refine ⟨(place, .dir) :: added, ?_, fun entry hentry => ?_⟩
          · rw [insertAll, List.foldl_cons, hinsert]
            simpa [insertAll] using hadded
          · rcases List.mem_cons.mp hentry with rfl | hentry
            · exact ⟨by simp, hlookup⟩
            · obtain ⟨hmem, hnone⟩ := hnew entry hentry
              rw [hlater] at hnone
              split at hnone
              · cases hnone
              · exact ⟨List.mem_cons_of_mem _ hmem, hnone⟩

/-- If only directories are made below a location, the nodes below it are those that were there, and
directories at places where nothing was. -/
theorem Grows.nodes_below_of_directories (h : Grows before entries after)
    (hentries : ∀ entry ∈ entries, location <+: entry.1 → entry.2 = .dir) :
    ∃ added, (after.nodes.filter fun entry => location.isPrefixOf entry.1) =
        (before.nodes.filter fun entry => location.isPrefixOf entry.1) ++ added ∧
      ∀ entry ∈ added, entry.2 = .dir ∧ before.node? entry.1 = .none := by
  obtain ⟨hnodes, hroot⟩ := h.nodes_eq
  have hbelow : ∀ entry ∈ entries.filter (fun entry => location.isPrefixOf entry.1),
      entry ∈ entries ∧ location <+: entry.1 ∧ entry.2 = .dir ∧
        lookupNode entry.1 (before.nodes.filter fun entry => location.isPrefixOf entry.1) =
          before.node? entry.1 := by
    intro entry hentry
    obtain ⟨hmem, hprefix⟩ := List.mem_filter.mp hentry
    have hprefix' := List.isPrefixOf_iff_prefix.mp hprefix
    refine ⟨hmem, hprefix', hentries entry hmem hprefix', ?_⟩
    rw [lookupNode_filter location.isPrefixOf, if_pos hprefix,
      node?_eq_lookupNode (hroot entry hmem)]
  obtain ⟨added, hadded, hnew⟩ := insertAll_directories
    (before.nodes.filter fun entry => location.isPrefixOf entry.1)
    (fun entry hentry => (hbelow entry hentry).2.2.1) fun entry hentry old hold => by
      obtain ⟨hmem, -, hdir, hlookup⟩ := hbelow entry hentry
      have hstays := h.stays_of_mem hmem (hlookup ▸ hold)
      rw [hdir] at hstays
      cases hstays
      rfl
  refine ⟨added, ?_, fun entry hentry => ?_⟩
  · rw [hnodes, filter_insertAll location.isPrefixOf, hadded]
  · obtain ⟨hmem, hnone⟩ := hnew entry hentry
    obtain ⟨-, -, hdir, hlookup⟩ := hbelow entry hmem
    exact ⟨hdir, hlookup ▸ hnone⟩

theorem filesBelow_eq_nil (depth : Nat)
    (h : ∀ entry ∈ tree.nodes, location <+: entry.1 → entry.1 ≠ location → entry.2 = .dir) :
    tree.filesBelow depth location = [] := by
  induction depth generalizing location with
  | zero => rfl
  | succ depth ih =>
      rw [filesBelow, List.flatMap_eq_nil_iff]
      rintro ⟨name, node⟩ hchild
      have hmem := mem_children_iff.mp hchild
      have hdir : node = .dir := h _ hmem (List.prefix_append location [name]) (by simp)
      have hbelow : tree.filesBelow depth (location ++ [name]) = [] := by
        refine ih fun entry hentry hprefix hne => h entry hentry ?_ ?_
        · exact (List.prefix_append location [name]).trans hprefix
        · rintro rfl
          have hlength := hprefix.length_le
          simp at hlength
      simp [hdir, hbelow]

theorem mem_nodes_ne_none {entry : Location × FileNode} (h : entry ∈ tree.nodes) :
    tree.node? entry.1 ≠ none := by
  by_cases hroot : entry.1 = []
  · simp [hroot]
  rw [node?_eq_lookupNode hroot]
  generalize tree.nodes = nodes at h
  induction nodes with
  | nil => cases h
  | cons other rest ih =>
      rw [lookupNode]
      split
      · simp
      · next hne =>
          rcases List.mem_cons.mp h with rfl | h
          · exact absurd rfl hne
          · exact ih h

/-- The children of a directory are those that it had, and others below which are no files. -/
def Adds (before after : FileTree) (place : Location) : Prop :=
  ∃ added, after.children place =
      (before.nodes.filterMap (childOf place) ++ added).foldr insertByName [] ∧
    ∀ child ∈ added, child.2 = .dir ∧ ∀ depth, after.filesBelow depth (place ++ [child.1]) = []

theorem Grows.adds (h : Grows before entries after) (hclosed : before.Closed)
    (hentries : ∀ entry ∈ entries, location <+: entry.1 → entry.2 = .dir)
    (hplace : location <+: place) : Adds before after place := by
  obtain ⟨added, hnodes, hadded⟩ := h.nodes_below_of_directories hentries
  refine ⟨added.filterMap (childOf place), ?_, fun child hchild => ?_⟩
  · rw [children_eq, filterMap_childOf_below hplace after.nodes,
      filterMap_childOf_below hplace before.nodes, hnodes, List.filterMap_append]
  obtain ⟨entry, hentry, hof⟩ := List.mem_filterMap.mp hchild
  obtain ⟨hdir, hnone⟩ := hadded entry hentry
  obtain ⟨hat, hnode⟩ : entry.1 = place ++ [child.1] ∧ entry.2 = child.2 := by
    have hmem : child ∈ (⟨[entry], []⟩ : FileTree).children place := by
      rw [children_eq, mem_foldr_insertByName, List.mem_filterMap]
      exact ⟨entry, by simp, hof⟩
    have hone := List.mem_singleton.mp (mem_children_iff.mp hmem)
    exact ⟨by rw [← hone], by rw [← hone]⟩
  refine ⟨hnode ▸ hdir, fun depth => filesBelow_eq_nil depth fun other hother hprefix _ => ?_⟩
  -- Nothing was below this place, so that what is there now has been added.
  have hbelow : other ∈ after.nodes.filter fun entry => location.isPrefixOf entry.1 :=
    List.mem_filter.mpr ⟨hother, List.isPrefixOf_iff_prefix.mpr
      ((hplace.trans (List.prefix_append place [child.1])).trans hprefix)⟩
  rw [hnodes] at hbelow
  rcases List.mem_append.mp hbelow with hold | hnew
  · obtain ⟨rest, hrest⟩ := hprefix
    have hnothing := hclosed.none_below (hat ▸ hnone) rest
    rw [hrest] at hnothing
    exact absurd hnothing (mem_nodes_ne_none (List.mem_of_mem_filter hold))
  · exact (hadded other hnew).1

theorem flatMap_foldr_insertByName {β : Type} {named added : List (String × FileNode)}
    {f : String × FileNode → List β} (h : ∀ child ∈ added, f child = []) :
    ((named ++ added).foldr insertByName []).flatMap f =
      (named.foldr insertByName []).flatMap f := by
  have hkeep (children : List (String × FileNode)) : children.flatMap f =
      (children.filter fun child => !(f child).isEmpty).flatMap f := by
    induction children with
    | nil => rfl
    | cons child rest ih =>
        cases hchild : f child <;> simp [hchild, ih]
  have hadded : (added.filter fun child => !(f child).isEmpty) = [] := by
    rw [List.filter_eq_nil_iff]
    intro child hchild
    simp [h child hchild]
  rw [hkeep, filter_foldr_insertByName, List.filter_append, hadded, List.append_nil,
    ← filter_foldr_insertByName, ← hkeep]

/-- Directories without files do not show in a listing. -/
theorem filesBelow_of_adds {depth depth' : Nat}
    (hadds : ∀ place, location <+: place → Adds before after place)
    (hdepth : after.depth ≤ depth + location.length)
    (hdepth' : before.depth ≤ depth' + location.length) :
    after.filesBelow depth location = before.filesBelow depth' location := by
  induction depth generalizing depth' location with
  -- The tree ends here, and so did the one before, whose children are among these.
  | zero =>
      have hnone := children_of_depth_le (by omega : after.depth ≤ location.length)
      obtain ⟨added, hchildren, -⟩ := hadds location (List.prefix_refl _)
      have hbefore : before.children location = [] := by
        rw [List.eq_nil_iff_forall_not_mem]
        intro child hchild
        rw [children_eq, mem_foldr_insertByName] at hchild
        have hmem : child ∈ after.children location := by
          rw [hchildren, mem_foldr_insertByName]
          exact List.mem_append_left _ hchild
        rw [hnone] at hmem
        cases hmem
      cases depth' with
      | zero => rfl
      | succ depth' => simp [filesBelow, hbefore]
  | succ depth ih =>
      obtain ⟨added, hchildren, hadded⟩ := hadds location (List.prefix_refl _)
      rw [filesBelow, hchildren, flatMap_foldr_insertByName fun child hchild => by
        obtain ⟨hdir, hnone⟩ := hadded child hchild
        simp [hdir, hnone], ← children_eq]
      cases depth' with
      | zero =>
          rw [children_of_depth_le (by omega : before.depth ≤ location.length)]
          rfl
      | succ depth' =>
          have hbelow (name : String) : after.filesBelow depth (location ++ [name]) =
              before.filesBelow depth' (location ++ [name]) := by
            have hlength : (location ++ [name]).length = location.length + 1 := by simp
            exact ih (fun place hplace => hadds place
              ((List.prefix_append location [name]).trans hplace)) (by omega) (by omega)
          rw [filesBelow]
          simp only [hbelow]

theorem Grows.filesBelow_of_directories (h : Grows before entries after) (hclosed : before.Closed)
    (hentries : ∀ entry ∈ entries, location <+: entry.1 → entry.2 = .dir) :
    SameListing before after location :=
  filesBelow_of_adds (fun _ hplace => h.adds hclosed hentries hplace) (by omega) (by omega)

end Listing

end RpcContract.FileTree
