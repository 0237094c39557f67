import RpcContract.Proofs.Files.Growth

/-!
# Listing a directory that has been left alone

What stands below a directory depends only on the nodes below it.  Where a run leaves those as they
were, it leaves the listing as it was, although the tree may have become deeper.
-/

namespace RpcContract.FileTree

variable {before after : FileTree} {entries : List (Location × FileNode)}

/-! ## Insertions one after the other -/

def insertAll (nodes entries : List (Location × FileNode)) : List (Location × FileNode) :=
  entries.foldl (fun nodes entry => insertNode entry.1 entry.2 nodes) nodes

theorem Grows.nodes_eq (h : Grows before entries after) :
    after.nodes = insertAll before.nodes entries ∧ ∀ entry ∈ entries, entry.1 ≠ [] := by
  induction h with
  | none => exact ⟨rfl, by simp⟩
  | insert haccepts _ ih =>
      refine ⟨ih.1, fun entry hentry => ?_⟩
      rcases List.mem_cons.mp hentry with rfl | hrest
      · exact haccepts.1
      · exact ih.2 entry hrest

theorem lookupNode_insertAll (location : Location) (nodes entries : List (Location × FileNode))
    (h : ∀ entry ∈ entries, entry.1 ≠ location) :
    lookupNode location (insertAll nodes entries) = lookupNode location nodes := by
  induction entries generalizing nodes with
  | nil => rfl
  | cons entry rest ih =>
      refine Eq.trans (ih (insertNode entry.1 entry.2 nodes) fun other hother =>
        h other (by simp [hother])) ?_
      rw [lookupNode_insertNode, if_neg (h entry (by simp)).symm]

theorem insertAll_cons (location : Location) (node : FileNode)
    (nodes entries : List (Location × FileNode)) :
    ∃ node', insertAll ((location, node) :: nodes) entries =
      (location, node') :: insertAll nodes (entries.filter fun entry => entry.1 ≠ location) := by
  induction entries generalizing node nodes with
  | nil => exact ⟨node, rfl⟩
  | cons entry rest ih =>
      by_cases hat : location = entry.1
      · obtain ⟨node', hrest⟩ := ih entry.2 nodes
        refine ⟨node', ?_⟩
        change insertAll (insertNode entry.1 entry.2 ((location, node) :: nodes)) rest = _
        rw [insertNode, if_pos hat, ← hat, hrest]
        simp [hat]
      · obtain ⟨node', hrest⟩ := ih node (insertNode entry.1 entry.2 nodes)
        refine ⟨node', ?_⟩
        change insertAll (insertNode entry.1 entry.2 ((location, node) :: nodes)) rest = _
        rw [insertNode, if_neg hat, hrest]
        simp [insertAll, Ne.symm hat]

theorem insertAll_eq_self (nodes entries : List (Location × FileNode))
    (h : ∀ location, lookupNode location (insertAll nodes entries) = lookupNode location nodes) :
    insertAll nodes entries = nodes := by
  -- What is meant for the first node leaves it as it was, and the others go into the rest.
  induction nodes generalizing entries with
  | nil =>
      cases hall : insertAll [] entries with
      | nil => rfl
      | cons entry rest =>
          have hentry := h entry.1
          rw [hall] at hentry
          simp [lookupNode] at hentry
  | cons entry rest ih =>
      obtain ⟨location, node⟩ := entry
      obtain ⟨node', hall⟩ := insertAll_cons location node rest entries
      have hnode := h location
      rw [hall] at hnode
      simp only [lookupNode, if_pos, Option.some.injEq] at hnode
      rw [hall, hnode]
      refine congrArg _ (ih _ fun other => ?_)
      by_cases hother : location = other
      · subst hother
        exact lookupNode_insertAll _ _ _ (by simp)
      · have hrest := h other
        rw [hall, lookupNode, lookupNode, if_neg hother, if_neg hother] at hrest
        exact hrest

theorem filter_insertAll (keep : Location → Bool) (nodes entries : List (Location × FileNode)) :
    (insertAll nodes entries).filter (fun entry => keep entry.1) =
      insertAll (nodes.filter fun entry => keep entry.1)
        (entries.filter fun entry => keep entry.1) := by
  have one (at_ : Location) (node : FileNode) (nodes : List (Location × FileNode)) :
      (insertNode at_ node nodes).filter (fun entry => keep entry.1) =
        if keep at_ then insertNode at_ node (nodes.filter fun entry => keep entry.1)
        else nodes.filter fun entry => keep entry.1 := by
    induction nodes with
    | nil => cases hkeep : keep at_ <;> simp [insertNode, hkeep]
    | cons entry rest ih =>
        by_cases hat : entry.1 = at_
        · cases hkeep : keep at_ <;> simp [insertNode, hat, hkeep]
        · cases hkeep : keep at_ <;> cases hentry : keep entry.1 <;>
            simp [insertNode, hat, hkeep, hentry, ih]
  induction entries generalizing nodes with
  | nil => rfl
  | cons entry rest ih =>
      refine Eq.trans (ih (insertNode entry.1 entry.2 nodes)) ?_
      rw [one]
      cases hkeep : keep entry.1 <;> simp [insertAll, hkeep]

theorem lookupNode_filter (keep : Location → Bool) (location : Location)
    (nodes : List (Location × FileNode)) :
    lookupNode location (nodes.filter fun entry => keep entry.1) =
      if keep location then lookupNode location nodes else none := by
  induction nodes with
  | nil => simp [lookupNode]
  | cons entry rest ih =>
      by_cases hat : entry.1 = location
      · cases hkeep : keep location <;> simp_all [lookupNode]
      · cases hentry : keep entry.1 <;> simp [lookupNode, hat, hentry, ih]

/-! ## Below a directory -/

/-- What stands at a location and below it is as before. -/
def SameBelow (before after : FileTree) (location : Location) : Prop :=
  ∀ place, location <+: place → after.node? place = before.node? place

theorem Grows.nodes_below {location : Location} (h : Grows before entries after)
    (hsame : SameBelow before after location) :
    (after.nodes.filter fun entry => location.isPrefixOf entry.1) =
      before.nodes.filter fun entry => location.isPrefixOf entry.1 := by
  obtain ⟨hnodes, hroot⟩ := h.nodes_eq
  rw [hnodes, filter_insertAll location.isPrefixOf]
  refine insertAll_eq_self _ _ fun place => ?_
  rw [← filter_insertAll location.isPrefixOf, lookupNode_filter location.isPrefixOf,
    lookupNode_filter location.isPrefixOf]
  by_cases hprefix : location.isPrefixOf place = true
  · rw [if_pos hprefix, if_pos hprefix, ← hnodes]
    by_cases hplace : place = []
    · subst hplace
      rw [hnodes]
      exact lookupNode_insertAll [] before.nodes entries hroot
    · rw [← node?_eq_lookupNode hplace, ← node?_eq_lookupNode hplace]
      exact hsame place (List.isPrefixOf_iff_prefix.mp hprefix)
  · rw [if_neg hprefix, if_neg hprefix]

def childOf (location : Location) (entry : Location × FileNode) : Option (String × FileNode) :=
  match entry.1.getLast? with
  | some name => if entry.1.dropLast = location then some (name, entry.2) else none
  | none => none

theorem of_childOf {location : Location} {entry : Location × FileNode}
    {child : String × FileNode} (h : childOf location entry = some child) :
    entry.1.dropLast = location ∧ entry.1.length = location.length + 1 := by
  unfold childOf at h
  split at h
  · next name hlast =>
      split at h
      · next hparent =>
          have hne : entry.1 ≠ [] := by
            intro hnil
            simp [hnil] at hlast
          have hlength := List.length_pos_iff.mpr hne
          refine ⟨hparent, ?_⟩
          rw [← hparent, List.length_dropLast]
          omega
      · cases h
  · cases h

theorem children_eq (tree : FileTree) (location : Location) :
    tree.children location = (tree.nodes.filterMap (childOf location)).foldr insertByName [] := rfl

theorem mem_insertByName {entry child : String × FileNode} {sorted : List (String × FileNode)} :
    child ∈ insertByName entry sorted ↔ child = entry ∨ child ∈ sorted := by
  induction sorted with
  | nil => simp [insertByName]
  | cons other rest ih =>
      rw [insertByName]
      split
      · simp
      · rw [List.mem_cons, ih, List.mem_cons, or_left_comm]

theorem mem_foldr_insertByName {child : String × FileNode} {named : List (String × FileNode)} :
    child ∈ named.foldr insertByName [] ↔ child ∈ named := by
  induction named with
  | nil => simp
  | cons entry rest ih => rw [List.foldr_cons, mem_insertByName, ih, List.mem_cons]

theorem mem_children_iff {tree : FileTree} {location : Location} {child : String × FileNode} :
    child ∈ tree.children location ↔ (location ++ [child.1], child.2) ∈ tree.nodes := by
  rw [children_eq, mem_foldr_insertByName, List.mem_filterMap]
  constructor
  · rintro ⟨entry, hentry, hchild⟩
    unfold childOf at hchild
    split at hchild
    · next name hlast =>
        split at hchild
        · next hparent =>
            cases hchild
            obtain ⟨first, hfirst⟩ := List.getLast?_eq_some_iff.mp hlast
            rw [hfirst, List.dropLast_concat] at hparent
            rw [← hparent, ← hfirst]
            exact hentry
        · cases hchild
    · cases hchild
  · intro hentry
    exact ⟨_, hentry, by simp [childOf]⟩

theorem filterMap_childOf_below {location place : Location} (hplace : location <+: place)
    (nodes : List (Location × FileNode)) :
    nodes.filterMap (childOf place) =
      (nodes.filter fun entry => location.isPrefixOf entry.1).filterMap (childOf place) := by
  induction nodes with
  | nil => rfl
  | cons entry rest ih =>
      cases hchild : childOf place entry with
      | none =>
          rw [List.filterMap_cons_none hchild, ih, List.filter_cons]
          split
          · rw [List.filterMap_cons_none hchild]
          · rfl
      | some child =>
          have hprefix : location <+: entry.1 :=
            hplace.trans ((of_childOf hchild).1 ▸ List.dropLast_prefix entry.1)
          rw [List.filter_cons, if_pos (List.isPrefixOf_iff_prefix.mpr hprefix),
            List.filterMap_cons_some hchild, List.filterMap_cons_some hchild, ih]

theorem children_congr {location place : Location} (hplace : location <+: place)
    (h : (after.nodes.filter fun entry => location.isPrefixOf entry.1) =
      before.nodes.filter fun entry => location.isPrefixOf entry.1) :
    after.children place = before.children place := by
  rw [children_eq, children_eq, filterMap_childOf_below hplace after.nodes,
    filterMap_childOf_below hplace before.nodes, h]

theorem length_le_depth {tree : FileTree} {entry : Location × FileNode}
    (h : entry ∈ tree.nodes) : entry.1.length ≤ tree.depth := by
  have hfold (lengths : List Nat) (start : Nat) :
      start ≤ lengths.foldl max start ∧ ∀ length ∈ lengths, length ≤ lengths.foldl max start := by
    induction lengths generalizing start with
    | nil => simp
    | cons length rest ih =>
        obtain ⟨hstart, hrest⟩ := ih (max start length)
        refine ⟨by simp only [List.foldl_cons]; omega, fun other hother => ?_⟩
        rcases List.mem_cons.mp hother with rfl | hother
        · simp only [List.foldl_cons]
          omega
        · exact hrest other hother
  exact (hfold _ 0).2 _ (List.mem_map_of_mem h)

theorem children_of_depth_le {tree : FileTree} {location : Location}
    (h : tree.depth ≤ location.length) : tree.children location = [] := by
  have hnone : tree.nodes.filterMap (childOf location) = [] := by
    rw [List.filterMap_eq_nil_iff]
    intro entry hentry
    cases hchild : childOf location entry with
    | none => rfl
    | some child =>
        have hlength := (of_childOf hchild).2
        have hdepth := length_le_depth hentry
        omega
  rw [children_eq, hnone]
  rfl

/-- The same listing comes out of two trees that agree below a directory, if each is listed as deep
as it is. -/
theorem filesBelow_congr {depth depth' : Nat} {location : Location}
    (hchildren : ∀ place, location <+: place → after.children place = before.children place)
    (hdepth : after.depth ≤ depth + location.length)
    (hdepth' : before.depth ≤ depth' + location.length) :
    after.filesBelow depth location = before.filesBelow depth' location := by
  have hsame := hchildren location (List.prefix_refl location)
  induction depth generalizing depth' location with
  | zero =>
      have hnone := children_of_depth_le (by omega : after.depth ≤ location.length)
      cases depth' with
      | zero => rfl
      | succ depth' => simp [filesBelow, ← hsame, hnone]
  | succ depth ih =>
      cases depth' with
      -- The other tree ends here, and so does this one, which has the same children.
      | zero =>
          have hnone := children_of_depth_le (by omega : before.depth ≤ location.length)
          simp [filesBelow, hsame, hnone]
      | succ depth' =>
          have hbelow (name : String) : after.filesBelow depth (location ++ [name]) =
              before.filesBelow depth' (location ++ [name]) := by
            have hinside (place : Location) (hplace : location ++ [name] <+: place) :
                after.children place = before.children place :=
              hchildren place ((List.prefix_append location [name]).trans hplace)
            have hlength : (location ++ [name]).length = location.length + 1 := by simp
            exact ih hinside (by omega) (by omega) (hinside _ (List.prefix_refl _))
          rw [filesBelow, filesBelow, hsame]
          simp only [hbelow]

def SameListing (before after : FileTree) (location : Location) : Prop :=
  after.filesBelow (after.depth + 1) location = before.filesBelow (before.depth + 1) location

theorem Grows.filesBelow_eq {location : Location} (h : Grows before entries after)
    (hsame : SameBelow before after location) : SameListing before after location :=
  filesBelow_congr (fun _ hplace => children_congr hplace (h.nodes_below hsame)) (by omega)
    (by omega)

end RpcContract.FileTree
