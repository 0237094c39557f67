import RpcContract.Files.Tree

/-!
# Trees that grow

A run puts nodes into a tree, one after the other: directories and files where nothing was, and
files in place of files.  `Grows` says so with the list of the nodes.  Nothing is lost on the way,
so that what a path leads to stays where it is.
-/

namespace RpcContract

/-- What may stand where a node stood: the node itself, or for a file another file. -/
inductive FileNode.Stays : FileNode → FileNode → Prop
  | same (node : FileNode) : Stays node node
  | rewritten (old new : Content) : Stays (.file old) (.file new)

theorem FileNode.Stays.trans {first second third : FileNode} (h : first.Stays second)
    (h' : second.Stays third) : first.Stays third := by
  cases h with
  | same => exact h'
  | rewritten old new =>
      cases h' with
      | same => exact .rewritten old new
      | rewritten _ newer => exact .rewritten old newer

namespace FileTree

/-! ## Insertion -/

theorem lookupNode_insertNode (at_ location : Location) (node : FileNode)
    (nodes : List (Location × FileNode)) :
    lookupNode location (insertNode at_ node nodes) =
      if location = at_ then some node else lookupNode location nodes := by
  induction nodes with
  | nil => simp [insertNode, lookupNode, eq_comm]
  | cons entry rest ih =>
      by_cases hat : entry.1 = at_
      · by_cases hlocation : location = at_
        · simp [insertNode, lookupNode, hat, hlocation]
        · simp [insertNode, lookupNode, hat, hlocation, Ne.symm hlocation]
      · rw [insertNode, if_neg hat, lookupNode, lookupNode, ih]
        by_cases hentry : entry.1 = location
        · have hlocation : location ≠ at_ := fun h => hat (hentry.trans h)
          simp [hentry, hlocation]
        · simp [hentry]

theorem insertNode_of_lookupNode {at_ : Location} {node : FileNode}
    {nodes : List (Location × FileNode)} (h : lookupNode at_ nodes = some node) :
    insertNode at_ node nodes = nodes := by
  induction nodes with
  | nil => cases h
  | cons entry rest ih =>
      by_cases hat : entry.1 = at_
      · rw [lookupNode, if_pos hat] at h
        cases h
        rw [insertNode, if_pos hat, ← hat]
      · rw [lookupNode, if_neg hat] at h
        rw [insertNode, if_neg hat, ih h]

theorem mem_of_lookupNode {location : Location} {nodes : List (Location × FileNode)}
    {node : FileNode}
    (h : lookupNode location nodes = some node) : (location, node) ∈ nodes := by
  induction nodes with
  | nil => cases h
  | cons entry rest ih =>
      rw [lookupNode] at h
      by_cases hentry : entry.1 = location
      · rw [if_pos hentry] at h
        cases h
        rw [← hentry]
        exact List.mem_cons_self
      · rw [if_neg hentry] at h
        exact List.mem_cons_of_mem _ (ih h)

@[simp] theorem node?_nil (tree : FileTree) : tree.node? [] = some .dir := rfl

theorem node?_eq_lookupNode {location : Location} (h : location ≠ []) (tree : FileTree) :
    tree.node? location = lookupNode location tree.nodes := by
  simp [node?, h]

theorem node?_insert {location : Location} (h : location ≠ []) (tree : FileTree)
    (node : FileNode) (other : Location) :
    (tree.insert location node).node? other =
      if other = location then some node else tree.node? other := by
  by_cases hother : other = []
  · subst hother
    simp [h.symm]
  · rw [node?_eq_lookupNode hother, node?_eq_lookupNode hother, insert, lookupNode_insertNode]

theorem insert_of_node? {tree : FileTree} {location : Location} {node : FileNode}
    (hroot : location ≠ []) (h : tree.node? location = some node) :
    tree.insert location node = tree := by
  rw [node?_eq_lookupNode hroot] at h
  rw [insert, insertNode_of_lookupNode h]

/-! ## Growth -/

def Accepts (tree : FileTree) (location : Location) (node : FileNode) : Prop :=
  location ≠ [] ∧ ∀ old, tree.node? location = some old → old.Stays node

/-- Nodes are put into a tree one after the other. -/
inductive Grows : FileTree → List (Location × FileNode) → FileTree → Prop
  | none (tree : FileTree) : Grows tree [] tree
  | insert {before after : FileTree} {location : Location} {node : FileNode}
      {rest : List (Location × FileNode)} :
      before.Accepts location node → Grows (before.insert location node) rest after →
      Grows before ((location, node) :: rest) after

namespace Grows

variable {before middle after : FileTree} {first later entries : List (Location × FileNode)}

theorem single {location : Location} {node : FileNode} (h : before.Accepts location node) :
    Grows before [(location, node)] (before.insert location node) := .insert h (.none _)

theorem append (h : Grows before first middle) (h' : Grows middle later after) :
    Grows before (first ++ later) after := by
  induction h with
  | none => exact h'
  | insert haccepts _ ih => exact .insert haccepts (ih h')

theorem current_eq (h : Grows before entries after) : after.current = before.current := by
  induction h with
  | none => rfl
  | insert _ _ ih => exact ih

/-- Nothing is lost: a directory, a link and a file stay what they are. -/
theorem node?_stays {location : Location} {node : FileNode} (h : Grows before entries after)
    (hnode : before.node? location = some node) :
    ∃ node', after.node? location = some node' ∧ node.Stays node' := by
  induction h generalizing node with
  | none => exact ⟨node, hnode, .same node⟩
  | @insert before _ place new _ haccepts _ ih =>
      by_cases hplace : location = place
      · subst hplace
        have hnew : (before.insert location new).node? location = some new := by
          rw [node?_insert haccepts.1, if_pos rfl]
        obtain ⟨node', hafter, hstays⟩ := ih hnew
        exact ⟨node', hafter, (haccepts.2 _ hnode).trans hstays⟩
      · exact ih (by rw [node?_insert haccepts.1, if_neg hplace, hnode])

theorem stays_of_mem {entry : Location × FileNode} {old : FileNode}
    (h : Grows before entries after) (hentry : entry ∈ entries)
    (hnode : before.node? entry.1 = some old) : old.Stays entry.2 := by
  induction h generalizing old with
  | none => cases hentry
  | @insert before after place node rest haccepts _ ih =>
      rcases List.mem_cons.mp hentry with rfl | hentry
      · exact haccepts.2 old hnode
      · rw [node?_insert haccepts.1] at ih
        by_cases hplace : entry.1 = place
        · rw [if_pos hplace] at ih
          exact (haccepts.2 old (hplace ▸ hnode)).trans (ih hentry rfl)
        · rw [if_neg hplace] at ih
          exact ih hentry hnode

theorem node?_kept {location : Location} {node : FileNode} (h : Grows before entries after)
    (hnode : before.node? location = some node)
    (hentries : ∀ entry ∈ entries, entry.1 = location → entry.2 = node) :
    after.node? location = some node := by
  induction h with
  | none => exact hnode
  | @insert before _ place new _ haccepts _ ih =>
      refine ih ?_ fun entry hentry => hentries entry (by simp [hentry])
      rw [node?_insert haccepts.1]
      by_cases hplace : location = place
      · have hnew : new = node := hentries (place, new) (by simp) hplace.symm
        rw [if_pos hplace, hnew]
      · rw [if_neg hplace, hnode]

/-- Where a directory has been put there was nothing, or the directory was there. -/
theorem node?_of_directories (h : Grows before entries after)
    (hentries : ∀ entry ∈ entries, entry.2 = .dir) (location : Location) :
    after.node? location = before.node? location ∨
      before.node? location = .none ∧ after.node? location = some .dir := by
  induction h with
  | none => exact .inl rfl
  | @insert before after place node rest haccepts hrest ih =>
      have hlater := ih fun entry hentry => hentries entry (by simp [hentry])
      rw [node?_insert haccepts.1] at hlater
      by_cases hplace : location = place
      · have hdir : node = .dir := hentries (place, node) (by simp)
        subst hplace hdir
        have hafter : after.node? location = some .dir := by simpa using hlater
        rw [hafter]
        cases hbefore : before.node? location with
        | none => exact .inr ⟨rfl, rfl⟩
        | some old =>
            have hstays := haccepts.2 old hbefore
            cases hstays
            exact .inl rfl
      · rwa [if_neg hplace] at hlater

theorem node?_file_iff (h : Grows before entries after)
    (hentries : ∀ entry ∈ entries, entry.2 = .dir) {location : Location} {content : Content} :
    after.node? location = some (.file content) ↔
      before.node? location = some (.file content) := by
  rcases h.node?_of_directories hentries location with hsame | ⟨hbefore, hafter⟩
  · rw [hsame]
  · simp [hbefore, hafter]

end Grows

end FileTree

end RpcContract
