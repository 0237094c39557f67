import Mathlib.Data.List.Lex
import RpcContract.Proofs.Files.Closed

/-!
# What a listing holds

Below a directory a listing names everything that is no directory, each once.  The names that lead
to an entry are compared one after the other, which is the order of a walk that goes through every
directory by the names of its entries, and into a directory where it comes to it.
-/

namespace RpcContract.FileTree

variable {tree : FileTree} {location : Location} {names : List String}

/-- A closed tree with one node at a place. -/
structure Regular (tree : FileTree) : Prop extends tree.Closed where
  places : (tree.nodes.map Prod.fst).Nodup

/-- Names that lead from a location to something that is no directory, in the order of a walk. -/
structure Lists (tree : FileTree) (location : Location) (listing : List (List String)) : Prop where
  ascending : listing.Pairwise (· < ·)
  mem_iff : ∀ names, names ∈ listing ↔
    names ≠ [] ∧ ∃ node, tree.node? (location ++ names) = some node ∧ node ≠ .dir

theorem Lists.unique {listing listing' : List (List String)} (h : tree.Lists location listing)
    (h' : tree.Lists location listing') : listing = listing' := by
  have hmem (names : List String) : names ∈ listing ↔ names ∈ listing' :=
    (h.mem_iff names).trans (h'.mem_iff names).symm
  have hnodup {listing : List (List String)} (h : listing.Pairwise (· < ·)) : listing.Nodup :=
    h.imp ne_of_lt
  have hperm := (List.perm_ext_iff_of_nodup (hnodup h.ascending) (hnodup h'.ascending)).mpr hmem
  exact hperm.eq_of_pairwise (fun _ _ _ _ hlt hgt => absurd hgt (lt_asymm hlt)) h.ascending
    h'.ascending

/-! ## Regular trees stay regular -/

theorem places_insertNode (place : Location) (node : FileNode)
    {nodes : List (Location × FileNode)} (h : (nodes.map Prod.fst).Nodup) :
    ((insertNode place node nodes).map Prod.fst).Nodup := by
  have hmem (nodes : List (Location × FileNode)) {location : Location}
      (hlocation : location ∈ (insertNode place node nodes).map Prod.fst) :
      location = place ∨ location ∈ nodes.map Prod.fst := by
    induction nodes with
    | nil => exact .inl (List.mem_singleton.mp hlocation)
    | cons entry rest ih =>
        rw [insertNode] at hlocation
        split at hlocation
        · exact (List.mem_cons.mp hlocation).imp_right (List.mem_cons_of_mem _)
        · rcases List.mem_cons.mp hlocation with rfl | hlocation
          · exact .inr List.mem_cons_self
          · exact (ih hlocation).imp_right (List.mem_cons_of_mem _)
  induction nodes with
  | nil => exact List.pairwise_singleton _ place
  | cons entry rest ih =>
      obtain ⟨hfirst, hrest⟩ := List.nodup_cons.mp h
      rw [insertNode]
      split
      · next hplace => exact List.nodup_cons.mpr ⟨hplace ▸ hfirst, hrest⟩
      · next hplace =>
          refine List.nodup_cons.mpr ⟨fun hagain => ?_, ih hrest⟩
          exact (hmem rest hagain).elim hplace hfirst

theorem Regular.write {after : FileTree} {path : Path} {content : Content} (h : tree.Regular)
    (hwrite : tree.write path content = .ok after) : after.Regular := by
  refine ⟨h.toClosed.write hwrite, ?_⟩
  obtain ⟨-, place, -, rfl⟩ := write_eq_ok_iff.mp hwrite
  exact places_insertNode place _ h.places

theorem Regular.makeDirectory {after : FileTree} {path : Path} (h : tree.Regular)
    (hmake : tree.makeDirectory path = .ok after) : after.Regular := by
  refine ⟨h.toClosed.makeDirectory hmake, ?_⟩
  obtain ⟨place, -, -, rfl⟩ := makeDirectory_eq_ok_iff.mp hmake
  exact places_insertNode place _ h.places

/-! ## The entries of a directory -/

theorem insertByName_perm (entry : String × FileNode) (sorted : List (String × FileNode)) :
    (insertByName entry sorted).Perm (entry :: sorted) := by
  induction sorted with
  | nil => exact .refl _
  | cons other rest ih =>
      rw [insertByName]
      split
      · exact .refl _
      · exact (ih.cons other).trans (.swap entry other rest)

theorem foldr_insertByName_perm (named : List (String × FileNode)) :
    (named.foldr insertByName []).Perm named := by
  induction named with
  | nil => exact .refl _
  | cons entry rest ih => exact (insertByName_perm entry _).trans (ih.cons entry)

theorem location_of_childOf {entry : Location × FileNode} {child : String × FileNode}
    (h : childOf location entry = some child) : entry = (location ++ [child.1], child.2) := by
  have hmem : child ∈ (⟨[entry], []⟩ : FileTree).children location := by
    rw [children_eq, mem_foldr_insertByName, List.mem_filterMap]
    exact ⟨entry, by simp, h⟩
  exact (List.mem_singleton.mp (mem_children_iff.mp hmem)).symm

namespace Regular

theorem children_pairwise (h : tree.Regular) (location : Location) :
    (tree.children location).Pairwise fun child other => child.1 < other.1 := by
  have hplaces : tree.nodes.Pairwise fun entry other => entry.1 ≠ other.1 :=
    List.pairwise_map.mp h.places
  have hnamed : (tree.nodes.filterMap (childOf location)).Pairwise fun child other =>
      child.1 ≠ other.1 := by
    refine hplaces.filterMap _ fun entry other hne child hchild child' hchild' hsame => hne ?_
    rw [location_of_childOf hchild, location_of_childOf hchild', hsame]
  have hdistinct : (tree.children location).Pairwise fun child other => child.1 ≠ other.1 :=
    hnamed.perm (foldr_insertByName_perm _).symm fun hne => hne.symm
  exact (hdistinct.and (foldr_insertByName_pairwise _)).imp fun ⟨hne, hle⟩ => lt_of_le_of_ne hle hne

theorem mem_children_iff_node? (h : tree.Regular) {child : String × FileNode} :
    child ∈ tree.children location ↔ tree.node? (location ++ [child.1]) = some child.2 := by
  rw [mem_children_iff, node?_eq_lookupNode (by simp)]
  refine ⟨fun hmem => ?_, mem_of_lookupNode⟩
  have hplaces := h.places
  generalize tree.nodes = nodes at hmem hplaces
  induction nodes with
  | nil => cases hmem
  | cons entry rest ih =>
      obtain ⟨hfirst, hrest⟩ := List.nodup_cons.mp hplaces
      rw [lookupNode]
      rcases List.mem_cons.mp hmem with rfl | hmem
      · exact if_pos rfl
      · have hne : entry.1 ≠ location ++ [child.1] := by
          rintro hsame
          exact hfirst (hsame ▸ List.mem_map_of_mem hmem)
        rw [if_neg hne, ih hmem hrest]

end Regular

/-! ## The entries below a directory -/

theorem filesBelow_succ (depth : Nat) (location : Location) :
    tree.filesBelow (depth + 1) location = (tree.children location).flatMap fun child =>
      if child.2 = .dir then
        (tree.filesBelow depth (location ++ [child.1])).map (child.1 :: ·)
      else [[child.1]] := by
  rw [filesBelow]
  congr 1
  funext child
  obtain ⟨name, node⟩ := child
  cases node <;> rfl

theorem Regular.filesBelow_pairwise (h : tree.Regular) (depth : Nat) (location : Location) :
    (tree.filesBelow depth location).Pairwise (· < ·) := by
  induction depth generalizing location with
  | zero => exact .nil
  | succ depth ih =>
      rw [filesBelow_succ, List.pairwise_flatMap]
      refine ⟨fun child _ => ?_, (h.children_pairwise location).imp ?_⟩
      · split
        · exact List.pairwise_map.mpr ((ih _).imp fun hlt => List.cons_lt_cons_iff.mpr
            (.inr ⟨rfl, hlt⟩))
        · exact List.pairwise_singleton _ _
      -- What is listed for an entry starts with its name.
      · intro child other hlt names hnames names' hnames'
        have hstart {child : String × FileNode} {names : List String}
            (hnames : names ∈ if child.2 = .dir then
              (tree.filesBelow depth (location ++ [child.1])).map (child.1 :: ·)
              else [[child.1]]) : ∃ rest, names = child.1 :: rest := by
          split at hnames
          · obtain ⟨rest, -, rfl⟩ := List.mem_map.mp hnames
            exact ⟨rest, rfl⟩
          · exact ⟨[], List.mem_singleton.mp hnames⟩
        obtain ⟨rest, rfl⟩ := hstart hnames
        obtain ⟨rest', rfl⟩ := hstart hnames'
        exact List.cons_lt_cons_iff.mpr (.inl hlt)

theorem Regular.mem_filesBelow_iff (h : tree.Regular) {depth : Nat}
    (hdepth : tree.depth ≤ depth + location.length) :
    names ∈ tree.filesBelow depth location ↔
      names ≠ [] ∧ ∃ node, tree.node? (location ++ names) = some node ∧ node ≠ .dir := by
  induction depth generalizing location names with
  | zero =>
      refine iff_of_false List.not_mem_nil ?_
      rintro ⟨hne, node, hnode, -⟩
      have hroot : location ++ names ≠ [] := by simp [hne]
      rw [node?_eq_lookupNode hroot] at hnode
      have hlength := length_le_depth (mem_of_lookupNode hnode)
      have hnames := List.length_pos_iff.mpr hne
      rw [List.length_append] at hlength
      omega
  | succ depth ih =>
      have hbelow (name : String) {rest : List String} :
          rest ∈ tree.filesBelow depth (location ++ [name]) ↔ rest ≠ [] ∧
            ∃ node, tree.node? (location ++ name :: rest) = some node ∧ node ≠ .dir := by
        rw [ih (by simp; omega), List.append_assoc, List.singleton_append]
      rw [filesBelow_succ, List.mem_flatMap]
      constructor
      · rintro ⟨⟨name, node⟩, hchild, hnames⟩
        have hnode := h.mem_children_iff_node?.mp hchild
        split at hnames
        · obtain ⟨rest, hrest, rfl⟩ := List.mem_map.mp hnames
          exact ⟨by simp, ((hbelow name).mp hrest).2⟩
        · next hdir =>
            obtain rfl := List.mem_singleton.mp hnames
            exact ⟨by simp, node, hnode, hdir⟩
      · rintro ⟨hne, node, hnode, hdir⟩
        obtain ⟨name, rest, rfl⟩ := List.exists_cons_of_ne_nil hne
        by_cases hrest : rest = []
        · subst hrest
          exact ⟨(name, node), h.mem_children_iff_node?.mpr hnode, by simp [hdir]⟩
        · have habove : tree.node? (location ++ [name]) = some .dir :=
            h.dir_above hrest (by simp [hnode])
          refine ⟨(name, .dir), h.mem_children_iff_node?.mpr habove, ?_⟩
          rw [if_pos rfl]
          exact List.mem_map.mpr ⟨rest, (hbelow name).mpr ⟨hrest, node, hnode, hdir⟩, rfl⟩

theorem Regular.lists (h : tree.Regular) (location : Location) :
    tree.Lists location (tree.filesBelow (tree.depth + 1) location) :=
  ⟨h.filesBelow_pairwise _ _, fun _ => h.mem_filesBelow_iff (by omega)⟩

end RpcContract.FileTree
