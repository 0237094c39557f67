import RpcContract.Proofs.Files.Plain
import RpcContract.Proofs.Generation.Runs

/-!
# The outputs of a selection

In a tree without links the outputs of selected files are made of names, so that no two of them are
one file.
-/

namespace RpcContract.Generation

open FileTree

variable {tree : FileTree} {name : String} {files : List TemplateFile} {file : TemplateFile}

theorem isTemplate_iff {relative : String} :
    Client.isTemplate relative = true ↔ ∃ stem, relative = stem ++ Client.templateSuffix := by
  rw [Client.isTemplate, List.isSuffixOf_iff_suffix]
  refine ⟨fun ⟨cs, hcs⟩ => ⟨String.ofList cs, ?_⟩, fun ⟨stem, hstem⟩ => ⟨stem.toList, ?_⟩⟩
  · apply String.toList_injective
    rw [String.toList_append, String.toList_ofList, hcs]
  · rw [hstem, String.toList_append]

theorem outputPath_append (stem : String) :
    outputPath (stem ++ Client.templateSuffix) = ⟨stem⟩ := by
  rw [outputPath, if_pos (isTemplate_iff.mpr ⟨stem, rfl⟩)]
  congr 1
  apply String.toList_injective
  rw [String.Slice.toString, String.toList_copy_dropEnd, String.toList_append,
    ← String.length_toList, List.length_append, Nat.add_sub_cancel, List.take_left]

theorem named_outputPath {relative : String} (h : (⟨relative⟩ : Path).Named) :
    (outputPath relative).Named := by
  by_cases htemplate : Client.isTemplate relative = true
  · obtain ⟨stem, rfl⟩ := isTemplate_iff.mp htemplate
    have hsuffix : '/' ∉ Client.templateSuffix.toList := by decide
    have hpieces := Path.dropLast_pieces_append stem.toList hsuffix
    rw [← String.toList_append, String.ofList_toList, String.ofList_toList] at hpieces
    rw [outputPath_append]
    exact fun piece hpiece => h piece (hpieces ▸ hpiece)
  · rw [outputPath, if_neg htemplate]
    exact h

theorem named_of_not_mem {text : String} (h : '/' ∉ text.toList) : (⟨text⟩ : Path).Named := by
  have hpieces := Path.pieces_of_not_mem h
  rw [String.ofList_toList] at hpieces
  intro piece hpiece
  rw [hpieces] at hpiece
  cases hpiece

theorem named_builtin {builtin : Client.Builtin} (h : builtin ∈ Client.builtins) :
    (Selection.ofBuiltin builtin).out.Named := by
  have hall : ∀ builtin ∈ Client.builtins, (Selection.ofBuiltin builtin).out.Named := by
    decide +kernel
  exact hall builtin h

theorem names_of_filesBelow (h : tree.Plain) (depth : Nat) (location : Location) :
    ∀ names ∈ tree.filesBelow depth location, names ≠ [] ∧ ∀ name ∈ names, IsName name := by
  induction depth generalizing location with
  | zero => simp [filesBelow]
  | succ depth ih =>
      intro names hnames
      rw [filesBelow, List.mem_flatMap] at hnames
      obtain ⟨⟨name, node⟩, hchild, hnames⟩ := hnames
      have hname : IsName name := h.names _ (mem_children_iff.mp hchild) name (by simp)
      have hone (hnames : names ∈ [[name]]) : names ≠ [] ∧ ∀ name ∈ names, IsName name := by
        obtain rfl := List.mem_singleton.mp hnames
        simpa using hname
      cases node with
      | file content => exact hone hnames
      | link target => exact hone hnames
      | dir =>
          obtain ⟨below, hbelow, rfl⟩ := List.mem_map.mp hnames
          refine ⟨by simp, fun other hother => ?_⟩
          rcases List.mem_cons.mp hother with rfl | hother
          · exact hname
          · exact (ih _ below hbelow).2 other hother

theorem named_of_fileName? {path : Path} (h : path.fileName? = some name) :
    (outputPath name).Named :=
  named_outputPath (named_of_not_mem
    (Path.not_mem_of_mem_pieces (Path.mem_pieces_of_fileName? h)))

theorem named_of_filesBelow {depth : Nat} {location : Location} {names : List String}
    (h : tree.Plain) (hnames : names ∈ tree.filesBelow depth location) :
    (outputPath ("/".intercalate names)).Named := by
  obtain ⟨hne, hall⟩ := names_of_filesBelow h _ _ names hnames
  refine named_outputPath fun piece hpiece => hall piece ?_
  rw [Path.pieces_intercalate hne fun name hname => (hall name hname).2.2.2] at hpiece
  exact List.dropLast_subset _ hpiece

theorem ofOverride_named {override : Override} (h : tree.Plain)
    (hfiles : Selection.ofOverride tree name override = .ok files) (hfile : file ∈ files) :
    file.out.Named := by
  unfold Selection.ofOverride at hfiles
  split at hfiles
  · cases hfiles
  · cases hfiles
  · next location hfind =>
      obtain ⟨place, entry, hentry⟩ := find_false_of_find hfind
      rw [hentry] at hfiles
      cases entry with
      -- Without links the directory itself is not one of its files.
      | link target => exact absurd (findPieces_holds hentry) (h.linkless place target)
      | file content =>
          cases hfiles
          obtain ⟨names, hnames, rfl⟩ := List.mem_map.mp hfile
          exact named_of_filesBelow h hnames
      | dir =>
          cases hfiles
          obtain ⟨names, hnames, rfl⟩ := List.mem_map.mp hfile
          exact named_of_filesBelow h hnames
  · split at hfiles
    · cases hfiles
    · next hname =>
        cases hfiles
        obtain rfl := List.mem_singleton.mp hfile
        exact named_of_fileName? hname

theorem resolve_named {selection : Selection} (h : tree.Plain)
    (hfiles : selection.resolve tree = .ok files) (hfile : file ∈ files) : file.out.Named := by
  rcases resolve_eq_ok_iff.mp hfiles with ⟨-, -, rfl⟩ | ⟨-, parts, hparts, -, rfl⟩
  · cases hfile
  obtain ⟨part, hpart, hmem⟩ := List.mem_flatten.mp hfile
  obtain ⟨name, -, hexpand⟩ := (mem_of_forall₂ (mapM_eq_ok_iff.mp hparts)).2 part hpart
  unfold Selection.expand at hexpand
  cases hoverride : selection.overrides.get? name with
  | some override =>
      rw [hoverride] at hexpand
      exact ofOverride_named h hexpand hmem
  | none =>
      rw [hoverride] at hexpand
      cases hbuiltin : Client.builtin? name with
      | none =>
          rw [hbuiltin] at hexpand
          cases hexpand
      | some builtin =>
          rw [hbuiltin] at hexpand
          cases hexpand
          obtain rfl := List.mem_singleton.mp hmem
          exact named_builtin (List.mem_of_find?_eq_some hbuiltin)

/-- Without links no two selected files have one file for their outputs. -/
theorem resolve_parted {selection : Selection} (options : Options) {after : FileTree}
    (h : tree.Plain) (hafter : after.Linkless) (hfiles : selection.resolve tree = .ok files) :
    files.Pairwise fun file other =>
      after.Parted (options.pathOf file) (options.pathOf other) := by
  refine (resolve_outputs hfiles).imp_of_mem fun hfile hother hne location htarget htarget' => ?_
  exact hne (hafter.join_inj (resolve_named h hfiles hfile) (resolve_named h hfiles hother) htarget
    htarget')

end RpcContract.Generation
