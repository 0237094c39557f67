import RpcContract.Proofs.Files.Naming
import RpcContract.Proofs.Files.Walk
import RpcContract.Proofs.Generation.Interruption
import RpcContract.Proofs.Generation.Outputs

/-!
# What a selection expands to

A selection gives the files of its names, one name after the other: the file of a built-in
template, or what stands at the path of a template of one's own.  It fails only where a name has
nothing, where `none` does not stand alone, and where two files have the same output.
-/

namespace RpcContract.Generation

open FileTree

variable {tree : FileTree} {selection : Selection} {name : String} {override : Override}
  {file : TemplateFile} {files : List TemplateFile}

/-! ## Templates and plain files -/

namespace TemplateFile

/-- Whatever stands in the file is run as a template. -/
def Evaluated (file : TemplateFile) : Prop := ∀ text context,
  Client.render file.path text context =
    (Template.renderText text [("t", .ofJson context.toJson)]).mapError (⟨file.path, ·⟩)

/-- Whatever stands in the file is its output. -/
def Copied (file : TemplateFile) : Prop := ∀ text context,
  Client.render file.path text context = .ok text

theorem evaluated_of_isTemplate (h : Client.isTemplate file.path = true) : file.Evaluated := by
  intro text context
  rw [Client.render, if_pos h]
  cases Template.renderText text [("t", .ofJson context.toJson)] <;> rfl

theorem copied_of_not_isTemplate (h : ¬ Client.isTemplate file.path = true) : file.Copied :=
  fun _ _ => if_neg h

/-- A comment is copied as it is, but gives nothing when it is run. -/
theorem not_evaluated_of_copied (h : file.Copied) : ¬ file.Evaluated := by
  intro hevaluated
  have hcomment (vars : List (String × Template.Value)) :
      Template.renderText "<%##%>" vars = .ok "" := by
    rw [Template.renderText, show Template.readTemplate "<%##%>" = .ok [] from rfl]
    rfl
  have hcopied := h "<%##%>" ⟨"", [], ⟨∅⟩, ∅, ""⟩
  rw [hevaluated, hcomment] at hcopied
  simp [Except.mapError] at hcopied

theorem evaluated_iff : file.Evaluated ↔ Client.isTemplate file.path = true := by
  refine ⟨fun h => ?_, evaluated_of_isTemplate⟩
  by_contra htemplate
  exact not_evaluated_of_copied (copied_of_not_isTemplate htemplate) h

theorem copied_iff : file.Copied ↔ ¬ Client.isTemplate file.path = true :=
  ⟨fun h htemplate => not_evaluated_of_copied h (evaluated_of_isTemplate htemplate),
    copied_of_not_isTemplate⟩

end TemplateFile

/-! ## The files of a name -/

/-- The file of a template that stands at `relative` among the files of that template.  Its output
is at the same place, without the ending of templates where there is one; and exactly there it is
evaluated. -/
structure Stands (name : String) (dump : DumpTarget) (path relative : String)
    (source : TemplateSource) (file : TemplateFile) : Prop where
  name_eq : file.name = name
  dump_eq : file.dump = dump
  path_eq : file.path = path
  source_eq : file.source = source
  dropped : ∀ stem, relative = stem ++ Client.templateSuffix → file.out = ⟨stem⟩
  kept : (∀ stem, relative ≠ stem ++ Client.templateSuffix) → file.out = ⟨relative⟩
  evaluated : file.Evaluated ↔ ∃ stem, relative = stem ++ Client.templateSuffix
  copied : file.Copied ↔ ∀ stem, relative ≠ stem ++ Client.templateSuffix

theorem stands_iff {dump : DumpTarget} {path relative : String} {source : TemplateSource}
    (h : Client.isTemplate path = true ↔ Client.isTemplate relative = true) :
    Stands name dump path relative source file ↔
      file = ⟨name, path, outputPath relative, dump, source⟩ := by
  constructor
  · rintro ⟨rfl, rfl, rfl, rfl, hdropped, hkept, -, -⟩
    have hout : file.out = outputPath relative := by
      by_cases htemplate : Client.isTemplate relative = true
      · obtain ⟨stem, rfl⟩ := isTemplate_iff.mp htemplate
        rw [hdropped stem rfl, outputPath_append]
      · rw [outputPath, if_neg htemplate]
        exact hkept fun stem hstem => htemplate (isTemplate_iff.mpr ⟨stem, hstem⟩)
    rw [← hout]
  · rintro rfl
    refine ⟨rfl, rfl, rfl, rfl, fun stem hstem => ?_, fun hkept => if_neg ?_, ?_, ?_⟩
    · rw [hstem, outputPath_append]
    · exact fun htemplate => (isTemplate_iff.mp htemplate).elim hkept
    · rw [TemplateFile.evaluated_iff, h, isTemplate_iff]
    · rw [TemplateFile.copied_iff, h, isTemplate_iff, not_exists]

theorem isTemplate_join (base rest : Path) :
    Client.isTemplate (base.join rest).text = true ↔ Client.isTemplate rest.text = true := by
  rw [Client.isTemplate, Client.isTemplate, List.isSuffixOf_iff_suffix, List.isSuffixOf_iff_suffix]
  exact Path.suffix_join_iff (by decide) base rest

theorem isTemplate_last {path : Path} {first : List String} {last : String}
    (h : path.pieces = first ++ [last]) :
    Client.isTemplate path.text = true ↔ Client.isTemplate last = true := by
  rw [Client.isTemplate, Client.isTemplate, List.isSuffixOf_iff_suffix, List.isSuffixOf_iff_suffix]
  exact Path.suffix_text_iff (by decide) h

def StandsBelow (name : String) (override : Override) (names : List String)
    (file : TemplateFile) : Prop :=
  let relative := "/".intercalate names
  let path := override.path.join ⟨relative⟩
  Stands name override.dump path.text relative (.file path) file

/-- A directory itself, where a link leads to it. -/
def ownListing (tree : FileTree) (path : Path) : List (List String) :=
  match tree.find false path with
  | .ok (.node _ (.link _)) => [[]]
  | _ => []

/-- What a name contributes to the files of a selection. -/
inductive Contributes (tree : FileTree) (selection : Selection) (name : String) :
    List TemplateFile → Prop
  | builtin {builtin : Client.Builtin} {file : TemplateFile}
      (hname : selection.overrides.get? name = none) (hmem : builtin ∈ Client.builtins)
      (hbuiltin : builtin.name = name)
      (hfile : Stands name (if builtin.dumps then .standard else .disabled) builtin.path
        builtin.path (.builtin builtin.text) file) : Contributes tree selection name [file]
  | file {override : Override} {location : Location} {node : FileNode} {last : String}
      {file : TemplateFile} (hname : selection.overrides.get? name = some override)
      (hfind : tree.find true override.path = .ok (.node location node)) (hdir : node ≠ .dir)
      (hlast : override.path.fileName? = some last)
      (hfile : Stands name override.dump override.path.text last (.file override.path) file) :
      Contributes tree selection name [file]
  | directory {override : Override} {location : Location} {listing : List (List String)}
      {files : List TemplateFile} (hname : selection.overrides.get? name = some override)
      (hfind : tree.find true override.path = .ok (.node location .dir))
      (hlisting : tree.Lists location listing)
      (hfiles : List.Forall₂ (StandsBelow name override)
        (ownListing tree override.path ++ listing) files) :
      Contributes tree selection name files

/-- The path of a template of one's own leads somewhere; any other template is a built-in one. -/
def Available (tree : FileTree) (selection : Selection) (name : String) : Prop :=
  match selection.overrides.get? name with
  | some override => tree.has override.path = true
  | none => ∃ builtin ∈ Client.builtins, builtin.name = name

theorem builtin?_eq_some_iff {builtin : Client.Builtin} :
    Client.builtin? name = some builtin ↔ builtin ∈ Client.builtins ∧ builtin.name = name := by
  constructor
  · intro h
    exact ⟨List.mem_of_find?_eq_some h, by simpa using List.find?_some h⟩
  · rintro ⟨hmem, rfl⟩
    simp only [Client.builtins, List.mem_cons, List.not_mem_nil, or_false] at hmem
    rcases hmem with rfl | rfl | rfl <;> rfl

theorem standsBelow_iff {names : List String} :
    StandsBelow name override names file ↔
      file = ⟨name, (override.path.join ⟨"/".intercalate names⟩).text,
        outputPath ("/".intercalate names), override.dump,
        .file (override.path.join ⟨"/".intercalate names⟩)⟩ :=
  stands_iff (isTemplate_join _ _)

theorem forall₂_standsBelow_iff {listing : List (List String)} :
    List.Forall₂ (StandsBelow name override) listing files ↔
      files = listing.map fun names =>
        ⟨name, (override.path.join ⟨"/".intercalate names⟩).text,
          outputPath ("/".intercalate names), override.dump,
          .file (override.path.join ⟨"/".intercalate names⟩)⟩ := by
  rw [eq_comm, ← List.forall₂_eq_eq_eq, List.forall₂_map_left_iff]
  exact iff_of_eq (congrArg (List.Forall₂ · listing files)
    (funext₂ fun _ _ => propext (standsBelow_iff.trans eq_comm)))

theorem ofOverride_eq_ok_iff (h : tree.Regular)
    (hname : selection.overrides.get? name = some override) :
    Selection.ofOverride tree name override = .ok files ↔
      Contributes tree selection name files := by
  constructor
  · intro hfiles
    unfold Selection.ofOverride at hfiles
    split at hfiles
    · cases hfiles
    · cases hfiles
    · next location hfind =>
        refine .directory hname hfind (h.lists location) (forall₂_standsBelow_iff.mpr ?_)
        exact (Except.ok.inj hfiles).symm
    · next location node hdir hfind =>
        obtain ⟨first, last, hpieces, hlast⟩ := pieces_of_find hfind hdir
        rw [Path.fileName?_of_pieces hpieces hlast] at hfiles
        cases hfiles
        exact .file hname hfind hdir (Path.fileName?_of_pieces hpieces hlast)
          ((stands_iff (isTemplate_last hpieces)).mpr rfl)
  · intro hfiles
    cases hfiles with
    | builtin hnone => cases hnone.symm.trans hname
    | @file _ _ node _ _ hsome hfind hdir hlast hfile =>
        cases hsome.symm.trans hname
        obtain ⟨first, last, hpieces, hnames⟩ := pieces_of_find hfind hdir
        cases hlast.symm.trans (Path.fileName?_of_pieces hpieces hnames)
        rw [(stands_iff (isTemplate_last hpieces)).mp hfile, Selection.ofOverride, hfind, hlast]
        cases node with
        | dir => exact absurd rfl hdir
        | file content => rfl
        | link target => rfl
    | directory hsome hfind hlisting hfiles =>
        cases hsome.symm.trans hname
        rw [Selection.ofOverride, hfind, forall₂_standsBelow_iff.mp hfiles,
          hlisting.unique (h.lists _)]
        rfl

theorem expand_eq_ok_iff (h : tree.Regular) :
    selection.expand tree name = .ok files ↔ Contributes tree selection name files := by
  unfold Selection.expand
  cases hname : selection.overrides.get? name with
  | some override => exact ofOverride_eq_ok_iff h hname
  | none =>
      constructor
      · intro hfiles
        dsimp only at hfiles
        split at hfiles
        · next builtin hbuiltin =>
            cases hfiles
            obtain ⟨hmem, hsame⟩ := builtin?_eq_some_iff.mp hbuiltin
            exact .builtin hname hmem hsame ((stands_iff .rfl).mpr (hsame ▸ rfl))
        · cases hfiles
      · intro hfiles
        cases hfiles with
        | builtin _ hmem hbuiltin hfile =>
            rw [builtin?_eq_some_iff.mpr ⟨hmem, hbuiltin⟩, (stands_iff .rfl).mp hfile, ← hbuiltin]
            rfl
        | file hsome | directory hsome => cases hsome.symm.trans hname

theorem available_iff (h : tree.Regular) :
    Available tree selection name ↔ ∃ files, Contributes tree selection name files := by
  unfold Available
  cases hname : selection.overrides.get? name with
  | none =>
      constructor
      · rintro ⟨builtin, hmem, hbuiltin⟩
        exact ⟨_, .builtin hname hmem hbuiltin ((stands_iff .rfl).mpr rfl)⟩
      · rintro ⟨files, hfiles⟩
        cases hfiles with
        | builtin _ hmem hbuiltin => exact ⟨_, hmem, hbuiltin⟩
        | file hsome | directory hsome => cases hsome.symm.trans hname
  | some override =>
      dsimp only
      rw [has_iff]
      constructor
      · rintro ⟨location, node, hfind⟩
        by_cases hdir : node = .dir
        · subst hdir
          exact ⟨_, .directory hname hfind (h.lists location) (forall₂_standsBelow_iff.mpr rfl)⟩
        · obtain ⟨first, last, hpieces, hlast⟩ := pieces_of_find hfind hdir
          exact ⟨_, .file hname hfind hdir (Path.fileName?_of_pieces hpieces hlast)
            ((stands_iff (isTemplate_last hpieces)).mpr rfl)⟩
      · rintro ⟨files, hfiles⟩
        cases hfiles with
        | builtin hnone => cases hnone.symm.trans hname
        | file hsome hfind | directory hsome hfind =>
            cases hsome.symm.trans hname
            exact ⟨_, _, hfind⟩

/-! ## Trees that runs leave -/

theorem Job.Reaches.regular {job : Job} {start : FileTree} {moment : Moment}
    (h : job.Reaches start moment) (hstart : start.Regular) : moment.tree.Regular := by
  induction h with
  | refl => exact hstart
  | tail _ hstep ih =>
      cases hstep with
      | opened hmake | notOpened hmake | made hmake | notMade hmake =>
          exact makeDirectories_keeps Regular.makeDirectory ih hmake
      | dumped hwrite | wrote hwrite => exact ih.write hwrite
      | render | gather | allMade | notDumped | allDumped | notWritten | conclude => exact ih

/-! ## Whole selections -/

theorem mem_chosen_none_iff : noTemplates ∈ selection.chosen ↔ noTemplates ∈ selection.names := by
  unfold Selection.chosen
  split
  · next hempty => simp [List.isEmpty_iff.mp hempty, noTemplates, standardTemplate]
  · rfl

theorem chosen_alone_iff : noTemplates ∈ selection.chosen ∧ selection.chosen.length ≤ 1 ↔
    selection.names = [noTemplates] := by
  rw [mem_chosen_none_iff]
  constructor
  · rintro ⟨hmem, hlength⟩
    have hnonempty : ¬ selection.names.isEmpty = true := by
      simpa using List.ne_nil_of_mem hmem
    rw [Selection.chosen, if_neg hnonempty] at hlength
    obtain ⟨name, hname⟩ := List.length_eq_one_iff.mp
      (Nat.le_antisymm hlength (List.length_pos_of_mem hmem))
    rw [hname, List.mem_singleton] at hmem
    rw [hname, hmem]
  · intro hnames
    simp [Selection.chosen, hnames]

/-- The files of every name, one name after the other. -/
def Expands (tree : FileTree) (selection : Selection) (files : List TemplateFile) : Prop :=
  ∃ parts, List.Forall₂ (Contributes tree selection) selection.chosen parts ∧
    files = parts.flatten

theorem mapM_expand_iff (h : tree.Regular) {parts : List (List TemplateFile)} :
    selection.chosen.mapM (selection.expand tree) = .ok parts ↔
      List.Forall₂ (Contributes tree selection) selection.chosen parts := by
  rw [mapM_eq_ok_iff]
  exact iff_of_eq (congrArg (List.Forall₂ · selection.chosen parts)
    (funext₂ fun _ _ => propext (expand_eq_ok_iff h)))

theorem Expands.unique {files' : List TemplateFile} (h : tree.Regular)
    (hfiles : Expands tree selection files) (hfiles' : Expands tree selection files') :
    files = files' := by
  obtain ⟨parts, hparts, rfl⟩ := hfiles
  obtain ⟨parts', hparts', rfl⟩ := hfiles'
  rw [← mapM_expand_iff h] at hparts hparts'
  cases hparts.symm.trans hparts'
  rfl

theorem expands_iff_available (h : tree.Regular) :
    (∃ files, Expands tree selection files) ↔
      ∀ name ∈ selection.chosen, Available tree selection name := by
  simp only [available_iff h]
  constructor
  · rintro ⟨files, parts, hparts, -⟩ name hname
    obtain ⟨part, -, hpart⟩ := (mem_of_forall₂ hparts).1 name hname
    exact ⟨part, hpart⟩
  · intro havailable
    obtain ⟨parts, hparts, -⟩ := exists_forall₂ (P := fun _ => True) fun name hname =>
      (havailable name hname).imp fun part hpart => ⟨hpart, trivial⟩
    exact ⟨_, parts, hparts, rfl⟩

theorem resolve_eq_ok_iff_expands (h : tree.Regular) :
    selection.resolve tree = .ok files ↔
      (selection.names = [noTemplates] ∧ files = []) ∨
      (noTemplates ∉ selection.names ∧ Expands tree selection files ∧
        files.Pairwise fun file other => file.out.same other.out = false) := by
  rw [resolve_eq_ok_iff, ← and_assoc, chosen_alone_iff, mem_chosen_none_iff]
  refine or_congr_right (and_congr_right fun _ => ?_)
  constructor
  · rintro ⟨parts, hparts, hcheck, rfl⟩
    exact ⟨⟨parts, (mapM_expand_iff h).mp hparts, rfl⟩, (checkOutputs_eq_ok_iff.mp hcheck).2⟩
  · rintro ⟨⟨parts, hparts, rfl⟩, hpairs⟩
    exact ⟨parts, (mapM_expand_iff h).mpr hparts, checkOutputs_eq_ok_iff.mpr ⟨by simp, hpairs⟩,
      rfl⟩

/-- A selection is resolved exactly if it is `none` alone, or if every name has a template and no
two files have the same output.  It gives the files of its names then, in the order of the names. -/
theorem resolve_lawful (h : tree.Regular) (selection : Selection) :
    ((∃ files, selection.resolve tree = .ok files) ↔
      selection.names = [noTemplates] ∨
      (noTemplates ∉ selection.names ∧ (∀ name ∈ selection.chosen, Available tree selection name) ∧
        ∀ files, Expands tree selection files →
          files.Pairwise fun file other => file.out.same other.out = false)) ∧
    ∀ files, selection.resolve tree = .ok files →
      (selection.names = [noTemplates] ∧ files = []) ∨
      (noTemplates ∉ selection.names ∧ Expands tree selection files) := by
  refine ⟨⟨?succeeds, ?resolved⟩, fun files hfiles => ?files⟩
  case succeeds =>
    rintro ⟨files, hfiles⟩
    refine ((resolve_eq_ok_iff_expands h).mp hfiles).imp And.left
      fun ⟨hnone, hexpands, hpairs⟩ => ⟨hnone, (expands_iff_available h).mp ⟨files, hexpands⟩, ?_⟩
    exact fun files' hfiles' => hexpands.unique h hfiles' ▸ hpairs
  case resolved =>
    rintro (hnone | ⟨hnone, havailable, hpairs⟩)
    · exact ⟨[], (resolve_eq_ok_iff_expands h).mpr (.inl ⟨hnone, rfl⟩)⟩
    · obtain ⟨files, hfiles⟩ := (expands_iff_available h).mpr havailable
      exact ⟨files, (resolve_eq_ok_iff_expands h).mpr (.inr ⟨hnone, hfiles, hpairs files hfiles⟩)⟩
  case files =>
    exact ((resolve_eq_ok_iff_expands h).mp hfiles).imp_right fun ⟨hnone, hexpands, _⟩ =>
      ⟨hnone, hexpands⟩

/-- A template in a directory, which a link leads to as well. -/
def templateTree : FileTree where
  nodes := [(["d"], .dir), (["d", "e"], .dir), (["d", "e", "b"], .file (.text "b")),
    (["d", "a.tpl"], .file (.text "a")), (["l"], .link ⟨"d"⟩)]
  current := []

theorem templateTree_regular : templateTree.Regular :=
  { toClosed := .of_nodes (by decide) (by decide), places := by decide }

theorem resolve_lawful_directory :
    let selection : Selection := ⟨["own"], .ofList [("own", ⟨⟨"d"⟩, .disabled⟩)]⟩
    templateTree.Regular ∧ Available templateTree selection "own" ∧
      Expands templateTree selection [
        ⟨"own", "d/a.tpl", ⟨"a"⟩, .disabled, .file ⟨"d/a.tpl"⟩⟩,
        ⟨"own", "d/e/b", ⟨"e/b"⟩, .disabled, .file ⟨"d/e/b"⟩⟩] := by
  intro selection
  have hresolve : selection.resolve templateTree = .ok [
      ⟨"own", "d/a.tpl", ⟨"a"⟩, .disabled, .file ⟨"d/a.tpl"⟩⟩,
      ⟨"own", "d/e/b", ⟨"e/b"⟩, .disabled, .file ⟨"d/e/b"⟩⟩] := by decide +kernel
  obtain ⟨hsucceeds, hfiles⟩ := resolve_lawful templateTree_regular selection
  have hnames : selection.names ≠ [noTemplates] := by decide
  obtain ⟨-, havailable, -⟩ := (hsucceeds.mp ⟨_, hresolve⟩).resolve_left hnames
  obtain ⟨-, hexpands⟩ := (hfiles _ hresolve).resolve_left fun h => hnames h.1
  exact ⟨templateTree_regular, havailable "own" (by decide), hexpands⟩

/-- A directory that a link leads to stands among its own files, at a path of no name. -/
theorem resolve_counts_link :
    let selection : Selection := ⟨["own"], .ofList [("own", ⟨⟨"l"⟩, .disabled⟩)]⟩
    templateTree.find true ⟨"l"⟩ = .ok (.node ["d"] .dir) ∧
      templateTree.Lists ["d"] [["a.tpl"], ["e", "b"]] ∧
      selection.resolve templateTree = .ok [
        ⟨"own", "l/", ⟨""⟩, .disabled, .file ⟨"l/"⟩⟩,
        ⟨"own", "l/a.tpl", ⟨"a"⟩, .disabled, .file ⟨"l/a.tpl"⟩⟩,
        ⟨"own", "l/e/b", ⟨"e/b"⟩, .disabled, .file ⟨"l/e/b"⟩⟩] := by
  refine ⟨by decide +kernel, ?_, by decide +kernel⟩
  have hlists := templateTree_regular.lists ["d"]
  rwa [show templateTree.filesBelow _ ["d"] = [["a.tpl"], ["e", "b"]] by decide +kernel] at hlists

end RpcContract.Generation
