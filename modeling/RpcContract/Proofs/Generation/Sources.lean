import RpcContract.Generation.Output
import RpcContract.Proofs.Data.Except
import RpcContract.Proofs.Files.Listing
import RpcContract.Proofs.Files.Writing

/-!
# What a run reads

Selections are expanded by looking at files, and templates are read from files.  Both come out the
same on a tree that has grown, if the templates have been left alone.
-/

namespace RpcContract.Generation

open FileTree

variable {before after : FileTree} {entries : List (Location × FileNode)}

/-! ## Templates of one's own -/

theorem ofOverride_of_listing {name : String} {override : Override} {files : List TemplateFile}
    (hgrows : Grows before entries after)
    (hlisting : ∀ location, before.find true override.path = .ok (.node location .dir) →
      SameListing before after location)
    (h : Selection.ofOverride before name override = .ok files) :
    Selection.ofOverride after name override = .ok files := by
  unfold Selection.ofOverride at h ⊢
  cases hfind : before.find true override.path with
  | error fault =>
      rw [hfind] at h
      cases h
  | ok found =>
      rw [hfind] at h
      cases found with
      | nothing location slash => cases h
      | node location node =>
          obtain ⟨node', hafter, hstays⟩ := hgrows.find_stays hfind
          rw [hafter]
          cases hstays with
          | rewritten old new => exact h
          | same =>
              cases node with
              | file content => exact h
              | link target => exact h
              | dir =>
                  obtain ⟨place, entry, hentry⟩ := find_false_of_find hfind
                  obtain ⟨entry', hentry', hkind⟩ := hgrows.find_stays hentry
                  dsimp only at h ⊢
                  rw [show after.filesBelow _ location = _ from hlisting location hfind, hentry']
                  rw [hentry] at h
                  cases hkind <;> exact h

theorem expand_of_listing {selection : Selection} {name : String} {files : List TemplateFile}
    (hgrows : Grows before entries after)
    (hlisting : ∀ entry ∈ selection.overrides.toList, ∀ location,
      before.find true entry.2.path = .ok (.node location .dir) →
      SameListing before after location)
    (h : selection.expand before name = .ok files) : selection.expand after name = .ok files := by
  unfold Selection.expand at h ⊢
  cases hoverride : selection.overrides.get? name with
  | none =>
      rw [hoverride] at h
      exact h
  | some override =>
      rw [hoverride] at h
      exact ofOverride_of_listing hgrows (hlisting _ (Dict.mem_toList_of_get? hoverride)) h

def Selection.chosen (selection : Selection) : List String :=
  if selection.names.isEmpty then [standardTemplate] else selection.names

theorem resolve_eq_ok_iff {selection : Selection} {tree : FileTree} {files : List TemplateFile} :
    selection.resolve tree = .ok files ↔
      (noTemplates ∈ selection.chosen ∧ selection.chosen.length ≤ 1 ∧ files = []) ∨
      (noTemplates ∉ selection.chosen ∧ ∃ parts,
        selection.chosen.mapM (selection.expand tree) = .ok parts ∧
        Selection.checkOutputs [] parts.flatten = .ok () ∧ files = parts.flatten) := by
  unfold Selection.resolve
  change (if selection.chosen.contains noTemplates = true then
    (if 1 < selection.chosen.length then throw .noneCombined else pure [])
    else selection.chosen.mapM (selection.expand tree) >>= fun parts =>
      Selection.checkOutputs [] parts.flatten >>= fun _ => pure parts.flatten) = _ ↔ _
  by_cases hnone : noTemplates ∈ selection.chosen
  · rw [if_pos (by simpa using hnone)]
    by_cases hlength : 1 < selection.chosen.length
    · have hmany : ¬ selection.chosen.length ≤ 1 := by omega
      simp [hnone, hlength, hmany]
    · have hone : selection.chosen.length ≤ 1 := by omega
      simp [hnone, hlength, hone, pure, Except.pure, eq_comm]
  · rw [if_neg (by simpa using hnone)]
    simp only [hnone, bind_eq_ok_iff, pure, Except.pure, Except.ok.injEq, false_and, false_or,
      not_false_eq_true, true_and]
    constructor
    · rintro ⟨parts, hparts, ⟨⟩, hcheck, rfl⟩
      exact ⟨parts, hparts, hcheck, rfl⟩
    · rintro ⟨parts, hparts, hcheck, rfl⟩
      exact ⟨parts, hparts, (), hcheck, rfl⟩

theorem resolve_of_listing {selection : Selection} {files : List TemplateFile}
    (hgrows : Grows before entries after)
    (hlisting : ∀ entry ∈ selection.overrides.toList, ∀ location,
      before.find true entry.2.path = .ok (.node location .dir) →
      SameListing before after location)
    (h : selection.resolve before = .ok files) : selection.resolve after = .ok files := by
  rw [resolve_eq_ok_iff] at h ⊢
  refine h.imp_right fun ⟨hnone, parts, hparts, hrest⟩ => ⟨hnone, parts, ?_, hrest⟩
  rw [mapM_eq_ok_iff] at hparts ⊢
  exact hparts.imp fun name _ hname => expand_of_listing hgrows hlisting hname

theorem resolve_stays {selection : Selection} {files : List TemplateFile}
    (hgrows : Grows before entries after)
    (hspared : ∀ entry ∈ selection.overrides.toList, ∀ location,
      before.find true entry.2.path = .ok (.node location .dir) →
      SameBelow before after location)
    (h : selection.resolve before = .ok files) : selection.resolve after = .ok files :=
  resolve_of_listing hgrows (fun entry hentry location hfind =>
    hgrows.filesBelow_eq (hspared entry hentry location hfind)) h

theorem checkOutputs_eq_ok_iff {checked files : List TemplateFile} :
    Selection.checkOutputs checked files = .ok () ↔
      (∀ file ∈ files, ∀ other ∈ checked, other.out.same file.out = false) ∧
      files.Pairwise fun file other => file.out.same other.out = false := by
  induction files generalizing checked with
  | nil => simp [Selection.checkOutputs]
  | cons file rest ih =>
      rw [Selection.checkOutputs, List.pairwise_cons]
      cases hfind : checked.find? fun other => other.out.same file.out with
      | some other =>
          refine iff_of_false (fun h => by cases h) fun ⟨hchecked, _⟩ => ?_
          have hsame := List.find?_some hfind
          simp [hchecked file (by simp) other (List.mem_of_find?_eq_some hfind)] at hsame
      | none =>
          have hfile (other : TemplateFile) (hother : other ∈ checked) :
              other.out.same file.out = false := by
            simpa using List.find?_eq_none.mp hfind other hother
          rw [ih]
          constructor
          · rintro ⟨hbefore, hpairs⟩
            refine ⟨fun next hnext other hother => ?_, fun next hnext => ?_, hpairs⟩
            · rcases List.mem_cons.mp hnext with rfl | hnext
              · exact hfile other hother
              · exact hbefore next hnext other (by simp [hother])
            · exact hbefore next hnext file (by simp)
          · rintro ⟨hbefore, hfirst, hpairs⟩
            refine ⟨fun next hnext other hother => ?_, hpairs⟩
            rcases List.mem_append.mp hother with hother | hother
            · exact hbefore next (by simp [hnext]) other hother
            · obtain rfl := List.mem_singleton.mp hother
              exact hfirst next hnext

theorem resolve_outputs {selection : Selection} {tree : FileTree} {files : List TemplateFile}
    (h : selection.resolve tree = .ok files) :
    files.Pairwise fun file other => file.out ≠ other.out := by
  rcases resolve_eq_ok_iff.mp h with ⟨-, -, rfl⟩ | ⟨-, parts, -, hcheck, rfl⟩
  · exact .nil
  · refine (checkOutputs_eq_ok_iff.mp hcheck).2.imp fun hsame heq => ?_
    rw [heq, Path.same] at hsame
    simp at hsame

/-! ## Template texts -/

theorem readSource_stays {file : TemplateFile} {text : String} (hgrows : Grows before entries after)
    (hspared : ∀ path location content, file.source = .file path →
      before.Leads path location content → after.node? location = before.node? location)
    (h : file.readSource before = .ok text) : file.readSource after = .ok text := by
  unfold TemplateFile.readSource at h ⊢
  cases hsource : file.source with
  | builtin builtinText =>
      rw [hsource] at h
      exact h
  | file path =>
      rw [hsource] at h
      dsimp only at h ⊢
      cases hread : before.readText path with
      | error fault =>
          rw [hread] at h
          cases h
      | ok read =>
          obtain ⟨location, hleads⟩ := readText_eq_ok_iff.mp hread
          have hnode := (hspared path location _ hsource hleads).trans hleads.node?_eq
          have hafter := hgrows.leads_of_node?_eq hleads hnode
          rw [readText_eq_ok_iff.mpr ⟨location, hafter⟩, ← hread]
          exact h

theorem renderedText_stays {file : TemplateFile} {text : String} {context : Client.Context}
    {formatter : Option (List String)} {format : Formatting} (hgrows : Grows before entries after)
    (hspared : ∀ path location content, file.source = .file path →
      before.Leads path location content → after.node? location = before.node? location)
    (h : file.renderedText before context formatter format = .ok text) :
    file.renderedText after context formatter format = .ok text := by
  unfold TemplateFile.renderedText at h ⊢
  cases hread : file.readSource before with
  | error e =>
      rw [hread] at h
      cases h
  | ok source =>
      rw [readSource_stays hgrows hspared hread]
      rw [hread] at h
      exact h

end RpcContract.Generation
