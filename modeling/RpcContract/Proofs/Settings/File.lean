import RpcContract.Proofs.Reading.Record
import RpcContract.Settings.Basic

/-!
# Settings from a file

A text that a setting has in the file of settings is read as it stands there, and a setting that
the file leaves out keeps its standard value.
-/

namespace RpcContract

open Reading

theorem Reading.text_eq_ok {expected : String} (other : String) {form : Notation} {value : String}
    (tree : Tree) (h : text expected form tree = .ok value) : text other form tree = .ok value := by
  match tree, h with
  | .str _, h => exact h
  | .plain _ _, h => exact h
  | .tagged _ inner, h => exact text_eq_ok other inner h

namespace Settings

def documentText? (document key : String) : Option String :=
  match Toml.read? document with
  | some (.map fields _) =>
      (fields.lookup key).bind fun tree => (Reading.string .jsonValue tree).toOption
  | _ => none

/-- What the file of settings has under a key, if there is such a file and it has the key. -/
def fileText? (tree : FileTree) (explicit : Option Path) (contractPath : Path) (key : String) :
    Option String :=
  (choose tree explicit contractPath).bind fun path =>
    (tree.readText path).toOption.bind fun document => documentText? document key

variable {settings before after : Settings} {form : Notation} {key : String} {tree : Tree}

theorem outDir_readField (hkey : key ≠ "out_dir") (h : readField form key tree before = .ok after) :
    after.outDir = before.outDir := by
  unfold readField at h
  split at h
  · exact absurd rfl hkey
  all_goals
    obtain ⟨_, -, hafter⟩ := bind_eq_ok_iff.mp h
    cases hafter
    rfl

theorem apiRoot_readField (hkey : key ≠ "api_root")
    (h : readField form key tree before = .ok after) : after.apiRoot = before.apiRoot := by
  unfold readField at h
  split at h
  case h_2 => exact absurd rfl hkey
  all_goals
    obtain ⟨_, -, hafter⟩ := bind_eq_ok_iff.mp h
    cases hafter
    rfl

theorem exists_fields_of_ofText {text : String} (h : ofText text = some settings) :
    ∃ fields seen, Toml.read? text = some (.map fields none) ∧
      format.readFields .jsonValue [] {} fields = .ok (seen, settings) := by
  obtain ⟨tree, htree, hread⟩ := Option.bind_eq_some_iff.mp h
  obtain ⟨draft, -, hdocument⟩ := Option.bind_eq_some_iff.mp htree
  obtain rfl := Option.some.inj hdocument
  obtain ⟨⟨seen, result⟩, hfields, hrest⟩ := bind_eq_ok_iff.mp (toOption_eq_some_iff.mp hread)
  obtain ⟨_, -, hresult⟩ := bind_eq_ok_iff.mp hrest
  -- No field of the settings has to be there.
  cases hresult
  exact ⟨_, seen, htree, hfields⟩

theorem part_ofText (part : Settings → String) {text : String}
    (hknown : (format.fields.lookup key).isSome = true)
    (hpart : ∀ other tree before after, other ≠ key →
      format.read .jsonValue other tree before = .ok after → part after = part before)
    (hread : ∀ tree before after, format.read .jsonValue key tree before = .ok after →
      Reading.string .jsonValue tree = .ok (part after))
    (h : ofText text = some settings) :
    part settings = (documentText? text key).getD (part {}) := by
  obtain ⟨fields, seen, htree, hfields⟩ := exists_fields_of_ofText h
  rw [documentText?, htree]
  cases hlookup : fields.lookup key with
  | none => simpa [hlookup] using RecordFormat.part_eq_of_lookup_eq_none hpart hfields hlookup
  | some tree =>
      obtain ⟨before, after, hvalue, hsame⟩ :=
        RecordFormat.exists_part_eq_of_lookup hpart hknown hfields hlookup
      simp [hlookup, hsame, hread tree before after hvalue, Except.toOption]

theorem outDir_ofText {text : String} (h : ofText text = some settings) :
    settings.outDir.text = (documentText? text "out_dir").getD ".rpcforge" := by
  refine part_ofText (fun settings => settings.outDir.text) rfl
    (fun other tree before after hother hread => ?_) (fun tree before after hread => ?_) h
  · exact congrArg Path.text (outDir_readField hother hread)
  · obtain ⟨value, hvalue, hafter⟩ := bind_eq_ok_iff.mp hread
    cases hafter
    exact text_eq_ok _ tree hvalue

theorem apiRoot_ofText {text : String} (h : ofText text = some settings) :
    settings.apiRoot = (documentText? text "api_root").getD "/api" := by
  refine part_ofText (fun settings => settings.apiRoot) rfl
    (fun other tree before after hother hread => ?_) (fun tree before after hread => ?_) h
  · exact apiRoot_readField hother hread
  · obtain ⟨value, hvalue, hafter⟩ := bind_eq_ok_iff.mp hread
    cases hafter
    exact hvalue

section

variable {files : FileTree} {environment : Environment} {explicit : Option Path}
  {contractPath path : Path}

theorem detect_eq_some_iff :
    detect files contractPath = some path ↔ files.has path = true ∧
      ∃ directory, contractPath.parent? = some directory ∧
        path = directory.join ⟨"rpcforge.toml"⟩ := by
  rw [detect, Option.filter_eq_some_iff, Option.map_eq_some_iff, and_comm]
  simp only [fileName, eq_comm]

/-- The file of settings is the named one if it is there, and else the one beside the contract. -/
theorem choose_eq_some_iff :
    choose files explicit contractPath = some path ↔ files.has path = true ∧
      (explicit = some path ∨
        (∀ named, explicit = some named → files.has named = false) ∧
          ∃ directory, contractPath.parent? = some directory ∧
            path = directory.join ⟨"rpcforge.toml"⟩) := by
  cases explicit with
  | none => simp [choose, detect_eq_some_iff]
  | some named =>
      cases hnamed : files.has named with
      | true =>
          simp only [choose, Option.filter_some, hnamed, if_true, Option.orElse_some,
            Option.some.injEq, forall_eq', reduceCtorEq, false_and, or_false]
          exact ⟨fun h => ⟨h ▸ hnamed, h⟩, And.right⟩
      | false =>
          have hother : files.has path = true → named ≠ path := by
            rintro hpath rfl
            rw [hnamed] at hpath
            cases hpath
          simp only [choose, Option.filter_some, hnamed, Bool.false_eq_true, if_false,
            Option.orElse_none, detect_eq_some_iff, Option.some.injEq, forall_eq', true_and]
          exact and_congr_right fun hpath => (or_iff_right (hother hpath)).symm

theorem has_of_choose (h : choose files explicit contractPath = some path) :
    files.has path = true :=
  (choose_eq_some_iff.mp h).1

theorem exists_of_load {found : Option Settings} (hhas : files.has path = true)
    (h : load files path = .ok found) :
    ∃ text loaded, files.readText path = .ok text ∧ ofText text = some loaded ∧
      found = some (loaded.relativeTo (path.parent?.getD ⟨""⟩)) := by
  rw [load, if_neg (by simp [hhas])] at h
  split at h
  · cases h
  next text htext =>
  split at h
  · cases h
  next loaded hloaded => exact ⟨text, loaded, htext, hloaded, (Except.ok.inj h).symm⟩

theorem exists_resolve_iff :
    (∃ settings, resolve files environment explicit contractPath = .ok settings) ↔
      ∀ path, choose files explicit contractPath = some path →
        ∃ text loaded, files.readText path = .ok text ∧ ofText text = some loaded := by
  unfold resolve
  split
  next path hchoose =>
    have hhas := has_of_choose hchoose
    constructor
    · rintro ⟨settings, h⟩ other hother
      obtain rfl := Option.some.inj (hchoose.symm.trans hother)
      obtain ⟨found, hfound, -⟩ := bind_eq_ok_iff.mp h
      obtain ⟨text, loaded, htext, hloaded, -⟩ := exists_of_load hhas hfound
      exact ⟨text, loaded, htext, hloaded⟩
    · intro hreadable
      obtain ⟨text, loaded, htext, hloaded⟩ := hreadable path hchoose
      have hload : load files path = .ok (some (loaded.relativeTo (path.parent?.getD ⟨""⟩))) := by
        simp [load, hhas, htext, hloaded]
      exact ⟨_, bind_eq_ok_iff.mpr ⟨_, hload, rfl⟩⟩
  next hchoose =>
    constructor
    · intro _ path hpath
      rw [hchoose] at hpath
      cases hpath
    · exact fun _ => ⟨_, rfl⟩

theorem exists_of_resolve (h : resolve files environment explicit contractPath = .ok settings) :
    ∃ base, settings = applyEnvironment environment base ∧
      base.outDir.text = (fileText? files explicit contractPath "out_dir").getD ".rpcforge" ∧
      base.apiRoot = (fileText? files explicit contractPath "api_root").getD "/api" := by
  unfold resolve at h
  split at h
  next path hchoose =>
    obtain ⟨found, hfound, hsettings⟩ := bind_eq_ok_iff.mp h
    obtain ⟨text, loaded, htext, hloaded, rfl⟩ := exists_of_load (has_of_choose hchoose) hfound
    have hout := outDir_ofText hloaded
    have hroot := apiRoot_ofText hloaded
    refine ⟨loaded.relativeTo _, (Except.ok.inj hsettings).symm, ?_⟩
    simp only [fileText?, hchoose, htext, Option.bind_some, Except.toOption]
    exact ⟨hout, hroot⟩
  next hchoose =>
    refine ⟨{}, (Except.ok.inj h).symm, ?_⟩
    simp only [fileText?, hchoose]
    exact ⟨rfl, rfl⟩

/-- A variable counts more than the file unless it is empty. -/
theorem of_resolve (h : resolve files environment explicit contractPath = .ok settings) :
    settings.outDir.text = ((environment.nonEmpty? outDirVariable).or
      (fileText? files explicit contractPath "out_dir")).getD ".rpcforge" ∧
    settings.apiRoot = ((environment.nonEmpty? apiRootVariable).or
      (fileText? files explicit contractPath "api_root")).getD "/api" := by
  obtain ⟨base, rfl, hout, hroot⟩ := exists_of_resolve h
  constructor
  · cases hvariable : environment.nonEmpty? outDirVariable <;>
      simp [applyEnvironment, hvariable, hout]
  · cases hvariable : environment.nonEmpty? apiRootVariable <;>
      simp [applyEnvironment, hvariable, hroot]

end

end Settings

end RpcContract
