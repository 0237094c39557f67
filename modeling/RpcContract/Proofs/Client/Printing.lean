import RpcContract.Client.Builtin
import RpcContract.Proofs.Client.Layout
import RpcContract.Proofs.Generation.Compared

/-!
# What the built-in templates print

Every built-in template is read as the statements of a layout, so what it renders is the contract
printed by that layout.
-/

namespace RpcContract.Client

open Template

/-! ## Texts by their characters -/

theorem toList_ofLines (lines : List String) :
    (ofLines lines).toList = lines.flatMap fun line => line.toList ++ ['\n'] := by
  simp [ofLines, String.toList_join, List.flatMap_map]

theorem append_eq (text other : String) :
    text ++ other = .ofList (text.toList ++ other.toList) := by
  rw [← String.toList_append, String.ofList_toList]

/-! ## The layouts -/

def linesFrom (lines : List String) (first count : Nat) : String :=
  ofLines ((lines.drop first).take count)

def typeScript : Layout where
  quoting := .json
  mark := "// "
  start := ""
  prelude := [
    .imports "import " ";\n",
    .fixed "\nexport const apiRoot = ", .apiRoot,
    .fixed ";\n\nexport const schema = ", .contract,
    .fixed (" as const;\n" ++ linesFrom typeScriptLines 8 88)]
  beforeController := "\nexport const "
  afterController := " = \x7b\n"
  handler := [
    .fixed "  ", .key, .fixed ": (input: CallInput = \x7b\x7d) =>\n    call(\n      ", .method,
    .fixed ",\n      endpoint(input.apiRoot ?? apiRoot, [", .segment, .fixed ", ", .pathPrefix,
    .fixed ", ", .path, .fixed "], input.params, input.query),\n      input,\n      ", .streaming,
    .fixed "\n    ),\n"]
  close := some "\x7d;\n"

def python : Layout where
  quoting := .json
  mark := "# "
  start := linesFrom pythonLines 1 8
  prelude := [
    .imports "import " "\n",
    .fixed (linesFrom pythonLines 12 10 ++ "default_api_root = "), .apiRoot,
    .fixed ("\n" ++ linesFrom pythonLines 23 64)]
  beforeController := "\n\nclass "
  afterController := ":\n"
  handler := [
    .fixed "    @staticmethod\n    def ", .key,
    .fixed ("(\n        body: Any = None,\n        query: Optional[Dict[str, Any]] = None,\n" ++
      "        params: Optional[Dict[str, Any]] = None,\n" ++
      "        api_root: Optional[str] = None,\n    ) -> Any:\n        url = _endpoint(\n" ++
      "            api_root or default_api_root,\n            ["), .segment, .fixed ", ",
    .pathPrefix, .fixed ", ", .path,
    .fixed "],\n            params,\n            query,\n        )\n        return _call(", .method,
    .fixed ", url, body, ", .choice "True" "False", .fixed ")\n\n"]
  close := none

def rust : Layout where
  quoting := .rust
  mark := "// "
  start := "#![allow(dead_code)]\n"
  prelude := [
    .imports "use " ";\n",
    .fixed "\npub const API_ROOT: &str = ", .apiRoot,
    .fixed (";\n\n/// Full schema these routes were generated from.\n" ++
      "pub const SCHEMA_JSON: &str = "), .quotedContract,
    .fixed (";\n" ++ linesFrom rustLines 10 9)]
  beforeController := "\n#[allow(non_snake_case, non_upper_case_globals)]\npub mod "
  afterController := " \x7b\n    use super::Route;\n"
  handler := [
    .fixed "\n    pub const ", .key, .fixed ": Route = Route \x7b\n        segment: ", .segment,
    .fixed ",\n        prefix: ", .pathPrefix, .fixed ",\n        path: ", .path,
    .fixed ",\n        method: ", .method, .fixed ",\n        streaming: ", .streaming,
    .fixed ",\n    \x7d;\n"]
  close := some "\x7d\n"

/-! ## Reading the templates -/

section

set_option maxRecDepth 100000

-- A template is read from its characters.  Every line is spelled out before, since taking a literal
-- apart is what costs most.
theorem readTemplate_typeScript : readTemplate typeScriptTemplate = .ok typeScript.stmts := by
  simp only [readTemplate, Token.scan, typeScriptTemplate, Layout.stmts, Layout.controllerStmts,
    typeScript, append_eq, linesFrom, toList_ofLines, typeScriptLines, List.drop_succ_cons,
    List.drop_zero, List.take_succ_cons, List.take_zero, List.flatMap_cons, List.flatMap_nil]
  repeat rw [String.toList_ofList]
  rfl

theorem readTemplate_python : readTemplate pythonTemplate = .ok python.stmts := by
  simp only [readTemplate, Token.scan, pythonTemplate, Layout.stmts, Layout.controllerStmts,
    python, append_eq, linesFrom, toList_ofLines, pythonLines, List.drop_succ_cons,
    List.drop_zero, List.take_succ_cons, List.take_zero, List.flatMap_cons, List.flatMap_nil]
  repeat rw [String.toList_ofList]
  rfl

theorem readTemplate_rust : readTemplate rustTemplate = .ok rust.stmts := by
  simp only [readTemplate, Token.scan, rustTemplate, Layout.stmts, Layout.controllerStmts, rust,
    append_eq, linesFrom, toList_ofLines, rustLines, List.drop_succ_cons, List.drop_zero,
    List.take_succ_cons, List.take_zero, List.flatMap_cons, List.flatMap_nil]
  repeat rw [String.toList_ofList]
  rfl

end

/-! ## Rendering -/

theorem Layout.afterFirstLine_print (layout : Layout) {context : Context} (contractText : String)
    (hmark : '\n' ∉ layout.mark.toList) (hbanner : '\n' ∉ context.banner.toList) :
    Generation.afterFirstLine (layout.print context contractText).toList =
      (layout.printBody context contractText).toList := by
  have htext : (layout.print context contractText).toList =
      (layout.mark ++ context.banner).toList ++
        '\n' :: (layout.printBody context contractText).toList := by
    simp [Layout.print]
  have hline : '\n' ∉ (layout.mark ++ context.banner).toList := by simp [hmark, hbanner]
  exact Generation.afterFirstLine_eq_iff.mpr (.inl ⟨_, hline, htext⟩)

def layouts : List (String × Layout) := [("ts", typeScript), ("py", python), ("rs", rust)]

theorem renderText_of_readTemplate {text : String} {layout : Layout}
    (h : readTemplate text = .ok layout.stmts) (context : Context) (contractText : String) :
    renderText text [("t", .ofJson (context.shown contractText))] =
      .ok (layout.print context contractText) := by
  rw [renderText, h]
  exact layout.execute_stmts context contractText

theorem render_of_readTemplate {path text : String} {layout : Layout}
    (hpath : isTemplate path = true) (h : readTemplate text = .ok layout.stmts)
    (context : Context) :
    render path text context = .ok (layout.print context context.contractText) := by
  rw [render, if_pos hpath, context.toJson_eq_shown, renderText_of_readTemplate h]

theorem exists_layout {builtin : Builtin} (h : builtin ∈ builtins) :
    ∃ layout, (builtin.name, layout) ∈ layouts ∧ layout.IsComplete ∧
      isTemplate builtin.path = true ∧ readTemplate builtin.text = .ok layout.stmts ∧
      '\n' ∉ layout.mark.toList := by
  simp only [builtins, List.mem_cons, List.not_mem_nil, or_false] at h
  rcases h with rfl | rfl | rfl
  · exact ⟨typeScript, by simp [layouts], by decide, by decide, readTemplate_typeScript, by decide⟩
  · exact ⟨python, by simp [layouts], by decide, by decide, readTemplate_python, by decide⟩
  · exact ⟨rust, by simp [layouts], by decide, by decide, readTemplate_rust, by decide⟩

/-- Every built-in template renders every contract, and as its layout prints it.  Texts for two
banners of one line differ in their first lines alone. -/
theorem render_builtin (builtin : Builtin) (h : builtin ∈ builtins) :
    ∃ layout, (builtin.name, layout) ∈ layouts ∧ layout.IsComplete ∧
      ∀ (context : Context) (contractText : String),
        renderText builtin.text [("t", .ofJson (context.shown contractText))] =
          .ok (layout.print context contractText) ∧
        render builtin.path builtin.text context =
          .ok (layout.print context context.contractText) ∧
        ∀ banner, '\n' ∉ context.banner.toList → '\n' ∉ banner.toList →
          Generation.afterFirstLine (layout.print context contractText).toList =
            Generation.afterFirstLine
              (layout.print { context with banner } contractText).toList := by
  obtain ⟨layout, hlayout, hcomplete, htemplate, hread, hmark⟩ := exists_layout h
  refine ⟨layout, hlayout, hcomplete, fun context contractText =>
    ⟨renderText_of_readTemplate hread context contractText,
      render_of_readTemplate htemplate hread context, fun banner hbanner hother => ?_⟩⟩
  rw [layout.afterFirstLine_print _ hmark hbanner, layout.afterFirstLine_print _ hmark hother]
  rfl

theorem render_builtin_typeScript :
    let rows : HandlerSpec :=
      { method := .get, path := ":id", validation := some { iteration := some .null } }
    let controller : ControllerSpec := { handlers := .ofList [("rows", rows)] }
    let segment : SegmentSpec := { controllers := .ofList [("Tables", controller)] }
    let context : Context := ⟨"/api", ["node:fs"], ⟨.ofList [("live", segment)]⟩, ∅, "one"⟩
    let later : Context := { context with banner := "two" }
    render "index.ts.tpl" typeScriptTemplate context =
        .ok (typeScript.print context context.contractText) ∧
      render "index.ts.tpl" typeScriptTemplate later =
        .ok (typeScript.print later later.contractText) ∧
      Generation.afterFirstLine (typeScript.print context context.contractText).toList =
        Generation.afterFirstLine (typeScript.print later later.contractText).toList := by
  intro rows controller segment context later
  obtain ⟨layout, hlayout, -, hprints⟩ := render_builtin
    ⟨"ts", "TypeScript fetch client (index.ts)", "index.ts.tpl", typeScriptTemplate, false⟩
    List.mem_cons_self
  obtain rfl : layout = typeScript := by simpa [layouts] using hlayout
  obtain ⟨-, hrender, hbanner⟩ := hprints context context.contractText
  exact ⟨hrender, (hprints later later.contractText).2.1, hbanner "two" (by decide) (by decide)⟩

end RpcContract.Client
