import Mathlib.Data.List.Nodup
import RpcContract.Proofs.Client.Printing
import RpcContract.Proofs.Contract.Parts
import RpcContract.Proofs.Generation.CarryOut
import RpcContract.Proofs.Generation.Runs

/-!
# Controllers in generated clients

A client declares every controller of every segment in one file, each under its own name.  So a
controller stands for its name just if no other segment has one of that name.
-/

namespace RpcContract.Client

open Generation

variable {contract : Contract}

/-- A controller as a client declares it. -/
structure Declaration where
  segment : String
  name : String
  controller : ControllerSpec
deriving DecidableEq, Repr

def declarations (contract : Contract) : List Declaration :=
  contract.segments.toList.flatMap fun segment =>
    segment.2.controllers.toList.map fun entry => ⟨segment.1, entry.1, entry.2⟩

/-! ## Declarations in the text -/

namespace Layout

variable (layout : Layout)

def declare (declaration : Declaration) : String :=
  layout.printController declaration.segment declaration.name declaration.controller

def printHead (context : Context) (contractText : String) : String :=
  layout.mark ++ context.banner ++ "\n" ++ (layout.start ++
    String.join (layout.prelude.map (·.print layout.quoting context contractText)))

theorem print_eq_declarations (context : Context) (contractText : String) :
    layout.print context contractText = layout.printHead context contractText ++
      String.join ((declarations context.contract).map layout.declare) := by
  apply String.toList_injective
  simp [print, printBody, printHead, declarations, declare, String.toList_join, List.flatMap_assoc,
    List.flatMap_map]

theorem print_eq_pair {context : Context} {first second : Declaration} (contractText : String)
    (h : declarations context.contract = [first, second]) :
    layout.print context contractText =
      layout.printHead context contractText ++ layout.declare first ++ layout.declare second := by
  rw [print_eq_declarations, h, String.append_assoc]
  simp [String.join]

end Layout

theorem mem_declarations_iff {declaration : Declaration} :
    declaration ∈ declarations contract ↔ ∃ spec,
      contract.get? declaration.segment = some spec ∧
        spec.controllers.get? declaration.name = some declaration.controller := by
  rw [declarations, List.mem_flatMap]
  constructor
  · rintro ⟨⟨segment, spec⟩, hsegment, hmem⟩
    obtain ⟨⟨name, controller⟩, hcontroller, rfl⟩ := List.mem_map.mp hmem
    exact ⟨spec, Dict.get?_eq_some_iff.mpr hsegment, Dict.get?_eq_some_iff.mpr hcontroller⟩
  · rintro ⟨spec, hsegment, hcontroller⟩
    exact ⟨_, Dict.mem_toList_of_get? hsegment,
      List.mem_map.mpr ⟨_, Dict.mem_toList_of_get? hcontroller, rfl⟩⟩

/-- No controller of a segment is declared twice. -/
theorem declarations_places (contract : Contract) :
    ((declarations contract).map fun declaration =>
      (declaration.segment, declaration.name)).Nodup := by
  have hkeys {α : Type} (d : Dict α) : d.toList.Pairwise fun entry other => entry.1 ≠ other.1 :=
    List.pairwise_map.mp d.keys_nodup
  refine List.pairwise_map.mpr (List.pairwise_flatMap.mpr ⟨fun segment _ => ?_,
    (hkeys contract.segments).imp ?_⟩)
  · refine List.pairwise_map.mpr ((hkeys segment.2.controllers).imp fun hne hsame => hne ?_)
    exact congrArg Prod.snd hsame
  · intro segment segment' hne declaration hmem other hother hsame
    obtain ⟨_, -, rfl⟩ := List.mem_map.mp hmem
    obtain ⟨_, -, rfl⟩ := List.mem_map.mp hother
    exact hne (Prod.mk.inj hsame).1

theorem declarations_nodup (contract : Contract) : (declarations contract).Nodup :=
  (declarations_places contract).of_map _

theorem nodup_names_iff : ((declarations contract).map (·.name)).Nodup ↔
    ∀ declaration ∈ declarations contract, ∀ other ∈ declarations contract,
      declaration.name = other.name → declaration.segment = other.segment := by
  constructor
  · intro hnodup declaration hmem other hother hname
    rw [List.inj_on_of_nodup_map hnodup hmem hother hname]
  · intro hsegments
    refine (declarations_nodup contract).map_on fun declaration hmem other hother hname => ?_
    exact List.inj_on_of_nodup_map (declarations_places contract) hmem hother
      (Prod.ext (hsegments _ hmem _ hother hname) hname)

/-! ## What a name stands for -/

/-- What a name stands for in a file where a later declaration takes the place of an earlier one. -/
def standing (file : List Declaration) (name : String) : Option Declaration :=
  file.reverse.find? (·.name == name)

theorem standing_iff {file : List Declaration} (h : file.Nodup) :
    (∀ declaration ∈ file, standing file declaration.name = some declaration) ↔
      (file.map (·.name)).Nodup := by
  constructor
  · intro hstanding
    refine h.map_on fun declaration hmem other hother hname => ?_
    have hsame := hstanding declaration hmem
    rw [show declaration.name = other.name from hname, hstanding other hother] at hsame
    exact (Option.some.inj hsame).symm
  · intro hnodup declaration hmem
    cases hfind : standing file declaration.name with
    | none =>
        have hnone := List.find?_eq_none.mp hfind declaration (List.mem_reverse.mpr hmem)
        simp at hnone
    | some other =>
        have hother := List.mem_reverse.mp (List.mem_of_find?_eq_some hfind)
        have hname : other.name = declaration.name := by simpa using List.find?_some hfind
        rw [List.inj_on_of_nodup_map hnodup hother hmem hname]

def routeOf (file : List Declaration) (name key : String) : Option Route :=
  (standing file name).bind fun declaration =>
    (declaration.controller.handlers.get? key).map
      (Route.of declaration.segment declaration.controller)

theorem routeOf_of_standing {file : List Declaration} {declaration : Declaration} {key : String}
    {handler : HandlerSpec} (h : standing file declaration.name = some declaration)
    (hhandler : declaration.controller.handlers.get? key = some handler) :
    routeOf file declaration.name key =
      some (.of declaration.segment declaration.controller handler) := by
  rw [routeOf, h, Option.bind_some, hhandler]
  rfl

/-- What is declared of an assembled contract comes from the segments that were asked for. -/
theorem mem_declarations_assembled_iff {assembled : Contract} {names : List String}
    {declaration : Declaration} (h : contract.assemble names = .ok assembled) :
    declaration ∈ declarations assembled ↔ declaration.segment ∈ names ∧ ∃ spec,
      contract.get? declaration.segment = some spec ∧
        spec.controllers.get? declaration.name = some declaration.controller := by
  rw [mem_declarations_iff, (Contract.assemble_eq_ok_iff.mp h).2, Contract.part?]
  by_cases hname : declaration.segment ∈ names
  · simp [hname]
  · simp [hname]

/-- A client declares every controller of the segments that it is made for, under the name of the
controller.  If no two of these segments have controllers of one name, every controller stands for
its name and every handler is called by it; and if two have, one of them does not. -/
theorem render_declares (builtin : Builtin) (h : builtin ∈ builtins) :
    ∃ layout, (builtin.name, layout) ∈ layouts ∧
      ∀ (contract assembled : Contract) (segments : List Segment) (options : Options)
        (banner : String), contract.assemble (segments.map (·.name)) = .ok assembled →
        let context := contextOf assembled segments options banner
        let file := declarations assembled
        render builtin.path builtin.text context =
          .ok (layout.printHead context context.contractText ++
            String.join (file.map layout.declare)) ∧
        (∀ declaration, declaration ∈ file ↔ declaration.segment ∈ segments.map (·.name) ∧
          ∃ spec, contract.get? declaration.segment = some spec ∧
            spec.controllers.get? declaration.name = some declaration.controller) ∧
        ((file.map (·.name)).Nodup ↔ ∀ declaration ∈ file, ∀ other ∈ file,
          declaration.name = other.name → declaration.segment = other.segment) ∧
        ((file.map (·.name)).Nodup ↔
          ∀ declaration ∈ file, standing file declaration.name = some declaration) ∧
        ((file.map (·.name)).Nodup → ∀ declaration ∈ file, ∀ key handler,
          declaration.controller.handlers.get? key = some handler →
          routeOf file declaration.name key =
            some (.of declaration.segment declaration.controller handler)) := by
  obtain ⟨layout, hlayout, -, htemplate, hread, -⟩ := exists_layout h
  refine ⟨layout, hlayout, fun contract assembled segments options banner hassembled => ?_⟩
  intro context file
  have hstanding := standing_iff (declarations_nodup assembled)
  refine ⟨?render, fun _ => mem_declarations_assembled_iff hassembled,
    nodup_names_iff, hstanding.symm, fun hnodup declaration hmem key handler => ?reached⟩
  case render =>
    rw [render, if_pos htemplate, context.toJson_eq_shown, renderText_of_readTemplate hread,
      layout.print_eq_declarations]
    rfl
  case reached => exact routeOf_of_standing (hstanding.mpr hnodup declaration hmem)

def smallController : ControllerSpec where
  handlers := .ofList [("h", { method := .get, path := "x" })]

/-- Two segments, each with a controller of a given name. -/
def pairContract (first second : String) : Contract where
  segments := .ofList [("a", ⟨"a", .ofList [(first, smallController)], true⟩),
    ("b", ⟨"b", .ofList [(second, smallController)], true⟩)]

theorem render_declares_pair :
    let contract := pairContract "C" "D"
    let file := declarations contract
    contract.assemble ["a", "b"] = .ok contract ∧
      standing file "C" = some ⟨"a", "C", smallController⟩ ∧
      routeOf file "C" "h" = some ⟨"a", "", "x", .get, false⟩ ∧
      routeOf file "D" "h" = some ⟨"b", "", "x", .get, false⟩ := by
  intro contract file
  have hassembled : contract.assemble (contract.toSegments.map (·.name)) = .ok contract := by
    decide +kernel
  obtain ⟨_, -, hrender⟩ := render_declares
    ⟨"ts", "TypeScript fetch client (index.ts)", "index.ts.tpl", typeScriptTemplate, false⟩
    List.mem_cons_self
  obtain ⟨-, -, -, hstanding, hroutes⟩ :=
    hrender contract contract contract.toSegments {} "1" hassembled
  have hnodup : (file.map (·.name)).Nodup := by decide +kernel
  have hfirst : (⟨"a", "C", smallController⟩ : Declaration) ∈ file := by decide +kernel
  have hsecond : (⟨"b", "D", smallController⟩ : Declaration) ∈ file := by decide +kernel
  exact ⟨hassembled, hstanding.mp hnodup _ hfirst,
    hroutes hnodup _ hfirst "h" { method := .get, path := "x" } (by decide +kernel),
    hroutes hnodup _ hsecond "h" { method := .get, path := "x" } (by decide +kernel)⟩

theorem renderedText_ofBuiltin {builtin : Builtin} {tree : FileTree} {context : Context}
    {format : Formatting} {text : String}
    (h : render builtin.path builtin.text context = .ok text) :
    (Selection.ofBuiltin builtin).renderedText tree context none format = .ok text := by
  change ((render builtin.path builtin.text context).mapError Error.template >>= pure) = _
  rw [h]
  rfl

def clientTree (text : String) : FileTree :=
  ⟨[([".rpcforge"], .dir), ([".rpcforge", "client.rs"], .file (.text text))], []⟩

def clientPlan (dumpText text : String) : Plan :=
  ⟨⟨".rpcforge"⟩, [], dumpText, [⟨"rs", ⟨".rpcforge/client.rs"⟩, text, true⟩]⟩

theorem carryOut_clientPlan (dumpText text : String) :
    (clientPlan dumpText text).carryOut ⟨[], []⟩ = (clientTree text, .ok ()) := by
  let made : FileTree := ⟨[([".rpcforge"], .dir)], []⟩
  have hopen : (⟨[], []⟩ : FileTree).makeDirectories ⟨".rpcforge"⟩ = (made, .ok ()) := by
    decide +kernel
  have hmake : made.makeDirectories ⟨".rpcforge"⟩ = (made, .ok ()) := by decide +kernel
  have hparents : parentDirectories (clientPlan dumpText text).paths = [⟨".rpcforge"⟩] := by
    change parentDirectories [⟨".rpcforge/client.rs"⟩] = _
    decide +kernel
  have hfind : made.find true ⟨".rpcforge/client.rs"⟩ =
      .ok (.nothing [".rpcforge", "client.rs"] false) := by decide +kernel
  have hwrite : made.write ⟨".rpcforge/client.rs"⟩ (.text text) = .ok (clientTree text) := by
    rw [FileTree.write, if_neg (by decide), hfind]
    rfl
  refine Plan.carryOut_eq_ok_iff.mpr ⟨made, Plan.prepare_eq_ok_iff.mpr ⟨made, hopen, ?_⟩,
    .write hwrite (.none _)⟩
  rw [hparents, Plan.makeParents, hmake]
  rfl

theorem readText_clientTree (text : String) :
    (clientTree text).readText ⟨".rpcforge/client.rs"⟩ = .ok text := by
  rfl

theorem generate_rust {assembled : Contract} {segments : List Segment} (banner : String)
    (h : contract.assemble (segments.map (·.name)) = .ok assembled) :
    let context := contextOf assembled segments {} banner
    generate ⟨[], []⟩ contract segments ⟨["rs"], {}⟩ {} banner =
      (clientTree (rust.print context context.contractText),
        .ok ⟨true, ⟨".rpcforge"⟩, ["rs"]⟩) := by
  intro context
  have hrender : render "client.rs.tpl" rustTemplate context =
      .ok (rust.print context context.contractText) := by
    rw [render, if_pos (by decide), context.toJson_eq_shown,
      renderText_of_readTemplate readTemplate_rust]
  generalize rust.print context context.contractText = text at hrender ⊢
  have hpath : ({} : Options).outDir.join (outputPath "client.rs.tpl") =
      ⟨".rpcforge/client.rs"⟩ := by decide +kernel
  have hplan : Generation.plan ⟨[], []⟩ contract segments ⟨["rs"], {}⟩ {} banner =
      .ok (clientPlan assembled.emitted.dump text) := by
    refine plan_eq_ok_iff.mpr ⟨_, assembled, [⟨"rs", ⟨".rpcforge/client.rs"⟩, text, true⟩], rfl, h,
      .cons (render_eq_ok_iff.mpr ⟨text, none, ?_, by decide +kernel, ?_⟩) .nil, rfl⟩
    · exact renderedText_ofBuiltin hrender
    · exact congrArg (Output.mk "rs" · text true) hpath.symm
  rw [generate, hplan]
  dsimp only
  rw [if_neg (by simp [clientPlan, Plan.isEmpty]), carryOut_clientPlan]
  rfl

/-- Two controllers of one name are both declared, and the second takes the place of the first. -/
theorem shared_name_declared_twice :
    let contract := pairContract "C" "C"
    ∃ after text before, generate ⟨[], []⟩ contract contract.toSegments ⟨["rs"], {}⟩ {} "1" =
        (after, .ok ⟨true, ⟨".rpcforge"⟩, ["rs"]⟩) ∧
      after.readText ⟨".rpcforge/client.rs"⟩ = .ok text ∧
      text = before ++ rust.declare ⟨"a", "C", smallController⟩ ++
        rust.declare ⟨"b", "C", smallController⟩ ∧
      routeOf (declarations contract) "C" "h" = some ⟨"b", "", "x", .get, false⟩ := by
  intro contract
  have hassembled : contract.assemble (contract.toSegments.map (·.name)) = .ok contract := by
    decide +kernel
  let context := contextOf contract contract.toSegments {} "1"
  have hdeclared : declarations context.contract =
      [⟨"a", "C", smallController⟩, ⟨"b", "C", smallController⟩] := by decide +kernel
  exact ⟨_, _, _, generate_rust "1" hassembled, readText_clientTree _,
    rust.print_eq_pair _ hdeclared, by decide +kernel⟩

end RpcContract.Client
