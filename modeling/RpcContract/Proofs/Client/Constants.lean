import RpcContract.Proofs.Client.Declarations
import RpcContract.Proofs.Text.Source

/-!
# Constants of a client

The route constants hold texts of the contract, and the text of the contract itself.  Read as a
source they stand for these texts, whatever characters there are in them.
-/

namespace RpcContract.Client

open Text.Source

def routes (contract : Contract) : List (String × Route) :=
  (declarations contract).flatMap fun declaration =>
    declaration.controller.handlers.toList.map fun entry =>
      (entry.1, .of declaration.segment declaration.controller entry.2)

/-! ## Routes -/

/-- The fields of a route constant, from the first text on. -/
def fieldsPieces (route : Route) : List Piece :=
  [.text route.segment] ++ codes ",\n        prefix: " ++ [.text route.pathPrefix] ++
    codes ",\n        path: " ++ [.text route.path] ++ codes ",\n        method: " ++
    [.text route.method.name] ++ codes ",\n        streaming: " ++
    codes (if route.streaming then "true" else "false") ++ codes ",\n    \x7d;\n"

def routePieces (key : String) (route : Route) : List Piece :=
  codes "\n    pub const " ++ codes key ++ codes ": Route = Route \x7b\n        segment: " ++
    fieldsPieces route

theorem spelled_fields (route : Route) :
    Spelled (.code false) (fieldsPieces route) (.code false) := by
  -- The code between two texts starts with a comma and ends in a blank, so it is read as code.
  have hpathPrefix : Spelled .closed (codes ",\n        prefix: ") (.code false) := rfl
  have hpath : Spelled .closed (codes ",\n        path: ") (.code false) := rfl
  have hmethod : Spelled .closed (codes ",\n        method: ") (.code false) := rfl
  have hstreaming : Spelled .closed (codes ",\n        streaming: ") (.code false) := rfl
  have hflag : Spelled (.code false) (codes (if route.streaming then "true" else "false"))
      (.code true) := by cases route.streaming <;> rfl
  have hclose : Spelled (.code true) (codes ",\n    \x7d;\n") (.code false) := rfl
  have htexts := ((Spelled.text route.segment).append hpathPrefix).append (.text route.pathPrefix)
    |>.append hpath |>.append (.text route.path) |>.append hmethod
    |>.append (.text route.method.name)
  exact ((htexts.append hstreaming).append hflag).append hclose

theorem spelled_route {key : String} (h : IsPlain key) (route : Route) :
    Spelled (.code false) (routePieces key route) (.code false) := by
  obtain ⟨joined, hkey⟩ := h.spelled false
  have hopen : Spelled (.code false) (codes "\n    pub const ") (.code false) := rfl
  have htype : Spelled (.code joined) (codes ": Route = Route \x7b\n        segment: ")
      (.code false) := by cases joined <;> rfl
  exact ((hopen.append hkey).append htype).append (spelled_fields route)

theorem printHandler_rust (key : String) (route : Route) :
    rust.printHandler key route = spell (routePieces key route) := by
  simp [Layout.printHandler, rust, HandlerPiece.print, Quoting.quote, routePieces, fieldsPieces,
    String.join, String.append_assoc]

theorem textsFrom_route (opening : String) (before : List Char) (key : String) (route : Route)
    (rest : List Piece) :
    ∃ before', textsFrom opening before (routePieces key route ++ rest) =
      shown opening (": Route = Route \x7b\n        segment: ".toList.reverse ++
        (key.toList.reverse ++ ("\n    pub const ".toList.reverse ++ before))) route.segment ++
      (shown opening ",\n        prefix: ".toList.reverse route.pathPrefix ++
      (shown opening ",\n        path: ".toList.reverse route.path ++
      (shown opening ",\n        method: ".toList.reverse route.method.name ++
      textsFrom opening before' rest))) := by
  simp only [routePieces, fieldsPieces, List.append_assoc, textsFrom_codes, textsFrom_text,
    List.append_nil]
  exact ⟨_, rfl⟩

/-! ## Controllers -/

def declarationPieces (declaration : Declaration) : List Piece :=
  codes "\n#[allow(non_snake_case, non_upper_case_globals)]\npub mod " ++ codes declaration.name ++
    codes " \x7b\n    use super::Route;\n" ++
    declaration.controller.handlers.toList.flatMap (fun entry =>
      routePieces entry.1 (.of declaration.segment declaration.controller entry.2)) ++
    codes "\x7d\n"

def Declaration.IsPlain (declaration : Declaration) : Prop :=
  Text.Source.IsPlain declaration.name ∧
    ∀ entry ∈ declaration.controller.handlers.toList, Text.Source.IsPlain entry.1

instance (declaration : Declaration) : Decidable declaration.IsPlain :=
  inferInstanceAs (Decidable (_ ∧ _))

theorem spelled_declaration {declaration : Declaration} (h : declaration.IsPlain) :
    Spelled (.code false) (declarationPieces declaration) (.code false) := by
  obtain ⟨joined, hname⟩ := h.1.spelled false
  have hopen : Spelled (.code false)
      (codes "\n#[allow(non_snake_case, non_upper_case_globals)]\npub mod ") (.code false) := rfl
  have huse : Spelled (.code joined) (codes " \x7b\n    use super::Route;\n") (.code false) := by
    cases joined <;> rfl
  have hroutes := Spelled.flatMap fun entry
      (hentry : entry ∈ declaration.controller.handlers.toList) =>
    spelled_route (h.2 entry hentry) (.of declaration.segment declaration.controller entry.2)
  have hclose : Spelled (.code false) (codes "\x7d\n") (.code false) := rfl
  exact (((hopen.append hname).append huse).append hroutes).append hclose

theorem declare_rust (declaration : Declaration) :
    rust.declare declaration = spell (declarationPieces declaration) := by
  have hhandlers : String.join (declaration.controller.handlers.toList.map fun entry =>
        rust.printHandler entry.1 (.of declaration.segment declaration.controller entry.2)) =
      spell (declaration.controller.handlers.toList.flatMap fun entry =>
        routePieces entry.1 (.of declaration.segment declaration.controller entry.2)) := by
    simp [spell_flatMap, printHandler_rust]
  rw [Layout.declare, Layout.printController, hhandlers]
  simp [rust, declarationPieces, String.append_assoc]

/-! ## The prelude -/

def importPieces (name : String) : List Piece := codes "use " ++ codes name ++ codes ";\n"

def preludePieces (context : Context) : List Piece :=
  remarks "// " ++ remarks context.banner ++ codes "\n" ++ codes "#![allow(dead_code)]\n" ++
    context.imports.flatMap importPieces ++ codes "\npub const API_ROOT: &str = " ++
    [.text context.apiRoot] ++ (codes ";\n\n" ++
      remarks "/// Full schema these routes were generated from." ++ codes "\n")

def contractPieces (context : Context) : List Piece :=
  [.text context.contractText] ++ codes ";\n"

def headPieces (context : Context) : List Piece :=
  preludePieces context ++ codes "pub const SCHEMA_JSON: &str = " ++ contractPieces context ++
    codes (linesFrom rustLines 10 9)

def clientPieces (context : Context) : List Piece :=
  headPieces context ++ (declarations context.contract).flatMap declarationPieces

theorem printHead_rust (context : Context) :
    rust.printHead context context.contractText = spell (headPieces context) := by
  apply String.toList_injective
  simp [Layout.printHead, rust, PreludePiece.print, Quoting.quote, headPieces, preludePieces,
    contractPieces, importPieces, String.join, spell_flatMap, String.append_assoc]

theorem print_rust (context : Context) :
    rust.print context context.contractText = spell (clientPieces context) := by
  rw [Layout.print_eq_declarations, printHead_rust, clientPieces, spell_append, spell_flatMap,
    funext declare_rust]

/-- The parts of a prelude that are written as they are given do not start a literal. -/
structure Context.HasPlainPrelude (context : Context) : Prop where
  banner : '\n' ∉ context.banner.toList
  imports : ∀ name ∈ context.imports, IsPlain name

theorem spelled_prelude {context : Context} (h : context.HasPlainPrelude) :
    Spelled (.code false) (preludePieces context) (.code false) := by
  have hmark : Spelled (.code false) (remarks "// ") .remark := rfl
  have hline : Spelled .remark (codes "\n") (.code false) := rfl
  have hattribute : Spelled (.code false) (codes "#![allow(dead_code)]\n") (.code false) := rfl
  have himports : Spelled (.code false) (context.imports.flatMap importPieces) (.code false) := by
    refine .flatMap fun name hname => ?_
    obtain ⟨joined, hreads⟩ := (h.imports name hname).spelled false
    have huse : Spelled (.code false) (codes "use ") (.code false) := rfl
    have hclose : Spelled (.code joined) (codes ";\n") (.code false) := by cases joined <;> rfl
    exact (huse.append hreads).append hclose
  have hroot : Spelled (.code false) (codes "\npub const API_ROOT: &str = ") (.code false) := rfl
  have hremark : Spelled .closed (codes ";\n\n" ++
      remarks "/// Full schema these routes were generated from." ++ codes "\n")
      (.code false) := rfl
  exact (((((((hmark.append (spelled_remarks h.banner)).append hline).append hattribute).append
    himports).append hroot).append (.text context.apiRoot)).append hremark)

theorem spelled_contract (context : Context) :
    Spelled (.code false) (contractPieces context) (.code false) := by
  have hclose : Spelled .closed (codes ";\n") (.code false) := rfl
  exact (Spelled.text context.contractText).append hclose

theorem spelled_routeType :
    Spelled (.code false) (codes (linesFrom rustLines 10 9)) (.code false) := by
  have hlines : codes (linesFrom rustLines 10 9) =
      ((rustLines.drop 10).take 9).flatMap fun line => codes (line ++ "\n") := by
    simp [codes, linesFrom, toList_ofLines, List.map_flatMap]
  have hline : ∀ line ∈ (rustLines.drop 10).take 9,
      Spelled (.code false) (codes (line ++ "\n")) (.code false) := by decide +kernel
  rw [hlines]
  exact .flatMap hline

theorem spelled_head {context : Context} (h : context.HasPlainPrelude) :
    Spelled (.code false) (headPieces context) (.code false) := by
  have hname : Spelled (.code false) (codes "pub const SCHEMA_JSON: &str = ") (.code false) := rfl
  exact (((spelled_prelude h).append hname).append (spelled_contract context)).append
    spelled_routeType

theorem spelled_client {context : Context} (h : context.HasPlainPrelude)
    (hnames : ∀ declaration ∈ declarations context.contract, declaration.IsPlain) :
    Spelled (.code false) (clientPieces context) (.code false) :=
  (spelled_head h).append (.flatMap fun declaration hmem =>
    spelled_declaration (hnames declaration hmem))

/-! ## Texts by their names -/

/-- The fields of a route that are texts, each by the code right before it. -/
def textFields : List (String × (Route → String)) :=
  [("segment: ", Route.segment), ("prefix: ", Route.pathPrefix), ("path: ", Route.path),
    ("method: ", (·.method.name))]

theorem shows_field {field : String × (Route → String)} (h : field ∈ textFields) (key : String)
    (route : Route) : Shows field.1 (routePieces key route) [field.2 route] := by
  simp only [textFields, List.mem_cons, List.not_mem_nil, or_false] at h
  rcases h with rfl | rfl | rfl | rfl <;> exact fun before => textsFrom_route _ before key route

theorem textsFrom_head (opening : String) (before : List Char) (context : Context)
    (rest : List Piece) :
    ∃ first second before', textsFrom opening before (headPieces context ++ rest) =
      shown opening ("\npub const API_ROOT: &str = ".toList.reverse ++ first) context.apiRoot ++
      (shown opening ("pub const SCHEMA_JSON: &str = ".toList.reverse ++ second)
        context.contractText ++ textsFrom opening before' rest) := by
  -- What code there is behind the imports hangs on them, but there is no text in it.
  have himports (before : List Char) (rest : List Piece) : ∃ after,
      textsFrom opening before (context.imports.flatMap importPieces ++ rest) =
        textsFrom opening after rest := by
    have hshows : Shows opening (context.imports.flatMap importPieces)
        (context.imports.flatMap fun _ => []) :=
      .flatMap fun name _ => ((Shows.codes opening "use ").append (.codes opening name)).append
        (.codes opening ";\n")
    rw [List.flatMap_eq_nil_iff.mpr fun _ _ => rfl] at hshows
    exact hshows before rest
  choose after hafter using himports
  simp only [headPieces, preludePieces, contractPieces, List.append_assoc, textsFrom_remarks,
    textsFrom_codes, hafter, textsFrom_text]
  exact ⟨_, _, _, rfl⟩

def contractOpening : String := "const SCHEMA_JSON: &str = "

theorem shows_contract (context : Context) :
    Shows contractOpening (headPieces context) [context.contractText] := by
  intro before rest
  obtain ⟨_, _, before', hhead⟩ := textsFrom_head contractOpening before context rest
  exact ⟨before', hhead⟩

theorem shows_no_contract (key : String) (route : Route) :
    Shows contractOpening (routePieces key route) [] :=
  fun before => textsFrom_route _ before key route

theorem shows_no_field {field : String × (Route → String)} (h : field ∈ textFields)
    (context : Context) : Shows field.1 (headPieces context) [] := by
  intro before rest
  obtain ⟨_, _, before', hhead⟩ := textsFrom_head field.1 before context rest
  simp only [textFields, List.mem_cons, List.not_mem_nil, or_false] at h
  rcases h with rfl | rfl | rfl | rfl <;> exact ⟨before', hhead⟩

theorem shows_declarations {opening : String} {texts : Route → List String}
    (h : ∀ key route, Shows opening (routePieces key route) (texts route)) (contract : Contract) :
    Shows opening ((declarations contract).flatMap declarationPieces)
      ((routes contract).flatMap fun entry => texts entry.2) := by
  rw [routes, List.flatMap_assoc]
  refine Shows.flatMap fun declaration _ => ?_
  rw [List.flatMap_map]
  have hroutes := Shows.flatMap fun entry
      (_ : entry ∈ declaration.controller.handlers.toList) =>
    h entry.1 (.of declaration.segment declaration.controller entry.2)
  have hopen := ((Shows.codes opening
    "\n#[allow(non_snake_case, non_upper_case_globals)]\npub mod ").append
    (.codes opening declaration.name)).append (.codes opening " \x7b\n    use super::Route;\n")
  simpa [declarationPieces] using (hopen.append hroutes).append (.codes opening "\x7d\n")

/-! ## Texts in a client -/

theorem readsBehind_contract (context : Context) :
    ReadsBehind (spell (clientPieces context)) "pub const SCHEMA_JSON: &str = "
      (contractPieces context) := by
  have hpieces : clientPieces context = preludePieces context ++
      codes "pub const SCHEMA_JSON: &str = " ++ contractPieces context ++
      (codes (linesFrom rustLines 10 9) ++
        (declarations context.contract).flatMap declarationPieces) := by
    simp [clientPieces, headPieces]
  rw [hpieces]
  exact readsBehind_spell _ _ (spelled_contract context) rfl

theorem isInfix_flatMap {α β : Type} {xs : List α} {x : α} (h : x ∈ xs) (f : α → List β) :
    f x <:+: xs.flatMap f := by
  rw [List.flatMap_def]
  exact List.infix_of_mem_flatten (List.mem_map_of_mem h)

theorem routePieces_isInfix {context : Context} {key : String} {route : Route}
    (h : (key, route) ∈ routes context.contract) :
    routePieces key route <:+: clientPieces context := by
  obtain ⟨declaration, hdeclaration, hmem⟩ := List.mem_flatMap.mp h
  obtain ⟨entry, hentry, heq⟩ := List.mem_map.mp hmem
  obtain ⟨rfl, rfl⟩ := Prod.mk.inj heq
  have hroutes := isInfix_flatMap hentry fun entry =>
    routePieces entry.1 (.of declaration.segment declaration.controller entry.2)
  have hcontroller : _ <:+: declarationPieces declaration := List.infix_append _ _ _
  have hdeclarations := isInfix_flatMap hdeclaration declarationPieces
  have hclient : _ <:+: clientPieces context := (List.suffix_append _ _).isInfix
  exact ((hroutes.trans hcontroller).trans hdeclarations).trans hclient

theorem readsBehind_route {context : Context} {key : String} {route : Route}
    (h : (key, route) ∈ routes context.contract) :
    ReadsBehind (spell (clientPieces context))
      ("\n    pub const " ++ key ++ ": Route = Route \x7b\n        segment: ")
      (fieldsPieces route) := by
  obtain ⟨before, after, hpieces⟩ := routePieces_isInfix h
  have hroute : before ++ routePieces key route ++ after = before ++
      codes ("\n    pub const " ++ key ++ ": Route = Route \x7b\n        segment: ") ++
      fieldsPieces route ++ after := by
    simp only [routePieces, codes_append, List.append_assoc]
  rw [← hpieces, hroute]
  exact readsBehind_spell _ _ (spelled_fields route) rfl

/-- Every text is written as one literal on one line, which reads as this text.  So the constants
of a client stand for the texts of its contract: each by itself, and, where no name can be taken
for a part of a literal or a remark, also when the whole client is read. -/
theorem rust_constants_read_back :
    (∀ text : String, ∃ literal,
      Template.Filter.run "rust_str" (.ofJson (.str text)) {} = .ok (.str literal false) ∧
        '\n' ∉ literal.toList ∧ '\r' ∉ literal.toList ∧ pieces? literal = some [.text text]) ∧
    ∃ builtin, builtin? "rs" = some builtin ∧ ∀ context : Context, ∃ client,
      render builtin.path builtin.text context = .ok client ∧
      ReadsBehind client "pub const SCHEMA_JSON: &str = "
        ([.text context.contractText] ++ codes ";\n") ∧
      (∀ entry ∈ routes context.contract,
        ReadsBehind client
          ("\n    pub const " ++ entry.1 ++ ": Route = Route \x7b\n        segment: ")
          (fieldsPieces entry.2)) ∧
      (context.HasPlainPrelude →
        (∃ head rest pieces, client = head ++ rest ∧ pieces? head = some pieces ∧
          textsBehind contractOpening pieces = [context.contractText]) ∧
        ((∀ declaration ∈ declarations context.contract, declaration.IsPlain) →
          ∃ pieces, pieces? client = some pieces ∧
            textsBehind contractOpening pieces = [context.contractText] ∧
            ∀ field ∈ textFields, textsBehind field.1 pieces =
              (routes context.contract).map fun entry => field.2 entry.2)) := by
  refine ⟨fun text => ⟨Text.quote text, rfl, ?line, ?returned, pieces?_quote text⟩, _, rfl,
    fun context => ⟨spell (clientPieces context), ?render, readsBehind_contract context,
      fun _ => readsBehind_route, fun hprelude => ⟨?head, fun hnames => ?whole⟩⟩⟩
  case line => exact fun hmem => absurd (Text.le_toNat_of_mem_quote hmem) (by decide)
  case returned => exact fun hmem => absurd (Text.le_toNat_of_mem_quote hmem) (by decide)
  case render =>
    change render "client.rs.tpl" rustTemplate context = _
    rw [render, if_pos (by decide), context.toJson_eq_shown,
      renderText_of_readTemplate readTemplate_rust, print_rust]
  case head =>
    exact ⟨spell (headPieces context), _, headPieces context, spell_append _ _,
      (spelled_head hprelude).pieces?_eq rfl, (shows_contract context).textsBehind_eq⟩
  case whole =>
    refine ⟨clientPieces context, (spelled_client hprelude hnames).pieces?_eq rfl, ?_, ?_⟩
    · have hcontract := (shows_contract context).append
        (shows_declarations shows_no_contract context.contract)
      rw [clientPieces, hcontract.textsBehind_eq, List.flatMap_eq_nil_iff.mpr fun _ _ => rfl,
        List.append_nil]
    · intro field hfield
      have hfields := (shows_no_field hfield context).append
        (shows_declarations (shows_field hfield) context.contract)
      rw [clientPieces, hfields.textsBehind_eq, List.nil_append, List.map_eq_flatMap]

theorem rust_constants_read_back_escapes :
    let handler : HandlerSpec := { method := .get, path := ":id/\t\u0301\x7f😀" }
    let controller : ControllerSpec :=
      { pathPrefix := "\\\"", handlers := .ofList [("h", handler)] }
    let segment : SegmentSpec := { controllers := .ofList [("C", controller)] }
    let context : Context := ⟨"/api", ["std::fmt"], ⟨.ofList [("a\"b\n", segment)]⟩, ∅, "one"⟩
    let route : Route := ⟨"a\"b\n", "\\\"", ":id/\t\u0301\x7f😀", .get, false⟩
    routes context.contract = [("h", route)] ∧ context.HasPlainPrelude ∧
      (∀ declaration ∈ declarations context.contract, declaration.IsPlain) ∧
      ∃ client pieces, render "client.rs.tpl" rustTemplate context = .ok client ∧
        ReadsBehind client
          ("\n    pub const " ++ "h" ++ ": Route = Route \x7b\n        segment: ")
          (fieldsPieces route) ∧
        pieces? client = some pieces ∧
        textsBehind "const SCHEMA_JSON: &str = " pieces = [context.contractText] ∧
        textsBehind "segment: " pieces = ["a\"b\n"] ∧
        textsBehind "prefix: " pieces = ["\\\""] ∧
        textsBehind "path: " pieces = [":id/\t\u0301\x7f😀"] := by
  intro handler controller segment context route
  obtain ⟨-, builtin, hbuiltin, hclient⟩ := rust_constants_read_back
  obtain rfl := Option.some.inj hbuiltin
  obtain ⟨client, hrender, -, hroutes, hplain⟩ := hclient context
  have hlist : routes context.contract = [("h", route)] := by decide +kernel
  have hroute : ("h", route) ∈ routes context.contract := by simp [hlist]
  have hprelude : context.HasPlainPrelude := ⟨by decide, by decide⟩
  have hnames : ∀ declaration ∈ declarations context.contract, declaration.IsPlain := by
    decide +kernel
  obtain ⟨pieces, hpieces, hcontract, hfields⟩ := (hplain hprelude).2 hnames
  rw [hlist] at hfields
  exact ⟨hlist, hprelude, hnames, client, pieces, hrender, hroutes ("h", route) hroute, hpieces,
    hcontract, hfields ("segment: ", Route.segment) (by simp [textFields]),
    hfields ("prefix: ", Route.pathPrefix) (by simp [textFields]),
    hfields ("path: ", Route.path) (by simp [textFields])⟩

end RpcContract.Client
