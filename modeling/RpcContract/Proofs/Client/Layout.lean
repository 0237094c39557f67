import RpcContract.Client.Context
import RpcContract.Proofs.Data.Dict
import RpcContract.Proofs.Template.Running

/-!
# Layouts of generated clients

A layout says what a client of some language looks like: what stands at its start, around each
controller, and for each handler.  `Layout.print` prints a contract by it.  `Layout.stmts` are the
statements of a template that does the same, and running them gives the printed text.
-/

namespace RpcContract.Client

open Template

structure Route where
  segment : String
  pathPrefix : String
  path : String
  method : HttpMethod
  streaming : Bool
deriving DecidableEq, Repr

def Route.of (segment : String) (controller : ControllerSpec) (handler : HandlerSpec) : Route :=
  ⟨segment, controller.pathPrefix, handler.path, handler.method, handler.isStreaming⟩

inductive Quoting where
  | json
  | rust
deriving DecidableEq, Repr

def Quoting.quote : Quoting → String → String
  | .json, text => .ofList ((Json.quote text).toList.flatMap Filter.jsonChar)
  | .rust, text => Text.quote text

inductive PreludePiece where
  | fixed (text : String)
  | imports (before after : String)
  | apiRoot
  | contract
  | quotedContract
deriving DecidableEq, Repr

inductive HandlerPiece where
  | fixed (text : String)
  | key
  | segment
  | pathPrefix
  | path
  | method
  | streaming
  /-- One of two words by whether the handler streams. -/
  | choice (yes no : String)
deriving DecidableEq, Repr

/-- Whether the piece tells whether the handler streams, in words that differ. -/
def HandlerPiece.isFlag : HandlerPiece → Bool
  | .streaming => true
  | .choice yes no => yes != no
  | _ => false

structure Layout where
  quoting : Quoting
  /-- The mark of a comment, which the banner stands behind. -/
  mark : String
  start : String
  prelude : List PreludePiece
  beforeController : String
  afterController : String
  handler : List HandlerPiece
  close : Option String

/-- What is written for a handler tells each of its particulars once. -/
def Layout.IsComplete (layout : Layout) : Prop :=
  (∀ piece ∈ [.key, .segment, .pathPrefix, .path, .method], layout.handler.count piece = 1) ∧
    (layout.handler.filter HandlerPiece.isFlag).length = 1

instance (layout : Layout) : Decidable layout.IsComplete :=
  inferInstanceAs (Decidable (_ ∧ _))

/-! ## Printing -/

section Print

variable (quoting : Quoting) (context : Context) (contractText : String)

def PreludePiece.print : PreludePiece → String
  | .fixed text => text
  | .imports before after => String.join (context.imports.map fun name => before ++ name ++ after)
  | .apiRoot => quoting.quote context.apiRoot
  | .contract => contractText
  | .quotedContract => quoting.quote contractText

def HandlerPiece.print (key : String) (route : Route) : HandlerPiece → String
  | .fixed text => text
  | .key => key
  | .segment => quoting.quote route.segment
  | .pathPrefix => quoting.quote route.pathPrefix
  | .path => quoting.quote route.path
  | .method => quoting.quote route.method.name
  | .streaming => if route.streaming then "true" else "false"
  | .choice yes no => if route.streaming then yes else no

end Print

namespace Layout

variable (layout : Layout)

def printHandler (key : String) (route : Route) : String :=
  String.join (layout.handler.map (·.print layout.quoting key route))

def printController (segment name : String) (controller : ControllerSpec) : String :=
  layout.beforeController ++ name ++ layout.afterController ++
    String.join (controller.handlers.toList.map fun (key, handler) =>
      layout.printHandler key (.of segment controller handler)) ++ layout.close.getD ""

/-- All but the line of the banner: the prelude, and then all controllers of all segments. -/
def printBody (context : Context) (contractText : String) : String :=
  layout.start ++
    String.join (layout.prelude.map (·.print layout.quoting context contractText)) ++
    String.join (context.contract.segments.toList.map fun (segment, s) =>
      String.join (s.controllers.toList.map fun (name, controller) =>
        layout.printController segment name controller))

def print (context : Context) (contractText : String) : String :=
  layout.mark ++ context.banner ++ "\n" ++ layout.printBody context contractText

end Layout

/-! ## Statements -/

def Quoting.filter : Quoting → String
  | .json => "tojson"
  | .rust => "rust_str"

def Quoting.stmt (quoting : Quoting) (e : Expr) : Stmt := .print (.filter quoting.filter e [] [])

def eachEntry (key value : String) (entries : Expr) (body : List Stmt) : Stmt :=
  .loop (.parts [.var key, .var value]) (.filter "items" entries [] []) none false body []

def PreludePiece.stmt (quoting : Quoting) : PreludePiece → Stmt
  | .fixed text => .text text
  | .imports before after =>
      .loop (.var "imp") (.attr (.var "t") "imports") none false
        [.text before, .print (.var "imp"), .text after] []
  | .apiRoot => quoting.stmt (.attr (.var "t") "apiRoot")
  | .contract => .print (.attr (.var "t") "schemaJson")
  | .quotedContract => quoting.stmt (.attr (.var "t") "schemaJson")

/-- Whether there is a model for the items that the handler streams. -/
def streamingExpr : Expr :=
  .test "defined" (.attr (.attr (.var "handler") "validation") "iteration") [] []

def HandlerPiece.stmt (quoting : Quoting) : HandlerPiece → Stmt
  | .fixed text => .text text
  | .key => .print (.var "key")
  | .segment => quoting.stmt (.var "segmentName")
  | .pathPrefix => quoting.stmt (.attr (.var "controller") "prefix")
  | .path => quoting.stmt (.attr (.var "handler") "path")
  | .method => quoting.stmt (.attr (.var "handler") "httpMethod")
  | .streaming => .print (.filter "tojson" streamingExpr [] [])
  | .choice yes no => .choose streamingExpr [.text yes] [.text no]

namespace Layout

variable (layout : Layout)

def controllerStmts : List Stmt :=
  [.text layout.beforeController, .print (.var "controllerName"), .text layout.afterController,
    eachEntry "key" "handler" (.attr (.var "controller") "handlers")
      (layout.handler.map (·.stmt layout.quoting))] ++ layout.close.toList.map .text

def stmts : List Stmt :=
  [.text layout.mark, .print (.attr (.var "t") "banner"),
    .text (.ofList ('\n' :: layout.start.toList))] ++
    layout.prelude.map (·.stmt layout.quoting) ++
    [eachEntry "segmentName" "segment" (.attr (.var "t") "schema")
      [eachEntry "controllerName" "controller" (.attr (.var "segment") "controllers")
        layout.controllerStmts]]

end Layout

/-! ## Data of a template -/

def Context.shown (context : Context) (contractText : String) : Json :=
  .obj [
    ("apiRoot", .str context.apiRoot),
    ("imports", .arr (context.imports.map .str)),
    ("schema", context.contract.toJson),
    ("segmentMeta", .ofDict (context.metadata.mapWithKey fun _ fields => .ofDict fields)),
    ("banner", .str context.banner),
    ("schemaJson", .str contractText)
  ]

theorem Context.toJson_eq_shown (context : Context) :
    context.toJson = context.shown context.contractText := rfl

theorem get?_record (fields : List (String × Option Json)) (name : String)
    (h : (fields.map Prod.fst).Nodup) :
    (Json.record fields).get? name = (lookupEntry name fields).join := by
  induction fields with
  | nil => rfl
  | cons field rest ih =>
      obtain ⟨key, value⟩ := field
      obtain ⟨hfresh, hrest⟩ := List.nodup_cons.mp h
      have ih := ih hrest
      simp only [Json.record, Json.get?] at ih ⊢
      by_cases hkey : key = name
      · subst hkey
        cases value with
        | some value => simp [lookupEntry]
        | none =>
            -- No later field has the name, so a field that is left out is missing.
            rw [Dict.lookupEntry_eq_none_of_not_mem hfresh] at ih
            simpa [lookupEntry] using ih
      · cases value <;> simp [lookupEntry, hkey, ih]

theorem get?_handler (handler : HandlerSpec) (name : String) :
    handler.toJson.get? name = (lookupEntry name [("httpMethod", some handler.method.toJson),
      ("path", some (.str handler.path)), ("openapi", handler.openapi),
      ("validation", handler.validation.map Models.toJson)]).join :=
  get?_record _ name (by simp)

theorem get?_models (models : Models) (part : CallPart) :
    models.toJson.get? part.name = models.get part := by
  have hnames : (CallPart.all.map CallPart.name).Nodup := by decide
  rw [Models.toJson, get?_record _ _ (by rwa [List.map_map])]
  cases part <;> simp [CallPart.all, lookupEntry, CallPart.name]

theorem get?_iteration (handler : HandlerSpec) :
    (handler.toJson.get? "validation").bind (·.get? "iteration") = handler.model .iteration := by
  have hvalidation : handler.toJson.get? "validation" = handler.validation.map Models.toJson := by
    rw [get?_handler]
    rfl
  rw [hvalidation, HandlerSpec.model]
  cases handler.validation with
  | none => rfl
  | some models => exact get?_models models .iteration

/-! ## Running the statements -/

section

variable {again : Reentry} {frames : List Frame}

theorem yields_quoted {e : Expr} {text : String} (quoting : Quoting)
    (h : Evaluates again frames e (some (.str text))) :
    Yields ((quoting.stmt e).exec again) frames (quoting.quote text) := by
  cases quoting with
  | json => exact h.printFiltered rfl
  | rust => exact h.printFiltered rfl

theorem yields_preludePiece {context : Context} {contractText : String}
    (ht : Evaluates again frames (.var "t") (some (context.shown contractText)))
    (hdepth : frames.length ≤ depthLimit) (quoting : Quoting) (piece : PreludePiece) :
    Yields ((piece.stmt quoting).exec again) frames
      (piece.print quoting context contractText) := by
  cases piece with
  | fixed text => exact .text text
  | apiRoot => exact yields_quoted quoting (ht.attr "apiRoot")
  | contract => exact (ht.attr "schemaJson").print
  | quotedContract => exact yields_quoted quoting (ht.attr "schemaJson")
  | imports before after =>
      refine (ht.attr "imports").loopTexts hdepth fun name _ place => ?_
      have hname : Evaluates again
          (loopFrame [("imp", .ofOption (some (.str name)))] place :: frames)
          (.var "imp") (some (.str name)) := .var rfl
      have hline := Yields.cons (.text before) (.cons hname.print (.cons (.text after) .nil))
      rwa [String.append_empty, ← String.append_assoc] at hline

/-- The variables that stand for a handler and what it stands in. -/
structure HandlerInScope (again : Reentry) (frames : List Frame) (segment : String)
    (controller : ControllerSpec) (key : String) (handler : HandlerSpec) : Prop where
  segment : Evaluates again frames (.var "segmentName") (some (.str segment))
  controller : Evaluates again frames (.var "controller") (some controller.toJson)
  key : Evaluates again frames (.var "key") (some (.str key))
  handler : Evaluates again frames (.var "handler") (some handler.toJson)

section Handler

variable {segment key : String} {controller : ControllerSpec} {handler : HandlerSpec}

theorem HandlerInScope.attr (h : HandlerInScope again frames segment controller key handler)
    {name : String} {json : Json} (hfield : handler.toJson.get? name = some json) :
    Evaluates again frames (.attr (.var "handler") name) (some json) := by
  rw [← hfield]
  exact h.handler.attr name

theorem HandlerInScope.streaming (h : HandlerInScope again frames segment controller key handler) :
    Evaluates again frames streamingExpr (some (.bool handler.isStreaming)) := by
  have hiteration := ((h.handler.attr "validation").attr "iteration").defined
  rw [Option.bind_some, get?_iteration] at hiteration
  exact hiteration

theorem yields_handlerPiece (h : HandlerInScope again frames segment controller key handler)
    (quoting : Quoting) (piece : HandlerPiece) :
    Yields ((piece.stmt quoting).exec again) frames
      (piece.print quoting key (.of segment controller handler)) := by
  cases piece with
  | fixed text => exact .text text
  | key => exact h.key.print
  | segment => exact yields_quoted quoting h.segment
  | pathPrefix => exact yields_quoted quoting (h.controller.attr "prefix")
  | path => exact yields_quoted quoting (h.attr (by rw [get?_handler]; rfl))
  | method => exact yields_quoted quoting (h.attr (by rw [get?_handler]; rfl))
  | streaming =>
      refine h.streaming.printFiltered (?_ : _ = Except.ok (Value.str _ true))
      change Filter.run "tojson" (.ofOption (some (.bool handler.isStreaming))) {} =
        .ok (.str (if handler.isStreaming then "true" else "false") true)
      cases handler.isStreaming <;> rfl
  | choice yes no =>
      refine h.streaming.choose ?_
      change Yields _ frames (if handler.isStreaming then yes else no)
      cases handler.isStreaming
      · simpa using Yields.cons (.text no) .nil
      · simpa using Yields.cons (.text yes) .nil

end Handler

theorem yields_eachEntry {α : Type} {entries : Expr} {values : Dict α} {json : α → Json}
    {first second : String} {body : List Stmt} (text : String → α → String)
    (hnames : first ≠ second)
    (h : Evaluates again frames entries
      (some (.ofDict (values.mapWithKey fun _ value => json value))))
    (hdepth : frames.length ≤ depthLimit)
    (hbody : ∀ key value place, Yields (Stmt.execAll again body)
      (entryFrame first second key (json value) place :: frames) (text key value)) :
    Yields ((eachEntry first second entries body).exec again) frames
      (String.join (values.toList.map fun (key, value) => text key value)) :=
  Evaluates.loopEntries hnames h hdepth fun entry _ => hbody entry.1 entry.2

end

namespace Layout

variable (layout : Layout) {again : Reentry} {frames : List Frame}

theorem yields_handlers {segment : String} {controller : ControllerSpec}
    (hsegment : Scope.lookupIn "segmentName" frames = some (.ofOption (some (.str segment))))
    (hcontroller : Scope.lookupIn "controller" frames =
      some (.ofOption (some controller.toJson)))
    (hdepth : frames.length ≤ depthLimit) :
    Yields ((eachEntry "key" "handler" (.attr (.var "controller") "handlers")
      (layout.handler.map (·.stmt layout.quoting))).exec again) frames
      (String.join (controller.handlers.toList.map fun (key, handler) =>
        layout.printHandler key (.of segment controller handler))) := by
  have hentries : Evaluates again frames (.var "controller") (some controller.toJson) :=
    .var hcontroller
  refine yields_eachEntry
    (fun key handler => layout.printHandler key (.of segment controller handler)) ?names
    (hentries.attr "handlers") hdepth fun key handler place => ?body
  case names => decide
  case body =>
    have hhandler : HandlerInScope again
        (entryFrame "key" "handler" key handler.toJson place :: frames)
        segment controller key handler :=
      ⟨.var hsegment, .var hcontroller, .var rfl, .var rfl⟩
    exact Yields.map fun piece _ => yields_handlerPiece hhandler layout.quoting piece

theorem yields_controllerStmts {segment : String}
    (hsegment : Scope.lookupIn "segmentName" frames = some (.ofOption (some (.str segment))))
    (hdepth : frames.length < depthLimit) (name : String) (controller : ControllerSpec)
    (place : Option Value) :
    Yields (Stmt.execAll again layout.controllerStmts)
      (entryFrame "controllerName" "controller" name controller.toJson place :: frames)
      (layout.printController segment name controller) := by
  have hname : Evaluates again
      (entryFrame "controllerName" "controller" name controller.toJson place :: frames)
      (.var "controllerName") (some (.str name)) := .var rfl
  have hclose : Yields (Stmt.execAll again (layout.close.toList.map .text))
      (entryFrame "controllerName" "controller" name controller.toJson place :: frames)
      (layout.close.getD "") := by
    cases layout.close with
    | none => exact .nil
    | some text => simpa using Yields.cons (.text text) .nil
  have hall := Yields.append (.cons (.text layout.beforeController) (.cons hname.print
    (.cons (.text layout.afterController) (.cons
      (layout.yields_handlers hsegment rfl hdepth) .nil)))) hclose
  simpa [controllerStmts, printController, String.append_assoc] using hall

theorem yields_controllers {segment : String} {s : SegmentSpec}
    (hname : Scope.lookupIn "segmentName" frames = some (.ofOption (some (.str segment))))
    (hsegment : Scope.lookupIn "segment" frames = some (.ofOption (some s.toJson)))
    (hdepth : frames.length < depthLimit) :
    Yields ((eachEntry "controllerName" "controller" (.attr (.var "segment") "controllers")
      layout.controllerStmts).exec again) frames
      (String.join (s.controllers.toList.map fun (name, controller) =>
        layout.printController segment name controller)) := by
  have hentries : Evaluates again frames (.var "segment") (some s.toJson) := .var hsegment
  refine yields_eachEntry (layout.printController segment) ?names (hentries.attr "controllers")
    (by omega) ?body
  case names => decide
  case body => exact layout.yields_controllerStmts hname hdepth

theorem yields_stmts {context : Context} {contractText : String}
    (ht : Scope.lookupIn "t" frames = some (.ofOption (some (context.shown contractText))))
    (hdepth : frames.length + 1 < depthLimit) :
    Yields (Stmt.execAll again layout.stmts) frames (layout.print context contractText) := by
  have hdata : Evaluates again frames (.var "t") (some (context.shown contractText)) := .var ht
  have hbanner := Yields.cons (.text layout.mark) (.cons (hdata.attr "banner").print
    (.cons (.text (.ofList ('\n' :: layout.start.toList))) .nil))
  have hprelude : Yields (Stmt.execAll again (layout.prelude.map (·.stmt layout.quoting))) frames
      (String.join (layout.prelude.map (·.print layout.quoting context contractText))) :=
    Yields.map fun piece _ => yields_preludePiece hdata (by omega) layout.quoting piece
  have hsegments : Yields ((eachEntry "segmentName" "segment" (.attr (.var "t") "schema")
      [eachEntry "controllerName" "controller" (.attr (.var "segment") "controllers")
        layout.controllerStmts]).exec again) frames
      (String.join (context.contract.segments.toList.map fun (segment, s) =>
        String.join (s.controllers.toList.map fun (name, controller) =>
          layout.printController segment name controller))) := by
    refine yields_eachEntry (fun segment (s : SegmentSpec) => String.join
      (s.controllers.toList.map fun (name, controller) =>
        layout.printController segment name controller)) ?names (hdata.attr "schema") (by omega)
      fun segment s place => ?body
    case names => decide
    case body =>
      have hname : Scope.lookupIn "segmentName"
          (entryFrame "segmentName" "segment" segment s.toJson place :: frames) =
            some (.ofOption (some (.str segment))) := rfl
      have hcontrollers : Yields (Stmt.execAll again _) _ _ :=
        .cons (layout.yields_controllers hname rfl hdepth) .nil
      rwa [String.append_empty] at hcontrollers
  have hall := (hbanner.append hprelude).append (.cons hsegments .nil)
  have hstart : String.ofList ('\n' :: layout.start.toList) = "\n" ++ layout.start := by
    rw [← String.toList_inj, String.toList_ofList, String.toList_append]
    rfl
  simpa [stmts, print, printBody, hstart, String.append_assoc] using hall

/-- Running the statements of a layout prints the contract by it. -/
theorem execute_stmts (context : Context) (contractText : String) :
    execute layout.stmts [("t", .ofJson (context.shown contractText))] =
      .ok (layout.print context contractText) := by
  have hrun : Yields (Stmt.execAll (reentryAt (Stmt.blocksOf layout.stmts) (depthLimit + 100))
      layout.stmts) [{ vars := [("t", .ofJson (context.shown contractText))] }]
      (layout.print context contractText) := layout.yields_stmts rfl (by simp [depthLimit])
  obtain ⟨loops, hscope⟩ :=
    hrun { frames := [{ vars := [("t", .ofJson (context.shown contractText))] }] } ⟨rfl, rfl, rfl⟩
  rw [execute, hscope]
  rfl

end Layout

end RpcContract.Client
