import RpcContract.Template.Evaluate

/-!
# Running templates over data

Rules for the statements that print data and go through it.  A run that goes by them gives a text
and leaves its scope as it was, apart from how many loops there have been.
-/

namespace RpcContract.Template

/-! ## Data as values -/

namespace Value

def ofOption (json : Option Json) : Value := (json.map ofJson).getD .undefined

theorem lookup_ofFields (key : String) (fields : List (String × Json)) :
    lookup (.str key false) (ofFields fields) = (lookupEntry key fields).map ofJson := by
  induction fields with
  | nil => rfl
  | cons field rest ih =>
      obtain ⟨name, value⟩ := field
      have hsame : same (.str name false) (.str key false) = (name == key) := rfl
      rw [ofFields, lookup, hsame, lookupEntry]
      by_cases hname : name = key
      · simp [hname]
      · simp [hname, ih]

theorem attr_ofOption (json : Option Json) (name : String) :
    (ofOption json).attr name = ofOption (json.bind (·.get? name)) := by
  rcases json with - | json
  · rfl
  cases json with
  | obj fields =>
      change (lookup (.str name false) (ofFields fields)).getD .undefined = _
      rw [lookup_ofFields]
      rfl
  | _ => rfl

theorem isUndefined_ofOption (json : Option Json) :
    (ofOption json).isUndefined = json.isNone := by
  rcases json with - | json
  · rfl
  · cases json <;> rfl

theorem resolve_ofOption (json : Option Json) :
    Run.resolve (ofOption json) = pure (ofOption json) := by
  rcases json with - | json
  · rfl
  · cases json <;> rfl

theorem ofItems_eq_map (items : List Json) : ofItems items = items.map ofJson := by
  induction items with
  | nil => rfl
  | cons item rest ih => rw [ofItems, ih, List.map_cons]

theorem ofFields_eq_map (fields : List (String × Json)) :
    ofFields fields = fields.map fun field => (.str field.1 false, ofJson field.2) := by
  induction fields with
  | nil => rfl
  | cons field rest ih => rw [ofFields, ih, List.map_cons]

end Value

/-! ## Runs -/

variable {α β : Type}

/-- The scope has the given frames, no routine is being run, and nothing is escaped. -/
structure Scope.Has (scope : Scope) (frames : List Frame) : Prop where
  frames : scope.frames = frames
  outer : scope.outer = 0
  escaping : scope.escaping = .none

/-- Where the given frames stand, the run gives a value and leaves other frames; besides, it only
counts loops. -/
def Leads (run : Run α) (frames frames' : List Frame) (value : α) : Prop :=
  ∀ scope : Scope, scope.Has frames →
    ∃ loops, run.run scope = .ok (value, { scope with frames := frames', loops := loops })

abbrev Yields (run : Run α) (frames : List Frame) (value : α) : Prop :=
  Leads run frames frames value

theorem Leads.bind {run : Run α} {next : α → Run β} {frames frames₁ frames₂ : List Frame}
    {value : α} {result : β} (h : Leads run frames frames₁ value)
    (hnext : Leads (next value) frames₁ frames₂ result) :
    Leads (run >>= next) frames frames₂ result := by
  intro scope hscope
  obtain ⟨loops, hrun⟩ := h scope hscope
  obtain ⟨loops', hresult⟩ := hnext { scope with frames := frames₁, loops := loops }
    ⟨rfl, hscope.outer, hscope.escaping⟩
  refine ⟨loops', ?_⟩
  rw [StateT.run_bind, hrun]
  exact hresult

section

variable {frames : List Frame} {again : Reentry}

theorem Yields.value (value : α) : Yields (pure value : Run α) frames value := by
  rintro scope ⟨rfl, -, -⟩
  exact ⟨scope.loops, rfl⟩

theorem Yields.lift {result : Except Fault α} {value : α} (h : result = .ok value) :
    Yields (liftM result : Run α) frames value := by
  rintro scope ⟨rfl, -, -⟩
  subst h
  exact ⟨scope.loops, rfl⟩

/-! ## Expressions -/

/-- Where the given frames stand, the expression has the data as its value. -/
def Evaluates (again : Reentry) (frames : List Frame) (e : Expr) (json : Option Json) : Prop :=
  Yields (e.eval again) frames (.ofOption json)

theorem Evaluates.var {name : String} {json : Option Json}
    (h : Scope.lookupIn name frames = some (.ofOption json)) :
    Evaluates again frames (.var name) json := by
  rintro scope ⟨rfl, -, -⟩
  have hlookup : scope.lookup name = some (.ofOption json) := by
    rw [Scope.lookup, h]
  refine ⟨scope.loops, ?_⟩
  change Except.ok ((scope.lookup name).getD .undefined, scope) = _
  rw [hlookup]
  rfl

theorem Evaluates.attr {e : Expr} {json : Option Json} (h : Evaluates again frames e json)
    (name : String) : Evaluates again frames (.attr e name) (json.bind (·.get? name)) := by
  refine Leads.bind h ?_
  change Yields (Run.resolve (.ofOption json) >>= fun value => pure (value.attr name)) _ _
  rw [Value.resolve_ofOption, pure_bind, Value.attr_ofOption]
  exact .value _

theorem Evaluates.filter {name : String} {e : Expr} {json : Option Json} {result : Value}
    (h : Evaluates again frames e json)
    (hfilter : Filter.run name (.ofOption json) {} = .ok result) :
    Yields ((Expr.filter name e [] []).eval again) frames result := by
  refine Leads.bind h ?_
  change Yields (Run.resolve (.ofOption json) >>= fun value => liftM (Filter.run name value {})) _ _
  rw [Value.resolve_ofOption, pure_bind]
  exact .lift hfilter

theorem Evaluates.defined {e : Expr} {json : Option Json} (h : Evaluates again frames e json) :
    Evaluates again frames (.test "defined" e [] []) (some (.bool json.isSome)) := by
  refine Leads.bind h ?_
  change Yields (Run.resolve (.ofOption json) >>= fun value =>
    pure (Value.bool (!value.isUndefined))) _ _
  rw [Value.resolve_ofOption, pure_bind, Value.isUndefined_ofOption, Option.not_isNone]
  exact .value _

/-! ## Printing -/

theorem Yields.print {e : Expr} {value : Value} (h : Yields (e.eval again) frames value)
    (hresolve : Run.resolve value = pure value) :
    Yields ((Stmt.print e).exec again) frames value.text := by
  refine Leads.bind h ?_
  rintro ⟨_, _, _, _, _, _, _, _⟩ ⟨rfl, -, rfl⟩
  rw [Run.printed, hresolve, pure_bind]
  exact ⟨_, rfl⟩

theorem Yields.text (text : String) : Yields ((Stmt.text text).exec again) frames text :=
  .value text

theorem Evaluates.print {e : Expr} {text : String}
    (h : Evaluates again frames e (some (.str text))) :
    Yields ((Stmt.print e).exec again) frames text :=
  Yields.print h rfl

theorem Evaluates.printFiltered {name : String} {e : Expr} {json : Option Json} {text : String}
    {safe : Bool} (h : Evaluates again frames e json)
    (hfilter : Filter.run name (.ofOption json) {} = .ok (.str text safe)) :
    Yields ((Stmt.print (.filter name e [] [])).exec again) frames text :=
  Yields.print (h.filter hfilter) rfl

theorem Evaluates.choose {e : Expr} {condition : Bool} {yes no : List Stmt} {text : String}
    (h : Evaluates again frames e (some (.bool condition)))
    (hbranch : Yields (Stmt.execAll again (if condition then yes else no)) frames text) :
    Yields ((Stmt.choose e yes no).exec again) frames text := by
  refine Leads.bind h ?_
  cases condition <;> exact hbranch

theorem Yields.nil : Yields (Stmt.execAll again []) frames "" := .value ""

theorem Yields.cons {stmt : Stmt} {rest : List Stmt} {first later : String}
    (h : Yields (stmt.exec again) frames first)
    (hrest : Yields (Stmt.execAll again rest) frames later) :
    Yields (Stmt.execAll again (stmt :: rest)) frames (first ++ later) :=
  Leads.bind h (Leads.bind hrest (Yields.value _))

theorem Yields.append {stmts rest : List Stmt} {first later : String}
    (h : Yields (Stmt.execAll again stmts) frames first)
    (hrest : Yields (Stmt.execAll again rest) frames later) :
    Yields (Stmt.execAll again (stmts ++ rest)) frames (first ++ later) := by
  have happend : Stmt.execAll again (stmts ++ rest) = (do
      let first ← Stmt.execAll again stmts
      let later ← Stmt.execAll again rest
      return first ++ later) := by
    clear h
    induction stmts with
    | nil => simp only [List.nil_append, Stmt.execAll, pure_bind, String.empty_append, bind_pure]
    | cons stmt stmts ih =>
        simp only [List.cons_append, Stmt.execAll, ih, bind_assoc, pure_bind, String.append_assoc]
  rw [happend]
  exact Leads.bind h (Leads.bind hrest (Yields.value _))

theorem Yields.map {items : List β} {stmt : β → Stmt} {text : β → String}
    (h : ∀ x ∈ items, Yields ((stmt x).exec again) frames (text x)) :
    Yields (Stmt.execAll again (items.map stmt)) frames (String.join (items.map text)) := by
  induction items with
  | nil => exact .nil
  | cons x items ih =>
      rw [List.forall_mem_cons] at h
      rw [List.map_cons, List.map_cons, String.join_cons]
      exact .cons h.1 (ih h.2)

/-! ## Frames -/

theorem Leads.pushFrame {frame : Frame} (h : frames.length ≤ depthLimit) :
    Leads (Run.pushFrame frame) frames (frame :: frames) () := by
  rintro scope ⟨rfl, houter, -⟩
  have hdepth : ¬ depthLimit < scope.depth := by
    rw [Scope.depth, houter]
    omega
  refine ⟨scope.loops, ?_⟩
  rw [Run.pushFrame, StateT.run_bind, StateT.run_get, pure_bind, if_neg hdepth]
  rfl

theorem Leads.popFrame {frame : Frame} : Leads Run.popFrame (frame :: frames) frames () := by
  rintro ⟨_, _, _, _, _, _, _, _⟩ ⟨rfl, -, -⟩
  exact ⟨_, rfl⟩

theorem Yields.within {frame frame' : Frame} {run : Run α} {value : α}
    (hdepth : frames.length ≤ depthLimit)
    (h : Leads run (frame :: frames) (frame' :: frames) value) :
    Yields (Run.within frame run) frames value :=
  Leads.bind (.pushFrame hdepth) (Leads.bind h (Leads.bind .popFrame (Yields.value _)))

/-! ## Loops -/

/-- The frame of a loop with variables in it. -/
def loopFrame (vars : List (String × Value)) (place : Option Value) : Frame :=
  { vars := vars, loop := place, isLoop := true }

def Binds (again : Reentry) (target : Target) (item : Value) (before vars : List (String × Value)) :
    Prop :=
  ∀ place frames, Leads (target.store again item) (loopFrame before place :: frames)
    (loopFrame vars place :: frames) ()

theorem binds_var (name : String) (item : Value) (before : List (String × Value)) :
    Binds again (.var name) item before (assign name item before) := by
  rintro place frames ⟨_, _, _, _, _, _, _, _⟩ ⟨rfl, -, -⟩
  exact ⟨_, rfl⟩

theorem binds_pair (first second : String) (key value : Value)
    (before : List (String × Value)) :
    Binds again (.parts [.var first, .var second]) (.seq [key, value]) before
      (assign second value (assign first key before)) := by
  intro place frames
  refine Leads.bind (Yields.value (Value.seq [key, value])) ?_
  exact Leads.bind (binds_var first key before place frames)
    (Leads.bind (binds_var second value _ place frames) (Yields.value ()))

section Loop

variable {target : Target} {body : List Stmt} {item : β → Value}
  {vars : β → List (String × Value)} {text : β → String} {items : List β}

/-- Items that are stored and shown one after the other.  Between two items the frame holds the
variables of the first of them, and at the start it holds none. -/
theorem leads_runItems
    (hstore : ∀ x ∈ items, ∀ before, (before = [] ∨ ∃ y, before = vars y) →
      Binds again target (item x) before (vars x))
    (hbody : ∀ x ∈ items, ∀ place,
      Yields (Stmt.execAll again body) (loopFrame (vars x) place :: frames) (text x))
    (place : LoopPlace) (previous : Value) (done : String) {stored : List (String × Value)}
    (hstored : stored = [] ∨ ∃ y, stored = vars y) (current : Option Value) :
    ∃ frame, Leads (runItems (target.store again) (Stmt.execAll again body) place previous
      (items.map item) done) (loopFrame stored current :: frames) (frame :: frames)
        (done ++ String.join (items.map text)) := by
  induction items generalizing place previous done stored current with
  | nil =>
      refine ⟨loopFrame stored current, ?_⟩
      rw [List.map_nil, List.map_nil, String.join_nil, String.append_empty]
      exact Yields.value done
  | cons x items ih =>
      rw [List.forall_mem_cons] at hstore hbody
      obtain ⟨frame, hrest⟩ := ih hstore.2 hbody.2 { place with index := place.index + 1 } (item x)
        (done ++ text x) (.inr ⟨x, rfl⟩)
        (some (.loop place previous ((items.map item).head?.getD .undefined)))
      refine ⟨frame, ?_⟩
      rw [List.map_cons, List.map_cons, String.join_cons, ← String.append_assoc]
      refine Leads.bind (?hplace : Leads _ _ (loopFrame stored
        (some (.loop place previous ((items.map item).head?.getD .undefined))) :: frames) ())
        (Leads.bind (hstore.1 stored hstored _ frames) (Leads.bind (hbody.1 _) hrest))
      rintro ⟨_, _, _, _, _, _, _, _⟩ ⟨rfl, -, -⟩
      exact ⟨_, rfl⟩

theorem Yields.runLoop (hdepth : frames.length ≤ depthLimit)
    (hstore : ∀ x ∈ items, ∀ before, (before = [] ∨ ∃ y, before = vars y) →
      Binds again target (item x) before (vars x))
    (hbody : ∀ x ∈ items, ∀ place,
      Yields (Stmt.execAll again body) (loopFrame (vars x) place :: frames) (text x)) :
    Yields (runLoop none (target.store again) (Stmt.execAll again body) (items.map item)) frames
      (String.join (items.map text)) := by
  intro scope hscope
  -- What the loop says of itself depends on the scope, what it gives does not.
  have hrun (place : LoopPlace) : Yields (Run.within { isLoop := true } (runItems
      (target.store again) (Stmt.execAll again body) place .undefined (items.map item) ""))
      frames (String.join (items.map text)) := by
    obtain ⟨frame, hitems⟩ :=
      leads_runItems hstore hbody place .undefined "" (.inl rfl) none
    rw [String.empty_append] at hitems
    exact Yields.within hdepth hitems
  obtain ⟨loops, hloops⟩ := hrun _ { scope with loops := scope.loops + 1 }
    ⟨hscope.frames, hscope.outer, hscope.escaping⟩
  exact ⟨loops, hloops⟩

theorem Yields.loop {values : Expr} {value : Value} (hdepth : frames.length ≤ depthLimit)
    (hvalues : Yields (values.eval again) frames value)
    (hresolve : Run.resolve value = pure value) (hitems : value.items? = some (items.map item))
    (hstore : ∀ x ∈ items, ∀ before, (before = [] ∨ ∃ y, before = vars y) →
      Binds again target (item x) before (vars x))
    (hbody : ∀ x ∈ items, ∀ place,
      Yields (Stmt.execAll again body) (loopFrame (vars x) place :: frames) (text x)) :
    Yields ((Stmt.loop target values none false body []).exec again) frames
      (String.join (items.map text)) := by
  have hlist : Yields (Run.itemsOf value) frames (items.map item) := by
    rw [Run.itemsOf, hresolve, pure_bind, hitems]
    exact .value _
  refine Leads.bind hvalues (Leads.bind hlist (Leads.bind (Yields.value _)
    (Leads.bind (Yields.runLoop hdepth hstore hbody) ?_)))
  cases items with
  | nil => exact Yields.value ""
  | cons x rest => exact Yields.value _

end Loop

theorem Evaluates.loopTexts {values : Expr} {texts : List String} {name : String} {body : List Stmt}
    {text : String → String} (h : Evaluates again frames values (some (.arr (texts.map .str))))
    (hdepth : frames.length ≤ depthLimit)
    (hbody : ∀ x ∈ texts, ∀ place, Yields (Stmt.execAll again body)
      (loopFrame [(name, .ofOption (some (.str x)))] place :: frames) (text x)) :
    Yields ((Stmt.loop (.var name) values none false body []).exec again) frames
      (String.join (texts.map text)) := by
  have hitems : (Value.ofOption (some (.arr (texts.map .str)))).items? =
      some (texts.map fun x => .str x false) := by
    change some (Value.ofItems (texts.map .str)) = _
    rw [Value.ofItems_eq_map, List.map_map]
    rfl
  refine Yields.loop hdepth h (Value.resolve_ofOption _) hitems (fun x _ before hbefore => ?_) hbody
  have hassign : assign name (.ofOption (some (.str x))) before =
      [(name, .ofOption (some (.str x)))] := by
    rcases hbefore with rfl | ⟨y, rfl⟩ <;> simp [assign]
  rw [← hassign]
  exact binds_var name _ before

def entryFrame (first second key : String) (json : Json) (place : Option Value) : Frame :=
  loopFrame [(first, .ofOption (some (.str key))), (second, .ofOption (some json))] place

theorem Evaluates.loopEntries {values : Expr} {entries : List (String × α)} {json : α → Json}
    {first second : String} {body : List Stmt} {text : String → α → String}
    (hnames : first ≠ second)
    (h : Evaluates again frames values (some (.obj (entries.map fun entry =>
      (entry.1, json entry.2)))))
    (hdepth : frames.length ≤ depthLimit)
    (hbody : ∀ entry ∈ entries, ∀ place, Yields (Stmt.execAll again body)
      (entryFrame first second entry.1 (json entry.2) place :: frames) (text entry.1 entry.2)) :
    Yields ((Stmt.loop (.parts [.var first, .var second]) (.filter "items" values [] []) none false
      body []).exec again) frames
      (String.join (entries.map fun entry => text entry.1 entry.2)) := by
  have hfilter : Filter.run "items" (.ofOption (some (.obj (entries.map fun entry =>
      (entry.1, json entry.2))))) {} =
        .ok (.seq (entries.map fun entry =>
          .seq [.str entry.1 false, .ofJson (json entry.2)])) := by
    change Except.ok (Value.seq ((Value.ofFields _).map fun entry => .seq [entry.1, entry.2])) = _
    rw [Value.ofFields_eq_map, List.map_map, List.map_map]
    rfl
  refine Yields.loop hdepth (h.filter hfilter) rfl rfl (fun entry _ before hbefore => ?_) hbody
  have hassign : assign second (.ofOption (some (json entry.2)))
      (assign first (.ofOption (some (.str entry.1))) before) =
        [(first, .ofOption (some (.str entry.1))), (second, .ofOption (some (json entry.2)))] := by
    rcases hbefore with rfl | ⟨y, rfl⟩ <;> simp [assign, hnames]
  rw [← hassign]
  exact binds_pair first second _ _ before

end

end RpcContract.Template
