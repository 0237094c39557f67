import Mathlib.Data.Finset.Card
import Mathlib.Data.List.DropRight
import RpcContract.Proofs.Data.Dict
import RpcContract.Proofs.Data.Except
import RpcContract.Proofs.Json.Unambiguous
import RpcContract.Validation.ModelCache

/-!
# Checks with a cache and without

The handles of one cache share what it holds.  After any uses of them the cache holds what has been
compiled since it was cleared, each model under the digest of its text, so that a check is answered
as if its model were compiled anew.
-/

namespace RpcContract.ModelCache

/-! ## Handles -/

/-- Handles on what one cache holds, each with its own setting. -/
structure Shared where
  compiled : Dict JsonSchema.Model := ∅
  settings : List Bool
deriving DecidableEq, Repr

/-- What is done by a handle; handles are numbered from the first one on. -/
inductive Use where
  | check (handle : Nat) (data model : Json) (info : CheckInfo)
  | clear (handle : Nat)
  | clone (handle : Nat)
deriving DecidableEq, Repr

namespace Use

def handle : Use → Nat
  | .check handle _ _ _ | .clear handle | .clone handle => handle

def isClear : Use → Bool
  | .clear _ => true
  | .check _ _ _ _ | .clone _ => false

def isClone : Use → Bool
  | .clone _ => true
  | .check _ _ _ _ | .clear _ => false

def model? : Use → Option Json
  | .check _ _ model _ => some model
  | .clear _ | .clone _ => none

/-- What a check answers that compiles its model anew. -/
def answer? : Use → Option (Except HttpError Unit)
  | .check _ data model info => some (SchemaCheck.check data model info)
  | .clear _ | .clone _ => none

end Use

namespace Shared

def start (enabled : Bool) : Shared := { settings := [enabled] }

def size (shared : Shared) : Nat := shared.compiled.size

def seenBy (shared : Shared) (enabled : Bool) : ModelCache := ⟨enabled, shared.compiled⟩

def use (digest : String → String) (shared : Shared) (use : Use) :
    Option (Except HttpError Unit) × Shared :=
  match shared.settings[use.handle]? with
  | none => (none, shared)
  | some enabled =>
      match use with
      | .check _ data model info =>
          let (answer, cache) := (shared.seenBy enabled).check data model info digest
          (some answer, { shared with compiled := cache.compiled })
      | .clear _ => (none, { shared with compiled := (shared.seenBy enabled).clear.compiled })
      | .clone _ => (none, { shared with settings := shared.settings ++ [enabled] })

def after (digest : String → String) (shared : Shared) (uses : List Use) : Shared :=
  uses.foldl (fun shared use => (shared.use digest use).2) shared

end Shared

/-! ## Histories -/

/-- Every use is by a handle that is there, where there are so many at the start. -/
def Available (handles : Nat) : List Use → Prop
  | [] => True
  | use :: rest =>
      use.handle < handles ∧ Available (if use.isClone then handles + 1 else handles) rest

/-- The models that have been compiled since the cache was cleared. -/
def compiledModels (uses : List Use) : List Json :=
  ((uses.rtakeWhile fun use => !use.isClear).filterMap Use.model?).filter fun model =>
    (SchemaCheck.compile model).isOk

/-- How many different models have been compiled, by their texts. -/
def compiledCount (uses : List Use) : Nat :=
  ((compiledModels uses).map Json.compact).toFinset.card

/-! ## One check -/

section Check

variable {digest : String → String} {cache : ModelCache} {model : Json}

/-- What is held under the digest of a model is what it is compiled to. -/
def Knows (digest : String → String) (cache : ModelCache) (model : Json) : Prop :=
  ∀ compiled, cache.compiled.get? (digest model.compact) = some compiled →
    SchemaCheck.compile model = .ok compiled

theorem fst_compile (h : cache.Knows digest model) :
    (cache.compile model digest).1 = SchemaCheck.compile model := by
  rw [compile]
  split
  · dsimp only
    split
    · next compiled hget => exact (h compiled hget).symm
    · split <;> simp_all
  · rfl

theorem get?_compile (h : cache.Knows digest model) (key : String) :
    (cache.compile model digest).2.compiled.get? key =
      if cache.enabled ∧ digest model.compact = key then (SchemaCheck.compile model).toOption
      else cache.compiled.get? key := by
  rw [compile]
  by_cases henabled : cache.enabled = true
  · rw [if_pos henabled]
    dsimp only
    split
    · next compiled hget =>
        split
        · next hkey => rw [← hkey.2, hget, h compiled hget]; rfl
        · rfl
    · next hget =>
        split
        · next compiled hcompile => simp [henabled, hcompile, Except.toOption]
        · next e hcompile =>
            split
            · next hkey => rw [← hkey.2, hget, hcompile]; rfl
            · rfl
  · rw [if_neg henabled, if_neg fun hkey => henabled hkey.1]

theorem check_eq (h : cache.Knows digest model) (data : Json) (info : CheckInfo) :
    cache.check data model info digest =
      (SchemaCheck.check data model info, (cache.compile model digest).2) := by
  have hfirst := fst_compile h
  unfold check SchemaCheck.check
  rcases hcompiled : cache.compile model digest with ⟨answer, later⟩
  rw [hcompiled] at hfirst
  rw [← hfirst]
  cases answer <;> rfl

end Check

/-! ## Models that have been compiled -/

section CompiledModels

variable {past : List Use} {use : Use} {model : Json}

theorem compiledModels_clear (h : use.isClear = true) : compiledModels (past ++ [use]) = [] := by
  rw [compiledModels, List.rtakeWhile_concat_neg _ _ _ (by simp [h])]
  rfl

theorem mem_compiledModels (h : use.isClear = false) : model ∈ compiledModels (past ++ [use]) ↔
    model ∈ compiledModels past ∨
      use.model? = some model ∧ (SchemaCheck.compile model).isOk = true := by
  have hlast : (past ++ [use]).rtakeWhile (fun use => !use.isClear) =
      past.rtakeWhile (fun use => !use.isClear) ++ [use] :=
    List.rtakeWhile_concat_pos _ _ _ (by simp [h])
  rw [compiledModels, hlast, List.filterMap_append, List.filter_append, List.mem_append]
  simp only [List.mem_filter, List.mem_filterMap, List.mem_singleton, exists_eq_left]
  rw [compiledModels, List.mem_filter, List.mem_filterMap]

theorem isOk_of_mem (h : model ∈ compiledModels past) :
    ∃ compiled, SchemaCheck.compile model = .ok compiled := by
  have hok := List.of_mem_filter h
  cases hcompile : SchemaCheck.compile model with
  | error e =>
      rw [hcompile] at hok
      cases hok
  | ok compiled => exact ⟨compiled, rfl⟩

def askedModels (uses : List Use) : List Json := uses.filterMap Use.model?

theorem askedModels_append (uses later : List Use) :
    askedModels (uses ++ later) = askedModels uses ++ askedModels later := List.filterMap_append

theorem mem_askedModels (h : model ∈ compiledModels past) : model ∈ askedModels past := by
  have hsuffix := List.rtakeWhile_suffix (fun use : Use => !use.isClear) past
  exact (hsuffix.sublist.filterMap _).subset (List.mem_of_mem_filter h)

end CompiledModels

/-! ## Uses -/

/-- Models with one digest are one model. -/
def Tells (digest : String → String) (models : List Json) : Prop :=
  ∀ a ∈ models, ∀ b ∈ models, digest a.compact = digest b.compact → a = b

/-- What a cache holds after uses by handles of one setting. -/
structure Holds (digest : String → String) (enabled : Bool) (past : List Use) (shared : Shared) :
    Prop where
  settings : ∀ setting ∈ shared.settings, setting = enabled
  handles : shared.settings.length = past.countP Use.isClone + 1
  compiled : ∀ key compiled, shared.compiled.get? key = some compiled ↔ enabled = true ∧
    ∃ model ∈ compiledModels past, digest model.compact = key ∧
      SchemaCheck.compile model = .ok compiled

namespace Holds

variable {digest : String → String} {enabled : Bool} {past : List Use} {shared : Shared}
  {use : Use} {models : List Json}

theorem start : Holds digest enabled [] (.start enabled) where
  settings _ h := List.mem_singleton.mp h
  handles := rfl
  compiled key compiled := by
    constructor
    · intro h
      cases h
    · rintro ⟨-, model, hmodel, -⟩
      cases hmodel

theorem knows (h : Holds digest enabled past shared) (htells : Tells digest models)
    (hmodels : askedModels past ⊆ models) {model : Json} (hmodel : model ∈ models) :
    (shared.seenBy enabled).Knows digest model := by
  intro compiled hget
  obtain ⟨-, other, hother, hdigest, hcompile⟩ := (h.compiled _ _).mp hget
  exact htells other (hmodels (mem_askedModels hother)) model hmodel hdigest ▸ hcompile

/-- A check adds its model if it compiles.  A model of the same digest is this one, so that nothing
else is replaced. -/
theorem compiled_check (htells : Tells digest models) (h : Holds digest enabled past shared)
    (hpast : askedModels past ⊆ models) {model : Json} (hmodel : model ∈ models)
    (hclear : use.isClear = false) (huse : use.model? = some model) (key : String)
    (compiled : JsonSchema.Model) :
    ((shared.seenBy enabled).compile model digest).2.compiled.get? key = some compiled ↔
      enabled = true ∧ ∃ other ∈ compiledModels (past ++ [use]), digest other.compact = key ∧
        SchemaCheck.compile other = .ok compiled := by
  rw [get?_compile (h.knows htells hpast hmodel)]
  simp only [mem_compiledModels hclear, huse, Option.some.injEq]
  split
  · next hkey =>
      rw [toOption_eq_some_iff]
      constructor
      · intro hcompile
        exact ⟨hkey.1, model, .inr ⟨rfl, by rw [hcompile]; rfl⟩, hkey.2, hcompile⟩
      · rintro ⟨-, other, hother | ⟨rfl, -⟩, hdigest, hcompile⟩
        · have hsame : other = model := htells other (hpast (mem_askedModels hother)) model
            hmodel (hdigest.trans hkey.2.symm)
          exact hsame ▸ hcompile
        · exact hcompile
  · next hkey =>
      refine (h.compiled key compiled).trans (and_congr_right fun henabled => ?_)
      constructor
      · rintro ⟨other, hother, hcompile⟩
        exact ⟨other, .inl hother, hcompile⟩
      · rintro ⟨other, hother | ⟨rfl, -⟩, hdigest, hcompile⟩
        · exact ⟨other, hother, hdigest, hcompile⟩
        · exact absurd ⟨henabled, hdigest⟩ hkey

/-- A check is answered as if its model were compiled anew, and any use leaves what is held as it
has to be. -/
theorem step (htells : Tells digest models) (h : Holds digest enabled past shared)
    (hhandle : use.handle < shared.settings.length)
    (hmodels : askedModels (past ++ [use]) ⊆ models) :
    (shared.use digest use).1 = use.answer? ∧
      Holds digest enabled (past ++ [use]) (shared.use digest use).2 := by
  rw [askedModels_append, List.append_subset] at hmodels
  obtain ⟨hpast, hlast⟩ := hmodels
  have hsetting : shared.settings[use.handle]? = some enabled := by
    rw [List.getElem?_eq_getElem hhandle, h.settings _ (List.getElem_mem _)]
  cases use with
  | check handle data model info =>
      have hmodel : model ∈ models := hlast (.head _)
      simp only [Shared.use, hsetting, check_eq (h.knows htells hpast hmodel)]
      exact ⟨rfl, h.settings, by simp [h.handles, Use.isClone],
        h.compiled_check htells hpast hmodel rfl rfl⟩
  | clear handle =>
      simp only [Shared.use, hsetting]
      refine ⟨rfl, h.settings, by simp [h.handles, Use.isClone], fun key compiled => ?_⟩
      rw [compiledModels_clear rfl]
      simp [clear]
  | clone handle =>
      have hsame (model : Json) : model ∈ compiledModels (past ++ [.clone handle]) ↔
          model ∈ compiledModels past := (mem_compiledModels rfl).trans (by simp [Use.model?])
      simp only [Shared.use, hsetting]
      refine ⟨rfl, ?_, by simp [h.handles, Use.isClone], fun key compiled => ?_⟩
      · intro setting hmem
        rcases List.mem_append.mp hmem with hold | hnew
        · exact h.settings setting hold
        · exact List.mem_singleton.mp hnew
      · simp only [h.compiled, hsame]

theorem size_eq (htells : Tells digest models) (h : Holds digest enabled past shared)
    (hmodels : askedModels past ⊆ models) :
    shared.size = if enabled then compiledCount past else 0 := by
  have hsize : shared.size = shared.compiled.keys.toFinset.card := by
    rw [List.toFinset_card_of_nodup shared.compiled.keys_nodup, Shared.size, Dict.size, Dict.keys,
      List.length_map]
  rw [hsize]
  cases enabled with
  | false =>
      have hnone : shared.compiled.keys = [] := by
        refine List.eq_nil_iff_forall_not_mem.mpr fun key hkey => ?_
        obtain ⟨compiled, hget⟩ := Dict.mem_keys_iff.mp hkey
        cases ((h.compiled key compiled).mp hget).1
      rw [hnone]
      rfl
  | true =>
      have himage : shared.compiled.keys.toFinset =
          ((compiledModels past).map Json.compact).toFinset.image digest := by
        ext key
        simp only [List.mem_toFinset, Dict.mem_keys_iff, h.compiled, true_and, Finset.mem_image,
          List.mem_map, exists_exists_and_eq_and]
        constructor
        · rintro ⟨compiled, model, hmodel, hdigest, -⟩
          exact ⟨model, hmodel, hdigest⟩
        · rintro ⟨model, hmodel, hdigest⟩
          obtain ⟨compiled, hcompile⟩ := isOk_of_mem hmodel
          exact ⟨compiled, model, hmodel, hdigest, hcompile⟩
      rw [himage, if_pos rfl, compiledCount]
      refine Finset.card_image_of_injOn fun text htext other hother heq => ?_
      simp only [Finset.mem_coe, List.mem_toFinset, List.mem_map] at htext hother
      obtain ⟨a, ha, rfl⟩ := htext
      obtain ⟨b, hb, rfl⟩ := hother
      exact congrArg Json.compact (htells a (hmodels (mem_askedModels ha)) b
        (hmodels (mem_askedModels hb)) heq)

theorem after {later rest : List Use} (htells : Tells digest models)
    (h : Holds digest enabled past shared)
    (hhandles : Available shared.settings.length (later ++ rest))
    (hmodels : askedModels (past ++ later) ⊆ models) :
    Holds digest enabled (past ++ later) (shared.after digest later) ∧
      Available (shared.after digest later).settings.length rest := by
  induction later generalizing past shared with
  | nil =>
      rw [List.append_nil]
      exact ⟨h, hhandles⟩
  | cons use later ih =>
      obtain ⟨hhandle, hlater⟩ := hhandles
      rw [List.append_cons] at hmodels
      have hasked : askedModels (past ++ [use]) ⊆ models := by
        rw [askedModels_append, List.append_subset] at hmodels
        exact hmodels.1
      have hstep := (h.step htells hhandle hasked).2
      have hlength : (shared.use digest use).2.settings.length =
          if use.isClone then shared.settings.length + 1 else shared.settings.length := by
        rw [hstep.handles, h.handles, List.countP_append, List.countP_singleton]
        split <;> omega
      rw [← hlength] at hlater
      have hrest := ih hstep hlater hmodels
      rw [← List.append_cons] at hrest
      exact hrest

end Holds

/-! ## Whole histories -/

/-- Models whose texts have one digest have one text. -/
def Separates (digest : String → String) (models : List Json) : Prop :=
  ∀ a ∈ models, ∀ b ∈ models, digest a.compact = digest b.compact → a.compact = b.compact

theorem Separates.tells {digest : String → String} {models : List Json}
    (h : Separates digest models) (hfinite : ∀ model ∈ models, model.Finite) :
    Tells digest models := fun a ha b hb hdigest =>
  Json.compact_inj (hfinite a ha) (hfinite b hb) (h a ha b hb hdigest)

/-- Wherever a sequence of uses has come to, the next one is answered as by handles whose cache is
switched off, and the cache then holds the models that have been compiled since it was cleared. -/
theorem uses_unseen (digest : String → String) (enabled : Bool) (uses : List Use)
    (hhandles : Available 1 uses) (hfinite : ∀ model ∈ askedModels uses, model.Finite)
    (hdigest : Separates digest (askedModels uses)) :
    ∀ past use later, uses = past ++ use :: later →
      let cached := ((Shared.start enabled).after digest past).use digest use
      let anew := ((Shared.start false).after digest past).use digest use
      cached.1 = anew.1 ∧ cached.1 = use.answer? ∧
      cached.2.size = (if enabled then compiledCount (past ++ [use]) else 0) ∧
      ∀ key compiled, cached.2.compiled.get? key = some compiled ↔ enabled = true ∧
        ∃ model ∈ compiledModels (past ++ [use]), digest model.compact = key ∧
          SchemaCheck.compile model = .ok compiled := by
  rintro past use later rfl cached anew
  have htells := hdigest.tells hfinite
  have hmodels : askedModels (past ++ [use]) ⊆ askedModels (past ++ use :: later) := by
    rw [List.append_cons past use later, askedModels_append (past ++ [use])]
    exact List.subset_append_left _ _
  have hpast : askedModels past ⊆ askedModels (past ++ use :: later) := by
    rw [askedModels_append]
    exact List.subset_append_left _ _
  have hrun (enabled : Bool) :
      (((Shared.start enabled).after digest past).use digest use).1 = use.answer? ∧
        Holds digest enabled (past ++ [use])
          (((Shared.start enabled).after digest past).use digest use).2 := by
    obtain ⟨hholds, hrest⟩ := Holds.start.after htells hhandles hpast
    exact hholds.step htells hrest.1 hmodels
  obtain ⟨hcached, hholds⟩ := hrun enabled
  exact ⟨hcached.trans (hrun false).1.symm, hcached, hholds.size_eq htells hmodels,
    hholds.compiled⟩

/-- A model of a type; no type has a number for its name. -/
def typeModel (type : Json) : Json :=
  .obj [("$schema", .str "http://json-schema.org/draft-04/schema#"), ("type", type)]

def typeDigest (text : String) : String :=
  if text = (typeModel (.str "string")).compact then
    "3ef4be03105ec3b6556b59a560c6b0500e288c10631443f68ecb626948497659"
  else if text = (typeModel (.int 1)).compact then
    "5f5094715897511b273c320c67c51d274184e52f862c4aac06a86465b5977438"
  else ""

/-- A model is used by two handles, and one that does not compile stands between. -/
def typeUses : List Use :=
  let info : CheckInfo := { part := .body, request := { method := .post, url := "/api" } }
  [.check 0 (.str "a") (typeModel (.str "string")) info, .clone 0,
    .check 1 (.int 1) (typeModel (.int 1)) info]

def typeUse : Use :=
  .check 1 (.str "b") (typeModel (.str "string"))
    { part := .query, request := { method := .get, url := "/api" } }

theorem uses_unseen_type :
    let uses := typeUses ++ [typeUse]
    let last := ((Shared.start true).after typeDigest typeUses).use typeDigest typeUse
    Available 1 uses ∧ (∀ model ∈ askedModels uses, model.Finite) ∧
      Separates typeDigest (askedModels uses) ∧ last.1 = some (.ok ()) ∧ last.2.size = 1 := by
  intro uses last
  have hhandles : Available 1 uses := by
    simp [uses, typeUses, typeUse, Available, Use.handle, Use.isClone]
  have hmodel (type : Json) (h : type.Finite) : (typeModel type).Finite := ⟨trivial, h, trivial⟩
  have hfinite : ∀ model ∈ askedModels uses, model.Finite :=
    List.forall_mem_cons.mpr ⟨hmodel _ trivial, List.forall_mem_cons.mpr ⟨hmodel _ trivial,
      List.forall_mem_singleton.mpr (hmodel _ trivial)⟩⟩
  have hdigest : Separates typeDigest (askedModels uses) := by
    unfold Separates
    decide +kernel
  have haccepted : typeUse.answer? = some (.ok ()) := by decide +kernel
  have hcount : compiledCount uses = 1 := by decide +kernel
  obtain ⟨-, hanswer, hsize, -⟩ :=
    uses_unseen typeDigest true uses hhandles hfinite hdigest typeUses typeUse [] rfl
  rw [if_pos rfl] at hsize
  exact ⟨hhandles, hfinite, hdigest, hanswer.trans haccepted, hsize.trans hcount⟩

end RpcContract.ModelCache
