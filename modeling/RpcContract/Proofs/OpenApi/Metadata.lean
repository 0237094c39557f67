import Mathlib.Data.List.Dedup
import Std.Data.String.ToNat
import RpcContract.OpenApi.ErrorResponse
import RpcContract.Proofs.Json.Merge

/-!
# Metadata that grows

What is merged over the metadata of a handler is there afterwards, and all that it does not reach
stays.  The messages that are documented for a status gather in its response, each once and the
newest first, whatever else is merged in between.
-/

namespace RpcContract

open Json

/-! ## Merging -/

namespace HandlerSpec

variable {handler : HandlerSpec} {path : List String} {value : Json}

theorem openapi_mergeOpenapi {base : Json} (h : handler.openapi = some base) (extra : Json) :
    (handler.mergeOpenapi extra).openapi = some (base.merge extra) := by
  rw [mergeOpenapi, h]

/-- What holds of new metadata, by itself and over the old, holds of what the handler has then. -/
theorem of_openapi_mergeOpenapi (holds : Json → Prop) {extra : Json} (hnew : holds extra)
    (hmerged : ∀ base, handler.openapi = some base → holds (base.merge extra)) {value : Json}
    (h : (handler.mergeOpenapi extra).openapi = some value) : holds value := by
  cases hbase : handler.openapi with
  | none =>
      rw [mergeOpenapi, hbase] at h
      cases h
      exact hnew
  | some base =>
      rw [openapi_mergeOpenapi hbase] at h
      cases h
      exact hmerged base hbase

theorem openapi_foldl_mergeOpenapi {extras : List Json}
    (h : handler.openapi.bind (descend? path) = some value)
    (hextras : ∀ extra ∈ extras, extra.KeyOrdered ∧ extra.Spares path) :
    (extras.foldl mergeOpenapi handler).openapi.bind (descend? path) = some value := by
  induction extras generalizing handler with
  | nil => exact h
  | cons extra rest ih =>
      obtain ⟨hextra, hrest⟩ := List.forall_mem_cons.mp hextras
      obtain ⟨base, hbase, hpath⟩ := Option.bind_eq_some_iff.mp h
      refine ih ?_ hrest
      rw [openapi_mergeOpenapi hbase]
      exact descend?_merge_of_spares hextra.1 hpath hextra.2

end HandlerSpec

/-- Of three values in key order: what is no object stands in the merge where it stood in the second
value; what the second value does not reach keeps its value; no path appears that neither has; a
second merge of the same value changes nothing; and the order in which three values are merged does
not matter where no value between two objects is anything else.  So what a handler documents keeps
its value through all metadata that does not reach it. -/
theorem merge_lawful {a b c : Json} (ha : a.KeyOrdered) (hb : b.KeyOrdered) (hc : c.KeyOrdered) :
    (∀ path value, b.follow? path = some value → value.isObject = false →
      (a.merge b).follow? path = some value) ∧
    (∀ path value, a.descend? path = some value → b.Spares path →
      (a.merge b).descend? path = some value) ∧
    (∀ path, ((a.merge b).descend? path).isSome = true →
      (a.descend? path).isSome = true ∨ (b.descend? path).isSome = true) ∧
    (a.merge b).merge b = a.merge b ∧
    (Bridges b a c → (a.merge b).merge c = a.merge (b.merge c)) ∧
    ∀ (handler : HandlerSpec) (extras : List Json) path value,
      handler.openapi.bind (descend? path) = some value →
      (∀ extra ∈ extras, extra.KeyOrdered ∧ extra.Spares path) →
        (extras.foldl HandlerSpec.mergeOpenapi handler).openapi.bind (descend? path) =
          some value := by
  refine ⟨fun _ _ h hleaf => follow?_merge hb h hleaf,
    fun _ _ h hspares => descend?_merge_of_spares hb h hspares,
    fun _ h => isSome_descend?_of_merge hb h, merge_merge_self ha hb, merge_assoc ha hb hc,
    fun _ _ _ _ h hextras => HandlerSpec.openapi_foldl_mergeOpenapi h hextras⟩

/-! Metadata with a summary, over which tags and versions are merged. -/

def summarized : Json :=
  .obj [("info", .obj [("summary", .str "Users")]), ("tags", .arr [.str "users"])]

def retagged : Json := .obj [("info", .obj [("version", .int 1)]), ("tags", .arr [.str "admin"])]

def revised : Json := .obj [("info", .obj [("version", .int 2)])]

theorem merge_lawful_revised :
    (summarized.merge retagged).follow? ["tags", "0"] = some (.str "admin") ∧
    (summarized.merge retagged).descend? ["info", "summary"] = some (.str "Users") ∧
    (retagged.descend? ["info", "version"]).isSome = true ∧
    (summarized.merge retagged).merge retagged = summarized.merge retagged ∧
    (summarized.merge retagged).merge revised = summarized.merge (retagged.merge revised) ∧
    ([retagged, revised].foldl HandlerSpec.mergeOpenapi
      { method := .get, path := "users", openapi := some summarized }).openapi.bind
        (descend? ["info", "summary"]) = some (.str "Users") := by
  have hone (key : String) (value : Json) (h : value.KeyOrdered) :
      (Json.obj [(key, value)]).KeyOrdered :=
    .of_fields (List.pairwise_singleton _ _) (by simpa using h)
  have htwo (info tags : Json) (h : info.KeyOrdered) (htags : tags.KeyOrdered) :
      (Json.obj [("info", info), ("tags", tags)]).KeyOrdered :=
    .of_fields (List.pairwise_pair.mpr (show "info" < "tags" by decide))
      (by simpa using ⟨h, htags⟩)
  have ha : summarized.KeyOrdered := htwo _ _ (hone _ _ (.leaf rfl)) (.leaf rfl)
  have hb : retagged.KeyOrdered := htwo _ _ (hone _ _ (.leaf rfl)) (.leaf rfl)
  have hc : revised.KeyOrdered := hone _ _ (hone _ _ (.leaf rfl))
  have hretagged : retagged.Spares ["info", "summary"] := by
    simp [spares_cons_iff, not_spares_nil, retagged, Json.get?, lookupEntry, isObject]
  have hrevised : revised.Spares ["info", "summary"] := by
    simp [spares_cons_iff, not_spares_nil, revised, Json.get?, lookupEntry, isObject]
  have hbridges : Bridges retagged summarized revised := by
    refine bridges_iff.mpr ⟨fun _ _ => rfl, fun key x y z hx hy hz => ?_⟩
    obtain ⟨rfl, rfl⟩ : "info" = key ∧ .obj [("version", .int 2)] = z := by
      simpa [revised, Json.get?, lookupEntry] using hz
    cases hx
    cases hy
    -- Below, the summary and the version stand under different keys.
    refine bridges_iff.mpr ⟨fun _ _ => rfl, fun key x y z hx _ hz => ?_⟩
    obtain ⟨rfl, -⟩ : "summary" = key ∧ _ := by simpa [Json.get?, lookupEntry] using hx
    cases hz
  obtain ⟨hnew, hold, honly, htwice, hassoc, hkept⟩ := merge_lawful ha hb hc
  refine ⟨hnew _ _ rfl rfl, hold _ _ rfl hretagged, ?_, htwice, hassoc hbridges,
    hkept _ _ _ _ rfl (by simp [hb, hc, hretagged, hrevised])⟩
  exact (honly ["info", "version"] rfl).resolve_left (by decide)

/-! ## Responses -/

namespace OpenApi

variable {status other : Nat} {message : String} {openapi : Option Json} {key : String}

def response? (status : Nat) (openapi : Option Json) : Option Json :=
  openapi.bind (descend? ["responses", toString status])

def known (status : Nat) (openapi : Option Json) : List Json :=
  (openapi.map (messages status)).getD []

theorem lookupEntry_fieldsOf (key : String) (value : Option Json) :
    lookupEntry key (fieldsOf value) = value.bind (Json.get? key) := by
  cases value with
  | none => rfl
  | some value => cases value <;> rfl

theorem get?_addErrorResponse (key : String) :
    (addErrorResponse status message openapi).get? key =
      if "responses" = key then
        some (.obj (insertEntry (toString status)
          (response status (newestFirst (.str message) (known status openapi)))
          (fieldsOf (openapi.bind (Json.get? "responses")))))
      else openapi.bind (Json.get? key) := by
  rw [addErrorResponse, Json.get?, lookupEntry_insertEntry, lookupEntry_fieldsOf,
    lookupEntry_fieldsOf]
  rfl

theorem response?_eq (status : Nat) (openapi : Option Json) : response? status openapi =
    (openapi.bind (Json.get? "responses")).bind (Json.get? (toString status)) := by
  cases openapi <;> simp [response?, descend?_singleton]

/-- A new message changes the response of its own status. -/
theorem response?_addErrorResponse :
    response? other (some (addErrorResponse status message openapi)) =
      if status = other then
        some (response status (newestFirst (.str message) (known status openapi)))
      else response? other openapi := by
  rw [response?_eq, Option.bind_some, get?_addErrorResponse, if_pos rfl, Option.bind_some,
    Json.get?, lookupEntry_insertEntry, lookupEntry_fieldsOf, ← response?_eq]
  by_cases h : status = other
  · rw [if_pos h, if_pos (congrArg toString h)]
  · have htext : toString status ≠ toString other := fun heq => h (Nat.repr_injective heq)
    rw [if_neg h, if_neg htext]

theorem follow?_response (status : Nat) (messages : List Json) :
    (response status messages).follow? ["content", "application/json", "schema", "allOf", "1",
      "properties", "message", "enum"] = some (.arr messages) := by
  have hentries (d : Dict Json) (key : String) (path : List String) :
      (Json.obj d.entries).follow? (key :: path) = (d.get? key).bind (follow? path) := rfl
  have hitems (items : List Json) (key : String) (path : List String) :
      (Json.arr items).follow? (key :: path) =
        ((position? key).bind (items[·]?)).bind (follow? path) := rfl
  have hone : position? "1" = some 1 := by decide
  simp [response, ofEntries, Dict.ofList, hentries, hitems, hone]

theorem follow?_messagesPath {messages : List Json}
    (h : response? status openapi = some (response status messages)) :
    openapi.bind (follow? (messagesPath status)) = some (.arr messages) := by
  obtain ⟨value, hvalue, hpath⟩ := Option.bind_eq_some_iff.mp h
  rw [hvalue, Option.bind_some]
  exact (follow?_append_of_descend? hpath).trans (follow?_response status messages)

/-! ## One more message -/

/-- The entries of a list that are like none of those before them, nor like any of `before`. -/
def fresh (before : List Json) : List Json → List Json
  | [] => []
  | entry :: rest =>
      if before.any (·.sameValue entry) then fresh before rest
      else entry :: fresh (before ++ [entry]) rest

theorem newestFirst_eq (message : Json) (previous : List Json) :
    newestFirst message previous = message :: fresh [message] previous := by
  have hfold (before : List Json) : previous.foldl
      (fun kept old => if kept.any (·.sameValue old) then kept else kept ++ [old]) before =
        before ++ fresh before previous := by
    induction previous generalizing before with
    | nil => simp [fresh]
    | cons entry rest ih =>
        rw [List.foldl_cons, ih, fresh]
        split <;> simp
  exact hfold [message]

section Fresh

variable (before entries : List Json)

theorem fresh_sublist : (fresh before entries).Sublist entries := by
  induction entries generalizing before with
  | nil => exact .slnil
  | cons entry rest ih =>
      rw [fresh]
      split
      · exact (ih before).cons entry
      · exact (ih _).cons_cons entry

theorem pairwise_fresh (h : before.Pairwise fun x y => x.sameValue y = false) :
    (before ++ fresh before entries).Pairwise fun x y => x.sameValue y = false := by
  induction entries generalizing before with
  | nil => simpa [fresh] using h
  | cons entry rest ih =>
      rw [fresh]
      split
      · exact ih before h
      · next hnew =>
          have hdiffer : ∀ x ∈ before, x.sameValue entry = false := by simpa using hnew
          have hone := ih (before ++ [entry])
            (List.pairwise_append.mpr ⟨h, List.pairwise_singleton _ _, by simpa using hdiffer⟩)
          simpa using hone

variable {entries}

theorem exists_mem_fresh {entry : Json} (h : entry ∈ entries) :
    ∃ kept ∈ before ++ fresh before entries, kept = entry ∨ kept.sameValue entry = true := by
  induction entries generalizing before with
  | nil => cases h
  | cons first rest ih =>
      rw [fresh]
      split
      · next hold =>
          rcases List.mem_cons.mp h with rfl | hrest
          · obtain ⟨kept, hkept, hsame⟩ := List.any_eq_true.mp hold
            exact ⟨kept, List.mem_append_left _ hkept, .inr hsame⟩
          · exact ih before hrest
      · rcases List.mem_cons.mp h with rfl | hrest
        · exact ⟨entry, by simp, .inl rfl⟩
        · obtain ⟨kept, hkept, hsame⟩ := ih (before ++ [first]) hrest
          exact ⟨kept, by simpa using hkept, hsame⟩

end Fresh

theorem fresh_texts (before : List String) {texts : List String} (h : texts.Nodup) :
    fresh (before.map .str) (texts.map .str) = (texts.filter (· ∉ before)).map .str := by
  induction texts generalizing before with
  | nil => rfl
  | cons text rest ih =>
      obtain ⟨hfirst, hrest⟩ := List.nodup_cons.mp h
      have hany : (before.map Json.str).any (·.sameValue (.str text)) = decide (text ∈ before) := by
        rw [Bool.eq_iff_iff]
        simp [Json.sameValue]
      rw [List.map_cons, fresh, hany]
      by_cases hbefore : text ∈ before
      · simp [hbefore, ih before hrest]
      · have hmore := ih (before ++ [text]) hrest
        rw [List.map_append, List.map_singleton] at hmore
        have hsame : rest.filter (· ∉ before ++ [text]) = rest.filter (· ∉ before) := by
          refine List.filter_congr fun other hother => ?_
          have hne : other ≠ text := fun heq => hfirst (heq ▸ hother)
          simp [hne]
        simp only [hbefore, hmore, hsame, decide_false, Bool.false_eq_true, if_false, not_false_iff,
          decide_true, List.filter_cons, if_true, List.map_cons]

theorem dedup_append_singleton (texts : List String) (text : String) :
    (texts ++ [text]).dedup = texts.dedup.filter (· ∉ [text]) ++ [text] := by
  induction texts with
  | nil => simp
  | cons first rest ih =>
      rw [List.cons_append]
      by_cases hrest : first ∈ rest
      · rw [List.dedup_cons_of_mem hrest, List.dedup_cons_of_mem (List.mem_append_left _ hrest), ih]
      · rw [List.dedup_cons_of_notMem hrest]
        by_cases htext : first = text
        · rw [List.dedup_cons_of_mem (by simp [htext]), ih]
          simp [htext]
        · rw [List.dedup_cons_of_notMem (by simp [hrest, htext]), ih]
          simp [htext]

theorem newestFirst_texts (message : String) (texts : List String) :
    newestFirst (.str message) (texts.dedup.reverse.map .str) =
      (texts ++ [message]).dedup.reverse.map .str := by
  have hfresh := fresh_texts [message] (List.nodup_reverse.mpr texts.nodup_dedup)
  rw [newestFirst_eq, dedup_append_singleton]
  rw [List.map_singleton] at hfresh
  rw [hfresh]
  simp [List.filter_reverse]

/-! ## Any number of messages -/

inductive Step where
  | merge (extra : Json)
  | error (status : Nat) (message : String)

namespace Step

def apply (handler : HandlerSpec) : Step → HandlerSpec
  | .merge extra => handler.mergeOpenapi extra
  | .error status message => handler.withErrorResponse status message

def message? (status : Nat) : Step → Option String
  | .merge _ => none
  | .error s message => if s = status then some message else none

/-- Metadata that is merged is an object without responses. -/
def Plain : Step → Prop
  | .merge extra => extra.isObject = true ∧ extra.get? "responses" = none
  | .error _ _ => True

end Step

/-- The messages that steps give for a status, the oldest first. -/
def given (status : Nat) (steps : List Step) : List String :=
  steps.filterMap (Step.message? status)

/-- Metadata holds a response for each status that messages have been given for, with each message
once and the newest first. -/
structure Documents (steps : List Step) (openapi : Option Json) : Prop where
  isObject : ∀ value, openapi = some value → value.isObject = true
  responses : ∀ value, openapi.bind (Json.get? "responses") = some value → value.isObject = true
  response? : ∀ status, response? status openapi =
    if given status steps = [] then none
    else some (response status ((given status steps).dedup.reverse.map .str))

namespace Documents

variable {steps : List Step}

theorem known (h : Documents steps openapi) (status : Nat) :
    known status openapi = (given status steps).dedup.reverse.map .str := by
  have hresponse := h.response? status
  have hknown : OpenApi.known status openapi =
      ((openapi.bind (follow? (messagesPath status))).bind Json.items?).getD [] := by
    cases openapi <;> rfl
  rw [hknown]
  split at hresponse
  · next hgiven =>
      -- Without a response the path to its messages breaks off.
      have hnone : openapi.bind (follow? (messagesPath status)) = none := by
        cases hopenapi : openapi with
        | none => rfl
        | some value =>
            rw [Option.bind_some, messagesPath,
              follow?_cons_of_isObject (h.isObject value hopenapi)]
            rw [response?_eq, hopenapi, Option.bind_some] at hresponse
            cases hresponses : value.get? "responses" with
            | none => rfl
            | some inner =>
                rw [hresponses, Option.bind_some] at hresponse
                rw [Option.bind_some, follow?_cons_of_isObject
                  (h.responses inner (by rw [hopenapi, Option.bind_some, hresponses])), hresponse]
                rfl
      rw [hnone, hgiven]
      rfl
  · rw [follow?_messagesPath hresponse]
    rfl

theorem start : Documents [] none where
  isObject _ h := by cases h
  responses _ h := by cases h
  response? _ := rfl

theorem get?_responses_mergeOpenapi (handler : HandlerSpec) {extra : Json}
    (hobject : extra.isObject = true) (hnone : extra.get? "responses" = none) :
    (handler.mergeOpenapi extra).openapi.bind (Json.get? "responses") =
      handler.openapi.bind (Json.get? "responses") := by
  rw [HandlerSpec.mergeOpenapi]
  cases handler.openapi with
  | none => exact hnone
  | some base => exact get?_merge_of_none hobject hnone

theorem step {handler : HandlerSpec} (h : Documents steps handler.openapi) {step : Step}
    (hplain : step.Plain) : Documents (steps ++ [step]) (step.apply handler).openapi := by
  have hgiven (status : Nat) :
      given status (steps ++ [step]) = given status steps ++ (step.message? status).toList := by
    rw [given, List.filterMap_append, given]
    cases hstep : step.message? status <;> simp [hstep]
  cases step with
  | merge extra =>
      obtain ⟨hobject, hnone⟩ := hplain
      have hresponses := get?_responses_mergeOpenapi handler hobject hnone
      constructor
      · intro value hvalue
        exact HandlerSpec.of_openapi_mergeOpenapi (·.isObject = true) hobject
          (fun _ _ => isObject_merge hobject) hvalue
      · intro value hvalue
        exact h.responses value (hresponses ▸ hvalue)
      · intro status
        rw [hgiven, Step.message?, Option.toList_none, List.append_nil, ← h.response? status,
          response?_eq, response?_eq, Step.apply, hresponses]
  | error status message =>
      constructor
      · intro value hvalue
        cases hvalue
        rfl
      · intro value hvalue
        rw [Step.apply, HandlerSpec.withErrorResponse, Option.bind_some, get?_addErrorResponse,
          if_pos rfl] at hvalue
        cases hvalue
        rfl
      · intro other
        rw [Step.apply, HandlerSpec.withErrorResponse, response?_addErrorResponse, hgiven,
          Step.message?, h.known status, newestFirst_texts]
        by_cases hother : status = other
        · subst hother
          simp
        · simp only [if_neg hother, Option.toList_none, List.append_nil]
          exact h.response? other

theorem run {handler : HandlerSpec} {later : List Step} (h : Documents steps handler.openapi)
    (hlater : ∀ step ∈ later, step.Plain) :
    Documents (steps ++ later) (later.foldl Step.apply handler).openapi := by
  induction later generalizing steps handler with
  | nil => simpa using h
  | cons step rest ih =>
      obtain ⟨hstep, hrest⟩ := List.forall_mem_cons.mp hlater
      simpa using ih (h.step hstep) hrest

end Documents

/-- From a handler without metadata on, the messages of a status are those that were given for it,
each once and the newest first.  One more message changes nothing but the response of its status,
where it comes before what was found there: of that, everything but the message is kept in order,
and nothing twice. -/
theorem error_messages_accumulate :
    (∀ (handler : HandlerSpec) (steps : List Step), handler.openapi = none →
      (∀ step ∈ steps, step.Plain) →
      ∀ status,
        let openapi := (steps.foldl Step.apply handler).openapi
        (given status steps = [] → response? status openapi = none) ∧
        (given status steps ≠ [] → openapi.bind (follow? (messagesPath status)) =
          some (.arr ((given status steps).dedup.reverse.map .str)))) ∧
    ∀ (handler : HandlerSpec) (status : Nat) (message : String),
      let openapi := (handler.withErrorResponse status message).openapi
      (∀ other, other ≠ status → response? other openapi = response? other handler.openapi) ∧
      (∀ key, key ≠ "responses" →
        openapi.bind (Json.get? key) = handler.openapi.bind (Json.get? key)) ∧
      ∃ kept, openapi.bind (follow? (messagesPath status)) = some (.arr (.str message :: kept)) ∧
        kept.Sublist (known status handler.openapi) ∧
        (.str message :: kept).Pairwise (fun x y => x.sameValue y = false) ∧
        ∀ entry ∈ known status handler.openapi, ∃ same ∈ .str message :: kept,
          same = entry ∨ same.sameValue entry = true := by
  constructor
  · intro handler steps hnone hsteps status
    have hstart : Documents [] handler.openapi := by
      rw [hnone]
      exact .start
    have hdocuments : Documents steps (steps.foldl Step.apply handler).openapi :=
      hstart.run hsteps
    have hresponse := hdocuments.response? status
    refine ⟨fun hgiven => ?_, fun hgiven => ?_⟩
    · rw [hresponse, if_pos hgiven]
    · rw [if_neg hgiven] at hresponse
      exact follow?_messagesPath hresponse
  · intro handler status message
    refine ⟨fun other hother => ?_, fun key hkey => ?_,
      fresh [.str message] (known status handler.openapi), ?_, fresh_sublist _ _,
      pairwise_fresh _ _ (List.pairwise_singleton _ _),
      fun entry hentry => exists_mem_fresh [.str message] hentry⟩
    · exact response?_addErrorResponse.trans (if_neg (Ne.symm hother))
    · exact (get?_addErrorResponse key).trans (if_neg (Ne.symm hkey))
    · rw [← newestFirst_eq]
      exact follow?_messagesPath (response?_addErrorResponse.trans (if_pos rfl))

/-- Two messages for one status, the first of them given again after the second. -/
def incidents : List Step :=
  [.error 400 "Invalid email", .merge (.obj [("summary", .str "Create")]), .error 404 "Not found",
    .error 400 "Name too long", .error 400 "Invalid email"]

def documented : HandlerSpec := incidents.foldl Step.apply { method := .post, path := "users" }

theorem error_messages_accumulate_incidents :
    documented.openapi.bind (follow? (messagesPath 400)) =
      some (.arr [.str "Invalid email", .str "Name too long"]) ∧
    response? 500 documented.openapi = none ∧
    response? 404 (documented.withErrorResponse 400 "No name").openapi =
      response? 404 documented.openapi ∧
    (documented.withErrorResponse 400 "No name").openapi.bind (Json.get? "summary") =
      documented.openapi.bind (Json.get? "summary") := by
  have hplain : ∀ step ∈ incidents, step.Plain := by
    simp [incidents, Step.Plain, isObject, Json.get?, lookupEntry]
  have hincidents := error_messages_accumulate.1 { method := .post, path := "users" } incidents rfl
    hplain
  have hmore := error_messages_accumulate.2 documented 400 "No name"
  have hgiven : (given 400 incidents).dedup.reverse = ["Invalid email", "Name too long"] := by
    decide
  refine ⟨?_, (hincidents 500).1 (by decide), hmore.1 404 (by decide),
    hmore.2.1 "summary" (by decide)⟩
  have hfound := (hincidents 400).2 (by decide)
  rwa [hgiven] at hfound

end OpenApi

end RpcContract
