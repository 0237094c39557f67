import RpcContract.Address.Endpoint
import RpcContract.Proofs.Address.Placeholder
import RpcContract.Proofs.Address.Query
import RpcContract.Proofs.Text.Trim

/-!
# Addresses of calls

An address is either built or refused for the placeholders that lack a value.  Values stand in it
percent-encoded, so neither slashes nor question marks come from them.
-/

namespace RpcContract.Endpoint

/-! ## Values of placeholders -/

/-- How a parameter is written: strings as they are, null not at all, other values as compact
JSON. -/
def text? (params : Json) (name : String) : Option String :=
  match params.get? name with
  | none | some .null => none
  | some (.str text) => some text
  | some value => some value.compact

theorem valueOf_eq_text? (params : Json) (name : String) :
    valueOf params name = text? params name := by
  rw [valueOf, text?]
  cases params.get? name with
  | none => rfl
  | some value => cases value <;> rfl

/-- The parameters have no value under a name, or null. -/
def Lacks (params : Json) (name : String) : Prop :=
  params.get? name = none ∨ params.get? name = some .null

theorem valueOf_isNone_iff {params : Json} {name : String} :
    (valueOf params name).isNone = true ↔ Lacks params name := by
  rw [valueOf, Lacks]
  cases params.get? name with
  | none => simp
  | some value => cases value <;> simp [Query.scalarText?]

instance decLacks (params : Json) (name : String) : Decidable (Lacks params name) :=
  decidable_of_iff _ valueOf_isNone_iff

theorem lacks_of_not_obj {params : Json} (h : ∀ fields, params ≠ .obj fields) (name : String) :
    Lacks params name := by
  cases params with
  | obj fields => exact absurd rfl (h fields)
  | _ => exact .inl rfl

def lacking (params : Json) (pieces : List PathPiece) : List String :=
  (pieces.filterMap PathPiece.nameOf?).filter fun name => Lacks params name

theorem missing_eq_lacking (params : Json) (pieces : List PathPiece) :
    missing params pieces = lacking params pieces := by
  refine List.filter_congr fun name _ => ?_
  rw [Bool.eq_iff_iff, valueOf_isNone_iff, decide_eq_true_iff]

theorem lacking_congr {params other : Json} {pieces : List PathPiece}
    (h : ∀ name, .placeholder name ∈ pieces → valueOf other name = valueOf params name) :
    lacking other pieces = lacking params pieces := by
  rw [← missing_eq_lacking, ← missing_eq_lacking]
  refine List.filter_congr fun name hname => ?_
  obtain ⟨piece, hpiece, hsome⟩ := List.mem_filterMap.mp hname
  cases piece with
  | char c => cases hsome
  | placeholder other =>
      cases hsome
      rw [h name hpiece]

/-! ## Resolved paths -/

/-- What a piece of a path becomes: a character stays, a placeholder gives way to its value. -/
def shown (params : Json) : PathPiece → List Char
  | .char c => [c]
  | .placeholder name => (Percent.encode ((text? params name).getD "")).toList

theorem decode?_shown {params : Json} {name text : String} (h : text? params name = some text) :
    Percent.decode? (shown params (.placeholder name)) = some text := by
  rw [shown, h]
  exact Percent.decode?_encode text

theorem toList_resolve (params : Json) (pieces : List PathPiece) :
    (resolve params pieces).toList = pieces.flatMap (shown params) := by
  rw [resolve, String.toList_join, List.flatMap_map]
  refine congrArg pieces.flatMap (funext fun piece => ?_)
  cases piece with
  | char c => exact String.toList_singleton c
  | placeholder name => rw [shown, ← valueOf_eq_text?]

theorem resolve_congr {params other : Json} {pieces : List PathPiece}
    (h : ∀ name, .placeholder name ∈ pieces → valueOf other name = valueOf params name) :
    resolve other pieces = resolve params pieces := by
  rw [← String.toList_inj, toList_resolve, toList_resolve, List.flatMap_def, List.flatMap_def]
  refine congrArg List.flatten (List.map_congr_left fun piece hpiece => ?_)
  cases piece with
  | char c => rfl
  | placeholder name =>
      rw [shown, shown, ← valueOf_eq_text?, ← valueOf_eq_text?, h name hpiece]

theorem of_mem_flatMap_shown {params : Json} {c : Char} {cs : List Char}
    (h : c ∈ (PathPiece.ofChars cs).flatMap (shown params)) :
    c ∈ cs ∨ Percent.isUnreserved c = true ∨ c = '%' := by
  obtain ⟨piece, hpiece, hc⟩ := List.mem_flatMap.mp h
  cases piece with
  | char d =>
      cases List.mem_singleton.mp hc
      exact .inl (PathPiece.char_mem_of_mem_ofChars hpiece)
  | placeholder name => exact .inr (Percent.of_mem_encode hc)

theorem not_mem_flatMap_shown (params : Json) {c : Char} {cs : List Char}
    (hreserved : Percent.isUnreserved c = false) (hpercent : c ≠ '%') (h : c ∉ cs) :
    c ∉ (PathPiece.ofChars cs).flatMap (shown params) := by
  intro hc
  rcases of_mem_flatMap_shown hc with hmem | hunreserved | rfl
  · exact h hmem
  · rw [hreserved] at hunreserved
    cases hunreserved
  · exact hpercent rfl

theorem splitOn_flatMap_shown (params : Json) (cs : List Char) :
    ((PathPiece.ofChars cs).flatMap (shown params)).splitOn '/' =
      (cs.splitOn '/').map fun part => (PathPiece.ofChars part).flatMap (shown params) := by
  by_cases hslash : '/' ∈ cs
  · obtain ⟨before, after, rfl, hbefore⟩ := List.eq_append_cons_of_mem hslash
    have hresolved := not_mem_flatMap_shown params (by decide) (by decide) hbefore
    rw [PathPiece.ofChars_append_slash, List.flatMap_append, List.flatMap_cons, shown,
      List.singleton_append, List.splitOn_append_cons_self_of_not_mem hresolved,
      List.splitOn_append_cons_self_of_not_mem hbefore, List.map_cons,
      splitOn_flatMap_shown params after]
  · have hresolved := not_mem_flatMap_shown params (by decide) (by decide) hslash
    rw [List.splitOn_eq_singleton hresolved, List.splitOn_eq_singleton hslash, List.map_singleton]
termination_by cs.length

/-! ## Joined parts -/

/-- A part of an address: a slash and the part without its outer slashes, or nothing. -/
def below (part : String) : String :=
  if Text.trimBoth '/' part = "" then "" else "/" ++ Text.trimBoth '/' part

def joined (root : String) (parts : List String) : String :=
  Text.trimEnd '/' root ++ String.join (parts.map below)

theorem joinUnder_eq (root : String) (parts : List String) :
    joinUnder root parts = if joined root parts = "" then "/" else joined root parts := by
  have hfold (path : String) : parts.foldl (fun path part =>
      if Text.trimBoth '/' part = "" then path else path ++ "/" ++ Text.trimBoth '/' part) path =
        path ++ String.join (parts.map below) := by
    induction parts generalizing path with
    | nil => simp
    | cons part parts ih =>
        rw [List.foldl_cons, ih, List.map_cons, String.join_cons, ← String.append_assoc]
        by_cases hpart : Text.trimBoth '/' part = ""
        · simp [below, hpart]
        · simp [below, hpart, String.append_assoc]
  simp only [joinUnder, String.isEmpty_iff, hfold, joined]
  congr

/-! ## Question marks -/

theorem not_mem_below {c : Char} {part : String} (hslash : c ≠ '/') (h : c ∉ part.toList) :
    c ∉ (below part).toList := by
  obtain ⟨⟨m, n, htext⟩, -⟩ := Text.exists_trimBoth '/' part
  rw [below]
  split
  · simp
  · rw [htext] at h
    simpa [hslash] using fun hc => h (by simp [hc])

theorem not_mem_joinUnder {c : Char} {root : String} {parts : List String} (hslash : c ≠ '/')
    (hroot : c ∉ root.toList) (hparts : ∀ part ∈ parts, c ∉ part.toList) :
    c ∉ (joinUnder root parts).toList := by
  obtain ⟨⟨n, htext⟩, -⟩ := Text.exists_trimEnd '/' root
  have hjoined : c ∉ (joined root parts).toList := by
    rw [joined, String.toList_append, String.toList_join, List.flatMap_map, List.mem_append,
      List.mem_flatMap]
    rintro (hc | ⟨part, hpart, hc⟩)
    · exact hroot (htext ▸ List.mem_append_left _ hc)
    · exact not_mem_below hslash (hparts part hpart) hc
  rw [joinUnder_eq]
  split
  · simpa using hslash
  · exact hjoined

theorem not_mem_encode_query (query : Json) : '?' ∉ (Query.encode query).toList := fun h =>
  absurd (Query.isQueryChar_of_mem_encode_query h) (by unfold Query.IsQueryChar; decide)

theorem splitOn_url {endpoint : Endpoint} (hpath : '?' ∉ endpoint.path.toList)
    (hquery : '?' ∉ endpoint.query.toList) :
    endpoint.url.toList.splitOn '?' =
      if endpoint.query = "" then [endpoint.path.toList]
      else [endpoint.path.toList, endpoint.query.toList] := by
  by_cases hempty : endpoint.query = ""
  · simpa [url, hempty] using List.splitOn_eq_singleton hpath
  · have htext : endpoint.url.toList = endpoint.path.toList ++ '?' :: endpoint.query.toList := by
      simp [url, hempty]
    rw [htext, List.splitOn_append_cons_self_of_not_mem hpath, List.splitOn_eq_singleton hquery,
      if_neg hempty]

/-! ## Building -/

theorem build_of_lacking {params : Json} {path : String}
    (h : lacking params (PathPiece.ofPath path) ≠ []) (apiRoot segment pathPrefix : String)
    (query : Json) :
    build apiRoot segment pathPrefix path params query =
      .error (.client ("Missing path parameters for " ++ path ++ ": " ++
        ", ".intercalate (lacking params (PathPiece.ofPath path)))) := by
  rw [build, missing_eq_lacking]
  split
  next hnone => exact absurd hnone h
  next => rfl

theorem build_of_not_lacking {params : Json} {path : String}
    (h : lacking params (PathPiece.ofPath path) = []) (apiRoot segment pathPrefix : String)
    (query : Json) :
    build apiRoot segment pathPrefix path params query =
      .ok ⟨joinUnder apiRoot [segment, pathPrefix, resolve params (PathPiece.ofPath path)],
        Query.encode query⟩ := by
  rw [build, missing_eq_lacking, h]

theorem build_eq_error_iff {apiRoot segment pathPrefix path : String} {params query : Json}
    {error : HttpError} :
    build apiRoot segment pathPrefix path params query = .error error ↔
      lacking params (PathPiece.ofPath path) ≠ [] ∧
        error = .client ("Missing path parameters for " ++ path ++ ": " ++
          ", ".intercalate (lacking params (PathPiece.ofPath path))) := by
  by_cases h : lacking params (PathPiece.ofPath path) = []
  · simp [build_of_not_lacking h, h]
  · simp only [build_of_lacking h, Except.error.injEq, ne_eq, h, not_false_eq_true, true_and]
    exact eq_comm

theorem build_eq_ok_iff {apiRoot segment pathPrefix path : String} {params query : Json}
    {endpoint : Endpoint} :
    build apiRoot segment pathPrefix path params query = .ok endpoint ↔
      lacking params (PathPiece.ofPath path) = [] ∧
        endpoint.path =
          joinUnder apiRoot [segment, pathPrefix, resolve params (PathPiece.ofPath path)] ∧
        endpoint.query = Query.encode query := by
  by_cases h : lacking params (PathPiece.ofPath path) = []
  · obtain ⟨path, text⟩ := endpoint
    simp [build_of_not_lacking h, h, eq_comm]
  · simp [build_of_lacking h, h]

theorem build_congr {apiRoot segment pathPrefix path : String} {params other query : Json}
    (h : ∀ name, .placeholder name ∈ PathPiece.ofPath path →
      valueOf other name = valueOf params name) :
    build apiRoot segment pathPrefix path other query =
      build apiRoot segment pathPrefix path params query := by
  simp only [build, missing_eq_lacking, lacking_congr h, resolve_congr h]

/-- A path has one reading as characters and placeholders.  Building fails just for placeholders
without a value, all of which the error names.  Otherwise the address is made from the root and the
parts, and values are encoded into it where their placeholders stand, from where they can be read
back; nothing else of the parameters matters.  Slashes are those of the path, and the query begins
at the only question mark. -/
theorem build_exact (apiRoot segment pathPrefix path : String) (params query : Json) :
    ∃ pieces,
      (∀ others, PathPiece.Scans path.toList others ↔ others = pieces) ∧
      ((∀ fields, params ≠ .obj fields) → ∀ name, Lacks params name) ∧
      (∀ error, build apiRoot segment pathPrefix path params query = .error error ↔
        lacking params pieces ≠ [] ∧ error.status = 0 ∧
          error = .client ("Missing path parameters for " ++ path ++ ": " ++
            ", ".intercalate (lacking params pieces))) ∧
      (∀ endpoint, build apiRoot segment pathPrefix path params query = .ok endpoint ↔
        lacking params pieces = [] ∧ endpoint.query = Query.encode query ∧
          ∃ full, full = joined apiRoot
              [segment, pathPrefix, String.ofList (pieces.flatMap (shown params))] ∧
            endpoint.path = if full = "" then "/" else full) ∧
      (∀ other, (∀ name, .placeholder name ∈ pieces → text? other name = text? params name) →
        build apiRoot segment pathPrefix path other query =
          build apiRoot segment pathPrefix path params query) ∧
      (∀ name text, text? params name = some text →
        Percent.decode? (shown params (.placeholder name)) = some text) ∧
      (pieces.flatMap (shown params)).splitOn '/' = (path.toList.splitOn '/').map (fun part =>
        (PathPiece.ofChars part).flatMap (shown params)) ∧
      (∀ endpoint, build apiRoot segment pathPrefix path params query = .ok endpoint →
        (∀ text ∈ [apiRoot, segment, pathPrefix, path], '?' ∉ text.toList) →
          endpoint.url.toList.splitOn '?' =
            if endpoint.query = "" then [endpoint.path.toList]
            else [endpoint.path.toList, endpoint.query.toList]) := by
  have hresolved : resolve params (PathPiece.ofPath path) =
      .ofList ((PathPiece.ofPath path).flatMap (shown params)) := by
    rw [← toList_resolve, String.ofList_toList]
  refine ⟨PathPiece.ofPath path, fun others => PathPiece.scans_iff, lacks_of_not_obj, ?error, ?ok,
    ?alike, fun _ _ => decode?_shown, splitOn_flatMap_shown params path.toList, ?url⟩
  case error =>
    intro error
    rw [build_eq_error_iff]
    constructor
    · rintro ⟨hlacking, rfl⟩
      exact ⟨hlacking, rfl, rfl⟩
    · rintro ⟨hlacking, -, herror⟩
      exact ⟨hlacking, herror⟩
  case ok =>
    intro endpoint
    rw [build_eq_ok_iff, joinUnder_eq, hresolved]
    simp only [exists_eq_left]
    exact and_congr_right' and_comm
  case alike =>
    intro other htexts
    refine build_congr fun name hname => ?_
    rw [valueOf_eq_text?, valueOf_eq_text?, htexts name hname]
  case url =>
    intro endpoint hbuild hfree
    obtain ⟨-, hpath, hquery⟩ := build_eq_ok_iff.mp hbuild
    simp only [List.forall_mem_cons] at hfree
    obtain ⟨hroot, hsegment, hprefix, htemplate, -⟩ := hfree
    have hvalues : '?' ∉ (resolve params (PathPiece.ofPath path)).toList := by
      rw [toList_resolve]
      exact not_mem_flatMap_shown params (by decide) (by decide) htemplate
    refine splitOn_url ?_ (hquery ▸ not_mem_encode_query query)
    rw [hpath]
    refine not_mem_joinUnder (by decide) hroot ?_
    simp only [List.forall_mem_cons]
    exact ⟨hsegment, hprefix, hvalues, by simp⟩

/-- A number and a text with reserved characters in their places, and a call that lacks both. -/
theorem build_exact_posts :
    build "/api/" "blog" "/posts/" ":id/\x7bslug\x7d"
        (.obj [("id", .int 42), ("slug", .str "a/b?é")]) (.obj [("q", .str "x y")]) =
      .ok ⟨"/api/blog/posts/42/a%2Fb%3F%C3%A9", "q=x%20y"⟩ ∧
    build "/api/" "blog" "/posts/" ":id/\x7bslug\x7d" (.obj [("slug", .null)]) .null =
      .error (.client "Missing path parameters for :id/\x7bslug\x7d: id, slug") := by
  have hpieces : [.placeholder "id", .char '/', .placeholder "slug"] =
      PathPiece.ofChars ":id/\x7bslug\x7d".toList := by
    have hid : PathPiece.placeholder? ":id/\x7bslug\x7d".toList =
      some ("id", '/' :: "\x7bslug\x7d".toList) := rfl
    have hslash : PathPiece.placeholder? ('/' :: "\x7bslug\x7d".toList) = none := rfl
    have hslug : PathPiece.placeholder? "\x7bslug\x7d".toList = some ("slug", []) := rfl
    rw [PathPiece.ofChars_of_some hid, PathPiece.ofChars_of_none hslash,
      PathPiece.ofChars_of_some hslug, PathPiece.ofChars_nil]
  constructor
  · obtain ⟨pieces, hscans, -, -, hbuilt, -⟩ := build_exact "/api/" "blog" "/posts/"
      ":id/\x7bslug\x7d" (.obj [("id", .int 42), ("slug", .str "a/b?é")]) (.obj [("q", .str "x y")])
    obtain rfl := (hscans _).mp (PathPiece.scans_iff.mpr hpieces)
    exact (hbuilt _).mpr ⟨by decide, by decide +kernel, _, rfl, by decide +kernel⟩
  · obtain ⟨pieces, hscans, -, hrefused, -⟩ := build_exact "/api/" "blog" "/posts/"
      ":id/\x7bslug\x7d" (.obj [("slug", .null)]) .null
    obtain rfl := (hscans _).mp (PathPiece.scans_iff.mpr hpieces)
    exact (hrefused _).mpr ⟨by decide, rfl, by decide +kernel⟩

end RpcContract.Endpoint
