import RpcContract.Proofs.Address.Endpoint

/-!
# Which parameters share an address

Where slashes stand between any two placeholders of a path, the resolved path gives back every
value.  An address does so too, except that an empty value can lay bare slashes at an end of the
path, which are then trimmed.
-/

namespace RpcContract.Endpoint

open PathPiece

/-! ## Slashes between placeholders -/

/-- No placeholder comes before the first slash. -/
def SlashFirst (pieces : List PathPiece) : Prop :=
  ∀ before name after, pieces = before ++ .placeholder name :: after → .char '/' ∈ before

/-- A slash stands between any two placeholders. -/
def Separated (pieces : List PathPiece) : Prop :=
  ∀ before name between other after,
    pieces = before ++ .placeholder name :: (between ++ .placeholder other :: after) →
      .char '/' ∈ between

theorem slashFirst_slash (rest : List PathPiece) : SlashFirst (.char '/' :: rest) := by
  intro before name after h
  cases before with
  | nil => cases h
  | cons piece before =>
      cases h
      exact List.mem_cons_self

theorem SlashFirst.tail {c : Char} {rest : List PathPiece} (h : SlashFirst (.char c :: rest))
    (hc : c ≠ '/') : SlashFirst rest := by
  intro before name after hrest
  have hmem := h (.char c :: before) name after (by rw [hrest, List.cons_append])
  rcases List.mem_cons.mp hmem with hslash | hmem
  · cases hslash
    exact absurd rfl hc
  · exact hmem

theorem not_slashFirst_placeholder (name : String) (rest : List PathPiece) :
    ¬ SlashFirst (.placeholder name :: rest) := fun h =>
  absurd (h [] name rest rfl) (by simp)

theorem separated_nil : Separated [] := fun before name between other after h => by
  cases before <;> cases h

theorem separated_char_iff {c : Char} {rest : List PathPiece} :
    Separated (.char c :: rest) ↔ Separated rest := by
  constructor
  · intro h before name between other after hrest
    exact h (.char c :: before) name between other after (by rw [hrest, List.cons_append])
  · intro h before name between other after hpieces
    cases before with
    | nil => cases hpieces
    | cons piece before =>
        cases hpieces
        exact h before name between other after rfl

theorem separated_placeholder_iff {name : String} {rest : List PathPiece} :
    Separated (.placeholder name :: rest) ↔ SlashFirst rest ∧ Separated rest := by
  constructor
  · intro h
    refine ⟨fun between other after hrest => ?_, fun before first between other after hrest => ?_⟩
    · exact h [] name between other after (by rw [hrest, List.nil_append])
    · exact h (.placeholder name :: before) first between other after
        (by rw [hrest, List.cons_append])
  · rintro ⟨hslash, h⟩ before first between other after hpieces
    cases before with
    | nil =>
        cases hpieces
        exact hslash between other after rfl
    | cons piece before =>
        cases hpieces
        exact h before first between other after rfl

/-! ## Values in a resolved path -/

section

variable {params other : Json} {pieces : List PathPiece}

def textOf (params : Json) (name : String) : String := (text? params name).getD ""

theorem slash_not_mem_encode (text : String) : '/' ∉ (Percent.encode text).toList := fun h =>
  absurd (Percent.of_mem_encode h) (by decide)

theorem append_slash_inj {front back front' back' : List Char} (hfront : '/' ∉ front)
    (hfront' : '/' ∉ front') (h : front ++ '/' :: back = front' ++ '/' :: back') :
    front = front' ∧ back = back' := by
  have hsplit := congrArg (List.splitOn '/') h
  rw [List.splitOn_append_cons_self_of_not_mem hfront,
    List.splitOn_append_cons_self_of_not_mem hfront'] at hsplit
  obtain rfl := (List.cons.inj hsplit).1
  exact ⟨rfl, (List.cons.inj (List.append_cancel_left h)).2⟩

/-- What has been read since the last slash is the same on both sides unless a value was among it,
and then no other value comes before the next slash. -/
theorem textOf_eq_of_append_eq (hseparated : Separated pieces) {front front' : List Char}
    (hfront : '/' ∉ front) (hfront' : '/' ∉ front')
    (hfresh : front = front' ∨ SlashFirst pieces)
    (h : front ++ pieces.flatMap (shown params) = front' ++ pieces.flatMap (shown other)) :
    front = front' ∧ ∀ name, .placeholder name ∈ pieces →
      textOf params name = textOf other name := by
  induction pieces generalizing front front' with
  | nil => exact ⟨by simpa using h, by simp⟩
  | cons piece rest ih =>
      rw [List.flatMap_cons, List.flatMap_cons] at h
      cases piece with
      | char c =>
          by_cases hc : c = '/'
          · subst hc
            obtain ⟨rfl, hrest⟩ := append_slash_inj hfront hfront' h
            obtain ⟨-, hvalues⟩ :=
              ih (separated_char_iff.mp hseparated) List.not_mem_nil List.not_mem_nil (.inl rfl)
                hrest
            exact ⟨rfl, by simpa using hvalues⟩
          · have hnext {text : List Char} (htext : '/' ∉ text) : '/' ∉ text ++ [c] := by
              simp [htext, Ne.symm hc]
            have hfresh' : front ++ [c] = front' ++ [c] ∨ SlashFirst rest := by
              rcases hfresh with rfl | hslash
              · exact .inl rfl
              · exact .inr (hslash.tail hc)
            obtain ⟨hsame, hvalues⟩ := ih (separated_char_iff.mp hseparated) (hnext hfront)
              (hnext hfront') hfresh' (by simpa [shown] using h)
            exact ⟨List.append_cancel_right hsame, by simpa using hvalues⟩
      | placeholder name =>
          obtain rfl : front = front' :=
            hfresh.resolve_right (not_slashFirst_placeholder name rest)
          have hnext (text : String) : '/' ∉ front ++ (Percent.encode text).toList := by
            simp [hfront, slash_not_mem_encode]
          obtain ⟨hslash, hrest⟩ := separated_placeholder_iff.mp hseparated
          obtain ⟨hsame, hvalues⟩ := ih hrest (hnext _) (hnext _) (.inr hslash)
            (by simpa [shown] using h)
          have hname : textOf params name = textOf other name :=
            Percent.encode_injective (String.toList_inj.mp (List.append_cancel_left hsame))
          refine ⟨rfl, fun other hmem => ?_⟩
          rcases List.mem_cons.mp hmem with hother | hmem
          · cases hother
            exact hname
          · exact hvalues other hmem

theorem count_slash_flatMap_shown (params : Json) (pieces : List PathPiece) :
    (pieces.flatMap (shown params)).count '/' = pieces.count (.char '/') := by
  induction pieces with
  | nil => rfl
  | cons piece rest ih =>
      rw [List.flatMap_cons, List.count_append, ih]
      cases piece with
      | char c =>
          by_cases hc : c = '/'
          · subst hc
            simp [shown, Nat.add_comm]
          · simp [shown, hc]
      | placeholder name => simp [shown, List.count_eq_zero.mpr (slash_not_mem_encode _)]

def leadingSlashes (cs : List Char) : Nat := (cs.takeWhile (· == '/')).length

theorem leadingSlashes_encode_append {text : String} (h : text ≠ "") (cs : List Char) :
    leadingSlashes ((Percent.encode text).toList ++ cs) = 0 := by
  cases hencoded : (Percent.encode text).toList with
  | nil => exact absurd (Percent.encode_eq_empty_iff.mp (by simpa using hencoded)) h
  | cons c encoded =>
      have hc : c ≠ '/' := by
        rintro rfl
        exact slash_not_mem_encode text (by simp [hencoded])
      simp [leadingSlashes, hc]

/-- Only an empty value lets slashes behind it come to the start. -/
theorem leadingSlashes_eq_of_empty_iff
    (h : ∀ name, .placeholder name ∈ pieces → (textOf params name = "" ↔ textOf other name = "")) :
    leadingSlashes (pieces.flatMap (shown params)) =
      leadingSlashes (pieces.flatMap (shown other)) := by
  induction pieces with
  | nil => rw [List.flatMap_nil, List.flatMap_nil]
  | cons piece rest ih =>
      have hrest := ih fun name hmem => h name (List.mem_cons_of_mem piece hmem)
      rw [List.flatMap_cons, List.flatMap_cons]
      cases piece with
      | char c =>
          by_cases hc : c = '/'
          · simpa [leadingSlashes, shown, hc] using hrest
          · simp [leadingSlashes, shown, hc]
      | placeholder name =>
          have hname := h name List.mem_cons_self
          by_cases hempty : textOf params name = ""
          · have hempty' := hname.mp hempty
            simp only [textOf] at hempty hempty'
            simpa [shown, hempty, hempty'] using hrest
          · exact (leadingSlashes_encode_append hempty _).trans
              (leadingSlashes_encode_append (mt hname.mpr hempty) _).symm

end

/-! ## Trimmed slashes -/

theorem leadingSlashes_replicate_append {m : Nat} {cs : List Char} (h : cs.head? ≠ some '/') :
    leadingSlashes (List.replicate m '/' ++ cs) = m := by
  have hcs : cs.takeWhile (· == '/') = [] := by
    cases cs with
    | nil => rfl
    | cons c cs => exact List.takeWhile_cons_of_neg (by simpa using h)
  rw [leadingSlashes, List.takeWhile_append_of_pos (by simp), hcs]
  simp

theorem eq_of_trimBoth_eq {text other : String}
    (htrimmed : Text.trimBoth '/' text = Text.trimBoth '/' other)
    (hcount : text.toList.count '/' = other.toList.count '/')
    (hleading : leadingSlashes text.toList = leadingSlashes other.toList) : text = other := by
  obtain ⟨⟨m, n, htext⟩, hhead, -⟩ := Text.exists_trimBoth '/' text
  obtain ⟨⟨m', n', hother⟩, -, -⟩ := Text.exists_trimBoth '/' other
  rw [← htrimmed] at hother
  have htotal : m + n = m' + n' := by
    rw [htext, hother] at hcount
    simp only [List.count_append, List.count_replicate_self] at hcount
    omega
  rw [← String.toList_inj, htext, hother]
  cases htrim : (Text.trimBoth '/' text).toList with
  | nil => simp [htotal]
  | cons c cs =>
      have hfirst : ∀ k, ((Text.trimBoth '/' text).toList ++ List.replicate k '/').head? ≠
          some '/' := by
        intro k
        rw [htrim] at hhead ⊢
        simpa using hhead
      rw [htext, hother, List.append_assoc, List.append_assoc,
        leadingSlashes_replicate_append (hfirst n),
        leadingSlashes_replicate_append (hfirst n')] at hleading
      obtain rfl : n = n' := by omega
      rw [hleading]

theorem getLast?_append_below {text : String} (h : text.toList.getLast? ≠ some '/')
    (part : String) : (text ++ below part).toList.getLast? ≠ some '/' := by
  obtain ⟨-, -, hlast⟩ := Text.exists_trimBoth '/' part
  rw [below]
  split
  next => simpa using h
  next hpart =>
    have hnil : (Text.trimBoth '/' part).toList ≠ [] := by simpa using hpart
    rw [List.getLast?_eq_some_getLast hnil] at hlast
    simpa [List.getLast?_append, List.getLast?_cons, List.getLast?_eq_some_getLast hnil] using hlast

theorem getLast?_joined (root : String) (parts : List String) :
    (joined root parts).toList.getLast? ≠ some '/' := by
  have hall (text : String) (h : text.toList.getLast? ≠ some '/') :
      (text ++ String.join (parts.map below)).toList.getLast? ≠ some '/' := by
    induction parts generalizing text with
    | nil => simpa using h
    | cons part parts ih =>
        rw [List.map_cons, String.join_cons, ← String.append_assoc]
        exact ih _ (getLast?_append_below h part)
  exact hall _ (Text.exists_trimEnd '/' root).2

theorem joined_eq_of_joinUnder_eq {root : String} {parts others : List String}
    (h : joinUnder root parts = joinUnder root others) :
    joined root parts = joined root others := by
  have hslash (parts : List String) : joined root parts ≠ "/" := fun hjoined =>
    absurd (getLast?_joined root parts) (by simp [hjoined])
  rw [joinUnder_eq, joinUnder_eq] at h
  split at h <;> split at h
  next hparts hothers => rw [hparts, hothers]
  next => exact absurd h.symm (hslash others)
  next => exact absurd h (hslash parts)
  next => exact h

theorem trimBoth_eq_of_joinUnder_eq {root text other : String} (parts : List String)
    (h : joinUnder root (parts ++ [text]) = joinUnder root (parts ++ [other])) :
    Text.trimBoth '/' text = Text.trimBoth '/' other := by
  have hjoined := congrArg String.toList (joined_eq_of_joinUnder_eq h)
  simp only [joined, List.map_append, String.toList_append, String.toList_join,
    List.flatMap_append, List.append_cancel_left_eq, List.map_cons, List.map_nil,
    List.flatMap_singleton, String.toList_inj] at hjoined
  rw [below, below] at hjoined
  split at hjoined <;> split at hjoined
  next htext hother => rw [htext, hother]
  next => simp at hjoined
  next => simp at hjoined
  next => simpa [← String.toList_inj] using hjoined

/-! ## Addresses -/

theorem valueOf_eq_some_textOf {params : Json} {pieces : List PathPiece} {name : String}
    (h : lacking params pieces = []) (hname : .placeholder name ∈ pieces) :
    valueOf params name = some (textOf params name) := by
  have hnone : ¬ Lacks params name := fun hlacks => by
    have hmem : name ∈ lacking params pieces :=
      List.mem_filter.mpr ⟨List.mem_filterMap.mpr ⟨_, hname, rfl⟩, decide_eq_true hlacks⟩
    rw [h] at hmem
    cases hmem
  rw [← valueOf_isNone_iff] at hnone
  cases hvalue : valueOf params name with
  | none => simp [hvalue] at hnone
  | some text => rw [textOf, ← valueOf_eq_text?, hvalue, Option.getD_some]

/-- If two calls of one handler have the same path, their placeholders have the same values just if
equally many slashes stand at the start of the resolved paths.  So it is where the same placeholders
are empty in both. -/
theorem valueOf_eq_of_path_eq {apiRoot segment pathPrefix path : String}
    {params other query otherQuery : Json} {endpoint otherEndpoint : Endpoint}
    (hseparated : Separated (ofPath path))
    (hbuild : build apiRoot segment pathPrefix path params query = .ok endpoint)
    (hother : build apiRoot segment pathPrefix path other otherQuery = .ok otherEndpoint)
    (hpath : endpoint.path = otherEndpoint.path) :
    ((∀ name, .placeholder name ∈ ofPath path → valueOf params name = valueOf other name) ↔
      leadingSlashes (resolve params (ofPath path)).toList =
        leadingSlashes (resolve other (ofPath path)).toList) ∧
    ((∀ name, .placeholder name ∈ ofPath path →
        (valueOf params name = some "" ↔ valueOf other name = some "")) →
      ∀ name, .placeholder name ∈ ofPath path → valueOf params name = valueOf other name) := by
  obtain ⟨hlacking, hparts, -⟩ := build_eq_ok_iff.mp hbuild
  obtain ⟨hlacking', hparts', -⟩ := build_eq_ok_iff.mp hother
  have hvalue : ∀ name, .placeholder name ∈ ofPath path →
      valueOf params name = some (textOf params name) ∧
        valueOf other name = some (textOf other name) := fun name hname =>
    ⟨valueOf_eq_some_textOf hlacking hname, valueOf_eq_some_textOf hlacking' hname⟩
  have hslashes : ∀ {params other : Json}, (resolve params (ofPath path)).toList.count '/' =
      (resolve other (ofPath path)).toList.count '/' := by
    intro params other
    rw [toList_resolve, toList_resolve, count_slash_flatMap_shown, count_slash_flatMap_shown]
  -- Equal paths were trimmed to the same text, so that only the slashes in front can differ.
  have hsame (hleading : leadingSlashes (resolve params (ofPath path)).toList =
      leadingSlashes (resolve other (ofPath path)).toList) :
      ∀ name, .placeholder name ∈ ofPath path → valueOf params name = valueOf other name := by
    rw [hparts, hparts'] at hpath
    have htrimmed := trimBoth_eq_of_joinUnder_eq [segment, pathPrefix] hpath
    have hresolved := congrArg String.toList (eq_of_trimBoth_eq htrimmed hslashes hleading)
    rw [toList_resolve, toList_resolve] at hresolved
    obtain ⟨-, htext⟩ := textOf_eq_of_append_eq hseparated List.not_mem_nil List.not_mem_nil
      (.inl rfl) hresolved
    intro name hname
    rw [(hvalue name hname).1, (hvalue name hname).2, htext name hname]
  refine ⟨⟨fun hvalues => ?_, hsame⟩, fun hempty => hsame ?_⟩
  · rw [resolve_congr hvalues]
  · rw [toList_resolve, toList_resolve]
    refine leadingSlashes_eq_of_empty_iff fun name hname => ?_
    have hiff := hempty name hname
    rwa [(hvalue name hname).1, (hvalue name hname).2, Option.some_inj, Option.some_inj] at hiff

/-! Two values in a row, the first of them at the start of the path. -/

theorem ofPath_two_names : ofPath ":a/:b" = [.placeholder "a", .char '/', .placeholder "b"] := by
  have hfirst : placeholder? ":a/:b".toList = some ("a", ['/', ':', 'b']) := rfl
  have hslash : placeholder? ['/', ':', 'b'] = none := rfl
  have hlast : placeholder? [':', 'b'] = some ("b", []) := rfl
  rw [ofPath, ofChars_of_some hfirst, ofChars_of_none hslash, ofChars_of_some hlast, ofChars_nil]

theorem separated_two_names : Separated (ofPath ":a/:b") := by
  have hlast : SlashFirst [] := fun before name after h => by cases before <;> cases h
  rw [ofPath_two_names, separated_placeholder_iff, separated_char_iff, separated_placeholder_iff]
  exact ⟨slashFirst_slash _, hlast, separated_nil⟩

theorem build_two_names_empty_first :
    build "/api" "" "" ":a/:b" (.obj [("a", .str ""), ("b", .str "x")]) .null =
      .ok ⟨"/api/x", ""⟩ := by
  rw [build, ofPath_two_names]
  rfl

theorem build_two_names_empty_last :
    build "/api" "" "" ":a/:b" (.obj [("a", .str "x"), ("b", .str "")]) .null =
      .ok ⟨"/api/x", ""⟩ := by
  rw [build, ofPath_two_names]
  rfl

/-- A number and its text have one address, so they are one value of a placeholder. -/
theorem valueOf_eq_number_text :
    Separated (ofPath ":a/:b") ∧
    build "/api" "" "" ":a/:b" (.obj [("a", .int 1), ("b", .str "y")]) .null =
      .ok ⟨"/api/1/y", ""⟩ ∧
    build "/api" "" "" ":a/:b" (.obj [("a", .str "1"), ("b", .str "y")]) .null =
      .ok ⟨"/api/1/y", ""⟩ ∧
    ∀ name, .placeholder name ∈ ofPath ":a/:b" →
      valueOf (.obj [("a", .int 1), ("b", .str "y")]) name =
        valueOf (.obj [("a", .str "1"), ("b", .str "y")]) name := by
  have hnumber : build "/api" "" "" ":a/:b" (.obj [("a", .int 1), ("b", .str "y")]) .null =
      .ok ⟨"/api/1/y", ""⟩ := by
    rw [build, ofPath_two_names]
    rfl
  have htext : build "/api" "" "" ":a/:b" (.obj [("a", .str "1"), ("b", .str "y")]) .null =
      .ok ⟨"/api/1/y", ""⟩ := by
    rw [build, ofPath_two_names]
    rfl
  refine ⟨separated_two_names, hnumber, htext, ?_⟩
  refine (valueOf_eq_of_path_eq separated_two_names hnumber htext rfl).2 fun name hname => ?_
  simp only [ofPath_two_names, List.mem_cons, PathPiece.placeholder.injEq, reduceCtorEq, false_or,
    List.not_mem_nil, or_false] at hname
  rcases hname with rfl | rfl <;> decide

/-- Calls with different values can share an address if one of the values is empty: its slash is at
the end of the resolved path then, and is trimmed. -/
theorem addresses_not_distinct :
    ¬ ∀ (apiRoot segment pathPrefix path : String) (params other query otherQuery : Json)
        (endpoint otherEndpoint : Endpoint),
      Separated (ofPath path) →
      build apiRoot segment pathPrefix path params query = .ok endpoint →
      build apiRoot segment pathPrefix path other otherQuery = .ok otherEndpoint →
      endpoint.path = otherEndpoint.path →
      ∀ name, .placeholder name ∈ ofPath path → valueOf params name = valueOf other name := by
  intro hdistinct
  have hvalues := hdistinct "/api" "" "" ":a/:b" _ _ _ _ _ _ separated_two_names
    build_two_names_empty_first build_two_names_empty_last rfl "a" (by simp [ofPath_two_names])
  exact absurd hvalues (by decide)

end RpcContract.Endpoint
