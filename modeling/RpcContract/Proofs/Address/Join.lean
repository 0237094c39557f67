import Mathlib.Data.List.Basic
import RpcContract.Address.Join
import RpcContract.Proofs.Address.Endpoint

/-!
# Joined paths

Joining puts the trimmed parts one under the other, which can be done in any grouping.  Its
components are those of the trimmed parts in their order.  The path of a call is joined from the
same parts, except that slashes in front of its root stay.
-/

namespace RpcContract

/-! ## Texts without outer slashes -/

def Bare (text : String) : Prop :=
  text.toList.head? ≠ some '/' ∧ text.toList.getLast? ≠ some '/'

theorem bare_empty : Bare "" := by simp [Bare]

theorem bare_trimBoth (text : String) : Bare (Text.trimBoth '/' text) :=
  (Text.exists_trimBoth '/' text).2

theorem dropWhile_replicate_append {n : Nat} {cs : List Char} (h : cs.head? ≠ some '/') :
    (List.replicate n '/' ++ cs).dropWhile (· == '/') = cs := by
  rw [List.dropWhile_append_of_pos (by simp)]
  cases cs with
  | nil => rfl
  | cons c cs => exact List.dropWhile_cons_of_neg (by simpa using h)

theorem trimBoth_eq_of_bare {text bare : String} {m n : Nat} (h : Bare bare)
    (htext : text.toList = List.replicate m '/' ++ bare.toList ++ List.replicate n '/') :
    Text.trimBoth '/' text = bare := by
  apply String.toList_injective
  simp only [Text.trimBoth, Text.trimEnd, Text.trimStart, String.toList_ofList, htext]
  by_cases hempty : bare.toList = []
  · rw [hempty, List.append_nil, List.replicate_append_replicate]
    simp
  · have hhead : (bare.toList ++ List.replicate n '/').head? ≠ some '/' := by
      rw [List.head?_append_of_ne_nil _ hempty]
      exact h.1
    have hlast : bare.toList.reverse.head? ≠ some '/' := by simpa using h.2
    rw [List.append_assoc, dropWhile_replicate_append hhead, List.reverse_append,
      List.reverse_replicate, dropWhile_replicate_append hlast, List.reverse_reverse]

theorem trimBoth_of_bare {text : String} (h : Bare text) : Text.trimBoth '/' text = text :=
  trimBoth_eq_of_bare (m := 0) (n := 0) h (by simp)

theorem exists_trimEnd_eq (text : String) : ∃ m,
    (Text.trimEnd '/' text).toList =
      List.replicate m '/' ++ (Text.trimBoth '/' text).toList := by
  obtain ⟨⟨n, htext⟩, hlast⟩ := Text.exists_trimEnd '/' text
  obtain ⟨⟨m, htrimmed⟩, hhead⟩ := Text.exists_trimStart '/' (Text.trimEnd '/' text)
  have hbare : Bare (Text.trimStart '/' (Text.trimEnd '/' text)) := by
    refine ⟨hhead, fun h => hlast ?_⟩
    rw [htrimmed, List.getLast?_append, h, Option.some_or]
  have hboth : Text.trimBoth '/' text = Text.trimStart '/' (Text.trimEnd '/' text) := by
    rw [htrimmed] at htext
    exact trimBoth_eq_of_bare hbare htext
  exact ⟨m, by rw [hboth, ← htrimmed]⟩

/-! ## One text under another -/

/-- A text under another, behind a slash; an empty text leaves the other one as it is. -/
def under (upper lower : String) : String :=
  if upper = "" then lower else if lower = "" then upper else upper ++ "/" ++ lower

@[simp] theorem empty_under (lower : String) : under "" lower = lower := by simp [under]

@[simp] theorem under_empty (upper : String) : under upper "" = upper := by
  by_cases h : upper = "" <;> simp [under, h]

theorem under_of_ne {upper lower : String} (hupper : upper ≠ "") (hlower : lower ≠ "") :
    under upper lower = upper ++ "/" ++ lower := by
  simp [under, hupper, hlower]

theorem under_assoc (first second third : String) :
    under (under first second) third = under first (under second third) := by
  by_cases hfirst : first = ""
  · simp [hfirst]
  by_cases hsecond : second = ""
  · simp [hsecond]
  by_cases hthird : third = ""
  · simp [hthird]
  simp [under, hfirst, hsecond, hthird, String.append_assoc]

theorem bare_under {upper lower : String} (hupper : Bare upper) (hlower : Bare lower) :
    Bare (under upper lower) := by
  by_cases hu : upper = ""
  · simpa [hu] using hlower
  by_cases hl : lower = ""
  · simpa [hl] using hupper
  have hhead : upper.toList ≠ [] := by simpa using hu
  have hlast : lower.toList ≠ [] := by simpa using hl
  rw [under_of_ne hu hl, Bare, String.toList_append, String.toList_append]
  constructor
  · rw [List.append_assoc, List.head?_append_of_ne_nil _ hhead]
    exact hupper.1
  · rw [List.getLast?_append_of_ne_nil _ hlast]
    exact hlower.2

/-! ## Joining -/

theorem joinPath_nil : joinPath [] = "" := rfl

theorem joinPath_cons (part : String) (parts : List String) :
    joinPath (part :: parts) = under (Text.trimBoth '/' part) (joinPath parts) := by
  have hkept (texts : List String) (h : texts ≠ []) (hall : ∀ text ∈ texts, text ≠ "") :
      "/".intercalate texts ≠ "" := by
    cases texts with
    | nil => exact absurd rfl h
    | cons text texts =>
        have htext := hall text List.mem_cons_self
        cases texts <;> simp [String.intercalate_cons_cons, htext]
  by_cases hpart : Text.trimBoth '/' part = ""
  · simp [joinPath, hpart]
  by_cases hparts : (parts.map (Text.trimBoth '/')).filter (!·.isEmpty) = []
  · simp [joinPath, hpart, hparts]
  · have hjoined : joinPath parts ≠ "" := hkept _ hparts (by simp)
    have hfirst : ((part :: parts).map (Text.trimBoth '/')).filter (!·.isEmpty) =
        Text.trimBoth '/' part :: (parts.map (Text.trimBoth '/')).filter (!·.isEmpty) := by
      simp [hpart]
    rw [under_of_ne hpart hjoined, joinPath, hfirst, String.intercalate_cons_of_ne_nil hparts]
    rfl

theorem joinPath_append (parts others : List String) :
    joinPath (parts ++ others) = under (joinPath parts) (joinPath others) := by
  induction parts with
  | nil => simp [joinPath_nil]
  | cons part parts ih => rw [List.cons_append, joinPath_cons, joinPath_cons, ih, under_assoc]

theorem bare_joinPath (parts : List String) : Bare (joinPath parts) := by
  induction parts with
  | nil => exact bare_empty
  | cons part parts ih =>
      rw [joinPath_cons]
      exact bare_under (bare_trimBoth part) ih

theorem joinPath_joined (parts others : List String) :
    joinPath [joinPath parts, joinPath others] = joinPath (parts ++ others) := by
  rw [joinPath_cons, joinPath_cons, joinPath_nil, under_empty, trimBoth_of_bare (bare_joinPath _),
    trimBoth_of_bare (bare_joinPath _), joinPath_append]

/-! ## Components -/

/-- What stands between the slashes of a path; the empty path has no components. -/
def components (text : String) : List (List Char) :=
  if text = "" then [] else text.toList.splitOn '/'

theorem components_under (upper lower : String) :
    components (under upper lower) = components upper ++ components lower := by
  by_cases hupper : upper = ""
  · simp [hupper, components]
  by_cases hlower : lower = ""
  · simp [hlower, components]
  rw [under_of_ne hupper hlower, components, if_neg (by simp), components, if_neg hupper,
    components, if_neg hlower, String.toList_append, String.toList_append, List.append_assoc]
  exact List.splitOn_append_cons_self _ _

theorem components_joinPath (parts : List String) :
    components (joinPath parts) =
      parts.flatMap fun part => components (Text.trimBoth '/' part) := by
  induction parts with
  | nil => rfl
  | cons part parts ih => rw [joinPath_cons, components_under, ih, List.flatMap_cons]

theorem of_nil_mem_splitOn {cs : List Char} (h : [] ∈ cs.splitOn '/') :
    cs = [] ∨ cs.head? = some '/' ∨ cs.getLast? = some '/' ∨ ['/', '/'] <:+: cs := by
  by_cases hslash : '/' ∈ cs
  · obtain ⟨before, after, rfl, hbefore⟩ := List.eq_append_cons_of_mem hslash
    rw [List.splitOn_append_cons_self_of_not_mem hbefore] at h
    rcases List.mem_cons.mp h with rfl | hafter
    · exact .inr (.inl rfl)
    rcases of_nil_mem_splitOn hafter with rfl | hhead | hlast | hdouble
    · exact .inr (.inr (.inl (by simp)))
    · obtain ⟨rest, rfl⟩ := List.head?_eq_some_iff.mp hhead
      exact .inr (.inr (.inr ⟨before, rest, by simp⟩))
    · exact .inr (.inr (.inl (by simp [List.getLast?_append, List.getLast?_cons, hlast])))
    · exact .inr (.inr (.inr (hdouble.trans ⟨before ++ ['/'], [], by simp⟩)))
  · rw [List.splitOn_eq_singleton hslash, List.mem_singleton] at h
    exact .inl h.symm
termination_by cs.length

theorem nil_mem_components_iff {text : String} (h : Bare text) :
    [] ∈ components text ↔ ['/', '/'] <:+: text.toList := by
  by_cases hempty : text = ""
  · simp [components, hempty]
  rw [components, if_neg hempty]
  constructor
  · intro hnil
    rcases of_nil_mem_splitOn hnil with hnone | hhead | hlast | hdouble
    · exact absurd hnone (by simpa using hempty)
    · exact absurd hhead h.1
    · exact absurd hlast h.2
    · exact hdouble
  · rintro ⟨before, after, htext⟩
    rw [← htext, List.append_assoc, List.cons_append, List.splitOn_append_cons_self,
      List.singleton_append, List.splitOn_cons_eq_if_modifyHead, if_pos (by simp)]
    simp

/-! ## The path of a call -/

namespace Endpoint

theorem join_below (parts : List String) :
    String.join (parts.map below) = if joinPath parts = "" then "" else "/" ++ joinPath parts := by
  induction parts with
  | nil => rfl
  | cons part parts ih =>
      rw [List.map_cons, String.join_cons, ih, joinPath_cons, below]
      by_cases hpart : Text.trimBoth '/' part = ""
      · simp [hpart]
      by_cases hparts : joinPath parts = ""
      · simp [hpart, hparts]
      · simp [hpart, hparts, under_of_ne, String.append_assoc]

theorem trimBoth_joined (root : String) (parts : List String) :
    Text.trimBoth '/' (joined root parts) = joinPath (root :: parts) := by
  obtain ⟨m, hroot⟩ := exists_trimEnd_eq root
  have hbare := bare_under (bare_trimBoth root) (bare_joinPath parts)
  rw [joinPath_cons, joined, join_below]
  by_cases hparts : joinPath parts = ""
  · refine trimBoth_eq_of_bare (m := m) (n := 0) hbare ?_
    simp [hparts, hroot]
  by_cases htop : Text.trimBoth '/' root = ""
  · -- The slash in front of the first part joins those of the root.
    refine trimBoth_eq_of_bare (m := m + 1) (n := 0) hbare ?_
    simp [hparts, hroot, htop, List.replicate_succ']
  · refine trimBoth_eq_of_bare (m := m) (n := 0) hbare ?_
    simp [hparts, hroot, under_of_ne htop hparts]

theorem trimBoth_joinUnder (root : String) (parts : List String) :
    Text.trimBoth '/' (joinUnder root parts) = joinPath (root :: parts) := by
  rw [← trimBoth_joined, joinUnder_eq]
  split
  next hempty =>
    rw [hempty]
    decide
  next => rfl

theorem joinPath_of_build {apiRoot segment pathPrefix path : String} {params query : Json}
    {endpoint : Endpoint}
    (h : build apiRoot segment pathPrefix path params query = .ok endpoint) :
    joinPath [apiRoot, segment, pathPrefix, resolve params (PathPiece.ofPath path)] =
      Text.trimBoth '/' endpoint.path := by
  obtain ⟨-, hpath, -⟩ := build_eq_ok_iff.mp h
  rw [hpath, trimBoth_joinUnder]

end Endpoint

/-- What is shown of a call is the path that is called, but for the slashes around it.  Parts can be
joined in any grouping.  No slash stands at an end of a joined path, its components are those of the
trimmed parts, and one of them is empty just if two slashes come together inside a part. -/
theorem joinPath_agrees (apiRoot segment pathPrefix path : String) (params query : Json)
    (parts others : List String) :
    (∀ endpoint, Endpoint.build apiRoot segment pathPrefix path params query = .ok endpoint →
      joinPath [apiRoot, segment, pathPrefix, Endpoint.resolve params (PathPiece.ofPath path)] =
        Text.trimBoth '/' endpoint.path) ∧
    joinPath (parts ++ others) = joinPath [joinPath parts, joinPath others] ∧
    Bare (joinPath parts) ∧
    components (joinPath parts) =
      parts.flatMap (fun part => components (Text.trimBoth '/' part)) ∧
    ([] ∈ components (joinPath parts) ↔
      ∃ part ∈ parts, ['/', '/'] <:+: (Text.trimBoth '/' part).toList) := by
  refine ⟨fun endpoint => Endpoint.joinPath_of_build, (joinPath_joined parts others).symm,
    bare_joinPath parts, components_joinPath parts, ?_⟩
  simp only [components_joinPath, List.mem_flatMap, nil_mem_components_iff (bare_trimBoth _)]

theorem joinPath_agrees_slashes :
    Endpoint.build "//api/" "/" "a//b/" ":id/" (.obj [("id", .int 7)]) .null =
        .ok ⟨"//api/a//b/7", ""⟩ ∧
      joinPath ["//api/", "/", "a//b/", "7/"] = "api/a//b/7" := by
  have hpieces : PathPiece.ofPath ":id/" = [.placeholder "id", .char '/'] := by
    have hname : PathPiece.placeholder? ":id/".toList = some ("id", ['/']) := rfl
    have hslash : PathPiece.placeholder? ['/'] = none := rfl
    rw [PathPiece.ofPath, PathPiece.ofChars_of_some hname, PathPiece.ofChars_of_none hslash,
      PathPiece.ofChars_nil]
  have hbuild : Endpoint.build "//api/" "/" "a//b/" ":id/" (.obj [("id", .int 7)]) .null =
      .ok ⟨"//api/a//b/7", ""⟩ := by
    rw [Endpoint.build, hpieces]
    rfl
  have hshown := (joinPath_agrees "//api/" "/" "a//b/" ":id/" _ _ [] []).1 _ hbuild
  rw [hpieces] at hshown
  exact ⟨hbuild, hshown⟩

end RpcContract
