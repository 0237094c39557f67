import Mathlib.Data.List.Basic
import RpcContract.Proofs.Files.Targets

/-!
# Trees without links

Without links a path leads where its pieces say, one after the other.  Paths in one directory that
are made of names then lead to one file only if they are the same path.
-/

namespace RpcContract

def IsName (name : String) : Prop := name ≠ "" ∧ name ≠ "." ∧ name ≠ ".." ∧ '/' ∉ name.toList

instance decIsName (name : String) : Decidable (IsName name) :=
  inferInstanceAs (Decidable (_ ∧ _ ∧ _ ∧ _))

/-! ## Pieces of paths -/

namespace Path

theorem splitSlash_eq_splitOn (cs : List Char) : splitSlash cs = cs.splitOn '/' := by
  induction cs with
  | nil => rfl
  | cons c rest ih =>
      rw [splitSlash, ih, List.splitOn, List.splitOn, List.splitOnP_cons_eq_if_modifyHead]
      by_cases hslash : c = '/'
      · simp [hslash]
      · simp only [hslash, if_false, beq_iff_eq]
        cases hrest : List.splitOnP (fun x => x == '/') rest with
        | nil => exact absurd hrest (List.splitOnP_ne_nil _ _)
        | cons piece pieces => rfl

theorem pieces_eq_splitOn (path : Path) :
    path.pieces = (path.text.toList.splitOn '/').map String.ofList := by
  rw [pieces, splitSlash_eq_splitOn]

theorem not_mem_of_mem_pieces {path : Path} {piece : String} (h : piece ∈ path.pieces) :
    '/' ∉ piece.toList := by
  have hsplit (cs : List Char) : ∀ part ∈ splitSlash cs, '/' ∉ part := by
    induction cs with
    | nil => simp [splitSlash]
    | cons c rest ih =>
        rw [splitSlash]
        by_cases hslash : c = '/'
        · rw [if_pos hslash]
          simpa using ih
        · rw [if_neg hslash]
          cases hrest : splitSlash rest with
          | nil => simpa using Ne.symm hslash
          | cons first others =>
              rw [hrest] at ih
              simpa [Ne.symm hslash] using ih
  obtain ⟨part, hpart, rfl⟩ := List.mem_map.mp h
  rw [String.toList_ofList]
  exact hsplit _ part hpart

theorem mem_pieces_of_fileName? {path : Path} {name : String} (h : path.fileName? = some name) :
    name ∈ path.pieces := by
  have hinner {piece : String} (hpiece : inner? piece = some (.name name)) : name = piece := by
    unfold inner? at hpiece
    split at hpiece
    · cases hpiece
    · split at hpiece <;> cases hpiece
      rfl
  have hname : .name name ∈ path.components := by
    unfold fileName? at h
    split at h
    · next last hlast =>
        cases h
        exact List.mem_of_getLast? hlast
    · cases h
  unfold components at hname
  cases hpieces : path.pieces with
  | nil =>
      rw [hpieces] at hname
      cases hname
  | cons first rest =>
      rw [hpieces] at hname
      rcases List.mem_append.mp hname with hfirst | hrest
      · split at hfirst
        · split at hfirst <;> simp at hfirst
        · split at hfirst
          · simp at hfirst
          · rw [hinner (Option.mem_toList.mp hfirst)]
            exact List.mem_cons_self
      · obtain ⟨piece, hpiece, hname⟩ := List.mem_filterMap.mp hrest
        rw [hinner hname]
        exact List.mem_cons_of_mem _ hpiece

theorem pieces_ne_nil (path : Path) : path.pieces ≠ [] := by
  simp [pieces_eq_splitOn, List.splitOn_ne_nil]

theorem pieces_injective {path other : Path} (h : path.pieces = other.pieces) : path = other := by
  rw [pieces_eq_splitOn, pieces_eq_splitOn] at h
  have hsplit := List.map_injective_iff.mpr (fun _ _ => String.ofList_injective) h
  have htext := congrArg (List.intercalate ['/']) hsplit
  rw [List.intercalate_splitOn, List.intercalate_splitOn] at htext
  cases path
  cases other
  simpa using String.toList_injective htext

theorem pieces_append_slash (first second : List Char) :
    (⟨String.ofList (first ++ '/' :: second)⟩ : Path).pieces =
      (⟨String.ofList first⟩ : Path).pieces ++ (⟨String.ofList second⟩ : Path).pieces := by
  simp only [pieces_eq_splitOn, String.toList_ofList, List.splitOn]
  rw [List.splitOnP_append_cons _ _ (by simp), List.map_append]

theorem pieces_intercalate {names : List String} (hne : names ≠ [])
    (hnames : ∀ name ∈ names, '/' ∉ name.toList) :
    (⟨"/".intercalate names⟩ : Path).pieces = names := by
  have hslash : "/".toList = ['/'] := by decide
  rw [pieces_eq_splitOn, String.toList_intercalate, hslash,
    List.splitOn_intercalate _ ?_ (by simpa)]
  · simp
  · intro cs hcs
    obtain ⟨name, hname, rfl⟩ := List.mem_map.mp hcs
    exact hnames name hname

theorem pieces_of_not_mem {cs : List Char} (h : '/' ∉ cs) :
    (⟨String.ofList cs⟩ : Path).pieces = [String.ofList cs] := by
  rw [pieces_eq_splitOn, String.toList_ofList, List.splitOn_eq_singleton h]
  rfl

theorem exists_last_slash {cs : List Char} (h : '/' ∈ cs) :
    ∃ first last, cs = first ++ '/' :: last ∧ '/' ∉ last := by
  obtain ⟨last, first, hcs, hlast⟩ := List.eq_append_cons_of_mem (List.mem_reverse.mpr h)
  exact ⟨first.reverse, last.reverse, by simpa using congrArg List.reverse hcs, by simpa⟩

/-- What is written behind a path without a slash belongs to its last piece. -/
theorem dropLast_pieces_append (cs : List Char) {suffix : List Char} (h : '/' ∉ suffix) :
    (⟨String.ofList (cs ++ suffix)⟩ : Path).pieces.dropLast =
      (⟨String.ofList cs⟩ : Path).pieces.dropLast := by
  by_cases hslash : '/' ∈ cs
  · obtain ⟨first, last, rfl, hlast⟩ := exists_last_slash hslash
    have hend : '/' ∉ last ++ suffix := by simp [h, hlast]
    rw [List.append_assoc, List.cons_append, pieces_append_slash, pieces_append_slash,
      pieces_of_not_mem hlast, pieces_of_not_mem hend, List.dropLast_concat, List.dropLast_concat]
  · have hend : '/' ∉ cs ++ suffix := by simp [h, hslash]
    rw [pieces_of_not_mem hslash, pieces_of_not_mem hend]
    rfl

/-- All pieces but the last are names. -/
def Named (path : Path) : Prop := ∀ piece ∈ path.pieces.dropLast, IsName piece

instance decNamed (path : Path) : Decidable path.Named :=
  inferInstanceAs (Decidable (∀ piece ∈ path.pieces.dropLast, IsName piece))

theorem Named.not_isAbsolute {path : Path} (h : path.Named) : path.isAbsolute = false := by
  unfold isAbsolute
  cases hcs : path.text.toList with
  | nil => rfl
  | cons c rest =>
      by_cases hslash : c = '/'
      · subst hslash
        have hpieces := pieces_append_slash [] rest
        have htext : (⟨String.ofList ([] ++ '/' :: rest)⟩ : Path) = path := by
          cases path
          simpa using congrArg String.ofList hcs.symm
        rw [htext] at hpieces
        refine absurd rfl (h "" ?_).1
        rw [hpieces, List.dropLast_append_of_ne_nil (pieces_ne_nil _)]
        exact List.mem_append_left _ (by decide)
      · simpa using hslash

theorem pieces_join (path : Path) : ∃ base, ∀ rest : Path, rest.isAbsolute = false →
    (path.join rest).pieces = base ++ rest.pieces := by
  by_cases hempty : path.text.isEmpty = true
  · refine ⟨[], fun rest hrest => ?_⟩
    have htext : path.text = "" := by simpa using hempty
    simp [join, hrest, htext]
  by_cases hslash : path.text.toList.getLast? = some '/'
  · obtain ⟨first, hfirst⟩ := List.getLast?_eq_some_iff.mp hslash
    refine ⟨(⟨String.ofList first⟩ : Path).pieces, fun rest hrest => ?_⟩
    have htext : path.text ++ rest.text = String.ofList (first ++ '/' :: rest.text.toList) := by
      apply String.toList_injective
      simp [hfirst]
    rw [join, hrest, hslash, htext]
    simpa using pieces_append_slash first rest.text.toList
  · refine ⟨path.pieces, fun rest hrest => ?_⟩
    have htext : path.text ++ "/" ++ rest.text =
        String.ofList (path.text.toList ++ '/' :: rest.text.toList) := by
      apply String.toList_injective
      simp
    have hbase : (path.text.isEmpty || path.text.toList.getLast? == some '/') = false := by
      simp [hslash, hempty]
    rw [join, hrest, hbase, htext]
    simpa using pieces_append_slash path.text.toList rest.text.toList

theorem isAbsolute_join (path : Path) {rest : Path} (h : rest.isAbsolute = false) :
    (path.join rest).isAbsolute = path.isAbsolute := by
  unfold join
  rw [h]
  by_cases hempty : path.text = ""
  · simpa [isAbsolute, hempty] using h
  · have hne : path.text.toList ≠ [] := by simpa using hempty
    obtain ⟨c, cs, hcs⟩ := List.exists_cons_of_ne_nil hne
    rw [if_neg (by simp)]
    split <;> simp [isAbsolute, hcs]

end Path

namespace FileTree

variable {tree before after : FileTree} {entries : List (Location × FileNode)}
  {location place : Location} {path : Path}

/-! ## Following without links -/

def Linkless (tree : FileTree) : Prop :=
  ∀ location target, tree.node? location ≠ some (.link target)

/-- A tree without links, in which only names are names. -/
structure Plain (tree : FileTree) : Prop where
  links : ∀ entry ∈ tree.nodes, ∀ target, entry.2 ≠ .link target
  names : ∀ entry ∈ tree.nodes, ∀ name ∈ entry.1, IsName name

theorem Plain.linkless (h : tree.Plain) : tree.Linkless := by
  intro location target hnode
  by_cases hroot : location = []
  · subst hroot
    cases hnode
  · rw [node?_eq_lookupNode hroot] at hnode
    exact h.links _ (mem_of_lookupNode hnode) target rfl

theorem Grows.linkless (h : Grows before entries after) (hbefore : before.Linkless)
    (hentries : ∀ entry ∈ entries, ∀ target, entry.2 ≠ .link target) : after.Linkless := by
  induction h with
  | none => exact hbefore
  | @insert before after place node rest haccepts _ ih =>
      refine ih (fun location target hnode => ?_) fun entry hentry =>
        hentries entry (by simp [hentry])
      rw [node?_insert haccepts.1] at hnode
      by_cases hplace : location = place
      · rw [if_pos hplace] at hnode
        exact hentries (place, node) (by simp) target (Option.some.inj hnode)
      · rw [if_neg hplace] at hnode
        exact hbefore location target hnode

def descend : Location → List String → Location
  | location, [] => location
  | location, piece :: rest =>
      if piece = "" ∨ piece = "." then descend location rest
      else if piece = ".." then descend location.dropLast rest
      else descend (location ++ [piece]) rest

theorem descend_append (location : Location) (first second : List String) :
    descend location (first ++ second) = descend (descend location first) second := by
  induction first generalizing location with
  | nil => rfl
  | cons piece rest ih =>
      rw [List.cons_append, descend, descend]
      split
      · exact ih location
      · split
        · exact ih location.dropLast
        · exact ih (location ++ [piece])

theorem descend_names {pieces : List String}
    (h : ∀ piece ∈ pieces, piece ≠ "" ∧ piece ≠ "." ∧ piece ≠ "..") (location : Location) :
    descend location pieces = location ++ pieces := by
  induction pieces generalizing location with
  | nil => simp [descend]
  | cons piece rest ih =>
      obtain ⟨hempty, hhere, hup⟩ := h piece (by simp)
      rw [descend, if_neg (by simp [hempty, hhere]), if_neg hup,
        ih (fun other hother => h other (by simp [hother]))]
      simp

/-- Without links a target is where the pieces say, and the last piece is a name. -/
theorem Linkless.follow_goes {again : Following} (h : tree.Linkless) (location : Location)
    (pieces : List String) (hgoes : Goes (follow again tree true location pieces) place) :
    place = descend location pieces ∧ ∃ first last, pieces = first ++ [last] ∧ Names last := by
  have hcons (piece : String) {rest : List String}
      (hlast : ∃ first last, rest = first ++ [last] ∧ Names last) :
      ∃ first last, piece :: rest = first ++ [last] ∧ Names last := by
    obtain ⟨first, last, rfl, hnames⟩ := hlast
    exact ⟨piece :: first, last, rfl, hnames⟩
  induction location, pieces using follow_induction with
  | done location => simp [follow, Goes] at hgoes
  | stay location piece rest hstay ih =>
      rw [follow_stay hstay] at hgoes
      rw [descend, if_pos hstay]
      exact (ih hgoes).imp_right (hcons piece)
  | up location rest ih =>
      rw [follow_up] at hgoes
      rw [descend, if_neg (by decide), if_pos rfl]
      exact (ih hgoes).imp_right (hcons "..")
  | tooLong location piece rest hstay hup hlong =>
      rw [follow_tooLong hstay hup hlong] at hgoes
      simp [Goes] at hgoes
  | names location piece rest hnames ih =>
      rw [follow_names hnames] at hgoes
      rw [descend, if_neg hnames.1, if_neg hnames.2.1]
      cases hnode : tree.node? (location ++ [piece]) with
      | none =>
          rw [hnode] at hgoes
          cases rest with
          | nil =>
              obtain rfl : location ++ [piece] = place := by simpa [Goes] using hgoes
              exact ⟨rfl, [], piece, rfl, hnames⟩
          | cons next rest =>
              cases hrest : (next :: rest).all String.isEmpty <;> simp [Goes, hrest] at hgoes
      | some node =>
          rw [hnode] at hgoes
          cases node with
          | dir => exact (ih hgoes).imp_right (hcons piece)
          | link target => exact absurd hnode (h _ target)
          | file content =>
              cases rest with
              | nil =>
                  obtain rfl : location ++ [piece] = place := by simpa [Goes] using hgoes
                  exact ⟨rfl, [], piece, rfl, hnames⟩
              | cons next rest => simp [Goes] at hgoes

theorem Linkless.target (h : tree.Linkless) (htarget : tree.Target path place) :
    place = descend (tree.startOf path) path.pieces ∧
      ∃ first last, path.pieces = first ++ [last] ∧ Names last := by
  have hwalk : Goes (walk tree true linkLimit (tree.startOf path) path.pieces) place := by
    unfold Target Goes at *
    simp only [find, findPieces_eq_ok_iff] at htarget
    exact htarget.imp And.right (Exists.imp fun _ => And.right)
  exact h.follow_goes _ _ hwalk

/-- In a directory a target keeps the pieces of its path, if these are names. -/
theorem Linkless.target_join (h : tree.Linkless) (dir : Path) :
    ∃ base : Location, ∀ (out : Path) (place : Location), out.Named →
      tree.Target (dir.join out) place → place = base ++ out.pieces := by
  obtain ⟨base, hbase⟩ := dir.pieces_join
  refine ⟨descend (if dir.isAbsolute then [] else tree.current) base,
    fun out place hout htarget => ?_⟩
  have hrelative := hout.not_isAbsolute
  obtain ⟨hplace, first, last, hlast, hnames⟩ := h.target htarget
  rw [hbase out hrelative] at hplace hlast
  have hspecial : ∀ piece ∈ out.pieces, piece ≠ "" ∧ piece ≠ "." ∧ piece ≠ ".." := by
    intro piece hpiece
    rw [← List.dropLast_concat_getLast (Path.pieces_ne_nil out)] at hpiece hlast
    rcases List.mem_append.mp hpiece with hfirst | hend
    · obtain ⟨hempty, hhere, hup, -⟩ := hout piece hfirst
      exact ⟨hempty, hhere, hup⟩
    · rw [← List.append_assoc] at hlast
      obtain ⟨-, hsame⟩ := List.append_inj' hlast rfl
      rw [hsame, List.mem_singleton] at hend
      subst hend
      exact ⟨fun hempty => hnames.1 (.inl hempty), fun hhere => hnames.1 (.inr hhere), hnames.2.1⟩
  rw [hplace, startOf, dir.isAbsolute_join hrelative, descend_append, descend_names hspecial]

theorem Linkless.join_inj (h : tree.Linkless) {dir : Path} {out other : Path} (hout : out.Named)
    (hother : other.Named) (htarget : tree.Target (dir.join out) place)
    (htarget' : tree.Target (dir.join other) place) : out = other := by
  obtain ⟨base, hbase⟩ := h.target_join dir
  have hsame := (hbase out place hout htarget).symm.trans (hbase other place hother htarget')
  exact Path.pieces_injective (List.append_cancel_left hsame)

/-! ## What a path names -/

/-- A path leads to a file at a location once there are directories and files on its way. -/
def Denotes (tree : FileTree) (path : Path) (location : Location) : Prop :=
  ∃ entries after content, Grows tree entries after ∧
    (∀ entry ∈ entries, ∀ target, entry.2 ≠ .link target) ∧ after.Leads path location content

theorem Linkless.denotes (h : tree.Linkless) (hdenotes : tree.Denotes path location) :
    location = descend (tree.startOf path) path.pieces := by
  obtain ⟨entries, after, content, hgrows, hentries, hleads⟩ := hdenotes
  have hlocation := ((hgrows.linkless h hentries).target hleads.target).1
  rwa [startOf, hgrows.current_eq] at hlocation

end FileTree

end RpcContract
