import RpcContract.Proofs.Files.Plain

/-!
# The last name of a path

A path that leads to something that is no directory ends in the name of a file, also where links
stand on its way.  What the text of such a path ends in, its name ends in.
-/

namespace RpcContract

theorem suffix_append_slash_iff {suffix before last : List Char} (h : '/' ∉ suffix) :
    suffix <:+ before ++ '/' :: last ↔ suffix <:+ last := by
  refine ⟨fun hsuffix => ?_, fun hsuffix => ?_⟩
  · rcases List.suffix_or_suffix_of_suffix hsuffix (List.suffix_append before ('/' :: last))
      with hshort | hlong
    · rcases List.suffix_cons_iff.mp hshort with rfl | hlast
      · exact absurd List.mem_cons_self h
      · exact hlast
    · exact absurd (hlong.subset List.mem_cons_self) h
  · exact hsuffix.trans ((List.suffix_cons '/' last).trans (List.suffix_append _ _))

namespace Path

variable {path : Path} {first : List String} {last : String}

theorem toList_of_pieces (h : path.pieces = first ++ [last]) :
    path.text.toList = last.toList ∨
      ∃ before, path.text.toList = before ++ '/' :: last.toList := by
  have htext : (⟨String.ofList path.text.toList⟩ : Path) = path := by rw [String.ofList_toList]
  by_cases hslash : '/' ∈ path.text.toList
  · obtain ⟨before, name, hsplit, hname⟩ := exists_last_slash hslash
    rw [← htext, hsplit, pieces_append_slash, pieces_of_not_mem hname] at h
    obtain ⟨-, hsame⟩ := List.append_inj' h rfl
    obtain rfl : String.ofList name = last := by simpa using hsame
    exact .inr ⟨before, by rw [hsplit, String.toList_ofList]⟩
  · rw [← htext, pieces_of_not_mem hslash, String.ofList_toList] at h
    obtain ⟨-, hsame⟩ := List.append_inj' (show [] ++ [_] = first ++ [last] from h) rfl
    exact .inl (by rw [List.cons.inj hsame |>.1])

theorem suffix_text_iff {suffix : List Char} (hsuffix : '/' ∉ suffix)
    (h : path.pieces = first ++ [last]) :
    suffix <:+ path.text.toList ↔ suffix <:+ last.toList := by
  rcases toList_of_pieces h with htext | ⟨before, htext⟩
  · rw [htext]
  · rw [htext, suffix_append_slash_iff hsuffix]

theorem suffix_join_iff {suffix : List Char} (hsuffix : '/' ∉ suffix) (base rest : Path) :
    suffix <:+ (base.join rest).text.toList ↔ suffix <:+ rest.text.toList := by
  unfold join
  by_cases habsolute : rest.isAbsolute = true
  · rw [if_pos habsolute]
  rw [if_neg habsolute]
  by_cases hempty : base.text.isEmpty = true
  · have htext : base.text = "" := by simpa using hempty
    simp [htext]
  by_cases hslash : base.text.toList.getLast? = some '/'
  · obtain ⟨before, hbefore⟩ := List.getLast?_eq_some_iff.mp hslash
    have hjoined : (base.text ++ rest.text).toList = before ++ '/' :: rest.text.toList := by
      simp [hbefore]
    rw [if_pos (by simp [hslash]), hjoined, suffix_append_slash_iff hsuffix]
  · have hjoined : (base.text ++ "/" ++ rest.text).toList =
        base.text.toList ++ '/' :: rest.text.toList := by simp
    rw [if_neg (by simp [hslash, hempty]), hjoined, suffix_append_slash_iff hsuffix]

theorem inner?_of_names (h : FileTree.Names last) : inner? last = some (.name last) := by
  rw [inner?, if_neg h.1, if_neg h.2.1]

theorem fileName?_of_pieces (h : path.pieces = first ++ [last]) (hlast : FileTree.Names last) :
    path.fileName? = some last := by
  have hcomponents : ∃ before, path.components = before ++ [.name last] := by
    unfold components
    rw [h]
    cases first with
    | nil =>
        obtain ⟨hempty, hhere⟩ := not_or.mp hlast.1
        exact ⟨[], by simp [hempty, hhere, inner?_of_names hlast]⟩
    | cons piece rest =>
        simp only [List.cons_append, List.filterMap_append, List.filterMap_cons,
          inner?_of_names hlast, List.filterMap_nil]
        exact ⟨_, (List.append_assoc _ _ _).symm⟩
  obtain ⟨before, hbefore⟩ := hcomponents
  simp [fileName?, hbefore]

end Path

namespace FileTree

variable {tree : FileTree} {place : Location} {node : FileNode} {path : Path}

theorem follow_last {again : Following} {final : Bool}
    (hagain : ∀ location pieces, again location pieces = .ok (.node place node) →
      ∃ first last, pieces = first ++ [last] ∧ Names last)
    (hdir : node ≠ .dir) (location : Location) (pieces : List String)
    (h : follow again tree final location pieces = .ok (.node place node)) :
    ∃ first last, pieces = first ++ [last] ∧ Names last := by
  have hcons (piece : String) {rest : List String}
      (hlast : ∃ first last, rest = first ++ [last] ∧ Names last) :
      ∃ first last, piece :: rest = first ++ [last] ∧ Names last := by
    obtain ⟨first, last, rfl, hnames⟩ := hlast
    exact ⟨piece :: first, last, rfl, hnames⟩
  induction location, pieces using follow_induction with
  | done location =>
      cases h
      exact absurd rfl hdir
  | stay location piece rest hstay ih =>
      rw [follow_stay hstay] at h
      exact hcons piece (ih h)
  | up location rest ih =>
      rw [follow_up] at h
      exact hcons ".." (ih h)
  | tooLong location piece rest hstay hup hlong =>
      rw [follow_tooLong hstay hup hlong] at h
      cases h
  | names location piece rest hnames ih =>
      -- Where nothing is left to follow, the piece itself is the name.
      cases rest with
      | nil => exact ⟨[], piece, rfl, hnames⟩
      | cons next rest =>
          rw [follow_names hnames] at h
          split at h
          · split at h <;> cases h
          · exact hcons piece (ih h)
          · cases h
          · obtain ⟨first, last, hpieces, hlast⟩ := hagain _ _ (by simpa using h)
            refine hcons piece ?_
            rcases List.eq_nil_or_concat (next :: rest) with hnil | ⟨before, name, hname⟩
            · cases hnil
            · rw [List.concat_eq_append] at hname
              rw [hname, ← List.append_assoc] at hpieces
              obtain ⟨-, hsame⟩ := List.append_inj' hpieces rfl
              exact ⟨before, last, by rw [hname, List.cons.inj hsame |>.1], hlast⟩

theorem walk_last {final : Bool} (hdir : node ≠ .dir) (links : Nat) (location : Location)
    (pieces : List String) (h : walk tree final links location pieces = .ok (.node place node)) :
    ∃ first last, pieces = first ++ [last] ∧ Names last := by
  induction links generalizing location pieces with
  | zero => exact follow_last (by simp) hdir location pieces h
  | succ links ih => exact follow_last ih hdir location pieces h

theorem pieces_of_find {final : Bool} (h : tree.find final path = .ok (.node place node))
    (hdir : node ≠ .dir) : ∃ first last, path.pieces = first ++ [last] ∧ Names last :=
  walk_last hdir _ _ _ (findPieces_eq_ok_iff.mp h).2

end FileTree

end RpcContract
