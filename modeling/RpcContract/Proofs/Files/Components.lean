import Mathlib.Data.List.TakeWhile
import RpcContract.Proofs.Files.Plain
import RpcContract.Proofs.Files.Writing

/-!
# Components of paths

Whether there is a directory at a path depends on the components of the path alone.  The parent of
a path has all its components but the last.
-/

namespace RpcContract

namespace Path

variable {path other parent : Path} {cs : List Char}

/-! ## Pieces and components -/

/-- A piece that leads from a directory to itself. -/
def Stays (piece : String) : Prop := piece = "" ∨ piece = "."

instance decStays (piece : String) : Decidable (Stays piece) :=
  inferInstanceAs (Decidable (_ ∨ _))

/-- The pieces that lead to another directory. -/
def solid (pieces : List String) : List String := pieces.filter fun piece => ¬ Stays piece

/-- The component of a piece that leads to another directory. -/
def turn (piece : String) : Component := if piece = ".." then .up else .name piece

theorem turn_injective : Function.Injective turn := by
  intro piece piece' h
  unfold turn at h
  split at h <;> split at h <;> simp_all

theorem solid_cons_of_stays {piece : String} {rest : List String} (h : Stays piece) :
    solid (piece :: rest) = solid rest := List.filter_cons_of_neg (by simpa using h)

theorem solid_cons_of_not_stays {piece : String} {rest : List String} (h : ¬ Stays piece) :
    solid (piece :: rest) = piece :: solid rest := List.filter_cons_of_pos (by simpa using h)

theorem solid_append (pieces others : List String) :
    solid (pieces ++ others) = solid pieces ++ solid others := List.filter_append ..

theorem solid_solid (pieces : List String) : solid (solid pieces) = solid pieces := by
  simp [solid]

theorem inner?_of_stays {piece : String} (h : Stays piece) : inner? piece = none := if_pos h

theorem inner?_of_not_stays {piece : String} (h : ¬ Stays piece) :
    inner? piece = some (turn piece) := by
  unfold inner? turn
  exact (if_neg h).trans (by split <;> rfl)

theorem filterMap_inner? (pieces : List String) :
    pieces.filterMap inner? = (solid pieces).map turn := by
  induction pieces with
  | nil => rfl
  | cons piece rest ih =>
      by_cases hstays : Stays piece
      · rw [List.filterMap_cons_none (inner?_of_stays hstays), ih, solid_cons_of_stays hstays]
      · rw [List.filterMap_cons_some (inner?_of_not_stays hstays), ih,
          solid_cons_of_not_stays hstays, List.map_cons]

/-- The component that a path may start with before all others. -/
def lead : List String → List Component
  | "" :: _ :: _ => [.root]
  | "." :: _ => [.here]
  | _ => []

theorem lead_cons (first : String) (rest : List String) : lead (first :: rest) =
    if first = "" ∧ rest ≠ [] then [.root] else if first = "." then [.here] else [] := by
  by_cases hempty : first = ""
  · subst hempty
    cases rest <;> rfl
  · unfold lead
    split <;> simp_all

theorem lead_eq_root_iff {first : String} {rest : List String} :
    lead (first :: rest) = [.root] ↔ first = "" ∧ rest ≠ [] := by
  rw [lead_cons]
  split
  · next hroot => exact iff_of_true rfl hroot
  · next hroot => exact iff_of_false (by split <;> simp) hroot

theorem components_eq (path : Path) :
    path.components = lead path.pieces ++ (solid path.pieces).map turn := by
  rw [← filterMap_inner?]
  unfold components
  split
  · next hpieces => rw [hpieces]; rfl
  · next first rest hpieces =>
      rw [hpieces]
      by_cases hempty : first = ""
      · subst hempty
        cases rest <;> rfl
      by_cases hhere : first = "."
      · subst hhere
        rfl
      have hlead : lead (first :: rest) = [] := by simp [lead_cons, hempty, hhere]
      have hinner := inner?_of_not_stays (not_or.mpr ⟨hempty, hhere⟩)
      rw [if_neg hempty, if_neg hhere, hlead, hinner, List.filterMap_cons_some hinner]
      rfl

theorem eq_of_components_eq (h : path.components = other.components) :
    lead path.pieces = lead other.pieces ∧ solid path.pieces = solid other.pieces := by
  let turns (c : Component) : Bool := c ≠ .root ∧ c ≠ .here
  have hlead (pieces : List String) : (lead pieces).filter turns = [] := by
    unfold lead
    split <;> rfl
  have hturn (pieces : List String) : (pieces.map turn).filter turns = pieces.map turn := by
    refine List.filter_eq_self.mpr fun c hc => ?_
    obtain ⟨piece, -, rfl⟩ := List.mem_map.mp hc
    unfold turn
    split <;> rfl
  have hturned (path : Path) : path.components.filter turns = (solid path.pieces).map turn := by
    rw [components_eq, List.filter_append, hlead, hturn, List.nil_append]
  have hsolid : (solid path.pieces).map turn = (solid other.pieces).map turn := by
    rw [← hturned, ← hturned, h]
  rw [components_eq, components_eq, hsolid] at h
  exact ⟨List.append_cancel_right h, turn_injective.list_map hsolid⟩

theorem exists_first_piece (path : Path) : ∃ first rest, path.pieces = first :: rest ∧
    '/' ∉ first.toList ∧ ((path.text = first ∧ rest = []) ∨
      ∃ after, path.text.toList = first.toList ++ '/' :: after ∧ rest ≠ []) := by
  have htext : (⟨String.ofList path.text.toList⟩ : Path) = path := by rw [String.ofList_toList]
  by_cases hslash : '/' ∈ path.text.toList
  · obtain ⟨first, after, hsplit, hfirst⟩ := List.eq_append_cons_of_mem hslash
    rw [hsplit] at htext
    refine ⟨String.ofList first, (⟨String.ofList after⟩ : Path).pieces, ?_, by simpa using hfirst,
      .inr ⟨after, by simpa using hsplit, pieces_ne_nil _⟩⟩
    rw [← htext, pieces_append_slash, pieces_of_not_mem hfirst, List.singleton_append]
  · refine ⟨path.text, [], ?_, hslash, .inl ⟨rfl, rfl⟩⟩
    rw [← htext, pieces_of_not_mem hslash, String.ofList_toList]

theorem isAbsolute_iff (path : Path) : path.isAbsolute = true ↔ lead path.pieces = [.root] := by
  obtain ⟨first, rest, hpieces, hfirst, hcases⟩ := path.exists_first_piece
  rw [isAbsolute, hpieces, lead_eq_root_iff]
  rcases hcases with ⟨htext, rfl⟩ | ⟨after, htext, hrest⟩
  · rw [htext]
    refine iff_of_false (fun habsolute => hfirst ?_) (by simp)
    exact List.mem_of_mem_head? (by simpa using habsolute)
  · rw [htext]
    by_cases hempty : first = ""
    · simp [hempty, hrest]
    · obtain ⟨c, cs, hcs⟩ : ∃ c cs, first.toList = c :: cs :=
        List.exists_cons_of_ne_nil (by simpa using hempty)
      have hne : c ≠ '/' := by
        rintro rfl
        exact hfirst (by simp [hcs])
      simp [hcs, hne, hempty]

theorem text_eq_empty_iff (path : Path) : path.text = "" ↔ path.components = [] := by
  refine ⟨fun htext => by rw [show path = ⟨""⟩ by cases path; exact congrArg _ htext]; rfl,
    fun h => ?_⟩
  rw [components_eq, List.append_eq_nil_iff, List.map_eq_nil_iff] at h
  obtain ⟨hlead, hsolid⟩ := h
  obtain ⟨first, rest, hpieces, -, hcases⟩ := path.exists_first_piece
  rw [hpieces] at hlead hsolid
  have hstays : Stays first := by
    by_contra hstays
    rw [solid_cons_of_not_stays hstays] at hsolid
    cases hsolid
  rcases hstays with rfl | rfl
  · rcases hcases with ⟨htext, -⟩ | ⟨-, -, hrest⟩
    · exact htext
    · obtain ⟨next, rest, rfl⟩ := List.exists_cons_of_ne_nil hrest
      cases hlead
  · cases hlead

theorem mem_text_iff {c : Char} (h : c ≠ '/') (path : Path) :
    c ∈ path.text.toList ↔ ∃ piece ∈ path.pieces, c ∈ piece.toList := by
  have hsplit (cs : List Char) : c ∈ cs ↔ ∃ part ∈ splitSlash cs, c ∈ part := by
    induction cs with
    | nil => simp [splitSlash]
    | cons next rest ih =>
        rw [List.mem_cons, ih, splitSlash]
        by_cases hslash : next = '/'
        · simp [hslash, h]
        · rw [if_neg hslash]
          cases splitSlash rest <;> simp [or_assoc]
  rw [hsplit, pieces]
  simp

/-- Whether a path can be followed at all is seen from its components. -/
theorem proper_iff (path : Path) : FileTree.Proper path ↔
    path.components ≠ [] ∧ ∀ piece ∈ solid path.pieces, '\x00' ∉ piece.toList := by
  have hempty : path.text.isEmpty = false ↔ path.components ≠ [] := by
    rw [ne_eq, ← text_eq_empty_iff]
    simp
  have hsolid : (∃ piece ∈ path.pieces, '\x00' ∈ piece.toList) ↔
      ∃ piece ∈ solid path.pieces, '\x00' ∈ piece.toList := by
    refine exists_congr fun piece => ⟨fun ⟨hmem, hnull⟩ => ⟨?_, hnull⟩,
      fun ⟨hmem, hnull⟩ => ⟨List.mem_of_mem_filter hmem, hnull⟩⟩
    refine List.mem_filter.mpr ⟨hmem, ?_⟩
    have hstays : ¬ Stays piece := by
      rintro (rfl | rfl) <;> simp at hnull
    simpa using hstays
  have hnull : path.text.toList.contains '\x00' = false ↔
      ∀ piece ∈ solid path.pieces, '\x00' ∉ piece.toList := by
    rw [List.contains_eq_mem, decide_eq_false_iff_not, mem_text_iff (by decide), hsolid]
    simp
  rw [FileTree.Proper, hempty, hnull]

/-! ## Ascending paths -/

theorem Component.order_eq {a b : Component} (h : a.order b = .eq) : a = b := by
  cases a <;> cases b
  case name.name name name' =>
    exact congrArg _ (Std.LawfulEqOrd.eq_of_compare (h : compare name name' = .eq))
  all_goals first | rfl | cases h

theorem orderComponents_eq {as bs : List Component} (h : orderComponents as bs = .eq) :
    as = bs := by
  induction as generalizing bs with
  | nil =>
      cases bs with
      | nil => rfl
      | cons b bs => cases h
  | cons a as ih =>
      cases bs with
      | nil => cases h
      | cons b bs =>
          obtain ⟨hhead, htail⟩ := Ordering.then_eq_eq.mp h
          rw [Component.order_eq hhead, ih htail]

theorem mem_insertSorted {sorted : List Path} (h : path ∈ sorted) :
    path ∈ insertSorted other sorted := by
  induction sorted with
  | nil => cases h
  | cons first rest ih =>
      unfold insertSorted
      cases other.order first with
      | lt => exact List.mem_cons_of_mem _ h
      | eq => exact h
      | gt =>
          rcases List.mem_cons.mp h with rfl | hrest
          · exact List.mem_cons_self
          · exact List.mem_cons_of_mem _ (ih hrest)

theorem mem_sortDistinct_append {paths : List Path} (more : List Path)
    (h : path ∈ sortDistinct paths) : path ∈ sortDistinct (paths ++ more) := by
  have hfold (paths sorted : List Path) (hsorted : path ∈ sorted) :
      path ∈ paths.foldl (fun sorted path => insertSorted path sorted) sorted := by
    induction paths generalizing sorted with
    | nil => exact hsorted
    | cons other rest ih => exact ih _ (mem_insertSorted hsorted)
  unfold sortDistinct at h ⊢
  rw [List.foldl_append]
  exact hfold _ _ h

theorem exists_mem_insertSorted (path : Path) (sorted : List Path) :
    ∃ kept ∈ insertSorted path sorted, kept.components = path.components := by
  induction sorted with
  | nil => exact ⟨path, List.mem_singleton_self path, rfl⟩
  | cons next rest ih =>
      rw [insertSorted]
      split
      · exact ⟨path, List.mem_cons_self, rfl⟩
      · next horder => exact ⟨next, List.mem_cons_self, (orderComponents_eq horder).symm⟩
      · obtain ⟨kept, hkept, hsame⟩ := ih
        exact ⟨kept, List.mem_cons_of_mem _ hkept, hsame⟩

theorem exists_mem_sortDistinct {paths : List Path} (h : path ∈ paths) :
    ∃ kept ∈ sortDistinct paths, kept.components = path.components := by
  obtain ⟨before, after, rfl⟩ := List.append_of_mem h
  obtain ⟨kept, hkept, hsame⟩ := exists_mem_insertSorted path (sortDistinct before)
  have hbefore : kept ∈ sortDistinct (before ++ [path]) := by
    rw [sortDistinct, List.foldl_append]
    exact hkept
  have hall := mem_sortDistinct_append after hbefore
  rw [List.append_assoc, List.singleton_append] at hall
  exact ⟨kept, hall, hsame⟩

/-! ## Parents -/

theorem components_of_pieces {piece : String} (h : path.pieces = [piece]) (hne : piece ≠ "") :
    ∃ last, path.components = [last] := by
  rw [components_eq, h]
  by_cases hhere : piece = "."
  · subst hhere
    exact ⟨.here, rfl⟩
  · have hlead : lead [piece] = [] := by simp [lead_cons, hhere]
    rw [hlead, solid_cons_of_not_stays (not_or.mpr ⟨hne, hhere⟩)]
    exact ⟨turn piece, rfl⟩

theorem components_append_slash (hne : cs ≠ []) :
    (⟨String.ofList (cs ++ ['/'])⟩ : Path).components =
      (⟨String.ofList cs⟩ : Path).components := by
  have hpieces := pieces_append_slash cs []
  rw [components_eq, components_eq, hpieces, solid_append,
    show solid (⟨String.ofList []⟩ : Path).pieces = [] from rfl, List.append_nil]
  congr 1
  obtain ⟨first, rest, hfirst, -, hcases⟩ := (⟨String.ofList cs⟩ : Path).exists_first_piece
  rw [hfirst]
  rcases hcases with ⟨htext, rfl⟩ | ⟨-, -, hrest⟩
  · have hempty : first ≠ "" := by
      rw [← htext]
      simpa using hne
    simp [lead_cons, hempty]
  · simp [lead_cons, hrest]

theorem components_append_piece (cs : List Char) {last : List Char} (hlast : '/' ∉ last) :
    (⟨String.ofList (cs ++ '/' :: last)⟩ : Path).components =
      (⟨String.ofList (cs ++ ['/'])⟩ : Path).components ++
        (solid [String.ofList last]).map turn := by
  rw [components_eq, components_eq, pieces_append_slash, pieces_append_slash,
    pieces_of_not_mem hlast, solid_append, solid_append, List.map_append,
    show solid (⟨String.ofList []⟩ : Path).pieces = [] from rfl, List.append_nil,
    List.append_assoc]
  congr 1
  obtain ⟨first, rest, hfirst, -⟩ := (⟨String.ofList cs⟩ : Path).exists_first_piece
  simp [hfirst, lead_cons, pieces_ne_nil]

theorem components_dropTail (cs : List Char) :
    (⟨String.ofList (dropTail cs).reverse⟩ : Path).components =
      (⟨String.ofList cs.reverse⟩ : Path).components := by
  induction cs using dropTail.induct with
  | case1 c rest ih =>
      rw [dropTail, ih, List.reverse_cons (a := '/')]
      exact (components_append_slash (by simp)).symm
  | case2 rest ih =>
      have hpoint := components_append_piece rest.reverse (show '/' ∉ ['.'] by decide)
      rw [dropTail, ih, List.reverse_cons, List.reverse_cons, List.reverse_cons, List.append_assoc,
        List.singleton_append, hpoint]
      exact (List.append_nil _).symm
  | case3 cs hslash hpoint =>
      rw [dropTail]
      · exact hslash
      · exact hpoint

/-- What is left does not end in a slash or in a point of its own. -/
theorem dropTail_ends (cs : List Char) : (∀ c rest, dropTail cs ≠ '/' :: c :: rest) ∧
    ∀ rest, dropTail cs ≠ '.' :: '/' :: rest := by
  induction cs using dropTail.induct with
  | case1 c rest ih => rwa [dropTail]
  | case2 rest ih => rwa [dropTail]
  | case3 cs hslash hpoint =>
      rw [dropTail]
      · exact ⟨hslash, hpoint⟩
      · exact hslash
      · exact hpoint

theorem components_eq_dropTail (path : Path) : path.components =
    (⟨String.ofList (dropTail path.text.toList.reverse).reverse⟩ : Path).components := by
  rw [components_dropTail, List.reverse_reverse, String.ofList_toList]

theorem components_parent? (h : path.parent? = some parent) :
    ∃ last, path.components = parent.components ++ [last] := by
  obtain ⟨hslash, hpoint⟩ := dropTail_ends path.text.toList.reverse
  rw [components_eq_dropTail]
  unfold parent? at h
  generalize dropTail path.text.toList.reverse = cs at h hslash hpoint ⊢
  split at h
  · cases h
  · cases h
  next hnil hroot =>
    cases h
    rw [components_dropTail]
    by_cases hmem : '/' ∈ cs
    · obtain ⟨last, above, rfl, hlast⟩ := List.eq_append_cons_of_mem hmem
      have habove : (last ++ '/' :: above).dropWhile (· != '/') = '/' :: above := by
        rw [List.dropWhile_append_of_pos fun c hc => by simpa using ne_of_mem_of_not_mem hc hlast]
        exact List.dropWhile_cons_of_neg (by simp)
      have hstays : ¬ Stays (String.ofList last.reverse) := by
        rintro (hempty | hhere)
        · obtain rfl : last = [] := by simpa using congrArg String.toList hempty
          cases above with
          | nil => exact hroot rfl
          | cons c above => exact hslash c above rfl
        · obtain rfl : last = ['.'] := by simpa using congrArg String.toList hhere
          exact hpoint above rfl
      rw [habove, List.reverse_append, List.reverse_cons, List.append_assoc,
        List.singleton_append, components_append_piece _ (by simpa using hlast),
        solid_cons_of_not_stays hstays]
      exact ⟨_, rfl⟩
    · have habove : cs.dropWhile (· != '/') = [] :=
        List.dropWhile_eq_nil_iff.mpr fun c hc => by simpa using ne_of_mem_of_not_mem hc hmem
      rw [habove]
      exact components_of_pieces (pieces_of_not_mem (by simpa using hmem)) (by simpa using hnil)

theorem components_of_parent?_eq_none (h : path.parent? = none) :
    path.components = [] ∨ path.components = [.root] := by
  rw [components_eq_dropTail]
  unfold parent? at h
  split at h
  · next hnil => exact .inl (by rw [hnil]; rfl)
  · next hroot => exact .inr (by rw [hroot]; rfl)
  · cases h

end Path

namespace FileTree

variable {tree : FileTree} {place : Location} {path other : Path}

/-! ## Directories at paths -/

theorem follow_solid {again : Following}
    (hagain : ∀ location pieces, again location pieces = .ok (.node place .dir) ↔
      again location (Path.solid pieces) = .ok (.node place .dir))
    (location : Location) (pieces : List String) :
    follow again tree true location pieces = .ok (.node place .dir) ↔
      follow again tree true location (Path.solid pieces) = .ok (.node place .dir) := by
  induction location, pieces using follow_induction with
  | done location => exact .rfl
  | stay location piece rest hstay ih =>
      rw [follow_stay hstay, Path.solid_cons_of_stays hstay]
      exact ih
  | up location rest ih =>
      rw [Path.solid_cons_of_not_stays (by decide), follow_up, follow_up]
      exact ih
  | tooLong location piece rest hstay hup hlong =>
      rw [Path.solid_cons_of_not_stays hstay, follow_tooLong hstay hup hlong,
        follow_tooLong hstay hup hlong]
  | names location piece rest hnames ih =>
      rw [Path.solid_cons_of_not_stays hnames.1, follow_names hnames, follow_names hnames]
      cases tree.node? (location ++ [piece]) with
      | none => dsimp only; split <;> split <;> simp
      | some node =>
          cases node with
          | dir => exact ih
          | file content => dsimp only; split <;> split <;> simp
          | link target =>
              have hfinal (rest : List String) : ¬ (rest = [] ∧ (!true) = true) := by simp
              dsimp only
              rw [if_neg (hfinal _), if_neg (hfinal _), hagain, hagain _ (_ ++ Path.solid rest),
                Path.solid_append, Path.solid_append, Path.solid_solid]

theorem walk_solid (links : Nat) (location : Location) (pieces : List String) :
    walk tree true links location pieces = .ok (.node place .dir) ↔
      walk tree true links location (Path.solid pieces) = .ok (.node place .dir) := by
  induction links generalizing location pieces with
  | zero => exact follow_solid (by simp) location pieces
  | succ links ih => exact follow_solid ih location pieces

theorem isDirectory_of_components (h : path.components = other.components) :
    tree.isDirectory path = tree.isDirectory other := by
  obtain ⟨hlead, hsolid⟩ := Path.eq_of_components_eq h
  have habsolute : path.isAbsolute = other.isAbsolute := by
    rw [Bool.eq_iff_iff, Path.isAbsolute_iff, Path.isAbsolute_iff, hlead]
  have hproper : Proper path ↔ Proper other := by
    rw [Path.proper_iff, Path.proper_iff, h, hsolid]
  rw [Bool.eq_iff_iff, isDirectory_iff, isDirectory_iff]
  refine exists_congr fun location => ?_
  rw [find, find, findPieces_eq_ok_iff, findPieces_eq_ok_iff, hproper, startOf, startOf, habsolute,
    walk_solid, hsolid, ← walk_solid]

theorem ready_of_components (h : path.components = other.components) :
    tree.Ready path ↔ tree.Ready other := by
  rw [Ready, Ready, isDirectory_of_components h, String.isEmpty_iff, String.isEmpty_iff,
    Path.text_eq_empty_iff, Path.text_eq_empty_iff, h]

theorem exists_parent_of_write {after : FileTree} {content : Content}
    (h : tree.write path content = .ok after) : ∃ parent, path.parent? = some parent := by
  obtain ⟨-, location, hgrows, hleads⟩ := write_ok h
  cases hparent : path.parent? with
  | some parent => exact ⟨parent, rfl⟩
  | none =>
      rcases Path.components_of_parent?_eq_none hparent with hempty | hroot
      · exact absurd hempty (path.proper_iff.mp (findPieces_eq_ok_iff.mp hleads).1).1
      · have hdirectory : tree.isDirectory path = true := by
          have hsame : path.components = (⟨"/"⟩ : Path).components := hroot.trans (by decide)
          rw [isDirectory_of_components hsame]
          rfl
        obtain ⟨place, hplace⟩ := isDirectory_iff.mp (hgrows.isDirectory hdirectory)
        cases hplace.symm.trans hleads

end FileTree

end RpcContract
