import RpcContract.Proofs.Files.Growth

/-!
# Where paths lead while a tree grows

A path that leads to a node leads to the same place after the tree has grown.  A path that leads to
a free place leads to what is put there.
-/

namespace RpcContract.FileTree

variable {before after tree : FileTree} {entries : List (Location × FileNode)}

abbrev Following := Location → List String → Except FileFault Found

section Pieces

variable {again : Following} {final : Bool} {location : Location} {piece : String}
  {rest : List String}

/-- A piece that names something in the directory. -/
def Names (piece : String) : Prop :=
  ¬ (piece = "" ∨ piece = ".") ∧ piece ≠ ".." ∧ ¬ longestName < piece.utf8ByteSize

theorem follow_stay (h : piece = "" ∨ piece = ".") :
    follow again tree final location (piece :: rest) = follow again tree final location rest := by
  rw [follow, if_pos h]

theorem follow_up :
    follow again tree final location (".." :: rest) =
      follow again tree final location.dropLast rest := by
  rw [follow, if_neg (by decide), if_pos rfl]

theorem follow_names (h : Names piece) :
    follow again tree final location (piece :: rest) =
      match tree.node? (location ++ [piece]) with
      | none =>
          if rest.all String.isEmpty then .ok (.nothing (location ++ [piece]) !rest.isEmpty)
          else .error .notFound
      | some .dir => follow again tree final (location ++ [piece]) rest
      | some (.file content) =>
          if rest = [] then .ok (.node (location ++ [piece]) (.file content))
          else .error .notDirectory
      | some (.link target) =>
          if rest = [] ∧ !final then .ok (.node (location ++ [piece]) (.link target))
          else again (if target.isAbsolute then [] else location) (target.pieces ++ rest) :=
  (if_neg h.1).trans ((if_neg h.2.1).trans (if_neg h.2.2))

theorem follow_tooLong (hstay : ¬ (piece = "" ∨ piece = ".")) (hup : piece ≠ "..")
    (h : longestName < piece.utf8ByteSize) :
    follow again tree final location (piece :: rest) = .error .nameTooLong := by
  rw [follow, if_neg hstay, if_neg hup, if_pos h]

/-- Following pieces keeps to a rule if it does so at the end and for every kind of piece. -/
theorem follow_induction {motive : Location → List String → Prop}
    (done : ∀ location, motive location [])
    (stay : ∀ location piece rest, (piece = "" ∨ piece = ".") → motive location rest →
      motive location (piece :: rest))
    (up : ∀ location rest, motive location.dropLast rest → motive location (".." :: rest))
    (tooLong : ∀ location piece rest, ¬ (piece = "" ∨ piece = ".") → piece ≠ ".." →
      longestName < piece.utf8ByteSize → motive location (piece :: rest))
    (names : ∀ location piece rest, Names piece → motive (location ++ [piece]) rest →
      motive location (piece :: rest))
    (location : Location) (pieces : List String) : motive location pieces := by
  induction pieces generalizing location with
  | nil => exact done location
  | cons piece rest ih =>
      by_cases hstay : piece = "" ∨ piece = "."
      · exact stay location piece rest hstay (ih location)
      by_cases hup : piece = ".."
      · subst hup
        exact up location rest (ih _)
      by_cases hlong : longestName < piece.utf8ByteSize
      · exact tooLong location piece rest hstay hup hlong
      · exact names location piece rest ⟨hstay, hup, hlong⟩ (ih _)

end Pieces

/-! ## What is found is there -/

def Found.Holds (tree : FileTree) : Found → Prop
  | .node _ .dir => True
  | .node location entry => tree.node? location = some entry
  | .nothing location _ => location ≠ [] ∧ tree.node? location = none

theorem follow_holds {again : Following} {final : Bool}
    (hagain : ∀ location pieces found, again location pieces = .ok found → found.Holds tree)
    (location : Location) (pieces : List String) (found : Found)
    (h : follow again tree final location pieces = .ok found) : found.Holds tree := by
  induction location, pieces using follow_induction with
  | done location =>
      cases h
      trivial
  | stay location piece rest hstay ih =>
      rw [follow_stay hstay] at h
      exact ih h
  | up location rest ih =>
      rw [follow_up] at h
      exact ih h
  | tooLong location piece rest hstay hup hlong =>
      rw [follow_tooLong hstay hup hlong] at h
      cases h
  | names location piece rest hnames ih =>
      rw [follow_names hnames] at h
      split at h
      · next hnode =>
          split at h
          · cases h
            exact ⟨by simp, hnode⟩
          · cases h
      · exact ih h
      · next hnode =>
          split at h
          · cases h
            exact hnode
          · cases h
      · next hnode =>
          split at h
          · cases h
            exact hnode
          · exact hagain _ _ _ h

theorem walk_holds {final : Bool} (links : Nat) (location : Location) (pieces : List String)
    (found : Found) (h : walk tree final links location pieces = .ok found) : found.Holds tree := by
  induction links generalizing location pieces found with
  | zero => exact follow_holds (by simp) location pieces found h
  | succ links ih => exact follow_holds ih location pieces found h

def startOf (tree : FileTree) (path : Path) : Location :=
  if path.isAbsolute then [] else tree.current

def Proper (path : Path) : Prop :=
  path.text.isEmpty = false ∧ path.text.toList.contains '\x00' = false

theorem findPieces_eq_ok_iff {final : Bool} {path : Path} {pieces : List String} {found : Found} :
    tree.findPieces final path pieces = .ok found ↔
      Proper path ∧ walk tree final linkLimit (tree.startOf path) pieces = .ok found := by
  unfold findPieces Proper
  by_cases hempty : path.text.isEmpty = true
  · simp [hempty]
  by_cases hnull : path.text.toList.contains '\x00' = true
  · simp only [hempty, hnull, if_true]
    simp
  · simp only [hempty, hnull, startOf]
    simp

theorem findPieces_holds {final : Bool} {path : Path} {pieces : List String} {found : Found}
    (h : tree.findPieces final path pieces = .ok found) : found.Holds tree :=
  walk_holds _ _ _ _ (findPieces_eq_ok_iff.mp h).2

theorem node?_of_find_file {final : Bool} {path : Path} {location : Location} {content : Content}
    (h : tree.find final path = .ok (.node location (.file content))) :
    tree.node? location = some (.file content) := findPieces_holds h

/-! ## What is found stays there -/

def Following.Stays (again again' : Following) : Prop :=
  ∀ location pieces place node, again location pieces = .ok (.node place node) →
    ∃ node', again' location pieces = .ok (.node place node') ∧ node.Stays node'

theorem Grows.follow_stays {again again' : Following} {final : Bool}
    (hgrows : Grows before entries after) (hagain : Following.Stays again again') :
    Following.Stays (follow again before final) (follow again' after final) := by
  intro location pieces place node h
  induction location, pieces using follow_induction with
  | done location =>
      cases h
      exact ⟨.dir, rfl, .same _⟩
  | stay location piece rest hstay ih =>
      rw [follow_stay hstay] at h ⊢
      exact ih h
  | up location rest ih =>
      rw [follow_up] at h ⊢
      exact ih h
  | tooLong location piece rest hstay hup hlong =>
      rw [follow_tooLong hstay hup hlong] at h
      cases h
  | names location piece rest hnames ih =>
      rw [follow_names hnames] at h ⊢
      cases hnode : before.node? (location ++ [piece]) with
      | none =>
          simp only [hnode] at h
          split at h <;> cases h
      | some old =>
          obtain ⟨new, hnew, hstays⟩ := hgrows.node?_stays hnode
          simp only [hnode] at h
          simp only [hnew]
          cases hstays with
          | rewritten old new =>
              dsimp only at h ⊢
              split at h
              · cases h
                exact ⟨.file new, by simp_all, .rewritten old new⟩
              · cases h
          | same =>
              cases old with
              | dir => exact ih h
              | file content =>
                  dsimp only at h ⊢
                  split at h
                  · cases h
                    exact ⟨.file content, if_pos ‹_›, .same _⟩
                  · cases h
              | link target =>
                  dsimp only at h ⊢
                  split at h
                  · next hlast =>
                      cases h
                      exact ⟨.link target, by rw [if_pos hlast], .same _⟩
                  · next hlast =>
                      rw [if_neg hlast]
                      exact hagain _ _ _ _ h

theorem Grows.walk_stays {final : Bool} (hgrows : Grows before entries after) (links : Nat) :
    Following.Stays (walk before final links) (walk after final links) := by
  induction links with
  | zero => exact hgrows.follow_stays (fun _ _ _ _ h => by cases h)
  | succ links ih => exact hgrows.follow_stays ih

/-- A path that leads to a node leads to the same place after the tree has grown. -/
theorem Grows.find_stays {final : Bool} {path : Path} {location : Location} {node : FileNode}
    (hgrows : Grows before entries after)
    (h : before.find final path = .ok (.node location node)) :
    ∃ node', after.find final path = .ok (.node location node') ∧ node.Stays node' := by
  obtain ⟨hproper, hwalk⟩ := findPieces_eq_ok_iff.mp h
  obtain ⟨node', hafter, hstays⟩ := hgrows.walk_stays linkLimit _ _ _ _ hwalk
  refine ⟨node', findPieces_eq_ok_iff.mpr ⟨hproper, ?_⟩, hstays⟩
  rw [startOf, hgrows.current_eq]
  exact hafter

/-! ## A free place that is filled -/

def Blanks (pieces : List String) : Prop := ∀ piece ∈ pieces, piece = ""

theorem pieces_eq_stem_append (path : Path) : ∃ blanks, Blanks blanks ∧
    path.pieces = path.stem ++ blanks := by
  refine ⟨(path.pieces.reverse.takeWhile String.isEmpty).reverse, ?_, ?_⟩
  · intro piece hpiece
    rw [List.mem_reverse] at hpiece
    simpa using List.all_eq_true.mp List.all_takeWhile piece hpiece
  · rw [Path.stem, ← List.reverse_append, List.takeWhile_append_dropWhile, List.reverse_reverse]

theorem follow_blanks {again : Following} {final : Bool} {blanks : List String}
    (h : Blanks blanks) (location : Location) :
    follow again tree final location blanks = .ok (.node location .dir) := by
  induction blanks with
  | nil => rfl
  | cons blank rest ih =>
      rw [follow_stay (.inl (h blank (by simp)))]
      exact ih fun piece hpiece => h piece (by simp [hpiece])

/-- What is found where nothing was: a directory, also before slashes, or a file. -/
def Fills (node : FileNode) (slash : Bool) (blanks : List String) : Prop :=
  node = .dir ∨ (∃ content, node = .file content) ∧ slash = false ∧ blanks = []

theorem Grows.follow_filled {again again' : Following} {final slash : Bool} {place : Location}
    {node : FileNode} {blanks : List String} (hgrows : Grows before entries after)
    (hnode : after.node? place = some node) (hfills : Fills node slash blanks)
    (hblanks : Blanks blanks)
    (hagain : ∀ location pieces, again location pieces = .ok (.nothing place slash) →
      again' location (pieces ++ blanks) = .ok (.node place node))
    (location : Location) (pieces : List String)
    (h : follow again before final location pieces = .ok (.nothing place slash)) :
    follow again' after true location (pieces ++ blanks) = .ok (.node place node) := by
  induction location, pieces using follow_induction with
  | done => cases h
  | stay location piece rest hstay ih =>
      rw [follow_stay hstay] at h
      rw [List.cons_append, follow_stay hstay]
      exact ih h
  | up location rest ih =>
      rw [follow_up] at h
      rw [List.cons_append, follow_up]
      exact ih h
  | tooLong location piece rest hstay hup hlong =>
      rw [follow_tooLong hstay hup hlong] at h
      cases h
  | names location piece rest hnames ih =>
      rw [follow_names hnames] at h
      rw [List.cons_append, follow_names hnames]
      split at h
      · split at h
        · next hrest =>
            cases h
            have hempty : Blanks (rest ++ blanks) := by
              intro piece hpiece
              rcases List.mem_append.mp hpiece with hrest' | hblank
              · simpa using List.all_eq_true.mp hrest piece hrest'
              · exact hblanks piece hblank
            rw [hnode]
            rcases hfills with rfl | ⟨⟨content, rfl⟩, hslash, rfl⟩
            · exact follow_blanks hempty _
            · have hnil : rest = [] := by simpa using hslash
              simp [hnil]
        · cases h
      · next hdir =>
          obtain ⟨_, hafter, hstays⟩ := hgrows.node?_stays hdir
          cases hstays
          rw [hafter]
          exact ih h
      · split at h <;> cases h
      -- A link is still a link, and its target is followed with one link less.
      · next hlink =>
          obtain ⟨_, hafter, hstays⟩ := hgrows.node?_stays hlink
          cases hstays
          rw [hafter]
          split at h
          · cases h
          · simpa using hagain _ _ h

theorem Grows.walk_filled {final slash : Bool} {place : Location} {node : FileNode}
    {blanks : List String} (hgrows : Grows before entries after)
    (hnode : after.node? place = some node) (hfills : Fills node slash blanks)
    (hblanks : Blanks blanks) (links : Nat) (location : Location) (pieces : List String)
    (h : walk before final links location pieces = .ok (.nothing place slash)) :
    walk after true links location (pieces ++ blanks) = .ok (.node place node) := by
  induction links generalizing location pieces with
  | zero => exact hgrows.follow_filled hnode hfills hblanks (by simp) location pieces h
  | succ links ih => exact hgrows.follow_filled hnode hfills hblanks ih location pieces h

theorem Grows.find_filled {final slash : Bool} {path : Path} {pieces blanks : List String}
    {place : Location} {node : FileNode} (hgrows : Grows before entries after)
    (h : before.findPieces final path pieces = .ok (.nothing place slash))
    (hpieces : path.pieces = pieces ++ blanks) (hblanks : Blanks blanks)
    (hnode : after.node? place = some node) (hfills : Fills node slash blanks) :
    after.find true path = .ok (.node place node) := by
  obtain ⟨hproper, hwalk⟩ := findPieces_eq_ok_iff.mp h
  refine findPieces_eq_ok_iff.mpr ⟨hproper, ?_⟩
  rw [startOf, hgrows.current_eq, hpieces]
  exact hgrows.walk_filled hnode hfills hblanks linkLimit _ _ hwalk

/-! ## The last name of a path -/

theorem follow_entry {again again' : Following} {blanks : List String}
    (hagain : ∀ location pieces place node, again location (pieces ++ blanks) =
      .ok (.node place node) → ∃ place' node', again' location pieces = .ok (.node place' node'))
    (location : Location) (pieces : List String) (place : Location) (node : FileNode)
    (h : follow again tree true location (pieces ++ blanks) = .ok (.node place node)) :
    ∃ place' node', follow again' tree false location pieces = .ok (.node place' node') := by
  induction location, pieces using follow_induction with
  | done location => exact ⟨location, .dir, rfl⟩
  | stay location piece rest hstay ih =>
      rw [List.cons_append, follow_stay hstay] at h
      rw [follow_stay hstay]
      exact ih h
  | up location rest ih =>
      rw [List.cons_append, follow_up] at h
      rw [follow_up]
      exact ih h
  | tooLong location piece rest hstay hup hlong =>
      rw [List.cons_append, follow_tooLong hstay hup hlong] at h
      cases h
  | names location piece rest hnames ih =>
      rw [List.cons_append, follow_names hnames] at h
      rw [follow_names hnames]
      split at h
      · split at h <;> cases h
      · exact ih h
      · split at h
        · next hnil =>
            exact ⟨_, _, if_pos (List.append_eq_nil_iff.mp hnil).1⟩
        · cases h
      · by_cases hlast : rest = []
        · exact ⟨_, _, if_pos ⟨hlast, rfl⟩⟩
        · rw [if_neg (by simp [hlast])]
          exact hagain _ _ place node (by simpa using h)

theorem walk_entry {blanks : List String} (links : Nat) (location : Location)
    (pieces : List String) (place : Location) (node : FileNode)
    (h : walk tree true links location (pieces ++ blanks) = .ok (.node place node)) :
    ∃ place' node', walk tree false links location pieces = .ok (.node place' node') := by
  induction links generalizing location pieces place node with
  | zero => exact follow_entry (by simp) location pieces place node h
  | succ links ih => exact follow_entry ih location pieces place node h

theorem findEntry_of_find {path : Path} {place : Location} {node : FileNode}
    (h : tree.find true path = .ok (.node place node)) :
    ∃ place' node', tree.findEntry path = .ok (.node place' node') := by
  obtain ⟨hproper, hwalk⟩ := findPieces_eq_ok_iff.mp h
  obtain ⟨blanks, -, hpieces⟩ := pieces_eq_stem_append path
  rw [hpieces] at hwalk
  obtain ⟨place', node', hentry⟩ := walk_entry linkLimit _ _ place node hwalk
  exact ⟨place', node', findPieces_eq_ok_iff.mpr ⟨hproper, hentry⟩⟩

theorem find_false_of_find {path : Path} {place : Location} {node : FileNode}
    (h : tree.find true path = .ok (.node place node)) :
    ∃ place' node', tree.find false path = .ok (.node place' node') := by
  obtain ⟨hproper, hwalk⟩ := findPieces_eq_ok_iff.mp h
  rw [← List.append_nil path.pieces] at hwalk
  obtain ⟨place', node', hentry⟩ := walk_entry linkLimit _ _ place node hwalk
  exact ⟨place', node', findPieces_eq_ok_iff.mpr ⟨hproper, hentry⟩⟩

end RpcContract.FileTree
