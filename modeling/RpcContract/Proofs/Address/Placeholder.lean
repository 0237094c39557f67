import RpcContract.Address.Placeholder

/-!
# How placeholders are found

`Opens` says when a text starts with a placeholder, and `Scans` reads a text from left to right by
it.  `ofChars` gives the one sequence of pieces that a text has by these rules.  A slash is never
part of a placeholder, so a path can be scanned between its slashes.
-/

namespace RpcContract.PathPiece

structure IsName (name : List Char) : Prop where
  first : name.head?.any isNameStart = true
  all : ∀ c ∈ name, isNameChar c = true

/-- The text does not go on with a character of a name. -/
def AtBoundary (cs : List Char) : Prop := ∀ c, cs.head? = some c → isNameChar c = false

/-- A text that starts with a placeholder of a name, and what follows.  Behind a colon the name is
as long as it can be; in braces it ends at the closing brace. -/
inductive Opens : List Char → String → List Char → Prop where
  | colon {name rest} (isName : IsName name) (boundary : AtBoundary rest) :
      Opens (':' :: (name ++ rest)) (.ofList name) rest
  | braces {name rest} (isName : IsName name) :
      Opens ('\x7b' :: (name ++ '\x7d' :: rest)) (.ofList name) rest

/-- The pieces of a text: a placeholder wherever one can start, and otherwise the next character. -/
inductive Scans : List Char → List PathPiece → Prop where
  | done : Scans [] []
  | placeholder {cs name rest pieces} (opens : Opens cs name rest) (scans : Scans rest pieces) :
      Scans cs (.placeholder name :: pieces)
  | char {c cs pieces} (closed : ∀ name rest, ¬ Opens (c :: cs) name rest)
      (scans : Scans cs pieces) : Scans (c :: cs) (.char c :: pieces)

/-! ## Names -/

theorem isNameChar_of_isNameStart {c : Char} (h : isNameStart c = true) : isNameChar c = true := by
  simp only [isNameStart, isNameChar, Char.isAlphanum, Bool.or_eq_true] at h ⊢
  rcases h with h | h
  · exact .inl (.inl h)
  · exact .inr h

theorem takeWhile_eq_nil_of_atBoundary {rest : List Char} (h : AtBoundary rest) :
    rest.takeWhile isNameChar = [] := by
  cases rest with
  | nil => rfl
  | cons c rest => simp [h c rfl]

theorem dropWhile_eq_self_of_atBoundary {rest : List Char} (h : AtBoundary rest) :
    rest.dropWhile isNameChar = rest := by
  cases rest with
  | nil => rfl
  | cons c rest => simp [h c rfl]

theorem atBoundary_dropWhile (cs : List Char) : AtBoundary (cs.dropWhile isNameChar) := by
  intro c hc
  have := List.head?_dropWhile_not isNameChar cs
  rw [hc] at this
  simpa using this

theorem name?_eq_some_iff {cs name rest : List Char} :
    name? cs = some (name, rest) ↔ cs = name ++ rest ∧ IsName name ∧ AtBoundary rest := by
  constructor
  · intro h
    cases cs with
    | nil => simp [name?] at h
    | cons c cs =>
        simp only [name?] at h
        split at h
        next hc =>
            cases h
            refine ⟨by simp, ⟨by simpa using hc, ?_⟩, atBoundary_dropWhile cs⟩
            refine List.forall_mem_cons.mpr ⟨isNameChar_of_isNameStart hc, ?_⟩
            exact List.all_eq_true.mp List.all_takeWhile
        next => cases h
  · rintro ⟨rfl, hname, hrest⟩
    cases name with
    | nil => exact absurd hname.first (by simp)
    | cons c name =>
        have hc : isNameStart c = true := by simpa using hname.first
        have hname' : ∀ d ∈ name, isNameChar d = true := (List.forall_mem_cons.mp hname.all).2
        rw [List.cons_append, name?, if_pos hc, List.takeWhile_append_of_pos hname',
          List.dropWhile_append_of_pos hname', takeWhile_eq_nil_of_atBoundary hrest,
          dropWhile_eq_self_of_atBoundary hrest, List.append_nil]

theorem atBoundary_cons {c : Char} (h : isNameChar c = false) (cs : List Char) :
    AtBoundary (c :: cs) := by
  rintro d ⟨⟩
  exact h

/-! ## Placeholders -/

theorem placeholder?_eq_some_iff {cs : List Char} {name : String} {rest : List Char} :
    placeholder? cs = some (name, rest) ↔ Opens cs name rest := by
  constructor
  · intro h
    unfold placeholder? at h
    split at h
    next tail =>
        obtain ⟨⟨text, after⟩, hname, hsame⟩ := Option.map_eq_some_iff.mp h
        obtain ⟨rfl, isName, boundary⟩ := name?_eq_some_iff.mp hname
        cases hsame
        exact .colon isName boundary
    next tail =>
        split at h
        next text after hname =>
            obtain ⟨rfl, isName, -⟩ := name?_eq_some_iff.mp hname
            cases h
            exact .braces isName
        next => cases h
    next => cases h
  · rintro (⟨isName, boundary⟩ | isName)
    · simp [placeholder?, name?_eq_some_iff.mpr ⟨rfl, isName, boundary⟩]
    · have boundary := atBoundary_cons (c := '\x7d') (by decide) rest
      simp [placeholder?, name?_eq_some_iff.mpr ⟨rfl, isName, boundary⟩]

theorem placeholder?_eq_none_iff {cs : List Char} :
    placeholder? cs = none ↔ ∀ name rest, ¬ Opens cs name rest := by
  rw [Option.eq_none_iff_forall_not_mem]
  constructor
  · intro h name rest opens
    exact h (name, rest) (placeholder?_eq_some_iff.mpr opens)
  · intro h found hfound
    exact h found.1 found.2 (placeholder?_eq_some_iff.mp hfound)

/-! ## Pieces -/

theorem ofChars_nil : ofChars [] = [] := by simp [ofChars, placeholder?]

theorem ofChars_of_some {cs : List Char} {name : String} {rest : List Char}
    (h : placeholder? cs = some (name, rest)) : ofChars cs = .placeholder name :: ofChars rest := by
  rw [ofChars]
  split
  next found => rw [h] at found; cases found; rfl
  next found => rw [h] at found; cases found

theorem ofChars_of_none {c : Char} {cs : List Char} (h : placeholder? (c :: cs) = none) :
    ofChars (c :: cs) = .char c :: ofChars cs := by
  rw [ofChars]
  split
  next found => rw [h] at found; cases found
  next => rfl

theorem scans_ofChars (cs : List Char) : Scans cs (ofChars cs) := by
  induction cs using ofChars.induct with
  | case1 cs name rest found ih =>
      rw [ofChars_of_some found]
      exact .placeholder (placeholder?_eq_some_iff.mp found) ih
  | case2 => rw [ofChars_nil]; exact .done
  | case3 c cs found ih =>
      rw [ofChars_of_none found]
      exact .char (placeholder?_eq_none_iff.mp found) ih

/-- A text has just one sequence of pieces. -/
theorem scans_iff {cs : List Char} {pieces : List PathPiece} :
    Scans cs pieces ↔ pieces = ofChars cs := by
  constructor
  · intro h
    induction h with
    | done => exact ofChars_nil.symm
    | placeholder opens _ ih => rw [ofChars_of_some (placeholder?_eq_some_iff.mpr opens), ih]
    | char closed _ ih => rw [ofChars_of_none (placeholder?_eq_none_iff.mpr closed), ih]
  · rintro rfl
    exact scans_ofChars cs

/-! ## Pieces between slashes -/

theorem name?_append_slash (cs rest : List Char) :
    name? (cs ++ '/' :: rest) = (name? cs).map fun found => (found.1, found.2 ++ '/' :: rest) := by
  cases hname : name? cs with
  | some found =>
      obtain ⟨rfl, isName, boundary⟩ := name?_eq_some_iff.mp hname
      refine name?_eq_some_iff.mpr ⟨List.append_assoc .., isName, ?_⟩
      cases hafter : found.2 with
      | nil => exact atBoundary_cons (by decide) rest
      | cons c after => exact atBoundary_cons (boundary c (by simp [hafter])) _
  | none =>
      cases cs with
      | nil => rfl
      | cons c cs =>
          have hc : ¬ isNameStart c = true := by
            intro hc
            simp [name?, hc] at hname
          simp [name?, hc]

theorem placeholder?_append_slash (cs rest : List Char) :
    placeholder? (cs ++ '/' :: rest) =
      (placeholder? cs).map fun found => (found.1, found.2 ++ '/' :: rest) := by
  cases cs with
  | nil => rfl
  | cons c cs =>
      by_cases hcolon : c = ':'
      · subst hcolon
        simp [placeholder?, name?_append_slash, Function.comp_def]
      by_cases hbrace : c = '\x7b'
      · subst hbrace
        simp only [List.cons_append, placeholder?, name?_append_slash]
        rcases name? cs with - | ⟨name, after⟩
        · rfl
        · -- What stands behind the name is the closing brace on both sides or on neither.
          rcases after with - | ⟨d, after⟩
          · rfl
          · by_cases hclose : d = '\x7d'
            · subst hclose; rfl
            · simp [hclose]
      · simp [placeholder?, hcolon, hbrace]

theorem ofChars_append_slash (cs rest : List Char) :
    ofChars (cs ++ '/' :: rest) = ofChars cs ++ .char '/' :: ofChars rest := by
  induction cs using ofChars.induct with
  | case1 cs name after found ih =>
      have hfound := placeholder?_append_slash cs rest
      rw [found] at hfound
      rw [ofChars_of_some hfound, ofChars_of_some found, ih, List.cons_append]
  | case2 =>
      rw [ofChars_nil, List.nil_append, List.nil_append]
      exact ofChars_of_none rfl
  | case3 c cs found ih =>
      have hfound := placeholder?_append_slash (c :: cs) rest
      rw [found, List.cons_append] at hfound
      rw [List.cons_append, ofChars_of_none hfound, ofChars_of_none found, ih, List.cons_append]

theorem char_mem_of_mem_ofChars {c : Char} {cs : List Char} (h : .char c ∈ ofChars cs) :
    c ∈ cs := by
  induction cs using ofChars.induct with
  | case1 cs name rest found ih =>
      rw [ofChars_of_some found] at h
      have hmem : c ∈ rest := by simpa using ih (by simpa using h)
      cases placeholder?_eq_some_iff.mp found <;> simp [hmem]
  | case2 => simp [ofChars_nil] at h
  | case3 d cs found ih =>
      rw [ofChars_of_none found, List.mem_cons] at h
      rcases h with h | h
      · cases h
        exact List.mem_cons_self
      · exact List.mem_cons_of_mem d (ih h)

end RpcContract.PathPiece
