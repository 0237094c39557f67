import RpcContract.CommandLine.Option
import RpcContract.Proofs.Data.Except

/-!
# Options that were given

An option that takes one word has been read with its word.
-/

namespace RpcContract.CommandLine

/-- Among the options, what has this name takes one word. -/
def TakesWord (options : List OptionSpec) (name : String) : Prop :=
  ∀ option ∈ options, option.name = name → option.arity = .one ∧ option.isList = false

/-- Wherever this name was given there is a value. -/
def Given.Valued (given : Given) (name : String) : Prop :=
  ∀ entry ∈ given, entry.1 = name → entry.2 ≠ []

theorem Given.Valued.head?_isSome {given : Given} {name : String} (h : given.Valued name)
    (hhas : given.has name = true) : ((given.values name).head?).isSome = true := by
  obtain ⟨entry, hentry, hname⟩ := List.any_eq_true.mp hhas
  have hvalue := h entry hentry (beq_iff_eq.mp hname)
  obtain ⟨value, hmem⟩ := List.exists_mem_of_ne_nil _ hvalue
  have hvalues : value ∈ given.values name :=
    List.mem_flatMap.mpr ⟨entry, List.mem_filter.mpr ⟨hentry, hname⟩, hmem⟩
  exact List.isSome_head?.mpr (List.ne_nil_of_mem hvalues)

structure Progress.Valued (options : List OptionSpec) (name : String) (progress : Progress) :
    Prop where
  given : progress.given.Valued name
  pending : ∀ option words, progress.pending = some (option, words) → option ∈ options

variable {options : List OptionSpec} {name : String} {option : OptionSpec}
  {progress next : Progress} {given : Given}

theorem exists_of_settle {words : List String} {before : Given}
    (h : settle option words before = .ok given) :
    ∃ values, given = before ++ [(option.name, values)] ∧
      (option.isList = false → values = words) ∧ (option.arity = .one → words ≠ []) := by
  simp only [settle] at h
  split_ifs at h with hwords _ hlist
  · exact ⟨_, (Except.ok.inj h).symm, by simp [hlist], fun harity => by simpa [harity] using hwords⟩
  · exact ⟨_, (Except.ok.inj h).symm, fun _ => rfl, fun harity => by simpa [harity] using hwords⟩

theorem valued_settle (hoptions : TakesWord options name) (hoption : option ∈ options)
    {words : List String} {before : Given} (h : before.Valued name)
    (hsettle : settle option words before = .ok given) : given.Valued name := by
  obtain ⟨values, rfl, hvalues, hwords⟩ := exists_of_settle hsettle
  intro entry hentry hname
  rcases List.mem_append.mp hentry with hbefore | hnew
  · exact h entry hbefore hname
  · obtain rfl := List.mem_singleton.mp hnew
    obtain ⟨harity, hlist⟩ := hoptions option hoption hname
    rw [hvalues hlist]
    exact hwords harity

theorem help_ne_ok (progress next : Progress) : progress.help ≠ .ok next := by
  rw [Progress.help, Ne, bind_eq_ok_iff]
  rintro ⟨_, _, hthrow⟩
  cases hthrow

namespace Progress.Valued

theorem empty : Valued options name {} := ⟨by simp [Given.Valued], by simp⟩

theorem finish (hoptions : TakesWord options name) (h : progress.Valued options name)
    (hfinish : progress.finish = .ok given) : given.Valued name := by
  rw [Progress.finish] at hfinish
  split at hfinish
  · obtain rfl := Except.ok.inj hfinish
    exact h.given
  next pending words hpending =>
    exact valued_settle hoptions (h.pending pending words hpending) h.given hfinish

theorem start (hoptions : TakesWord options name) (hoption : option ∈ options)
    (h : progress.Valued options name) (hstart : progress.start option = .ok next) :
    next.Valued options name := by
  obtain ⟨given, hfinish, hnext⟩ := bind_eq_ok_iff.mp hstart
  cases hnext
  refine ⟨h.finish hoptions hfinish, fun pending words hpending => ?_⟩
  cases hpending
  exact hoption

theorem take (hoptions : TakesWord options name) (hoption : option ∈ options)
    (h : progress.Valued options name) {words : List String}
    (htake : progress.take option words = .ok next) : next.Valued options name := by
  obtain ⟨before, hfinish, hrest⟩ := bind_eq_ok_iff.mp htake
  obtain ⟨given, hsettle, hnext⟩ := bind_eq_ok_iff.mp hrest
  cases hnext
  exact ⟨valued_settle hoptions hoption (h.finish hoptions hfinish) hsettle, by simp⟩

theorem addWord? (hoptions : TakesWord options name) (h : progress.Valued options name)
    {word : String} (hadd : progress.addWord? word = some (.ok next)) :
    next.Valued options name := by
  rw [Progress.addWord?] at hadd
  split at hadd
  · cases hadd
  next pending words hpending =>
  have hoption := h.pending pending words hpending
  split at hadd
  · cases hadd
    refine ⟨h.given, fun other words hother => ?_⟩
    cases hother
    exact hoption
  · cases hsettle : settle pending (words ++ [word]) progress.given with
    | error e => simp [hsettle, Except.map] at hadd
    | ok given =>
        simp only [hsettle, Except.map, Option.some.injEq, Except.ok.injEq] at hadd
        subst hadd
        exact ⟨valued_settle hoptions hoption h.given hsettle, by simp⟩

theorem scanLong (hoptions : TakesWord options name) (h : progress.Valued options name)
    {text : List Char} (hscan : CommandLine.scanLong options text progress = .ok next) :
    next.Valued options name := by
  simp only [CommandLine.scanLong] at hscan
  split_ifs at hscan
  · exact absurd hscan (help_ne_ok progress next)
  split at hscan
  · cases hscan
  next option value hfind _ =>
    split at hscan
    · cases hscan
    · exact h.take hoptions (List.mem_of_find?_eq_some hfind) hscan
  next option hfind _ =>
    split at hscan
    · exact h.take hoptions (List.mem_of_find?_eq_some hfind) hscan
    · exact h.start hoptions (List.mem_of_find?_eq_some hfind) hscan

theorem scanLetters (hoptions : TakesWord options name) {letters : List Char}
    (h : progress.Valued options name)
    (hscan : CommandLine.scanLetters options letters progress = .ok next) :
    next.Valued options name := by
  induction letters generalizing progress with
  | nil =>
      cases hscan
      exact h
  | cons letter letters ih =>
      rw [CommandLine.scanLetters] at hscan
      split at hscan
      · exact absurd hscan (help_ne_ok progress next)
      split at hscan
      · cases hscan
      next option hfind =>
      have hoption := List.mem_of_find?_eq_some hfind
      split at hscan
      · obtain ⟨middle, htake, hrest⟩ := bind_eq_ok_iff.mp hscan
        exact ih (h.take hoptions hoption htake) hrest
      · split at hscan
        · exact h.start hoptions hoption hscan
        · exact h.take hoptions hoption hscan
        · exact h.take hoptions hoption hscan

theorem scan (hoptions : TakesWord options name) {args : List String} {stop : Stop}
    (h : progress.Valued options name)
    (hscan : CommandLine.scan options args progress = .ok (next, stop)) :
    next.Valued options name := by
  induction args generalizing progress with
  | nil =>
      cases hscan
      exact h
  | cons arg args ih =>
      unfold CommandLine.scan at hscan
      split at hscan
      · split at hscan <;>
        · cases hscan
          exact h
      · obtain ⟨middle, hlong, hrest⟩ := bind_eq_ok_iff.mp hscan
        exact ih (h.scanLong hoptions hlong) hrest
      · obtain ⟨middle, hletters, hrest⟩ := bind_eq_ok_iff.mp hscan
        exact ih (h.scanLetters hoptions hletters) hrest
      · split at hscan
        next added hadd =>
          obtain ⟨middle, hadded, hrest⟩ := bind_eq_ok_iff.mp hscan
          exact ih (h.addWord? hoptions (hadded ▸ hadd)) hrest
        next =>
          cases hscan
          exact h

end Progress.Valued

end RpcContract.CommandLine
