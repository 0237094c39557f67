import RpcContract.Proofs.Contract.Assembly
import RpcContract.Proofs.Data.Dict
import RpcContract.Proofs.Data.Except

/-!
# The part of a contract for some segments

What an assembled contract has under each key makes it out: the entry of the source under the name
that was asked for, and nothing under other keys.  So only the set of the names counts, and a part
of a part is the part itself.
-/

namespace RpcContract.Contract

variable {contract other assembled result : Contract} {names fewer : List String}

theorem ext_get? (h : ∀ key, contract.get? key = other.get? key) : contract = other := by
  cases contract
  cases other
  exact congrArg Contract.mk (Dict.ext_get? h)

theorem get?_insert (segment : SegmentSpec) (key : String) :
    (contract.insert segment).get? key =
      if segment.name = key then some segment else contract.get? key :=
  Dict.get?_insert contract.segments segment.name key segment

theorem contains_iff {key : String} : contract.contains key = true ↔ contract.get? key ≠ none := by
  rw [Option.ne_none_iff_isSome]
  rfl

theorem mem_names_iff {key : String} : key ∈ contract.names ↔ contract.get? key ≠ none :=
  Dict.mem_keys_iff.trans Option.ne_none_iff_exists'.symm

/-- What is asked for under a key: the entry of the contract, renamed to the key. -/
def part? (contract : Contract) (names : List String) (key : String) : Option SegmentSpec :=
  if key ∈ names then (contract.get? key).map fun entry => { entry with name := key } else none

theorem get?_assembleOnto (h : contract.assembleOnto assembled names = .ok result) (key : String) :
    result.get? key = (contract.part? names key).or (assembled.get? key) := by
  induction names generalizing assembled with
  | nil =>
      cases h
      rfl
  | cons name names ih =>
      rw [assembleOnto] at h
      cases hname : contract.get? name with
      | none =>
          rw [hname] at h
          cases h
      | some entry =>
          rw [hname] at h
          rw [ih h, get?_insert]
          -- The last of several inserts of one name puts the same entry as the first.
          by_cases hkey : name = key
          · subst hkey
            by_cases hmem : name ∈ names <;> simp [part?, hmem, hname]
          · have hmem : key ∈ name :: names ↔ key ∈ names := by simp [Ne.symm hkey]
            simp only [part?, hmem, if_neg hkey]

theorem exists_of_assembleOnto (h : ∀ name ∈ names, contract.get? name ≠ none) :
    ∃ result, contract.assembleOnto assembled names = .ok result := by
  cases hresult : contract.assembleOnto assembled names with
  | ok result => exact ⟨result, rfl⟩
  | error missing =>
      obtain ⟨before, name, after, rfl, -, hnone, -⟩ := assembleOnto_eq_error_iff.mp hresult
      exact absurd hnone (h name (by simp))

/-- A contract is assembled if it has every name, and is then made out by its entries. -/
theorem assemble_eq_ok_iff : contract.assemble names = .ok result ↔
    (∀ name ∈ names, contract.get? name ≠ none) ∧
      ∀ key, result.get? key = contract.part? names key := by
  have hget {result : Contract} (h : contract.assemble names = .ok result) (key : String) :
      result.get? key = contract.part? names key := by
    rw [get?_assembleOnto h]
    exact Option.or_none
  refine ⟨fun h => ⟨get?_ne_none_of_assembleOnto h, hget h⟩, fun ⟨hnames, hresult⟩ => ?_⟩
  obtain ⟨result', h⟩ : ∃ result, contract.assemble names = .ok result :=
    exists_of_assembleOnto hnames
  have hsame : result' = result := ext_get? fun key => (hget h key).trans (hresult key).symm
  exact hsame ▸ h

theorem part?_congr {others : List String} (h : ∀ name, name ∈ others ↔ name ∈ names)
    (key : String) : contract.part? others key = contract.part? names key := by
  simp only [part?, h]

theorem part?_of_assemble (h : contract.assemble names = .ok result) (hfewer : fewer ⊆ names)
    (key : String) : result.part? fewer key = contract.part? fewer key := by
  by_cases hkey : key ∈ fewer
  · rw [part?, part?, if_pos hkey, if_pos hkey, (assemble_eq_ok_iff.mp h).2, part?,
      if_pos (hfewer hkey), Option.map_map]
    rfl
  · rw [part?, part?, if_neg hkey, if_neg hkey]

theorem assemble_of_assemble (h : contract.assemble names = .ok result) (hfewer : fewer ⊆ names) :
    result.assemble fewer = contract.assemble fewer := by
  have hnames {name : String} (hname : name ∈ fewer) : contract.get? name ≠ none :=
    (assemble_eq_ok_iff.mp h).1 name (hfewer hname)
  obtain ⟨part, hpart⟩ : ∃ part, contract.assemble fewer = .ok part :=
    exists_of_assembleOnto fun _ => hnames
  have hentries := (assemble_eq_ok_iff.mp hpart).2
  refine Eq.trans (assemble_eq_ok_iff.mpr ⟨fun name hname => ?_, fun key => ?_⟩) hpart.symm
  · rw [(assemble_eq_ok_iff.mp h).2, part?, if_pos (hfewer hname)]
    simpa using hnames hname
  · rw [hentries, part?_of_assemble h hfewer]

/-- A contract is assembled for names just if it has all of them, and else fails on the first that
it lacks.  The part has the entries of these names and no others, each under its name and otherwise
as it was.  Only the set of the names counts, and a part of the part is a part of the contract. -/
theorem assemble_lawful (contract : Contract) (names : List String) :
    ((∃ result, contract.assemble names = .ok result) ↔
      ∀ name ∈ names, contract.contains name = true) ∧
    (∀ missing, contract.assemble names = .error missing ↔
      ∃ before name after, names = before ++ name :: after ∧
        (∀ earlier ∈ before, contract.contains earlier = true) ∧
        contract.contains name = false ∧ missing = ⟨name⟩) ∧
    ∀ result, contract.assemble names = .ok result →
      (∀ key, key ∈ result.names ↔ key ∈ names) ∧
      (∀ key entry, result.get? key = some entry → entry.name = key ∧
        ∃ source, contract.get? key = some source ∧ entry = { source with name := key }) ∧
      (∀ others : List String, (∀ name, name ∈ others ↔ name ∈ names) →
        contract.assemble others = .ok result) ∧
      (∀ fewer : List String, fewer ⊆ names →
        result.assemble fewer = contract.assemble fewer) ∧
      result.assemble names = .ok result := by
  refine ⟨⟨?_, ?_⟩, fun missing => ?_, fun result h => ⟨fun key => ?_, ?_, ?_, ?_, ?_⟩⟩
  · rintro ⟨result, h⟩ name hname
    exact contains_iff.mpr ((assemble_eq_ok_iff.mp h).1 name hname)
  · exact fun h => exists_of_assembleOnto fun name hname => contains_iff.mp (h name hname)
  · have hlacks (name : String) : contract.contains name = false ↔ contract.get? name = none := by
      rw [← Bool.not_eq_true, contains_iff, not_not]
    simp only [assemble_eq_error_iff, contains_iff, hlacks]
  · have hhas := (assemble_eq_ok_iff.mp h).1 key
    rw [mem_names_iff, (assemble_eq_ok_iff.mp h).2, part?]
    by_cases hkey : key ∈ names <;> simp [hkey, hhas]
  · intro key entry hentry
    rw [(assemble_eq_ok_iff.mp h).2, part?] at hentry
    by_cases hkey : key ∈ names
    · rw [if_pos hkey] at hentry
      obtain ⟨source, hsource, rfl⟩ := Option.map_eq_some_iff.mp hentry
      exact ⟨rfl, source, hsource, rfl⟩
    · rw [if_neg hkey] at hentry
      cases hentry
  · intro others hothers
    obtain ⟨hnames, hentries⟩ := assemble_eq_ok_iff.mp h
    refine assemble_eq_ok_iff.mpr ⟨fun name hname => hnames name ((hothers name).mp hname), ?_⟩
    exact fun key => (hentries key).trans (part?_congr hothers key).symm
  · exact fun fewer hfewer => assemble_of_assemble h hfewer
  · exact (assemble_of_assemble h (List.Subset.refl names)).trans h

/-- One entry has no name of its own, and one has another name. -/
def misnamed : Contract :=
  ⟨.ofList [("a", { name := "" }), ("b", { name := "a", emit := false }), ("c", { name := "c" })]⟩

def renamed : Contract := ⟨.ofList [("a", { name := "a" }), ("b", { name := "b", emit := false })]⟩

theorem assemble_lawful_misnamed :
    misnamed.assemble ["b", "a", "b"] = .ok renamed ∧ misnamed.assemble ["a", "b"] = .ok renamed ∧
      renamed.assemble ["b"] = misnamed.assemble ["b"] ∧
      misnamed.assemble ["c", "d", "e"] = .error ⟨"d"⟩ := by
  have hassembled : misnamed.assemble ["b", "a", "b"] = .ok renamed := by decide +kernel
  obtain ⟨-, -, hlaws⟩ := assemble_lawful misnamed ["b", "a", "b"]
  obtain ⟨-, -, hset, hparts, -⟩ := hlaws renamed hassembled
  refine ⟨hassembled, hset ["a", "b"] (by simp [or_comm]), hparts ["b"] (by simp), ?_⟩
  exact ((assemble_lawful misnamed ["c", "d", "e"]).2.1 ⟨"d"⟩).mpr
    ⟨["c"], "d", ["e"], rfl, by decide +kernel, by decide +kernel, rfl⟩

end RpcContract.Contract
