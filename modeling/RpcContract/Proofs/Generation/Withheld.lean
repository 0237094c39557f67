import RpcContract.Proofs.Client.Embedding

/-!
# Withheld segments

A segment is withheld if it is not to be emitted.  Dumps leave withheld segments out, so nothing of
them is seen there.  The clients are made for all segments that are listed, withheld or not, and
those that embed their contract tell everything of them.
-/

namespace RpcContract

/-! ## Contracts that differ in withheld segments -/

namespace Contract

variable {contract other assembled assembled' : Contract} {names : List String}

/-- Contracts that have the same segments but for what is withheld. -/
structure EmitsAlike (contract other : Contract) : Prop where
  names : ∀ name, contract.get? name = none ↔ other.get? name = none
  flags : ∀ name entry entry', contract.get? name = some entry → other.get? name = some entry' →
    entry.emit = entry'.emit
  entries : ∀ name entry, contract.get? name = some entry → entry.emit = true →
    other.get? name = some entry

/-- Contracts that have the same segments of these names, whatever these call themselves. -/
def AgreeOn (contract other : Contract) (names : List String) : Prop :=
  ∀ name ∈ names, (contract.get? name).map (fun entry => { entry with name := name }) =
    (other.get? name).map fun entry => { entry with name := name }

theorem get?_emitted (contract : Contract) (name : String) :
    contract.emitted.get? name = (contract.get? name).filter (·.emit) := by
  refine Option.ext fun entry => ?_
  rw [Option.filter_eq_some_iff]
  exact Dict.get?_eq_some_iff.trans (List.mem_filter.trans
    (and_congr_left' Dict.get?_eq_some_iff.symm))

theorem EmitsAlike.emitted (h : contract.EmitsAlike other) : contract.emitted = other.emitted := by
  refine ext_get? fun name => ?_
  rw [get?_emitted, get?_emitted]
  cases hentry : contract.get? name with
  | none => rw [(h.names name).mp hentry]
  | some entry =>
      cases hemit : entry.emit with
      | true => rw [h.entries name entry hentry hemit]
      | false =>
          cases hother : other.get? name with
          | none => simp [Option.filter, hemit]
          | some entry' =>
              have hsame := h.flags name entry entry' hentry hother
              simp [Option.filter, hemit, ← hsame]

theorem emitted_part? (contract : Contract) (names : List String) (key : String) :
    (contract.part? names key).filter (·.emit) = contract.emitted.part? names key := by
  rw [part?, part?, get?_emitted]
  split
  · cases contract.get? key with
    | none => rfl
    | some entry => cases hemit : entry.emit <;> simp [Option.filter, hemit]
  · rfl

theorem EmitsAlike.emitted_assemble (h : contract.EmitsAlike other)
    (hassembled : contract.assemble names = .ok assembled)
    (hassembled' : other.assemble names = .ok assembled') :
    assembled.emitted = assembled'.emitted := by
  refine ext_get? fun key => ?_
  rw [get?_emitted, get?_emitted, (assemble_eq_ok_iff.mp hassembled).2,
    (assemble_eq_ok_iff.mp hassembled').2, emitted_part?, emitted_part?, h.emitted]

theorem EmitsAlike.assemble_error_iff (h : contract.EmitsAlike other) {missing : MissingSegment} :
    contract.assemble names = .error missing ↔ other.assemble names = .error missing := by
  simp only [assemble_eq_error_iff, ne_eq, h.names]

theorem eq_iff_agreeOn (hassembled : contract.assemble names = .ok assembled)
    (hassembled' : other.assemble names = .ok assembled') :
    assembled = assembled' ↔ contract.AgreeOn other names := by
  have hentries := (assemble_eq_ok_iff.mp hassembled).2
  have hentries' := (assemble_eq_ok_iff.mp hassembled').2
  constructor
  · rintro rfl name hname
    have hsame := (hentries name).symm.trans (hentries' name)
    rwa [part?, part?, if_pos hname, if_pos hname] at hsame
  · intro hagree
    refine ext_get? fun key => ?_
    rw [hentries, hentries', part?, part?]
    split
    next hkey => exact hagree key hkey
    next => rfl

theorem EmitsAlike.assemble_eq (h : contract.EmitsAlike other)
    (hagree : contract.AgreeOn other names) :
    contract.assemble names = other.assemble names := by
  cases hassembled : contract.assemble names with
  | error missing => exact (h.assemble_error_iff.mp hassembled).symm
  | ok assembled =>
      cases hassembled' : other.assemble names with
      | error missing =>
          rw [h.assemble_error_iff.mpr hassembled'] at hassembled
          cases hassembled
      | ok assembled' =>
          rw [(eq_iff_agreeOn hassembled hassembled').mpr hagree]

theorem EmitsAlike.agreeOn (h : contract.EmitsAlike other)
    (hemitted : ∀ name ∈ names, ∀ entry, contract.get? name = some entry → entry.emit = true) :
    contract.AgreeOn other names := by
  intro name hname
  cases hentry : contract.get? name with
  | none => rw [(h.names name).mp hentry]
  | some entry => rw [h.entries name entry hentry (hemitted name hname entry hentry)]

end Contract

namespace Generation

open Client

variable {contract other assembled assembled' : Contract} {segments : List Segment}
  {options : Options} {banner : String}

theorem plan_congr (h : contract.assemble (segments.map (·.name)) =
      other.assemble (segments.map (·.name))) (tree : FileTree) (selection : Selection)
    (format : Formatting) :
    Generation.plan tree contract segments selection options banner format =
      Generation.plan tree other segments selection options banner format := by
  simp only [Generation.plan, h]

theorem generate_congr (h : contract.assemble (segments.map (·.name)) =
      other.assemble (segments.map (·.name))) (tree : FileTree) (selection : Selection)
    (format : Formatting) :
    generate tree contract segments selection options banner format =
      generate tree other segments selection options banner format := by
  simp only [generate, plan_congr h]

theorem dumps_eq_of_emitsAlike (h : contract.EmitsAlike other) {tree : FileTree}
    {selection : Selection} {format : Formatting} {plan plan' : Plan}
    (hplan : Generation.plan tree contract segments selection options banner format = .ok plan)
    (hplan' : Generation.plan tree other segments selection options banner format = .ok plan') :
    plan.dumps = plan'.dumps ∧ plan.dumpText = plan'.dumpText := by
  obtain ⟨files, assembled, outputs, hfiles, hassembled, -, rfl⟩ := plan_eq_ok_iff.mp hplan
  obtain ⟨files', assembled', outputs', hfiles', hassembled', -, rfl⟩ := plan_eq_ok_iff.mp hplan'
  obtain rfl := Except.ok.inj (hfiles.symm.trans hfiles')
  exact ⟨rfl, congrArg Contract.dump (h.emitted_assemble hassembled hassembled')⟩

theorem embeds_iff {name : String} {layout : Client.Layout} (h : (name, layout) ∈ layouts) :
    layout.embeds = true ↔ name ≠ "py" := by
  simp only [layouts, List.mem_cons, Prod.mk.injEq, List.not_mem_nil, or_false] at h
  rcases h with ⟨rfl, rfl⟩ | ⟨rfl, rfl⟩ | ⟨rfl, rfl⟩ <;> decide

theorem render_eq_iff (builtin : Builtin) (h : builtin ∈ builtins) :
    ∃ layout, (builtin.name, layout) ∈ layouts ∧ ∀ (segments : List Segment) (options : Options)
        (banner : String) (assembled assembled' : Contract),
      assembled.toJson.Finite → assembled'.toJson.Finite →
      (render builtin.path builtin.text (contextOf assembled segments options banner) =
          render builtin.path builtin.text (contextOf assembled' segments options banner) ↔
        if layout.embeds then assembled = assembled'
        else String.join ((declarations assembled).map layout.declare) =
          String.join ((declarations assembled').map layout.declare)) := by
  obtain ⟨layout, hlayout, -, hpath, hread, -⟩ := exists_layout h
  refine ⟨layout, hlayout, fun segments options banner assembled assembled' hfinite hfinite' => ?_⟩
  have htext (assembled : Contract) :
      render builtin.path builtin.text (contextOf assembled segments options banner) =
        .ok (layout.print (contextOf assembled segments options banner)
          assembled.toJson.compact) :=
    render_of_readTemplate hpath hread _
  rw [htext, htext, Except.ok.injEq]
  exact Layout.print_eq_iff hlayout hfinite hfinite'

/-- Of contracts that differ in withheld segments alone, the dumps are the same.  The whole runs are
the same if the listed segments are, as they are if none of them is withheld.  But the clients that
embed their contract are the same only then, and those of the other template only if they declare
the same. -/
theorem withheld_segments (h : contract.EmitsAlike other) (segments : List Segment)
    (options : Options) (banner : String) :
    let names := segments.map (·.name)
    (∀ missing, contract.assemble names = .error missing ↔
      other.assemble names = .error missing) ∧
    (∀ tree selection format plan plan',
      Generation.plan tree contract segments selection options banner format = .ok plan →
      Generation.plan tree other segments selection options banner format = .ok plan' →
        plan.dumps = plan'.dumps ∧ plan.dumpText = plan'.dumpText) ∧
    ((∀ name ∈ names, ∀ entry, contract.get? name = some entry → entry.emit = true) →
      contract.AgreeOn other names) ∧
    (contract.AgreeOn other names → ∀ tree selection format,
      generate tree contract segments selection options banner format =
        generate tree other segments selection options banner format) ∧
    ∀ builtin ∈ builtins, ∃ layout, (builtin.name, layout) ∈ layouts ∧
      (layout.embeds = true ↔ builtin.name ≠ "py") ∧
      ∀ assembled assembled', contract.assemble names = .ok assembled →
        other.assemble names = .ok assembled' → assembled.toJson.Finite →
        assembled'.toJson.Finite →
        (render builtin.path builtin.text (contextOf assembled segments options banner) =
            render builtin.path builtin.text (contextOf assembled' segments options banner) ↔
          if layout.embeds then contract.AgreeOn other names
          else String.join ((declarations assembled).map layout.declare) =
            String.join ((declarations assembled').map layout.declare)) := by
  intro names
  refine ⟨fun missing => h.assemble_error_iff, fun tree selection format plan plan' =>
    dumps_eq_of_emitsAlike h, h.agreeOn, fun hagree tree selection format =>
    generate_congr (h.assemble_eq hagree) tree selection format, fun builtin hbuiltin => ?_⟩
  obtain ⟨layout, hlayout, hrender⟩ := render_eq_iff builtin hbuiltin
  refine ⟨layout, hlayout, embeds_iff hlayout,
    fun assembled assembled' hassembled hassembled' hfinite hfinite' => ?_⟩
  rw [← Contract.eq_iff_agreeOn hassembled hassembled']
  exact hrender segments options banner assembled assembled' hfinite hfinite'

/-- A contract with a withheld segment, which has these controllers, and another segment. -/
def withheldContract (controllers : Dict ControllerSpec) : Contract where
  segments := ⟨[("a", ⟨"a", controllers, false⟩), ("b", ⟨"b", {}, true⟩)],
    List.pairwise_pair.mpr (show "a" < "b" by decide)⟩

def secretControllers : Dict ControllerSpec := .ofList [("Secret", smallController)]

theorem secretControllers_finite :
    (Json.ofDict (secretControllers.mapWithKey fun _ c => c.toJson)).Finite :=
  ⟨⟨trivial, trivial, ⟨⟨trivial, trivial, trivial⟩, trivial⟩, trivial⟩, trivial⟩

theorem get?_withheldContract (controllers : Dict ControllerSpec) (name : String) :
    (withheldContract controllers).get? name =
      if "a" = name then some ⟨"a", controllers, false⟩
      else if "b" = name then some ⟨"b", {}, true⟩ else none := rfl

theorem withheldContract_emitsAlike (controllers controllers' : Dict ControllerSpec) :
    (withheldContract controllers).EmitsAlike (withheldContract controllers') := by
  constructor
  · intro name
    rw [get?_withheldContract, get?_withheldContract]
    split_ifs <;> simp
  · intro name entry entry' hentry hentry'
    rw [get?_withheldContract] at hentry hentry'
    split_ifs at hentry hentry' <;> cases hentry <;> cases hentry' <;> rfl
  · intro name entry hentry hemit
    rw [get?_withheldContract] at hentry ⊢
    split_ifs at hentry ⊢ <;> cases hentry
    · cases hemit
    · rfl

theorem withheldContract_finite (controllers : Dict ControllerSpec)
    (h : (Json.ofDict (controllers.mapWithKey fun _ c => c.toJson)).Finite) :
    (withheldContract controllers).toJson.Finite :=
  ⟨⟨trivial, h, trivial, trivial⟩, ⟨trivial, trivial, trivial, trivial⟩, trivial⟩

theorem assemble_withheldContract (controllers : Dict ControllerSpec) :
    (withheldContract controllers).assemble ["a", "b"] = .ok (withheldContract controllers) := by
  refine Contract.assemble_eq_ok_iff.mpr ⟨?_, fun key => ?_⟩
  · simp [get?_withheldContract]
  · simp only [Contract.part?, get?_withheldContract]
    split_ifs <;> simp_all

theorem withheld_segments_secret :
    let contract := withheldContract {}
    let other := withheldContract secretControllers
    (∀ tree selection, generate tree contract [⟨"b", [], none⟩] selection {} "1" =
      generate tree other [⟨"b", [], none⟩] selection {} "1") ∧
    render "client.rs.tpl" rustTemplate (contextOf contract contract.toSegments {} "1") ≠
      render "client.rs.tpl" rustTemplate (contextOf other contract.toSegments {} "1") := by
  intro contract other
  have halike := withheldContract_emitsAlike {} secretControllers
  obtain ⟨-, -, hemitted, hgenerate, -⟩ := withheld_segments halike [⟨"b", [], none⟩] {} "1"
  obtain ⟨-, -, -, -, hclients⟩ := withheld_segments halike contract.toSegments {} "1"
  constructor
  · intro tree selection
    refine hgenerate (hemitted ?_) tree selection Formatter.format
    simp [get?_withheldContract]
  · obtain ⟨layout, hlayout, hembeds, hrender⟩ := hclients
      ⟨"rs", "Rust route constants (client.rs)", "client.rs.tpl", rustTemplate, false⟩
      (by simp [builtins])
    intro hsame
    have hagree := (hrender contract other (assemble_withheldContract _)
      (assemble_withheldContract _) (withheldContract_finite {} trivial)
      (withheldContract_finite _ secretControllers_finite)).mp hsame
    rw [if_pos (hembeds.mpr (by decide))] at hagree
    exact absurd (hagree "a" (by decide +kernel)) (by decide +kernel)

/-- A client shows what is withheld. -/
theorem withheld_segment_shown :
    let contract := withheldContract {}
    let other := withheldContract secretControllers
    contract.EmitsAlike other ∧ ∃ after after' text text',
      generate ⟨[], []⟩ contract contract.toSegments ⟨["rs"], {}⟩ {} "1" =
        (after, .ok ⟨true, ⟨".rpcforge"⟩, ["rs"]⟩) ∧
      generate ⟨[], []⟩ other contract.toSegments ⟨["rs"], {}⟩ {} "1" =
        (after', .ok ⟨true, ⟨".rpcforge"⟩, ["rs"]⟩) ∧
      after.readText ⟨".rpcforge/client.rs"⟩ = .ok text ∧
      after'.readText ⟨".rpcforge/client.rs"⟩ = .ok text' ∧ text ≠ text' := by
  intro contract other
  refine ⟨withheldContract_emitsAlike _ _, _, _, _, _,
    generate_rust "1" (assemble_withheldContract _),
    generate_rust "1" (assemble_withheldContract _), readText_clientTree _,
    readText_clientTree _, fun hsame => ?_⟩
  have hlayout : ("rs", rust) ∈ layouts := by simp [layouts]
  have hcontract := (Layout.print_eq_iff hlayout (withheldContract_finite {} trivial)
    (withheldContract_finite _ secretControllers_finite)).mp hsame
  rw [if_pos (by decide)] at hcontract
  revert hcontract
  decide +kernel

end Generation

end RpcContract
