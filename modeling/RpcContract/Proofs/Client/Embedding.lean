import RpcContract.Proofs.Client.Declarations
import RpcContract.Proofs.Contract.Dump
import RpcContract.Proofs.Json.Unambiguous
import RpcContract.Proofs.Text.Quoted

/-!
# Contracts inside of clients

Some clients hold the text of the whole contract that they are made for.  A contract is made out by
this text, so that two of these clients are the same just if they are made for one contract.
-/

namespace RpcContract

/-! ## Contracts by their JSON -/

theorem Json.ofDict_inj {α : Type} {write : α → Json} (hwrite : Function.Injective write)
    {d other : Dict α} (h : ofDict (d.mapWithKey fun _ value => write value) =
      ofDict (other.mapWithKey fun _ value => write value)) : d = other := by
  have hentry : Function.Injective fun entry : String × α => (entry.1, write entry.2) :=
    fun entry entry' hsame =>
      Prod.ext (Prod.mk.inj hsame).1 (hwrite (Prod.mk.inj hsame).2)
  exact Dict.ext (List.map_injective_iff.mpr hentry (Json.obj.inj h))

theorem HttpMethod.toJson_injective : Function.Injective HttpMethod.toJson := by
  intro m m' h
  have hread := HttpMethod.read_toTree m
  rw [h, HttpMethod.read_toTree] at hread
  exact (Except.ok.inj hread).symm

theorem Models.toJson_injective : Function.Injective Models.toJson := by
  intro models models' h
  refine Models.ext_get fun part => ?_
  rw [← Client.get?_models, h, Client.get?_models]

theorem HandlerSpec.toJson_injective : Function.Injective HandlerSpec.toJson := by
  intro handler handler' h
  have hget (name : String) := congrArg (Json.get? name) h
  simp only [Client.get?_handler] at hget
  have hmethod : some handler.method.toJson = some handler'.method.toJson := hget "httpMethod"
  have hpath : some (Json.str handler.path) = some (.str handler'.path) := hget "path"
  have hopenapi : handler.openapi = handler'.openapi := hget "openapi"
  have hvalidation : handler.validation.map Models.toJson =
    handler'.validation.map Models.toJson := hget "validation"
  obtain ⟨method, path, openapi, validation⟩ := handler
  obtain ⟨method', path', openapi', validation'⟩ := handler'
  obtain rfl := HttpMethod.toJson_injective (Option.some.inj hmethod)
  obtain rfl := Json.str.inj (Option.some.inj hpath)
  obtain rfl := Option.map_injective Models.toJson_injective hvalidation
  exact congrArg (HandlerSpec.mk method path · validation) hopenapi

theorem ControllerSpec.toJson_injective : Function.Injective ControllerSpec.toJson := by
  rintro ⟨name, pathPrefix, handlers⟩ ⟨name', pathPrefix', handlers'⟩ h
  simp only [ControllerSpec.toJson, Json.obj.injEq, List.cons.injEq, Prod.mk.injEq,
    Json.str.injEq, true_and, and_true] at h
  obtain ⟨rfl, rfl, hhandlers⟩ := h
  obtain rfl := Json.ofDict_inj HandlerSpec.toJson_injective hhandlers
  rfl

theorem SegmentSpec.toJson_injective : Function.Injective SegmentSpec.toJson := by
  rintro ⟨name, controllers, emit⟩ ⟨name', controllers', emit'⟩ h
  simp only [SegmentSpec.toJson, Json.obj.injEq, List.cons.injEq, Prod.mk.injEq,
    Json.str.injEq, Json.bool.injEq, true_and, and_true] at h
  obtain ⟨rfl, hcontrollers, rfl⟩ := h
  obtain rfl := Json.ofDict_inj ControllerSpec.toJson_injective hcontrollers
  rfl

theorem Contract.toJson_injective : Function.Injective Contract.toJson := by
  rintro ⟨segments⟩ ⟨segments'⟩ h
  exact congrArg Contract.mk (Json.ofDict_inj SegmentSpec.toJson_injective h)

theorem Contract.compact_append_inj {contract other : Contract} {rest later : List Char}
    (hcontract : contract.toJson.Finite) (hother : other.toJson.Finite)
    (h : contract.toJson.compact.toList ++ rest = other.toJson.compact.toList ++ later) :
    contract = other := by
  have hobj (contract : Contract) : ∃ fields, contract.toJson = .obj fields := ⟨_, rfl⟩
  obtain ⟨fields, hfields⟩ := hobj contract
  obtain ⟨others, hothers⟩ := hobj other
  refine Contract.toJson_injective ?_
  rw [hfields] at h hcontract ⊢
  rw [hothers] at h hother ⊢
  rw [Json.toList_compact_obj, Json.toList_compact_obj] at h
  simp only [List.cons_append, List.append_assoc, List.cons_inj_right, List.nil_append] at h
  exact congrArg Json.obj (Json.fieldsUnambiguous fields hcontract others _ _ hother h).1

namespace Client

/-! ## Clients that embed their contract -/

def PreludePiece.embeds : PreludePiece → Bool
  | .contract | .quotedContract => true
  | _ => false

def Layout.embeds (layout : Layout) : Bool := layout.prelude.any (·.embeds)

variable {context : Context} {other : Contract}

theorem PreludePiece.print_of_not_embeds {piece : PreludePiece} (h : piece.embeds = false)
    (quoting : Quoting) (text otherText : String) :
    piece.print quoting context text =
      piece.print quoting { context with contract := other } otherText := by
  cases piece with
  | contract => cases h
  | quotedContract => cases h
  | _ => rfl

namespace Layout

variable {layout : Layout} {text otherText : String}

theorem map_print_of_not_embeds {pieces : List PreludePiece}
    (h : ∀ piece ∈ pieces, piece.embeds = false) (other : Contract) (text otherText : String) :
    pieces.map (·.print layout.quoting context text) =
      pieces.map (·.print layout.quoting { context with contract := other } otherText) :=
  List.map_congr_left fun piece hpiece =>
    piece.print_of_not_embeds (h piece hpiece) layout.quoting text otherText

/-- Clients are the same from the piece that embeds the contract on. -/
theorem exists_of_print_eq (before : List PreludePiece) (piece : PreludePiece)
    {after : List PreludePiece} (hprelude : layout.prelude = before ++ piece :: after)
    (hbefore : ∀ piece ∈ before, piece.embeds = false)
    (h : layout.print context text =
      layout.print { context with contract := other } otherText) :
    ∃ rest later, (piece.print layout.quoting context text).toList ++ rest =
      (piece.print layout.quoting { context with contract := other } otherText).toList ++
        later := by
  have hlist := congrArg String.toList h
  simp only [print, printBody, hprelude, List.map_append, List.map_cons,
    map_print_of_not_embeds hbefore other text otherText, String.toList_append,
    String.toList_join, List.flatMap_append, List.flatMap_cons, List.append_assoc,
    List.append_cancel_left_eq] at hlist
  exact ⟨_, _, hlist⟩

theorem print_eq_iff_of_not_embeds (h : layout.embeds = false) :
    layout.print context text = layout.print { context with contract := other } otherText ↔
      String.join ((declarations context.contract).map layout.declare) =
        String.join ((declarations other).map layout.declare) := by
  have hpieces : ∀ piece ∈ layout.prelude, piece.embeds = false := by
    simpa [embeds] using h
  have hhead : layout.printHead context text =
      layout.printHead { context with contract := other } otherText := by
    rw [printHead, printHead, map_print_of_not_embeds hpieces other text otherText]
  rw [print_eq_declarations, print_eq_declarations, hhead]
  exact String.append_right_inj _

/-- Clients that embed their contract are the same just if it is one contract, and the others just
if the declarations are the same text. -/
theorem print_eq_iff {name : String} (h : (name, layout) ∈ layouts)
    (hcontract : context.contract.toJson.Finite) (hother : other.toJson.Finite) :
    layout.print context context.contractText =
        layout.print { context with contract := other } other.toJson.compact ↔
      if layout.embeds then context.contract = other
      else String.join ((declarations context.contract).map layout.declare) =
        String.join ((declarations other).map layout.declare) := by
  simp only [layouts, List.mem_cons, Prod.mk.injEq, List.not_mem_nil, or_false] at h
  rcases h with ⟨-, rfl⟩ | ⟨-, rfl⟩ | ⟨-, rfl⟩
  · rw [if_pos (by decide)]
    constructor
    · intro hprint
      obtain ⟨rest, later, hsame⟩ :=
        exists_of_print_eq (typeScript.prelude.take 4) .contract rfl (by decide) hprint
      exact Contract.compact_append_inj hcontract hother hsame
    · rintro rfl
      rfl
  · rw [if_neg (by decide)]
    exact print_eq_iff_of_not_embeds (by decide)
  · rw [if_pos (by decide)]
    constructor
    · intro hprint
      obtain ⟨rest, later, hsame⟩ :=
        exists_of_print_eq (rust.prelude.take 4) .quotedContract rfl (by decide) hprint
      obtain ⟨htext, -⟩ := Text.quote_append_inj hsame
      exact Contract.toJson_injective (Json.compact_inj hcontract hother htext)
    · rintro rfl
      rfl

end Layout

end Client

end RpcContract
