import RpcContract.Json.Text
import RpcContract.Proofs.Text.Quoted

/-!
# Sources in Rust

A source is read one character after the other into the characters of its code, those of its
remarks, and the texts that its string literals stand for.  Quoted text is one literal, and what it
stands for is the text that was quoted.
-/

namespace RpcContract.Text.Source

/-! ## Literals -/

inductive Inside where
  | between
  | escape
  /-- Behind `\x`, and maybe the first of its two digits. -/
  | byte (first : Option Nat)
  | brace
  /-- Between braces, with the number that was read and how many digits it has. -/
  | number (value digits : Nat)
  /-- Behind an escaped line end, where blanks are left out. -/
  | gap
deriving DecidableEq, Repr

inductive Progress where
  | go (place : Inside)
  | char (c : Char)
  | close
deriving DecidableEq, Repr

namespace Inside

/-- A character may stand for itself, also over several lines, but for a carriage return. -/
def unescaped? (c : Char) : Option Progress :=
  if c = '"' then some .close
  else if c = '\\' then some (.go .escape)
  else if c = '\r' then none
  else some (.char c)

/-- What one more character does.  Behind a backslash there is a short escape, a code below 128 of
two digits, or the number of any character, of up to six digits with underscores behind the first
of them. -/
def step? : Inside → Char → Option Progress
  | .between, c => unescaped? c
  | .escape, c =>
      if c = 'x' then some (.go (.byte none))
      else if c = 'u' then some (.go .brace)
      else if c = '\n' then some (.go .gap)
      else if c = '\'' then some (.char c)
      else (ofShort? c).map .char
  | .byte none, c => ((Json.hexValue? c).filter (· < 8)).map fun n => .go (.byte (some n))
  | .byte (some first), c => (Json.hexValue? c).map fun n => .char (.ofNat (first * 16 + n))
  | .brace, c => if c = '\x7b' then some (.go (.number 0 0)) else none
  | .number value digits, c =>
      match Json.hexValue? c with
      | some n => if digits < 6 then some (.go (.number (value * 16 + n) (digits + 1))) else none
      | none =>
          if digits = 0 then none
          else if c = '_' then some (.go (.number value digits))
          else if c = '\x7d' ∧ value.isValidChar then some (.char (.ofNat value))
          else none
  | .gap, c => if c ∈ [' ', '\t', '\n', '\r'] then some (.go .gap) else unescaped? c

end Inside

/-! ## Code, remarks, and literals -/

inductive Piece where
  | code (c : Char)
  | remark (c : Char)
  | text (text : String)
deriving DecidableEq, Repr

inductive Place where
  /-- In code; a quote right behind a word or `#` would belong to a literal of another kind. -/
  | code (joined : Bool)
  | slash
  | remark
  /-- Behind a single quote, which only a lifetime may start with. -/
  | tick
  | inside (place : Inside) (text : List Char)
  | closed
deriving DecidableEq, Repr

def isWordChar (c : Char) : Bool := c.isAlphanum || c == '_' || 0x80 ≤ c.toNat

namespace Place

def code? (joined : Bool) (c : Char) : Option (List Piece × Place) :=
  if c = '"' then if joined then none else some ([], .inside .between [])
  else if c = '\'' then if joined then none else some ([], .tick)
  else if c = '/' then some ([], .slash)
  else some ([.code c], .code (isWordChar c || c == '#'))

/-- What one more character completes, and the place behind it.  Sources with literals of other
kinds or with remarks over several lines are not read at all. -/
def step? : Place → Char → Option (List Piece × Place)
  | .code joined, c => code? joined c
  | .slash, c =>
      if c = '/' then some ([.remark '/', .remark '/'], .remark)
      else if c = '*' then none
      else (code? false c).map fun (pieces, place) => (.code '/' :: pieces, place)
  | .remark, c => if c = '\n' then some ([.code c], .code false) else some ([.remark c], .remark)
  | .tick, c =>
      if isWordChar c && !c.isDigit then some ([.code '\'', .code c], .code true) else none
  | .inside place text, c => (place.step? c).map fun
      | .go place => ([], .inside place text)
      | .char d => ([], .inside .between (text ++ [d]))
      | .close => ([.text (.ofList text)], .closed)
  | .closed, c => if isWordChar c then none else code? false c

def rest? : Place → Option (List Piece)
  | .code _ | .remark | .closed => some []
  | .slash => some [.code '/']
  | .tick | .inside .. => none

end Place

def run : Place → List Char → Option (List Piece × Place)
  | place, [] => some ([], place)
  | place, c :: cs =>
      (place.step? c).bind fun (first, next) =>
        (run next cs).map fun (later, last) => (first ++ later, last)

def pieces? (source : String) : Option (List Piece) :=
  (run (.code false) source.toList).bind fun (pieces, place) => place.rest?.map (pieces ++ ·)

/-! ## Parts of a source -/

/-- From one place, a part of a source reads as the pieces and leads to the next place. -/
def Reads (place : Place) (source : List Char) (pieces : List Piece) (next : Place) : Prop :=
  run place source = some (pieces, next)

namespace Reads

variable {place next last : Place} {cs ds : List Char} {pieces more : List Piece}

theorem nil (place : Place) : Reads place [] [] place := rfl

theorem cons {c : Char} (h : place.step? c = some (pieces, next))
    (hrest : Reads next cs more last) : Reads place (c :: cs) (pieces ++ more) last := by
  have hrun : run next cs = some (more, last) := hrest
  simp only [Reads, run, h, Option.bind_some, hrun, Option.map_some]

theorem append (h : Reads place cs pieces next) (hrest : Reads next ds more last) :
    Reads place (cs ++ ds) (pieces ++ more) last := by
  induction cs generalizing place pieces with
  | nil =>
      obtain ⟨rfl, rfl⟩ := Prod.mk.inj (Option.some.inj h)
      exact hrest
  | cons c cs ih =>
      obtain ⟨⟨first, middle⟩, hstep, hrun⟩ := Option.bind_eq_some_iff.mp h
      obtain ⟨⟨later, final⟩, hlater, hpieces⟩ := Option.map_eq_some_iff.mp hrun
      obtain ⟨rfl, rfl⟩ := Prod.mk.inj hpieces
      rw [List.cons_append, List.append_assoc]
      exact cons hstep (ih hlater)

end Reads

/-! ## Quoted text -/

theorem hexValue?_digitChar : ∀ n < 16, Json.hexValue? n.digitChar = some n := by decide

theorem length_hexDigits_le (c : Char) : (hexDigits c.toNat).length ≤ 6 := by
  have hbound : c.toNat < 16 ^ 6 := by
    have hvalid : c.toNat < 0xD800 ∨ 0xDFFF < c.toNat ∧ c.toNat < 0x110000 := c.valid
    omega
  exact (Nat.length_toDigits_le_iff (by decide) (by decide)).mpr hbound

theorem reads_hexDigits {n : Nat} (h : (hexDigits n).length ≤ 6) (text : List Char) :
    Reads (.inside (.number 0 0) text) (hexDigits n) []
      (.inside (.number n (hexDigits n).length) text) := by
  induction n using Nat.strong_induction_on with
  | _ n ih =>
      have hdigit (value digits : Nat) (hdigits : digits < 6) (m : Nat) (hm : m < 16) :
          (Place.inside (.number value digits) text).step? m.digitChar =
            some ([], .inside (.number (value * 16 + m) (digits + 1)) text) := by
        simp [Place.step?, Inside.step?, hexValue?_digitChar m hm, hdigits]
      rcases Nat.lt_or_ge n 16 with hless | hge
      · rw [hexDigits_of_lt hless]
        simpa using Reads.cons (hdigit 0 0 (by decide) n hless) (.nil _)
      · have hsplit := hexDigits_of_le hge
        have hlength : (hexDigits n).length = (hexDigits (n / 16)).length + 1 := by simp [hsplit]
        have hfront := ih (n / 16) (by omega) (by omega)
        -- The last digit stands behind those of the quotient.
        have hlast := hdigit (n / 16) (hexDigits (n / 16)).length (by omega) (n % 16)
          (Nat.mod_lt n (by decide))
        have hvalue : n / 16 * 16 + n % 16 = n := Nat.div_add_mod' n 16
        rw [hvalue, ← hlength] at hlast
        rw [hsplit]
        simpa [← hlength] using hfront.append (.cons hlast (.nil _))

theorem reads_quoteChar (c : Char) (text : List Char) :
    Reads (.inside .between text) (quoteChar c) [] (.inside .between (text ++ [c])) := by
  unfold quoteChar
  split_ifs with hnull htab hreturn hline hquote hslash
  · subst hnull; rfl
  · subst htab; rfl
  · subst hreturn; rfl
  · subst hline; rfl
  · subst hquote; rfl
  · subst hslash; rfl
  · have hdigits := reads_hexDigits (length_hexDigits_le c) text
    have hopen : Reads (.inside .between text) ['\\', 'u', '\x7b'] []
        (.inside (.number 0 0) text) := rfl
    have hclose : Reads (.inside (.number c.toNat (hexDigits c.toNat).length) text) ['\x7d'] []
        (.inside .between (text ++ [c])) := by
      have hdigits : (hexDigits c.toNat).length ≠ 0 :=
        List.length_pos_iff.mpr (hexDigits_ne_nil c.toNat) |>.ne'
      have hstep : (Place.inside (.number c.toNat (hexDigits c.toNat).length) text).step? '\x7d' =
          some ([], .inside .between (text ++ [c])) := by
        have hvalid : c.toNat.isValidChar := c.valid
        have hletter : Json.hexValue? '\x7d' = none := by decide
        simp [Place.step?, Inside.step?, hletter, hdigits, hvalid]
      exact .cons hstep (.nil _)
    exact (hopen.append hdigits).append hclose
  · have hstep : (Place.inside .between text).step? c =
        some ([], .inside .between (text ++ [c])) := by
      simp [Place.step?, Inside.step?, Inside.unescaped?, hquote, hslash, hreturn]
    exact .cons hstep (.nil _)

theorem reads_flatMap_quoteChar (cs text : List Char) :
    Reads (.inside .between text) (cs.flatMap quoteChar) [] (.inside .between (text ++ cs)) := by
  induction cs generalizing text with
  | nil => simpa using Reads.nil _
  | cons c cs ih => simpa using (reads_quoteChar c text).append (ih (text ++ [c]))

theorem reads_quote (text : String) :
    Reads (.code false) (quote text).toList [.text text] .closed := by
  have hopen : Reads (.code false) ['"'] [] (.inside .between []) := rfl
  have hclose : Reads (.inside .between text.toList) ['"'] [.text text] .closed := by
    simp [Reads, run, Place.step?, Inside.step?, Inside.unescaped?]
  have hall := (hopen.append (reads_flatMap_quoteChar text.toList [])).append hclose
  simpa [quote] using hall

/-! ## Spelling -/

def Piece.spell : Piece → List Char
  | .code c | .remark c => [c]
  | .text meant => (quote meant).toList

def spell (pieces : List Piece) : String := .ofList (pieces.flatMap Piece.spell)

def codes (text : String) : List Piece := text.toList.map .code

def remarks (text : String) : List Piece := text.toList.map .remark

theorem codes_append (text other : String) : codes (text ++ other) = codes text ++ codes other := by
  simp [codes]

@[simp] theorem spell_codes (text : String) : spell (codes text) = text := by
  apply String.toList_injective
  simp [spell, codes, Piece.spell, List.flatMap_map]

@[simp] theorem spell_remarks (text : String) : spell (remarks text) = text := by
  apply String.toList_injective
  simp [spell, remarks, Piece.spell, List.flatMap_map]

@[simp] theorem spell_nil : spell [] = "" := rfl

@[simp] theorem spell_text_cons (text : String) (rest : List Piece) :
    spell (.text text :: rest) = quote text ++ spell rest := by
  simp [spell, Piece.spell]

@[simp] theorem spell_append (pieces more : List Piece) :
    spell (pieces ++ more) = spell pieces ++ spell more := by
  simp [spell]

theorem spell_flatMap {α : Type} (xs : List α) (parts : α → List Piece) :
    spell (xs.flatMap parts) = String.join (xs.map fun x => spell (parts x)) := by
  apply String.toList_injective
  simp [spell, String.toList_join, List.flatMap_assoc, List.flatMap_map]

/-- From one place, the pieces are read from the way they are spelled. -/
def Spelled (place : Place) (pieces : List Piece) (next : Place) : Prop :=
  Reads place (pieces.flatMap Piece.spell) pieces next

instance (place : Place) (pieces : List Piece) (next : Place) :
    Decidable (Spelled place pieces next) :=
  inferInstanceAs (Decidable (_ = _))

namespace Spelled

variable {place next last : Place} {pieces more : List Piece}

theorem append (h : Spelled place pieces next) (hmore : Spelled next more last) :
    Spelled place (pieces ++ more) last := by
  rw [Spelled, List.flatMap_append]
  exact Reads.append h hmore

theorem flatMap {α : Type} {xs : List α} {parts : α → List Piece}
    (h : ∀ x ∈ xs, Spelled place (parts x) place) : Spelled place (xs.flatMap parts) place := by
  induction xs with
  | nil => exact Reads.nil place
  | cons x xs ih =>
      rw [List.forall_mem_cons] at h
      rw [List.flatMap_cons]
      exact h.1.append (ih h.2)

theorem text (text : String) : Spelled (.code false) [.text text] .closed := by
  rw [Spelled, List.flatMap_singleton]
  exact reads_quote text

theorem pieces?_eq (h : Spelled (.code false) pieces next) (hend : next.rest? = some []) :
    pieces? (spell pieces) = some pieces := by
  have hrun : run (.code false) (pieces.flatMap Piece.spell) = some (pieces, next) := h
  simp only [pieces?, spell, String.toList_ofList, hrun, Option.bind_some, hend, Option.map_some,
    List.append_nil]

end Spelled

theorem pieces?_quote (text : String) : pieces? (quote text) = some [.text text] := by
  simpa using (Spelled.text text).pieces?_eq rfl

-- A literal may be spelled in more ways than by quoting its text.
example : pieces? "\"\\x41\\u\x7b1F_600\x7d\\\n  b\"" = some [.text "A😀b"] := by decide +kernel

/-- A name in which neither a literal nor a remark can start. -/
def IsPlain (name : String) : Prop :=
  ∀ c ∈ name.toList, c ≠ '"' ∧ c ≠ '\'' ∧ c ≠ '/'

instance (name : String) : Decidable (IsPlain name) :=
  List.decidableBAll (fun c => c ≠ '"' ∧ c ≠ '\'' ∧ c ≠ '/') name.toList

theorem IsPlain.spelled {name : String} (h : IsPlain name) (joined : Bool) :
    ∃ joined', Spelled (.code joined) (codes name) (.code joined') := by
  unfold IsPlain at h
  unfold Spelled codes
  generalize name.toList = cs at h ⊢
  induction cs generalizing joined with
  | nil => exact ⟨joined, .nil _⟩
  | cons c cs ih =>
      obtain ⟨⟨hquote, htick, hslash⟩, hrest⟩ := List.forall_mem_cons.mp h
      obtain ⟨joined', hreads⟩ := ih (isWordChar c || c == '#') hrest
      have hstep : (Place.code joined).step? c =
          some ([.code c], .code (isWordChar c || c == '#')) := by
        simp [Place.step?, Place.code?, hquote, htick, hslash]
      exact ⟨joined', .cons hstep hreads⟩

theorem spelled_remarks {text : String} (h : '\n' ∉ text.toList) :
    Spelled .remark (remarks text) .remark := by
  unfold Spelled remarks
  generalize text.toList = cs at h ⊢
  induction cs with
  | nil => exact .nil _
  | cons c cs ih =>
      rw [List.mem_cons, not_or] at h
      have hstep : Place.remark.step? c = some ([.remark c], .remark) := by
        simp [Place.step?, Ne.symm h.1]
      exact .cons hstep (ih h.2)

/-! ## Texts by the code before them -/

/-- The text of a literal if `opening` is right before it; `before` is the code before it from its
end on. -/
def shown (opening : String) (before : List Char) (text : String) : List String :=
  if opening.toList.reverse.isPrefixOf before then [text] else []

/-- The texts of the literals right behind `opening`, where `before` is the code since the last
literal from its end on. -/
def textsFrom (opening : String) : List Char → List Piece → List String
  | _, [] => []
  | before, .code c :: rest => textsFrom opening (c :: before) rest
  | before, .remark _ :: rest => textsFrom opening before rest
  | before, .text text :: rest => shown opening before text ++ textsFrom opening [] rest

/-- What the literals stand for that have `opening` right before them. -/
def textsBehind (opening : String) (pieces : List Piece) : List String :=
  textsFrom opening [] pieces

/-- Wherever the pieces stand, it is these texts of theirs that have `opening` before them. -/
def Shows (opening : String) (pieces : List Piece) (texts : List String) : Prop :=
  ∀ before rest, ∃ before', textsFrom opening before (pieces ++ rest) =
    texts ++ textsFrom opening before' rest

namespace Shows

variable {opening : String} {pieces more : List Piece} {texts later : List String}

theorem nil (opening : String) : Shows opening [] [] := fun before _ => ⟨before, rfl⟩

theorem append (h : Shows opening pieces texts) (hmore : Shows opening more later) :
    Shows opening (pieces ++ more) (texts ++ later) := by
  intro before rest
  obtain ⟨middle, hpieces⟩ := h before (more ++ rest)
  obtain ⟨last, hlater⟩ := hmore middle rest
  exact ⟨last, by rw [List.append_assoc, hpieces, hlater, List.append_assoc]⟩

theorem flatMap {α : Type} {xs : List α} {parts : α → List Piece} {texts : α → List String}
    (h : ∀ x ∈ xs, Shows opening (parts x) (texts x)) :
    Shows opening (xs.flatMap parts) (xs.flatMap texts) := by
  induction xs with
  | nil => exact nil opening
  | cons x xs ih =>
      rw [List.forall_mem_cons] at h
      rw [List.flatMap_cons, List.flatMap_cons]
      exact h.1.append (ih h.2)

theorem textsBehind_eq (h : Shows opening pieces texts) : textsBehind opening pieces = texts := by
  obtain ⟨before, hshows⟩ := h [] []
  simpa [textsFrom, textsBehind] using hshows

end Shows

theorem textsFrom_codes (opening text : String) (before : List Char) (rest : List Piece) :
    textsFrom opening before (codes text ++ rest) =
      textsFrom opening (text.toList.reverse ++ before) rest := by
  unfold codes
  induction text.toList generalizing before with
  | nil => rfl
  | cons c cs ih => simpa [textsFrom] using ih (c :: before)

theorem textsFrom_remarks (opening text : String) (before : List Char) (rest : List Piece) :
    textsFrom opening before (remarks text ++ rest) = textsFrom opening before rest := by
  unfold remarks
  induction text.toList with
  | nil => rfl
  | cons c cs ih => exact ih

theorem textsFrom_text (opening text : String) (before : List Char) (rest : List Piece) :
    textsFrom opening before ([.text text] ++ rest) =
      shown opening before text ++ textsFrom opening [] rest := by
  rw [List.singleton_append, textsFrom]

theorem Shows.codes (opening text : String) : Shows opening (codes text) [] :=
  fun before rest => ⟨_, textsFrom_codes opening text before rest⟩

/-- Right behind `opening` there is a part of the source that reads as the pieces. -/
def ReadsBehind (source opening : String) (pieces : List Piece) : Prop :=
  ∃ before part after, source = before ++ opening ++ part ++ after ∧ pieces? part = some pieces

theorem readsBehind_spell {opening : String} {part : List Piece} {next : Place}
    (before after : List Piece) (h : Spelled (.code false) part next)
    (hend : next.rest? = some []) :
    ReadsBehind (spell (before ++ codes opening ++ part ++ after)) opening part :=
  ⟨spell before, spell part, spell after, by simp [String.append_assoc], h.pieces?_eq hend⟩

end RpcContract.Text.Source
