/-!
# Patterns of texts

A `Pattern` describes texts as regular expressions do.  `Pattern.occursIn` tells whether some part
of a text fits.
-/

namespace RpcContract

structure CharSet where
  negated : Bool
  ranges : List (Nat × Nat)
deriving DecidableEq, Repr, Inhabited

namespace CharSet

def contains (set : CharSet) (c : Char) : Bool :=
  (set.ranges.any fun range => range.1 ≤ c.toNat && c.toNat ≤ range.2) != set.negated

def single (c : Char) : CharSet := ⟨false, [(c.toNat, c.toNat)]⟩

def digit : CharSet := ⟨false, [(0x30, 0x39)]⟩

def word : CharSet := ⟨false, [(0x30, 0x39), (0x41, 0x5A), (0x5F, 0x5F), (0x61, 0x7A)]⟩

def space : CharSet :=
  ⟨false, [(0x9, 0xD), (0x20, 0x20), (0xA0, 0xA0), (0x1680, 0x1680), (0x2000, 0x200A),
    (0x2028, 0x2029), (0x202F, 0x202F), (0x205F, 0x205F), (0x3000, 0x3000), (0xFEFF, 0xFEFF)]⟩

def notNewline : CharSet := ⟨true, [(0xA, 0xA)]⟩

def complement (set : CharSet) : CharSet := { set with negated := !set.negated }

def plainRanges (set : CharSet) : List (Nat × Nat) :=
  if set.negated then
    let sorted := set.ranges.mergeSort (fun a b => a.1 ≤ b.1)
    let step := fun (acc : List (Nat × Nat) × Nat) (range : Nat × Nat) =>
      ((if acc.2 < range.1 then acc.1 ++ [(acc.2, range.1 - 1)] else acc.1),
        max acc.2 (range.2 + 1))
    let (gaps, next) := sorted.foldl step ([], 0)
    gaps ++ [(next, 0x10FFFF)]
  else set.ranges

def ignoringCase (set : CharSet) : CharSet :=
  let letters := (List.range 26).flatMap fun n => [(0x41 + n, 0x61 + n), (0x61 + n, 0x41 + n)]
  let within (n : Nat) : Bool := set.ranges.any fun range => range.1 ≤ n && n ≤ range.2
  let others := (letters.filter fun pair => within pair.1).map fun pair => (pair.2, pair.2)
  { set with ranges := set.ranges ++ others }

end CharSet

inductive Pattern where
  | empty
  | oneOf (chars : CharSet)
  | start
  | finish
  | boundary (negated : Bool)
  | seq (first second : Pattern)
  | alt (first second : Pattern)
  | repeated (inner : Pattern) (least : Nat) (most : Option Nat)
  | look (ahead negated : Bool) (inner : Pattern)
deriving Repr, Inhabited

namespace Pattern

def ignoringCase : Pattern → Pattern
  | oneOf chars => oneOf chars.ignoringCase
  | seq a b => seq a.ignoringCase b.ignoringCase
  | alt a b => alt a.ignoringCase b.ignoringCase
  | repeated inner least most => repeated inner.ignoringCase least most
  | look ahead negated inner => look ahead negated inner.ignoringCase
  | pattern => pattern

/-- A place in a text: what stands before it, backwards, and behind it. -/
structure Place where
  before : List Char
  rest : List Char

namespace Place

def step? (place : Place) : Option (Char × Place) :=
  match place.rest with
  | [] => none
  | c :: rest => some (c, ⟨c :: place.before, rest⟩)

/-- Exactly one of the two neighbours belongs to a word. -/
def atBoundary (place : Place) : Bool :=
  let isWord (cs : List Char) : Bool := cs.head?.any CharSet.word.contains
  isWord place.before != isWord place.rest

def backwards (place : Place) : List Place :=
  let rec go : List Char → List Char → List Place
    | [], rest => [⟨[], rest⟩]
    | c :: before, rest => ⟨c :: before, rest⟩ :: go before (c :: rest)
  go place.before place.rest

def forwards (place : Place) : List Place :=
  let rec go (before : List Char) : List Char → List Place
    | [] => [⟨before, []⟩]
    | c :: rest => ⟨before, c :: rest⟩ :: go (c :: before) rest
  go place.before place.rest

end Place

/-- The number of nested steps that a pattern takes at most on a text of a given length. -/
def weight (length : Nat) : Pattern → Nat
  | empty | oneOf _ | start | finish | boundary _ => 1
  | seq a b | alt a b => weight length a + weight length b + 1
  | repeated inner least _ => weight length inner + least + length + 2
  | look _ _ inner => weight length inner + 1

/-- Some way to fit the pattern from a place on leads to a place that is accepted. -/
def fits : Nat → Pattern → Place → (Place → Bool) → Bool
  | 0, _, _, _ => false
  | fuel + 1, pattern, place, accept =>
      match pattern with
      | empty => accept place
      | oneOf chars =>
          match place.step? with
          | some (c, next) => chars.contains c && accept next
          | none => false
      | start => place.before.isEmpty && accept place
      | finish => place.rest.isEmpty && accept place
      | boundary negated => (place.atBoundary != negated) && accept place
      | seq a b => fits fuel a place fun middle => fits fuel b middle accept
      | alt a b => fits fuel a place accept || fits fuel b place accept
      | repeated inner least most =>
          let again := most != some 0 && fits fuel inner place fun next =>
            if least = 0 && next.rest.length = place.rest.length then false
            else fits fuel (repeated inner (least - 1) (most.map (· - 1))) next accept
          if least = 0 then again || accept place else again
      | look true negated inner =>
          (fits fuel inner place (fun _ => true) != negated) && accept place
      | look false negated inner =>
          let found := place.backwards.any fun from_ =>
            fits fuel inner from_ fun here => here.rest.length = place.rest.length
          (found != negated) && accept place

def occursIn (pattern : Pattern) (text : String) : Bool :=
  let whole : Place := ⟨[], text.toList⟩
  let fuel := weight whole.rest.length pattern
  whole.forwards.any fun place => fits fuel pattern place fun _ => true

end Pattern

end RpcContract
