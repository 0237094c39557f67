import RpcContract.Pattern.Basic

/-!
# Reading patterns

How a `Pattern` is written.  Classes of digits, word characters and white space are those of the
web's scripting language; a quantifier needs something to repeat, and only signs may be escaped.
-/

namespace RpcContract.Pattern

private abbrev Taking := StateT (List Char) Option

private def peek : Taking (Option Char) := do return (← get).head?

private def skip : Taking Unit := modify List.tail

private def take : Taking Char := do
  match ← get with
  | [] => failure
  | c :: rest => set rest; return c

private def takeIf (c : Char) : Taking Bool := do
  if (← peek) = some c then skip; return true else return false

private def expect (c : Char) : Taking Unit := do if !(← takeIf c) then failure

private def hexValue (c : Char) : Option Nat :=
  if c.isDigit then some (c.toNat - '0'.toNat)
  else if 'a' ≤ c ∧ c ≤ 'f' then some (c.toNat - 'a'.toNat + 10)
  else if 'A' ≤ c ∧ c ≤ 'F' then some (c.toNat - 'A'.toNat + 10)
  else none

private def hexNumber (digits : List Char) : Option Nat :=
  if digits.isEmpty then none
  else digits.foldlM (fun n c => (hexValue c).map (16 * n + ·)) 0

/-- A character by its number: so many digits, or any number of them in braces. -/
private def codePoint (digits : Nat) : Taking Char := do
  let code ←
    if ← takeIf '\x7b' then do
      let inside := (← get).takeWhile (· != '\x7d')
      modify (·.drop inside.length)
      expect '\x7d'
      hexNumber inside
    else do
      let inside := (← get).take digits
      if inside.length < digits then failure
      modify (·.drop digits)
      hexNumber inside
  if code.isValidChar then return Char.ofNat code else failure

private def number : Taking Nat := do
  let digits := (← get).takeWhile Char.isDigit
  if digits.isEmpty then failure
  modify (·.drop digits.length)
  return digits.foldl (fun n c => 10 * n + (c.toNat - '0'.toNat)) 0

private def escaped : Taking CharSet := do
  match ← take with
  | 'd' => return .digit
  | 'D' => return CharSet.digit.complement
  | 'w' => return .word
  | 'W' => return CharSet.word.complement
  | 's' => return .space
  | 'S' => return CharSet.space.complement
  | 'n' => return .single '\n'
  | 't' => return .single '\t'
  | 'r' => return .single '\r'
  | 'f' => return .single '\x0c'
  | 'v' => return .single '\x0b'
  | 'a' => return .single '\x07'
  | 'x' => return .single (← codePoint 2)
  | 'u' => return .single (← codePoint 4)
  | 'U' => return .single (← codePoint 8)
  | 'c' => do
      let c ← take
      if c.isAlpha then return .single (Char.ofNat (c.toNat % 32)) else failure
  | c =>
      if c.isAlphanum || c = '<' || c = '>' || c.toNat ≥ 0x80 then failure
      else return .single c

private def onlyChar (set : CharSet) : Taking Char :=
  match set with
  | ⟨false, [(a, b)]⟩ => if a = b then return Char.ofNat a else failure
  | _ => failure

private def classMembers : Nat → Bool → List (Nat × Nat) → Taking (List (Nat × Nat))
  | 0, _, _ => failure
  | fuel + 1, first, ranges => do
      let member : Taking CharSet := do
        match ← take with
        | '\\' => escaped
        | c => return .single c
      match ← peek with
      | some ']' =>
          if first then
            skip
            classMembers fuel false (ranges ++ [(0x5D, 0x5D)])
          else
            skip
            return ranges
      | some '[' => do
          skip
          let negated ← takeIf '^'
          let inner ← classMembers fuel true []
          classMembers fuel false (ranges ++ CharSet.plainRanges ⟨negated, inner⟩)
      | none => failure
      | some _ => do
          let low ← member
          match ← get with
          | '-' :: ']' :: _ => classMembers fuel false (ranges ++ low.plainRanges)
          | '-' :: _ => do
              skip
              let a ← onlyChar low
              let b ← onlyChar (← member)
              if b < a then failure
              classMembers fuel false (ranges ++ [(a.toNat, b.toNat)])
          | _ => classMembers fuel false (ranges ++ low.plainRanges)

private def quantifier : Taking (Option (Nat × Option Nat)) := do
  match ← peek with
  | some '*' => skip; return some (0, none)
  | some '+' => skip; return some (1, none)
  | some '?' => skip; return some (0, some 1)
  | some '\x7b' => do
      skip
      let least ← if (← peek) = some ',' then pure 0 else number
      let most ←
        if ← takeIf ',' then
          if (← peek) = some '\x7d' then pure none else some <$> number
        else pure (some least)
      expect '\x7d'
      if most.any (· < least) then failure
      return some (least, most)
  | _ => return none

private def quantified : Nat → Pattern → Taking Pattern
  | 0, _ => failure
  | fuel + 1, inner => do
      match ← quantifier with
      | none => return inner
      | some (least, most) =>
          -- whether few or many repetitions are tried first does not change what occurs
          let _ ← takeIf '?'
          quantified fuel (.repeated inner least most)

/-- What stands behind an opening parenthesis that is followed by a question mark. -/
private def groupKind : Taking (Pattern → Pattern) := do
  match ← take with
  | ':' => return id
  | 'i' => expect ':'; return ignoringCase
  | '=' => return .look true false
  | '!' => return .look true true
  | '<' =>
      match ← peek with
      | some '=' => skip; return .look false false
      | some '!' => skip; return .look false true
      | _ => do
          modify (·.dropWhile (· != '>'))
          expect '>'
          return id
  | 'P' => do
      expect '<'
      modify (·.dropWhile (· != '>'))
      expect '>'
      return id
  | _ => failure

mutual

private def alternatives : Nat → Taking Pattern
  | 0 => failure
  | fuel + 1 => do
      if let '(' :: '?' :: 'i' :: ')' :: rest := ← get then
        set rest
        return (← alternatives fuel).ignoringCase
      let first ← sequence fuel .empty
      if ← takeIf '|' then return .alt first (← alternatives fuel) else return first

private def sequence : Nat → Pattern → Taking Pattern
  | 0, _ => failure
  | fuel + 1, before => do
      match ← peek with
      | none | some '|' | some ')' => return before
      | some _ => do
          let next ← quantified fuel (← atom fuel)
          sequence fuel (.seq before next)

private def atom : Nat → Taking Pattern
  | 0 => failure
  | fuel + 1 => do
      match ← take with
      | '(' => do
          let kind ← if ← takeIf '?' then groupKind else pure id
          let inner ← alternatives fuel
          expect ')'
          return kind inner
      | '[' => do
          let negated ← takeIf '^'
          return .oneOf ⟨negated, ← classMembers fuel true []⟩
      | '.' => return .oneOf .notNewline
      | '^' => return .start
      | '$' => return .finish
      | '\\' =>
          match ← peek with
          | some 'b' => skip; return .boundary false
          | some 'B' => skip; return .boundary true
          | some 'A' => skip; return .start
          | some 'z' => skip; return .finish
          | _ => return .oneOf (← escaped)
      | '*' | '+' | '?' | '\x7b' => failure
      | c => return .oneOf (.single c)

end

def read? (text : String) : Option Pattern :=
  let cs := text.toList
  match (alternatives (4 * cs.length + 4)).run cs with
  | some (pattern, []) => some pattern
  | _ => none

end RpcContract.Pattern
