import RpcContract.Yaml.Scalar

/-!
# Walking over YAML text

A cursor knows the rest of the text, the column it stands in and the nodes that were given names.
-/

namespace RpcContract.Yaml

structure Cursor where
  rest : List Char
  column : Nat := 0
  anchors : List (String × Tree) := []

abbrev Walk := StateT Cursor Option

namespace Walk

def peek : Walk (Option Char) := do return (← get).rest.head?

def rest : Walk (List Char) := do return (← get).rest

def column : Walk Nat := do return (← get).column

def advance : Walk Unit :=
  modify fun cursor =>
    match cursor.rest with
    | [] => cursor
    | '\n' :: rest => { cursor with rest := rest, column := 0 }
    | _ :: rest => { cursor with rest := rest, column := cursor.column + 1 }

def advanceBy (count : Nat) : Walk Unit :=
  modify fun cursor =>
    { cursor with rest := cursor.rest.drop count, column := cursor.column + count }

def takeLine (test : Char → Bool) : Walk (List Char) := do
  let front := (← rest).takeWhile fun c => c ≠ '\n' && test c
  advanceBy front.length
  return front

def isGap (c : Char) : Bool := c = ' ' || c = '\t'

def skipGap : Walk Unit := do let _ ← takeLine isGap

def endsToken : List Char → Bool
  | [] => true
  | c :: _ => isGap c || c = '\n'

def isFlowSign (c : Char) : Bool := [',', '[', ']', '\x7b', '\x7d'].contains c

/-- A marker that ends a document stands here, at the start of a line. -/
def atMarker : Walk Bool := do
  if (← column) ≠ 0 then return false
  match ← rest with
  | '-' :: '-' :: '-' :: rest => return endsToken rest
  | '.' :: '.' :: '.' :: rest => return endsToken rest
  | _ => return false

def skipComment : Walk Unit := do
  if (← peek) = some '#' then let _ ← takeLine fun _ => true

def finishLine : Walk Unit := do
  let hadGap := endsToken (← rest) || (← column) = 0
  skipGap
  if hadGap then skipComment
  match ← peek with
  | none | some '\n' => return ()
  | _ => failure

/-- Step over blank lines and comments to the first word of a line.  A tab cannot indent it. -/
def skipLines : Walk Unit := do
  let rec go : Nat → Walk Unit
    | 0 => return ()
    | fuel + 1 => do
        let _ ← takeLine (· = ' ')
        match ← peek with
        | some '#' => skipComment; go fuel
        | some '\n' => advance; go fuel
        | some '\t' => failure
        | _ => return ()
  go (2 * (← rest).length + 1)

def skipInside : Walk Unit := do
  let rec go : Nat → Walk Unit
    | 0 => return ()
    | fuel + 1 => do
        let before := (← rest).length
        let _ ← takeLine isGap
        let hadGap := (← rest).length < before || (← column) = 0
        match ← peek with
        | some '#' => if hadGap then skipComment; go fuel else failure
        | some '\n' => advance; if ← atMarker then failure else go fuel
        | _ => return ()
  go (2 * (← rest).length + 1)

/-! ## Folding -/

private def dropGapEnd (cs : List Char) : List Char := (cs.reverse.dropWhile isGap).reverse

/-- Line ends inside a scalar: one is a blank, of several all but the first are kept. -/
def folded (breaks : Nat) : List Char :=
  if breaks = 1 then [' '] else List.replicate (breaks - 1) '\n'

def lineBreaks : Walk Nat := do
  let rec go : Nat → Nat → Walk Nat
    | 0, n => return n
    | fuel + 1, n => do
        skipGap
        if (← peek) = some '\n' then
          advance
          go fuel (n + 1)
        else return n
  go ((← rest).length + 1) 0

/-! ## Quoted scalars -/

private def hexDigit? (c : Char) : Option Nat :=
  if c.isDigit then some (c.toNat - '0'.toNat)
  else if 'a' ≤ c ∧ c ≤ 'f' then some (c.toNat - 'a'.toNat + 10)
  else if 'A' ≤ c ∧ c ≤ 'F' then some (c.toNat - 'A'.toNat + 10)
  else none

private def codePoint (count : Nat) : Walk Char := do
  let front := (← rest).take count
  if front.length < count then failure
  let code ← (front.foldlM (fun n c => (hexDigit? c).map (16 * n + ·)) 0 : Option Nat)
  advanceBy count
  if code.isValidChar then return Char.ofNat code else failure

private def simpleEscapes : List (Char × Char) :=
  [('0', '\x00'), ('a', '\x07'), ('b', '\x08'), ('t', '\t'), ('\t', '\t'), ('n', '\n'),
    ('v', '\x0b'), ('f', '\x0c'), ('r', '\r'), ('e', '\x1b'), (' ', ' '), ('"', '"'), ('/', '/'),
    ('\\', '\\'), ('N', '\u0085'), ('_', '\u00a0'), ('L', '\u2028'), ('P', '\u2029')]

def quoted (mark : Char) : Walk String := do
  let rec go : Nat → List Char → Walk (List Char)
    | 0, _ => failure
    | fuel + 1, text => do
        match ← rest with
        | [] => failure
        | '\n' :: _ => do
            let breaks ← lineBreaks
            if ← atMarker then failure
            go fuel ((folded breaks).reverse ++ text.dropWhile isGap)
        | c :: rest =>
            if c = mark then
              match mark, rest with
              | '\'', '\'' :: _ => advanceBy 2; go fuel ('\'' :: text)
              | _, _ => advance; return text
            else if c = '\\' ∧ mark = '"' then do
              advance
              match rest with
              | '\n' :: _ => do
                  let breaks ← lineBreaks
                  go fuel (List.replicate (breaks - 1) '\n' ++ text)
              | 'x' :: _ => advance; go fuel ((← codePoint 2) :: text)
              | 'u' :: _ => advance; go fuel ((← codePoint 4) :: text)
              | 'U' :: _ => advance; go fuel ((← codePoint 8) :: text)
              | e :: _ =>
                  match simpleEscapes.lookup e with
                  | some c => advance; go fuel (c :: text)
                  | none => failure
              | [] => failure
            else do
              advance
              go fuel (c :: text)
  advance
  let text ← go (2 * (← rest).length + 1) []
  return String.ofList text.reverse

/-! ## Plain scalars -/

def startsPlain (inside : Bool) : List Char → Bool
  | [] => false
  | c :: rest =>
      if c = '-' || c = '?' || c = ':' then
        !endsToken rest && !(inside && rest.head?.any isFlowSign)
      else
        !([',', '[', ']', '\x7b', '\x7d', '#', '&', '*', '!', '|', '>', '\'', '"', '%', '@',
          '\x60', ' ', '\t', '\n'].contains c)

def plainLine (inside : Bool) : Walk (List Char) := do
  let rec go : List Char → Char → List Char
    | [], _ => []
    | c :: rest, before =>
        if c = '\n' then []
        else if c = '#' && isGap before then []
        else if c = ':' && (endsToken rest || (inside && rest.head?.any isFlowSign)) then []
        else if inside && isFlowSign c then []
        else c :: go rest c
  let line := dropGapEnd (go (← rest) 'x')
  advanceBy line.length
  return line

def plain (inside : Bool) (least : Nat) : Walk String := do
  let rec go : Nat → List Char → Walk (List Char)
    | 0, text => return text
    | fuel + 1, text => do
        let here ← get
        skipGap
        if (← peek) ≠ some '\n' then
          set here
          return text
        let breaks ← lineBreaks
        let next ← rest
        let ends := next.isEmpty || (← atMarker) || (!inside && (← column) < least) ||
          next.head? = some '#'
        let line ← if ends then pure [] else plainLine inside
        if line.isEmpty then
          set here
          return text
        else go fuel (text ++ folded breaks ++ line)
  let first ← plainLine inside
  let text ← go ((← rest).length + 1) first
  return String.ofList text

/-! ## Block scalars -/

inductive Chomp where
  | strip | clip | keep
deriving DecidableEq

private def chompText (chomp : Chomp) (text : List Char) (closed : Bool) (trailing : Nat) :
    List Char :=
  let ending := if text.isEmpty || !closed then [] else ['\n']
  match chomp with
  | .strip => text
  | .clip => text ++ ending
  | .keep => text ++ ending ++ List.replicate trailing '\n'

/-- Join the lines of a folded scalar; lines that are further in keep their line ends. -/
private def foldLines : List (Nat × List Char) → List Char → Bool → List Char
  | [], text, _ => text
  | (gaps, line) :: rest, text, wasFurther =>
      let further := line.head?.any isGap
      let joint :=
        if further || wasFurther then List.replicate (gaps + 1) '\n'
        else if gaps = 0 then [' '] else List.replicate gaps '\n'
      foldLines rest (text ++ joint ++ line) further

private def keepLines : List (Nat × List Char) → List Char → List Char
  | [], text => text
  | (gaps, line) :: rest, text => keepLines rest (text ++ List.replicate (gaps + 1) '\n' ++ line)

/-- What was read of a block scalar: lines, each with the number of empty lines before it, whether
the last one has an end, and the number of empty lines behind it. -/
private structure BlockLines where
  lines : List (Nat × List Char) := []
  closed : Bool := true
  gaps : Nat := 0

private def blockLines (least : Nat) : Nat → Option Nat → BlockLines → Walk BlockLines
  | 0, _, read => return read
  | fuel + 1, indent, read => do
      let cs ← rest
      let blanks := (cs.takeWhile (· = ' ')).length
      let line (n : Nat) : Walk BlockLines := do
        advanceBy n
        let text ← takeLine fun _ => true
        let closed := (← peek).isSome
        advance
        return { lines := read.lines ++ [(read.gaps, text)], closed }
      match (cs.drop blanks).head? with
      | none => return read
      | some '\n' =>
          match indent with
          | some n =>
              if blanks > n then blockLines least fuel indent (← line n)
              else do
                advanceBy (blanks + 1)
                modify fun cursor => { cursor with column := 0 }
                blockLines least fuel indent { read with gaps := read.gaps + 1 }
          | none => do
              advanceBy (blanks + 1)
              modify fun cursor => { cursor with column := 0 }
              blockLines least fuel indent { read with gaps := read.gaps + 1 }
      | some _ =>
          let n := indent.getD (max blanks least)
          if (← atMarker) || blanks < n then return read
          else blockLines least fuel (some n) (← line n)

/-- A literal or folded scalar, whose lines stand at column `least` or further in. -/
def block (least : Nat) : Walk String := do
  let isFolded := (← peek) = some '>'
  advance
  let header ← takeLine fun c => c = '+' || c = '-' || ('1' ≤ c && c ≤ '9')
  if header.length > 2 then failure
  let chomp := if header.contains '-' then Chomp.strip
    else if header.contains '+' then .keep else .clip
  finishLine
  advance
  let indent : Option Nat :=
    (header.find? Char.isDigit).map fun c => least - 1 + (c.toNat - '0'.toNat)
  let read ← blockLines (max least 1) ((← rest).length + 1) indent {}
  let text := match read.lines with
    | [] => []
    | (gaps, line) :: others =>
        let start := List.replicate gaps '\n' ++ line
        if isFolded then foldLines others start (line.head?.any isGap) else keepLines others start
  return String.ofList (chompText chomp text read.closed read.gaps)

end Walk

end RpcContract.Yaml
