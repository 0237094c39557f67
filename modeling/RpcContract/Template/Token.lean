import RpcContract.Text.Blank
import RpcContract.Template.Value

/-!
# Tokens of a template

`Token.scan` takes a template apart.  Outside the tags `<% %>`, `<%= %>` and `<%# %>` everything is
text; a line that holds nothing but blanks and a block or comment tag leaves neither its blanks nor
its line end.  A minus at the end of a tag takes away all white space beyond it, a plus keeps all.
-/

namespace RpcContract.Template

inductive Token where
  | text (text : String)
  | openPrint
  | closePrint
  | openBlock
  | closeBlock
  | word (word : String)
  | str (text : String)
  | int (value : Nat)
  | real (value : Binary64)
  | sign (sign : String)
  /-- From here on the template cannot be read. -/
  | fault (cause : Fault)
deriving DecidableEq, Repr

inductive Trim where
  | line
  | all
  | nothing
deriving DecidableEq, Repr

namespace Token

/-! ## White space around tags -/

private def isLineEnd (c : Char) : Bool := c == '\n' || c == '\r'

def trimMark : List Char → Trim × List Char
  | '-' :: rest => (.all, rest)
  | '+' :: rest => (.nothing, rest)
  | rest => (.line, rest)

def dropLineEnd : List Char → List Char
  | '\r' :: '\n' :: rest => rest
  | '\r' :: rest => rest
  | '\n' :: rest => rest
  | rest => rest

def afterTag (trim : Trim) (rest : List Char) : List Char × Bool :=
  match trim with
  | .line => (dropLineEnd rest, rest.head?.any isLineEnd)
  | .all => (Text.dropBlanks rest, (rest.takeWhile Text.isBlank).any isLineEnd)
  | .nothing => (rest, false)

def endsBlank (fresh : Bool) (lead : List Char) : Bool :=
  match lead.reverse.dropWhile (fun c => Text.isBlank c && !isLineEnd c) with
  | [] => fresh
  | c :: _ => isLineEnd c

def dropLastBlanks (lead : List Char) : List Char :=
  (lead.reverse.dropWhile (fun c => Text.isBlank c && !isLineEnd c)).reverse

def beforeTag (trim : Trim) (fresh : Bool) (lead : List Char) : List Char :=
  match trim with
  | .all => (Text.dropBlanks lead.reverse).reverse
  | .nothing => lead
  | .line => if endsBlank fresh lead then dropLastBlanks lead else lead

private def data (text : List Char) : List Token :=
  if text.isEmpty then [] else [.text (String.ofList text)]

/-! ## Words, numbers and texts -/

def isWordStart (c : Char) : Bool := c.isAlpha || c == '_'

def isWordPart (c : Char) : Bool := c.isAlphanum || c == '_'

def dropWord? : (letters cs : List Char) → Option (List Char)
  | [], cs => some cs
  | w :: letters, c :: cs => if w = c then dropWord? letters cs else none
  | _ :: _, [] => none

private def isGap (c : Char) : Bool :=
  c == ' ' || c == '\t' || c == '\n' || c == '\r' || c == '\x0c'

/-- A tag that holds one word only: how its end trims, and what follows it. -/
def loneTag? (only : String) (cs : List Char) : Option (Trim × List Char) :=
  match dropWord? only.toList (cs.dropWhile isGap) with
  | some rest =>
      match trimMark (rest.dropWhile isGap) with
      | (trim, '%' :: '>' :: rest) => some (trim, rest)
      | _ => none
  | none => none

private def digitValue? (base : Nat) (c : Char) : Option Nat :=
  let value? :=
    if c.isDigit then some (c.toNat - '0'.toNat)
    else if 'a' ≤ c ∧ c ≤ 'f' then some (c.toNat - 'a'.toNat + 10)
    else if 'A' ≤ c ∧ c ≤ 'F' then some (c.toNat - 'A'.toNat + 10)
    else none
  value?.filter (· < base)

private def numeral (base : Nat) (cs : List Char) : Nat :=
  cs.foldl (fun n c => match digitValue? base c with
    | some d => n * base + d
    | none => n) 0

private def digitRun (base : Nat) (cs : List Char) : List Char × List Char :=
  cs.span fun c => c == '_' || (digitValue? base c).isSome

def largestInt : Nat := Nat.pow 2 128 - 1

private def whole (base : Nat) (run : List Char) : Token :=
  let n := numeral base run
  if run.all (· == '_') || run.getLast? == some '_' || largestInt < n then .fault .malformed
  else .int n

private def exponent (cs : List Char) : Option Int × List Char :=
  let (negative, cs) := match cs with
    | '-' :: rest => (true, rest)
    | '+' :: rest => (false, rest)
    | rest => (false, rest)
  let (run, rest) := digitRun 10 cs
  let value : Int := numeral 10 run
  (if run.isEmpty || run.getLast? == some '_' then none
    else some (if negative then -value else value), rest)

private def fractional (run fraction : List Char) (exponent : Int) : Token :=
  let digits := (run ++ fraction).filter (· != '_')
  .real (Binary64.ofDecimal false (numeral 10 digits)
    (exponent - (fraction.filter (· != '_')).length))

def scanNumber (cs : List Char) : Token × List Char :=
  let based (base : Nat) (rest : List Char) : Token × List Char :=
    let (run, rest) := digitRun base rest
    (whole base run, rest)
  match cs with
  | '0' :: 'x' :: rest | '0' :: 'X' :: rest => based 16 rest
  | '0' :: 'o' :: rest | '0' :: 'O' :: rest => based 8 rest
  | '0' :: 'b' :: rest | '0' :: 'B' :: rest => based 2 rest
  | cs =>
      let (run, rest) := digitRun 10 cs
      let (fraction, rest, pointed) := match rest with
        | '.' :: rest =>
            let (fraction, rest) := digitRun 10 rest
            (fraction, rest, true)
        | rest => ([], rest, false)
      match rest with
      | 'e' :: more | 'E' :: more =>
          match exponent more with
          | (some e, rest) => (fractional run fraction e, rest)
          | (none, rest) => (.fault .malformed, rest)
      | rest =>
          if !pointed then (whole 10 run, rest)
          else if fraction.getLast? == some '_' then (.fault .malformed, rest)
          else (fractional run fraction 0, rest)

/-- The characters up to the closing quote, with their escapes, and what follows the quote. -/
def quotedRun (quote : Char) : List Char → Option (List Char × List Char)
  | [] => none
  | '\\' :: c :: rest => (quotedRun quote rest).map fun (run, rest) => ('\\' :: c :: run, rest)
  | c :: rest =>
      if c = quote then some ([], rest)
      else (quotedRun quote rest).map fun (run, rest) => (c :: run, rest)

private def hexNumber? (cs : List Char) : Option Nat :=
  if cs.all fun c => (digitValue? 16 c).isSome then some (numeral 16 cs) else none

private def hexUnit? (cs : List Char) : Option Nat :=
  if (cs.take 4).length = 4 then hexNumber? (cs.take 4) else none

private def shortEscape? (c : Char) : Option Char :=
  if c = '"' ∨ c = '\\' ∨ c = '/' ∨ c = '\'' then some c
  else if c = 'b' then some '\x08'
  else if c = 'f' then some '\x0c'
  else if c = 'n' then some '\n'
  else if c = 'r' then some '\r'
  else if c = 't' then some '\t'
  else none

def unescape : Nat → List Char → Option (List Char)
  | 0, _ => some []
  | _ + 1, [] => some []
  | fuel + 1, '\\' :: 'u' :: rest => do
      let unit ← hexUnit? rest
      if 0xD800 ≤ unit ∧ unit < 0xDC00 then
        match rest.drop 4 with
        | '\\' :: 'u' :: more => do
            let low ← hexUnit? more
            if 0xDC00 ≤ low ∧ low < 0xE000 then
              let c := Char.ofNat (0x10000 + (unit - 0xD800) * 0x400 + (low - 0xDC00))
              return c :: (← unescape fuel (more.drop 4))
            else none
        | _ => none
      else if 0xDC00 ≤ unit ∧ unit < 0xE000 then none
      else return Char.ofNat unit :: (← unescape fuel (rest.drop 4))
  | fuel + 1, '\\' :: c :: rest => do
      let c ← shortEscape? c
      return c :: (← unescape fuel rest)
  | fuel + 1, c :: rest => do return c :: (← unescape fuel rest)

def scanString (quote : Char) (cs : List Char) : Token × List Char :=
  match quotedRun quote cs with
  | none => (.fault .malformed, [])
  | some (run, rest) =>
      match unescape run.length run with
      | some chars => (.str (String.ofList chars), rest)
      | none => (.fault .badEscape, rest)

/-- The sign that stands here: two characters where they make one sign. -/
def scanSign? : List Char → Option (String × List Char)
  | '/' :: '/' :: rest => some ("//", rest)
  | '*' :: '*' :: rest => some ("**", rest)
  | '=' :: '=' :: rest => some ("==", rest)
  | '!' :: '=' :: rest => some ("!=", rest)
  | '>' :: '=' :: rest => some (">=", rest)
  | '<' :: '=' :: rest => some ("<=", rest)
  | c :: rest =>
      if "+-*/%()[]\x7b\x7d,.:~|=<>".toList.contains c then some (String.singleton c, rest)
      else none
  | [] => none

/-! ## The whole template -/

def findTag : List Char → List Char × Option (List Char)
  | [] => ([], none)
  | '<' :: '%' :: rest => ([], some rest)
  | c :: rest =>
      let (lead, tag) := findTag rest
      (c :: lead, tag)

def findClose : List Char → Option (List Char × List Char)
  | [] => none
  | '%' :: '>' :: rest => some ([], rest)
  | c :: rest => (findClose rest).map fun (body, rest) => (c :: body, rest)

/-- The end of verbatim text: the text, how its end tag trims on both sides, and what follows. -/
def findVerbatimEnd : Nat → List Char → Option (List Char × Trim × Trim × List Char)
  | 0, _ => none
  | fuel + 1, cs =>
      match findTag cs with
      | (_, none) => none
      | (lead, some rest) =>
          let (before, inside) := trimMark rest
          match loneTag? "endraw" inside with
          | some (after, rest) => some (lead, before, after, rest)
          | none =>
              (findVerbatimEnd fuel inside).map fun (body, more) =>
                (lead ++ ['<', '%'] ++ rest.take (rest.length - inside.length) ++ body, more)

mutual

def scanText : (fuel : Nat) → (fresh : Bool) → List Char → List Token
  | 0, _, _ => []
  | fuel + 1, fresh, cs =>
      match findTag cs with
      | (lead, none) => data lead
      | (lead, some ('=' :: rest)) =>
          let (trim, rest) := trimMark rest
          let lead := if trim = .all then beforeTag .all fresh lead else lead
          data lead ++ .openPrint :: scanCode fuel false rest
      | (lead, some ('#' :: rest)) =>
          let (trim, rest) := trimMark rest
          data (beforeTag trim fresh lead) ++
            match findClose rest with
            | none => [.fault .malformed]
            | some (body, rest) =>
                let (rest, fresh) := afterTag (trimMark (body.drop (body.length - 1))).1 rest
                scanText fuel fresh rest
      | (lead, some rest) =>
          let (trim, rest) := trimMark rest
          data (beforeTag trim fresh lead) ++
            match loneTag? "raw" rest with
            | none => .openBlock :: scanCode fuel true rest
            | some (start, rest) =>
                match findVerbatimEnd fuel rest with
                | none => [.fault .malformed]
                | some (body, before, after, rest) =>
                    let (body, fresh) := afterTag start body
                    let (rest, next) := afterTag after rest
                    data (beforeTag before fresh body) ++ scanText fuel next rest

def scanCode : (fuel : Nat) → (isBlock : Bool) → List Char → List Token
  | 0, _, _ => []
  | fuel + 1, isBlock, cs =>
      let close := if isBlock then Token.closeBlock else .closePrint
      match cs with
      | [] => []
      | '-' :: '%' :: '>' :: rest =>
          let (rest, fresh) := afterTag .all rest
          close :: scanText fuel fresh rest
      | '%' :: '>' :: rest =>
          let (rest, fresh) := afterTag (if isBlock then .line else .nothing) rest
          close :: scanText fuel fresh rest
      | c :: rest =>
          if isBlock ∧ c = '+' ∧ rest.take 2 = ['%', '>'] then
            close :: scanText fuel false (rest.drop 2)
          else if isGap c then scanCode fuel isBlock rest
          else if isWordStart c then
            let (letters, rest) := rest.span isWordPart
            .word (String.ofList (c :: letters)) :: scanCode fuel isBlock rest
          else if c.isDigit then
            let (token, rest) := scanNumber (c :: rest)
            token :: scanCode fuel isBlock rest
          else if c = '"' ∨ c = '\'' then
            let (token, rest) := scanString c rest
            token :: scanCode fuel isBlock rest
          else
            match scanSign? (c :: rest) with
            | some (mark, rest) => .sign mark :: scanCode fuel isBlock rest
            | none => [.fault .malformed]

end

def scan (source : String) : List Token :=
  let cs := source.toList
  scanText (2 * cs.length + 1) true cs

end Token

end RpcContract.Template
