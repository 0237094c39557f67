import RpcContract.Template.Arguments
import RpcContract.Text.Blank
import RpcContract.Text.CaseMap

/-!
# Filters on text

Filters that change the letters of a text, cut it, escape it, or write a value as text.
-/

namespace RpcContract.Template.Filter

open Args

private def plain (text : String) : Value := .str text false

def markupChar (c : Char) : List Char :=
  if c = '<' then "&lt;".toList
  else if c = '>' then "&gt;".toList
  else if c = '&' then "&amp;".toList
  else if c = '"' then "&quot;".toList
  else if c = '\'' then "&#x27;".toList
  else if c = '/' then "&#x2f;".toList
  else [c]

def markup (value : Value) : String :=
  match value with
  | .str text true => text
  | .str text false => String.ofList (text.toList.flatMap markupChar)
  | value@(.seq _) | value@(.map _) => String.ofList (value.text.toList.flatMap markupChar)
  | value => value.text

/-! ## JSON -/

private def keyText : Value → Result String
  | .str text _ => .ok text
  | .int n => .ok (toString n)
  | .bool b => .ok (if b then "true" else "false")
  | .real x => if x.isFinite then .ok (Json.scalarText (.real x)) else .error .badSerialization
  | _ => .error .badSerialization

mutual

def toJson : Value → Result Json
  | .undefined | .nothing => .ok .null
  | .bool b => .ok (.bool b)
  | .int n =>
      if -0x8000000000000000 ≤ n ∧ n < 0x10000000000000000 then .ok (.int n)
      else .error .badSerialization
  | .real x => .ok (.real x)
  | .str text _ => .ok (.str text)
  | .seq items => do return .arr (← toJsonItems items)
  | .map entries => do return .obj (← toJsonFields entries)
  | .routine label => .ok (.str (Value.routine label).text)
  | .function name => .ok (.str name)
  | .space _ => .ok (.obj [])
  | .loop place before after => .ok (.str (Value.loop place before after).text)

def toJsonItems : List Value → Result (List Json)
  | [] => .ok []
  | item :: rest => do return (← toJson item) :: (← toJsonItems rest)

def toJsonFields : List (Value × Value) → Result (List (String × Json))
  | [] => .ok []
  | (key, value) :: rest => do
      let key ← keyText key
      return (key, ← toJson value) :: (← toJsonFields rest)

end

/-- Characters with a meaning in markup are escaped in JSON text. -/
def jsonChar (c : Char) : List Char :=
  if c = '<' then "\\u003c".toList
  else if c = '>' then "\\u003e".toList
  else if c = '&' then "\\u0026".toList
  else if c = '\'' then "\\u0027".toList
  else [c]

def jsonText (indent : Option Nat) (value : Value) : Result String := do
  let json ← toJson value
  let text := match indent with
    | some step => json.prettyAt step 0
    | none => json.compact
  return String.ofList (text.toList.flatMap jsonChar)

def tojson (value : Value) (args : Args) : Result Value := do
  let values ← args.withNames 1 ["indent"]
  let indent ← match (optional values 0).orElse (fun _ => args.named? "indent") with
    | none => pure none
    | some (.bool b) => pure (if b then some 2 else none)
    | some n => do pure (some (← toNat n))
  return .str (← jsonText indent value) true

/-! ## Letters -/

def capitalize (text : String) : String :=
  match text.toList with
  | [] => ""
  | c :: rest => String.ofList (Text.upperChars c) ++ Text.toLower (String.ofList rest)

private def isMark (c : Char) : Bool :=
  c.toNat < 127 && 32 < c.toNat && !c.isAlphanum

/-- Letters that start a word become capitals, all others small. -/
def titleChars (start : Bool) : List Char → List Char
  | [] => []
  | c :: rest =>
      if isMark c || Text.isBlank c then c :: titleChars true rest
      else (if start then Text.upperChars c else Text.lowerChars c) ++ titleChars false rest

/-! ## Cutting and replacing -/

def trimOf (drop : Char → Bool) (text : String) : String :=
  String.ofList ((text.toList.dropWhile drop).reverse.dropWhile drop).reverse

def splitAt (separator : List Char) : (fuel : Nat) → (most : Option Nat) → (piece : List Char) →
    List Char → List (List Char)
  | 0, _, piece, rest => [piece.reverse ++ rest]
  | fuel + 1, most, piece, rest =>
      if most = some 1 then [piece.reverse ++ rest]
      else
        match rest with
        | [] => [piece.reverse]
        | c :: tail =>
            if separator.isPrefixOf rest then
              piece.reverse ::
                splitAt separator fuel (most.map (· - 1)) [] (rest.drop separator.length)
            else splitAt separator fuel most (c :: piece) tail

/-- A text at every character: an empty separator stands before, between and after them. -/
private def splitChars (cs : List Char) : List (List Char) := [[]] ++ cs.map ([·]) ++ [[]]

def splitText (separator text : String) (most : Option Nat) : List String :=
  let cs := text.toList
  (if separator.isEmpty then splitChars cs
    else splitAt separator.toList (cs.length + 1) most [] cs).map String.ofList

private def words (cs : List Char) : List (List Char) :=
  (cs.splitBy fun a b => Text.isBlank a == Text.isBlank b).filter fun run =>
    !run.head?.any Text.isBlank

private def splitBlanks : (most : Nat) → (piece : List Char) → List Char → List (List Char)
  | _, piece, [] => [piece.reverse]
  | most, piece, c :: rest =>
      if most ≤ 1 then [piece.reverse ++ c :: rest]
      else if Text.isBlank c then piece.reverse :: splitBlanks (most - 1) [] rest
      else splitBlanks most (c :: piece) rest

def split (value : Value) (args : Args) : Result Value := do
  let values ← args.upTo 2
  let most ← match optional values 1 with
    | none => pure none
    | some n => do
        let n ← toInt n
        pure (if 0 ≤ n then some (n.toNat + 1) else none)
  let pieces := match optional values 0, most with
    | some separator, most => splitText separator.text value.text most
    | none, none => (words value.text.toList).map String.ofList
    | none, some most => (splitBlanks most [] value.text.toList).map String.ofList
  return .seq (pieces.map plain)

def replace (text old new : String) : String :=
  new.intercalate (splitText old text none)

def lines (text : String) : List String :=
  let pieces := splitText "\n" text none
  let pieces := if pieces.getLast? = some "" then pieces.dropLast else pieces
  pieces.map fun line => if line.endsWith "\r" then (line.dropEnd 1).toString else line

private def dropLastLineEnd (text : String) : String :=
  let cs := text.toList.reverse
  let cs := if cs.head? = some '\n' then cs.drop 1 else cs
  let cs := if cs.head? = some '\r' then cs.drop 1 else cs
  String.ofList cs.reverse

/-- The lines of a text further in, the first one only if asked, empty ones only if asked. -/
def indentText (text : String) (width : Nat) (first empty : Bool) : String :=
  let blanks := "".pushn ' ' width
  let further (line : String) : String :=
    if line.isEmpty then (if empty then blanks else "") else blanks ++ line
  let out := match splitText "\n" (dropLastLineEnd text) none with
    | [] => []
    | line :: rest => (if first then further line else line) :: rest.map further
  dropLastLineEnd ("\n".intercalate out ++ "\n")

/-! ## By name -/

private def onText (f : String → String) (value : Value) (args : Args) : Result Value := do
  let _ ← args.upTo 0
  return plain (f value.text)

def text? (name : String) : Option (Value → Args → Result Value) :=
  if name = "upper" then some (onText Text.toUpper)
  else if name = "lower" then some (onText Text.toLower)
  else if name = "title" then some (onText fun s => String.ofList (titleChars true s.toList))
  else if name = "capitalize" then some (onText capitalize)
  else if name = "string" then some fun value args => do
    let _ ← args.upTo 0
    return if value.kind = .text then value else plain value.text
  else if name = "rust_str" then some (onText Text.quote)
  else if name = "safe" then some fun value args => do
    let _ ← args.upTo 0
    return .str value.text true
  else if name = "escape" ∨ name = "e" then some fun value args => do
    let _ ← args.upTo 0
    return .str (markup value) true
  else if name = "tojson" then some tojson
  else if name = "trim" then some fun value args => do
    let values ← args.upTo 1
    return plain (match optional values 0 with
      | none => Text.trimBlanks value.text
      | some set => trimOf set.text.toList.contains value.text)
  else if name = "replace" then some fun value args => do
    let values ← args.upTo 2
    let old ← required values 0
    let new ← required values 1
    return plain (replace value.text old.text new.text)
  else if name = "split" then some split
  else if name = "lines" then some fun value args => do
    let _ ← args.upTo 0
    return .seq ((lines value.text).map plain)
  else if name = "indent" then some fun value args => do
    let values ← args.upTo 3
    let width ← toNat (← required values 0)
    let first ← flag (optional values 1)
    let empty ← flag (optional values 2)
    return plain (indentText value.text width first empty)
  else none

end RpcContract.Template.Filter
