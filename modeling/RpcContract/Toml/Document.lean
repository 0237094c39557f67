import RpcContract.Toml.Quoted
import RpcContract.Toml.Scalar

/-!
# TOML documents

`Toml.read?` reads a document into a tree.  A table is defined at one place: by its own heading,
or by the keys with points that lead into it.  A heading may come after those of the tables inside
its table.
-/

namespace RpcContract.Toml

inductive Origin where
  /-- On the way to a table with a heading. -/
  | implied
  | heading
  /-- By a key with points. -/
  | dotted
deriving DecidableEq, Repr

inductive Entry where
  | value (tree : Tree)
  | table (origin : Origin) (fields : List (String × Entry))
  | tables (items : List (List (String × Entry)))
deriving Repr, Inhabited

abbrev Fields := List (String × Entry)

/-! ## Building tables -/

def lookupField (key : String) : Fields → Option Entry
  | [] => none
  | (k, entry) :: rest => if k = key then some entry else lookupField key rest

def setField (key : String) (entry : Entry) : Fields → Fields
  | [] => [(key, entry)]
  | (k, old) :: rest =>
      if k = key then (key, entry) :: rest else (k, old) :: setField key entry rest

/-- Puts a value under a key with points; no key is defined twice. -/
def putValue (tree : Tree) : (keys : List String) → Fields → Option Fields
  | [], _ => none
  | [key], fields =>
      match lookupField key fields with
      | none => some (setField key (.value tree) fields)
      | some _ => none
  | key :: keys, fields =>
      match lookupField key fields with
      | none => (putValue tree keys []).map fun inner => setField key (.table .dotted inner) fields
      | some (.table origin inner) =>
          if origin = .heading then none
          else (putValue tree keys inner).map fun inner => setField key (.table origin inner) fields
      | some _ => none

/-- Goes along keys to a table, which is made where it is missing; the last of several tables. -/
def atTable (missing : Origin) (change : Fields → Option Fields) :
    (keys : List String) → Fields → Option Fields
  | [], fields => change fields
  | key :: keys, fields =>
      match lookupField key fields with
      | none =>
          (atTable missing change keys []).map fun inner =>
            setField key (.table missing inner) fields
      | some (.table origin inner) =>
          (atTable missing change keys inner).map fun inner =>
            setField key (.table origin inner) fields
      | some (.tables items) =>
          match items.getLast? with
          | none => none
          | some last =>
              (atTable missing change keys last).map fun last =>
                setField key (.tables (items.dropLast ++ [last])) fields
      | some (.value _) => none

def openTable (key : String) (fields : Fields) : Option Fields :=
  match lookupField key fields with
  | none => some (setField key (.table .heading []) fields)
  | some (.table .implied inner) => some (setField key (.table .heading inner) fields)
  | some _ => none

def openItem (key : String) (fields : Fields) : Option Fields :=
  match lookupField key fields with
  | none => some (setField key (.tables [[]]) fields)
  | some (.tables items) => some (setField key (.tables (items ++ [[]])) fields)
  | some _ => none

mutual

def Entry.toTree : Entry → Tree
  | .value tree => tree
  | .table _ fields => .map (fieldTrees fields) none
  | .tables items => .seq (itemTrees items) none

def fieldTrees : List (String × Entry) → List (String × Tree)
  | [] => []
  | (key, entry) :: rest => (key, entry.toTree) :: fieldTrees rest

def itemTrees : List (List (String × Entry)) → List Tree
  | [] => []
  | fields :: rest => .map (fieldTrees fields) none :: itemTrees rest

end

/-! ## Keys and values -/

private def isGap (c : Char) : Bool := c == ' ' || c == '\t'

private def isKeyChar (c : Char) : Bool := c.isAlphanum || c == '_' || c == '-'

private def simpleKey? (cs : List Char) : Option (String × List Char) :=
  match cs with
  | '"' :: _ | '\'' :: _ => quoted? false cs
  | cs =>
      let (word, rest) := cs.span isKeyChar
      if word.isEmpty then none else some (String.ofList word, rest)

def keys? : (fuel : Nat) → List Char → Option (List String × List Char)
  | 0, _ => none
  | fuel + 1, cs => do
      let (key, rest) ← simpleKey? (cs.dropWhile isGap)
      match rest.dropWhile isGap with
      | '.' :: rest =>
          let (keys, rest) ← keys? fuel rest
          return (key :: keys, rest)
      | rest => return ([key], rest)

def dropComment? (cs : List Char) : Option (List Char) :=
  match cs with
  | '#' :: rest =>
      let rest := rest.dropWhile isPrinting
      if rest.isEmpty || (lineEnd? rest).isSome then some rest else none
  | cs => some cs

def dropFiller? : (fuel : Nat) → List Char → Option (List Char)
  | 0, cs => some cs
  | fuel + 1, cs =>
      match cs.dropWhile isGap with
      | '#' :: rest => (dropComment? ('#' :: rest)).bind (dropFiller? fuel)
      | cs =>
          match lineEnd? cs with
          | some rest => dropFiller? fuel rest
          | none => some cs

private def isWordChar (c : Char) : Bool :=
  c.isAlphanum || c == '+' || c == '-' || c == '_' || c == '.' || c == ':'

/-- A value without quotes or brackets; a blank may part a date from a time. -/
private def bare? (cs : List Char) : Option (Tree × List Char) :=
  let (word, rest) := cs.span isWordChar
  match (date? word).map Prod.snd, rest with
  | some [], ' ' :: c :: more =>
      if c.isDigit then
        let (time, rest) := (c :: more).span isWordChar
        (scalar? (word ++ ' ' :: time)).map fun tree => (tree, rest)
      else (scalar? word).map fun tree => (tree, rest)
  | _, _ => (scalar? word).map fun tree => (tree, rest)

mutual

def value? : (fuel : Nat) → List Char → Option (Tree × List Char)
  | 0, _ => none
  | fuel + 1, cs =>
      match cs with
      | '"' :: _ | '\'' :: _ => (quoted? true cs).map fun (text, rest) => (.str text, rest)
      | '[' :: rest => do
          let (items, rest) ← items? fuel rest
          return (.seq items none, rest)
      | '\x7b' :: rest => do
          let (fields, rest) ← inlineFields? fuel [] rest
          return (.map (fieldTrees fields) none, rest)
      | cs => bare? cs

def items? : (fuel : Nat) → List Char → Option (List Tree × List Char)
  | 0, _ => none
  | fuel + 1, cs => do
      match ← dropFiller? (cs.length + 1) cs with
      | ']' :: rest => return ([], rest)
      | cs =>
          let (item, rest) ← value? fuel cs
          match ← dropFiller? (rest.length + 1) rest with
          | ',' :: rest =>
              let (items, rest) ← items? fuel rest
              return (item :: items, rest)
          | ']' :: rest => return ([item], rest)
          | _ => failure

def inlineFields? : (fuel : Nat) → Fields → List Char → Option (Fields × List Char)
  | 0, _, _ => none
  | fuel + 1, fields, cs => do
      match ← dropFiller? (cs.length + 1) cs with
      | '\x7d' :: rest => return (fields, rest)
      | cs =>
          let (keys, rest) ← keys? (cs.length + 1) cs
          let '=' :: rest := rest | failure
          let (tree, rest) ← value? fuel (rest.dropWhile isGap)
          let fields ← putValue tree keys fields
          match ← dropFiller? (rest.length + 1) rest with
          | ',' :: rest => inlineFields? fuel fields rest
          | '\x7d' :: rest => return (fields, rest)
          | _ => failure

end

/-! ## Lines -/

/-- A document that has been read up to some place: its tables, and the table that keys go to. -/
structure Draft where
  fields : Fields := []
  current : List String := []

private def endLine? (cs : List Char) : Option (List Char) := do
  let rest ← dropComment? (cs.dropWhile isGap)
  if rest.isEmpty then return [] else lineEnd? rest

private def heading? (several : Bool) (draft : Draft) (cs : List Char) :
    Option (Draft × List Char) := do
  let (keys, rest) ← keys? (cs.length + 1) cs
  let rest ← match several, rest with
    | false, ']' :: rest => some rest
    | true, ']' :: ']' :: rest => some rest
    | _, _ => none
  let last ← keys.getLast?
  let change := if several then openItem last else openTable last
  let fields ← atTable .implied change keys.dropLast draft.fields
  return (⟨fields, keys⟩, rest)

private def assignment? (draft : Draft) (cs : List Char) : Option (Draft × List Char) := do
  let (keys, rest) ← keys? (cs.length + 1) cs
  let '=' :: rest := rest | failure
  let (tree, rest) ← value? (rest.length + 1) (rest.dropWhile isGap)
  let fields ← atTable .implied (putValue tree keys) draft.current draft.fields
  return ({ draft with fields := fields }, rest)

def lines : (fuel : Nat) → Draft → List Char → Option Draft
  | 0, _, _ => none
  | fuel + 1, draft, cs =>
      match cs.dropWhile isGap with
      | [] => some draft
      | '#' :: rest => do lines fuel draft (← endLine? ('#' :: rest))
      | '[' :: '[' :: rest => do
          let (draft, rest) ← heading? true draft rest
          lines fuel draft (← endLine? rest)
      | '[' :: rest => do
          let (draft, rest) ← heading? false draft rest
          lines fuel draft (← endLine? rest)
      | c :: rest =>
          match lineEnd? (c :: rest) with
          | some rest => lines fuel draft rest
          | none => do
              let (draft, rest) ← assignment? draft (c :: rest)
              lines fuel draft (← endLine? rest)

private def withoutMark : List Char → List Char
  | '\uFEFF' :: rest => rest
  | cs => cs

def read? (text : String) : Option Tree := do
  let cs := withoutMark text.toList
  let draft ← lines (cs.length + 1) {} cs
  return .map (fieldTrees draft.fields) none

end RpcContract.Toml
