import RpcContract.Reading.Tree

/-!
# Taking typed data from trees

One function per kind of type: texts, flags, lists, maps, records and names out of a fixed set.
Everything is taken in the order of the text.  A record is written as a map, or as a list of its
fields in the order of their declaration.
-/

namespace RpcContract.Reading

/-- Containers nest at most this deep, less one. -/
def depthLimit : Notation → Nat
  | .yaml => 129
  | _ => 128

abbrev Reader (α : Type) := Notation → Tree → Except ReadError α

def text (expected : String) : Reader String
  | _, .str value => pure value
  | _, .plain value _ => pure value
  | form, .tagged _ inner => text expected form inner
  | _, tree => throw (tree.mismatch expected)

def string : Reader String := text "a string"

def path : Reader String := text "path string"

def flag : Reader Bool
  | _, .bool value => pure value
  | _, .plain _ (some (.bool value)) => pure value
  | form, .tagged _ inner => flag form inner
  | _, tree => throw (tree.mismatch "a boolean")

def any (depth : Nat) : Reader Json
  | form, tree => tree.toJson (depthLimit form - depth)

def optional {α : Type} (read : Reader α) : Reader (Option α)
  | _, .null => pure none
  | _, .plain _ (some .null) => pure none
  | form, tree => some <$> read form tree

/-- Nothing at all may stand for an empty container in the notations that leave values out. -/
def isBlank (form : Notation) : Tree → Bool
  | .plain "" (some .null) => form = .yaml
  | _ => false

def list {α : Type} (read : Reader α) : Reader (List α)
  | form, .tagged _ inner => list read form inner
  | form, .seq items stop => do
      let values ← items.mapM (read form)
      Tree.stopAt stop
      pure values
  | form, tree =>
      if isBlank form tree then pure [] else throw (tree.mismatch "a sequence")

def dict {α : Type} (read : Reader α) : Reader (Dict α)
  | form, .tagged _ inner => dict read form inner
  | form, .map fields stop => do
      let entries ← fields.mapM fun (key, value) => do return (key, ← read form value)
      Tree.stopAt stop
      pure (Dict.ofList entries)
  | form, tree =>
      if isBlank form tree then pure ∅ else throw (tree.mismatch "a map")

def object (depth : Nat) : Reader (Dict Json) := dict (any (depth + 1))

/-- One out of a fixed set of names; as a map, the name is the key and the value is empty. -/
def oneOf {α : Type} (type : String) (names : List (String × α)) : Reader α :=
  let named (name : String) : Except ReadError α :=
    match names.lookup name with
    | some value => pure value
    | none => throw (.unknownVariant name (names.map Prod.fst))
  let unit : Tree → Except ReadError Unit
    | .null | .plain _ (some .null) => pure ()
    | tree => throw (tree.mismatch "unit")
  fun
  | _, .str name => named name
  | _, .plain name _ => named name
  | .yaml, .tagged name inner => do
      let value ← named name
      unit inner
      pure value
  | .jsonText, .map [] stop => do
      Tree.stopAt stop
      throw (.fault .malformed)
  | .jsonText, .map ((name, inner) :: rest) stop => do
      let value ← named name
      unit inner
      if rest.isEmpty then
        Tree.stopAt stop
        pure value
      else throw (.fault .malformed)
  | .jsonValue, .map [(name, inner)] _ => do
      let value ← named name
      unit inner
      pure value
  | .jsonValue, .map _ _ => throw (.invalidValue "map" "map with a single key")
  | .jsonValue, tree => throw (tree.mismatch "string or map")
  | .jsonText, .broken fault => throw (.fault fault)
  | .jsonText, _ => throw (.fault .malformed)
  | .yaml, tree => throw (tree.mismatch ("enum " ++ type))

/-- How a record is read: its fields with whether they may be left out, and a draft that each
field that is met is put into. -/
structure RecordFormat (δ : Type) where
  name : String
  fields : List (String × Bool)
  empty : δ
  read : Notation → String → Tree → δ → Except ReadError δ

namespace RecordFormat

variable {δ : Type} (format : RecordFormat δ)

def firstMissing (present : List String) : Option String :=
  (format.fields.find? fun field => !field.2 && !present.contains field.1).map Prod.fst

/-- Fields by name, each at most once; other names are passed over. -/
def readFields (form : Notation) :
    List String → δ → List (String × Tree) → Except ReadError (List String × δ)
  | seen, draft, [] => pure (seen, draft)
  | seen, draft, (key, value) :: rest =>
      if (format.fields.lookup key).isSome then
        if seen.contains key then throw (.duplicateField key)
        else do
          let draft ← format.read form key value draft
          readFields form (key :: seen) draft rest
      else do
        value.passOver
        readFields form seen draft rest

/-- Fields by position; those behind the last item may be missing if they may be left out. -/
def readItems (form : Notation) (count : Nat) (stop : Option Fault) :
    δ → List (String × Bool) → List Tree → Except ReadError (δ × List Tree)
  | draft, [], rest => pure (draft, rest)
  | draft, (_, mayMiss) :: fields, [] => do
      Tree.stopAt stop
      if mayMiss then readItems form count stop draft fields []
      else throw (.invalidLength count
        ("struct " ++ format.name ++ " with " ++ toString format.fields.length ++ " elements"))
  | draft, (name, _) :: fields, item :: rest => do
      let draft ← format.read form name item draft
      readItems form count stop draft fields rest

def run : Reader δ
  | form, .tagged _ inner => run form inner
  | form, .map fields stop => do
      let (seen, draft) ← format.readFields form [] format.empty fields
      Tree.stopAt stop
      match format.firstMissing seen with
      | some name => throw (.missingField name)
      | none => pure draft
  | .yaml, .seq _ _ => throw (.invalidType "sequence" ("struct " ++ format.name))
  | form, .seq items stop => do
      let (draft, rest) ←
        format.readItems form items.length stop format.empty format.fields items
      match rest with
      | [] =>
          Tree.stopAt stop
          pure draft
      | extra :: _ =>
          match form, extra with
          | .jsonText, .broken fault => throw (.fault fault)
          | .jsonText, _ => throw (.fault .malformed)
          | _, _ => throw (.invalidLength items.length "fewer elements in array")
  | form, tree =>
      if isBlank form tree then
        match format.firstMissing [] with
        | some name => throw (.missingField name)
        | none => pure format.empty
      else throw (tree.mismatch ("struct " ++ format.name))

end RecordFormat

end RpcContract.Reading
