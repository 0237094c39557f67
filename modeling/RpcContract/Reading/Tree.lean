import RpcContract.Json.Printer
import RpcContract.Text.Quoted

/-!
# Trees read from text

A reader of some notation turns text into a `Tree`, and typed data is then taken from the tree in
the order of the text.  The tree of a text that breaks off, or is malformed further on, holds all
that stands before the fault, so that of two faults the one that comes first is reported.
-/

namespace RpcContract

inductive Fault where
  | malformed
  | ended
deriving DecidableEq, Repr

inductive Tree where
  | null
  | bool (value : Bool)
  | int (value : Int)
  | real (value : Binary64)
  | str (value : String)
  /-- A word without quotes: text where text is wanted, else what it means by itself. -/
  | plain (text : String) (meaning : Option Json)
  | tagged (tag : String) (inner : Tree)
  | seq (items : List Tree) (stop : Option Fault)
  | map (fields : List (String × Tree)) (stop : Option Fault)
  /-- The text cannot be followed further from here. -/
  | broken (fault : Fault)
  /-- Can be passed over but has no value. -/
  | unreadable (fault : Fault)
deriving Repr, Inhabited

inductive Notation where
  | jsonText
  | jsonValue
  | yaml
deriving DecidableEq, Repr

inductive ReadError where
  | fault (fault : Fault)
  | missingField (name : String)
  | duplicateField (name : String)
  | unknownVariant (got : String) (known : List String)
  | invalidType (got expected : String)
  | invalidValue (got expected : String)
  | invalidLength (length : Nat) (expected : String)
  | noVariant (type : String)
  | other (text : String)
deriving DecidableEq, Repr

namespace ReadError

private def inTicks (text : String) : String := "\x60" ++ text ++ "\x60"

/-- Names for a reader: one alone, two with `or`, more as a list. -/
private def alternatives : List String → String
  | [] => "there are no variants"
  | [a] => "expected " ++ inTicks a
  | [a, b] => "expected " ++ inTicks a ++ " or " ++ inTicks b
  | names => "expected one of " ++ ", ".intercalate (names.map inTicks)

def message : ReadError → String
  | .fault .malformed => "<json syntax>"
  | .fault .ended => "<json eof>"
  | .missingField name => "missing field " ++ inTicks name
  | .duplicateField name => "duplicate field " ++ inTicks name
  | .unknownVariant got known =>
      "unknown variant " ++ inTicks got ++ ", " ++ alternatives known
  | .invalidType got expected => "invalid type: " ++ got ++ ", expected " ++ expected
  | .invalidValue got expected => "invalid value: " ++ got ++ ", expected " ++ expected
  | .invalidLength length expected =>
      "invalid length " ++ toString length ++ ", expected " ++ expected
  | .noVariant type => "data did not match any variant of untagged enum " ++ type
  | .other text => text

end ReadError

namespace Json

mutual

def toTree : Json → Tree
  | .null => .null
  | .bool b => .bool b
  | .int n => .int n
  | .real x => .real x
  | .str text => .str text
  | .arr items => .seq (toTrees items) none
  | .obj fields => .map (toFieldTrees fields) none

def toTrees : List Json → List Tree
  | [] => []
  | item :: rest => toTree item :: toTrees rest

def toFieldTrees : List (String × Json) → List (String × Tree)
  | [] => []
  | (key, value) :: rest => (key, toTree value) :: toFieldTrees rest

end

def describe : Json → String
  | .null => "null"
  | .bool b => "boolean \x60" ++ scalarText (.bool b) ++ "\x60"
  | .int n => "integer \x60" ++ toString n ++ "\x60"
  | .real x => "floating point \x60" ++ numberLayout.render x ++ "\x60"
  | .str text => "string " ++ Text.quote text
  | .arr _ => "sequence"
  | .obj _ => "map"

end Json

namespace Tree

def untagged : Tree → Tree
  | .tagged _ inner => untagged inner
  | tree => tree

mutual

/-- The fault met when a tree is passed over. -/
def passOver : Tree → Except ReadError Unit
  | .seq items stop => do passOverItems items; stopAt stop
  | .map fields stop => do passOverFields fields; stopAt stop
  | .tagged _ inner => passOver inner
  | .broken fault => throw (.fault fault)
  | .null | .bool _ | .int _ | .real _ | .str _ | .plain _ _ | .unreadable _ => pure ()

def passOverItems : List Tree → Except ReadError Unit
  | [] => pure ()
  | item :: rest => do passOver item; passOverItems rest

def passOverFields : List (String × Tree) → Except ReadError Unit
  | [] => pure ()
  | (_, value) :: rest => do passOver value; passOverFields rest

def stopAt : Option Fault → Except ReadError Unit
  | none => pure ()
  | some fault => throw (.fault fault)

end

mutual

/-- The value of a tree, at most `depth - 1` levels deep; of several fields with one key the last
counts, and what is no finite number is null. -/
def toJson (depth : Nat) : Tree → Except ReadError Json
  | .null => pure .null
  | .bool b => pure (.bool b)
  | .int n => pure (.int n)
  | .real x | .plain _ (some (.real x)) => pure (if x.isFinite then .real x else .null)
  | .str text => pure (.str text)
  | .plain _ (some value) => pure value
  | .plain _ none => throw (.fault .malformed)
  | .tagged _ _ => throw (.other "invalid type: enum, expected any valid JSON value")
  | .seq items stop => do
      if depth ≤ 1 then throw (.fault .malformed)
      let items ← itemsToJson (depth - 1) items
      stopAt stop
      pure (.arr items)
  | .map fields stop => do
      if depth ≤ 1 then throw (.fault .malformed)
      let fields ← fieldsToJson (depth - 1) fields
      stopAt stop
      pure (Json.ofEntries fields)
  | .broken fault => throw (.fault fault)
  | .unreadable fault => throw (.fault fault)

def itemsToJson (depth : Nat) : List Tree → Except ReadError (List Json)
  | [] => pure []
  | item :: rest => do return (← toJson depth item) :: (← itemsToJson depth rest)

def fieldsToJson (depth : Nat) : List (String × Tree) → Except ReadError (List (String × Json))
  | [] => pure []
  | (key, value) :: rest => do return (key, ← toJson depth value) :: (← fieldsToJson depth rest)

end

def describe : Tree → String
  | .null => "null"
  | .bool b => (Json.bool b).describe
  | .int n => (Json.int n).describe
  | .real x => (Json.real x).describe
  | .str text => (Json.str text).describe
  | .plain text meaning => (meaning.getD (.str text)).describe
  | .tagged _ _ => "enum"
  | .seq _ _ => "sequence"
  | .map _ _ => "map"
  | .broken _ | .unreadable _ => "nothing"

def mismatch (tree : Tree) (expected : String) : ReadError :=
  match tree with
  | .broken fault | .unreadable fault => .fault fault
  | tree => .invalidType tree.describe expected

end Tree

end RpcContract
