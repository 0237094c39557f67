import RpcContract.Formatter.Ending
import RpcContract.Text.Bytes

/-!
# Filter programs

Programs that read text on their input and write text on their output: `cat`, `tr`, `echo`,
`printf`, `true` and `false`.  They work on bytes.
-/

namespace RpcContract.Formatter

structure Outcome where
  out : Bytes := []
  err : Bytes := []
  ending : Ending := .exited 0
  left : Bytes := []
deriving DecidableEq, Repr, Inhabited

abbrev Program := List String → Bytes → Outcome

private def complain (text : String) (input : Bytes) : Outcome :=
  { err := Bytes.encode text, ending := .exited 1, left := input }

/-! ## Escapes -/

private def byteOf (c : Char) : UInt8 := c.toNat.toUInt8

private def octalValue? (b : UInt8) : Option Nat :=
  if byteOf '0' ≤ b ∧ b ≤ byteOf '7' then some (b - byteOf '0').toNat else none

/-- At most so many octal digits: their value, and how many there are. -/
private def octalRun : (most : Nat) → Bytes → Nat → Nat × Nat
  | 0, _, n => (n, 0)
  | _, [], n => (n, 0)
  | most + 1, b :: rest, n =>
      match octalValue? b with
      | some d =>
          let (value, count) := octalRun most rest (n * 8 + d)
          (value, count + 1)
      | none => (n, 0)

private def shortEscape? (b : UInt8) : Option UInt8 :=
  if b = byteOf 'n' then some 10
  else if b = byteOf 't' then some 9
  else if b = byteOf 'r' then some 13
  else if b = byteOf 'a' then some 7
  else if b = byteOf 'b' then some 8
  else if b = byteOf 'f' then some 12
  else if b = byteOf 'v' then some 11
  else if b = byteOf '\\' then some b
  else none

/-- Replaces escapes; in a text that is echoed, octal digits follow a zero. -/
def unescape (echoed : Bool) : (fuel : Nat) → Bytes → Bytes
  | 0, _ | _, [] => []
  | fuel + 1, b :: rest =>
      if b ≠ byteOf '\\' then b :: unescape echoed fuel rest
      else
        match rest with
        | [] => [b]
        | c :: tail =>
            match shortEscape? c with
            | some e => e :: unescape echoed fuel tail
            | none =>
                let digits := if echoed then tail else rest
                if echoed && c ≠ byteOf '0' then b :: c :: unescape echoed fuel tail
                else
                  let (value, count) := octalRun 3 digits 0
                  if count = 0 && !echoed then b :: c :: unescape echoed fuel tail
                  else value.toUInt8 :: unescape echoed fuel (digits.drop count)

private def unescaped (echoed : Bool) (text : String) : Bytes :=
  let bytes := Bytes.encode text
  unescape echoed bytes.length bytes

/-! ## Programs -/

def cat : Program := fun args input =>
  match args.filter (· ≠ "-") with
  | [] => { out := input }
  | file :: _ => complain ("cat: " ++ file ++ ": No such file or directory\n") input

def echo : Program := fun args input =>
  let (words, ending) : List String × Bytes := match args with
    | "-n" :: rest => (rest, [])
    | rest => (rest, [10])
  { out := unescaped true (" ".intercalate words) ++ ending, left := input }

private def fillFormat : Bytes → List String → Bytes
  | [], _ => []
  | b :: rest, args =>
      if b ≠ byteOf '%' then b :: fillFormat rest args
      else
        match rest with
        | [] => [b]
        | c :: tail =>
            if c = byteOf '%' then c :: fillFormat tail args
            else Bytes.encode (args.head?.getD "") ++ fillFormat tail (args.drop 1)

def printf : Program := fun args input =>
  match args with
  | [] => { complain "printf: usage: printf format [arg ...]\n" input with ending := .exited 2 }
  | format :: rest => { out := fillFormat (unescaped false format) rest, left := input }

private def setMembers : (fuel : Nat) → Bytes → Bytes
  | 0, _ | _, [] => []
  | fuel + 1, bytes =>
      let range (low high : UInt8) : Bytes :=
        (List.range (high.toNat + 1 - low.toNat)).map fun n => low + n.toUInt8
      let classes : List (String × Bytes) := [
        ("[:upper:]", range (byteOf 'A') (byteOf 'Z')),
        ("[:lower:]", range (byteOf 'a') (byteOf 'z')),
        ("[:digit:]", range (byteOf '0') (byteOf '9')),
        ("[:space:]", range 9 13 ++ [32]),
        ("[:blank:]", [9, 32])]
      match classes.find? fun entry => (Bytes.encode entry.1).isPrefixOf bytes with
      | some (name, members) => members ++ setMembers fuel (bytes.drop name.length)
      | none =>
          match bytes with
          | [] => []
          | b :: rest =>
              match rest with
              | dash :: high :: tail =>
                  if dash = byteOf '-' ∧ b ≤ high then range b high ++ setMembers fuel tail
                  else b :: setMembers fuel rest
              | _ => b :: setMembers fuel rest

private def membersOf (set : String) : Bytes :=
  let bytes := unescaped false set
  setMembers bytes.length bytes

private def exchange : (old new : Bytes) → UInt8 → UInt8
  | [], _, b => b
  | o :: old, new, b =>
      match new with
      | [] => b
      | [n] => if (o :: old).contains b then n else b
      | n :: new => if o = b ∧ !old.contains b then n else exchange old new b

private def squeeze (set : Bytes) : Bytes → Bytes
  | a :: b :: rest =>
      if a = b ∧ set.contains a then squeeze set (b :: rest) else a :: squeeze set (b :: rest)
  | bytes => bytes

def tr : Program := fun args input =>
  match args with
  | ["-d", set] => { out := input.filter fun b => !(membersOf set).contains b }
  | ["-s", set] => { out := squeeze (membersOf set) input }
  | [old, new] => { out := input.map (exchange (membersOf old) (membersOf new)) }
  | [] => complain "tr: missing operand\nTry 'tr --help' for more information.\n" input
  | operand :: _ =>
      complain ("tr: missing operand after ‘" ++ operand ++
        "’\nTwo strings must be given when translating.\nTry 'tr --help' for more information.\n")
        input

def program? (name : String) : Option Program :=
  let programs : List (String × Program) := [
    ("cat", cat), ("tr", tr), ("echo", echo), ("printf", printf),
    ("true", fun _ input => { left := input }),
    ("false", fun _ input => { ending := .exited 1, left := input })]
  (programs.find? fun entry =>
    name = entry.1 ∨ name = "/bin/" ++ entry.1 ∨ name = "/usr/bin/" ++ entry.1).map Prod.snd

end RpcContract.Formatter
