import RpcContract.Formatter.Program

/-!
# Command lines

`sh -c` runs a command line: commands joined by `;`, `&&`, `||` and `|`, with words in quotes and
with output that is thrown away or sent to the other stream.
-/

namespace RpcContract.Formatter.Shell

inductive Token where
  | word (word : String)
  | mark (mark : String)
deriving DecidableEq, Repr

/-! ## Words -/

/-- A word with its quotes, and what follows it; none if a quote is not closed. -/
def scanWord : (fuel : Nat) → (quote : Option Char) → List Char → Option (List Char × List Char)
  | 0, _, _ => none
  | _ + 1, none, [] => some ([], [])
  | _ + 1, some _, [] => none
  | fuel + 1, none, c :: rest =>
      if " \t\n;&|<>()".toList.contains c then some ([], c :: rest)
      else if c = '\'' ∨ c = '"' then scanWord fuel (some c) rest
      else if c = '\\' then
        match rest with
        | [] => some ([c], [])
        | d :: rest => (scanWord fuel none rest).map fun (word, rest) => (d :: word, rest)
      else (scanWord fuel none rest).map fun (word, rest) => (c :: word, rest)
  | fuel + 1, some quote, c :: rest =>
      if c = quote then scanWord fuel none rest
      else if quote = '"' ∧ c = '\\' then
        match rest with
        | d :: more =>
            if d = '"' ∨ d = '\\' ∨ d = '$' then
              (scanWord fuel (some quote) more).map fun (word, rest) => (d :: word, rest)
            else (scanWord fuel (some quote) rest).map fun (word, rest) => (c :: word, rest)
        | [] => none
      else (scanWord fuel (some quote) rest).map fun (word, rest) => (c :: word, rest)

private def marks : List String :=
  ["2>&1", "1>&2", ">&2", ">&1", "2>", "1>", ">", "<", "&&", "||", ";", "\n", "|"]

def scan : (fuel : Nat) → List Char → Option (List Token)
  | 0, _ => none
  | _ + 1, [] => some []
  | fuel + 1, c :: rest =>
      if c = ' ' ∨ c = '\t' then scan fuel rest
      else
        match marks.find? fun mark => mark.toList.isPrefixOf (c :: rest) with
        | some mark => (scan fuel ((c :: rest).drop mark.length)).map (.mark mark :: ·)
        | none =>
            match scanWord (rest.length + 2) none (c :: rest) with
            | none => none
            | some (word, tail) =>
                if tail.length ≤ rest.length then
                  (scan fuel tail).map (.word (String.ofList word) :: ·)
                else none

/-! ## Commands -/

inductive Sink where
  | out
  | err
  | nowhere
deriving DecidableEq, Repr

structure Command where
  words : List String := []
  out : Sink := .out
  err : Sink := .err
  noInput : Bool := false
deriving DecidableEq, Repr, Inhabited

/-- The command that tokens make; none if a stream goes to a file other than the null device. -/
def commandOf : List Token → Command → Option Command
  | [], command => some command
  | .word word :: rest, command => commandOf rest { command with words := command.words ++ [word] }
  | .mark "2>&1" :: rest, command => commandOf rest { command with err := command.out }
  | .mark "1>&2" :: rest, command => commandOf rest { command with out := command.err }
  | .mark ">&2" :: rest, command => commandOf rest { command with out := command.err }
  | .mark ">&1" :: rest, command => commandOf rest command
  | .mark mark :: .word "/dev/null" :: rest, command =>
      if mark = ">" ∨ mark = "1>" then commandOf rest { command with out := .nowhere }
      else if mark = "2>" then commandOf rest { command with err := .nowhere }
      else if mark = "<" then commandOf rest { command with noInput := true }
      else none
  | .mark _ :: _, _ => none

inductive Joint where
  | always
  | success
  | failure
deriving DecidableEq, Repr

private def jointOf (mark : String) : Option Joint :=
  if mark = ";" ∨ mark = "\n" then some .always
  else if mark = "&&" then some .success
  else if mark = "||" then some .failure
  else none

def splitPipes : List Token → List (List Token)
  | [] => [[]]
  | .mark "|" :: rest => [] :: splitPipes rest
  | token :: rest =>
      match splitPipes rest with
      | [] => [[token]]
      | first :: others => (token :: first) :: others

/-- Pipelines, each with what it waits for. -/
def splitJoints (joint : Joint) : List Token → List (Joint × List Token)
  | [] => [(joint, [])]
  | .mark mark :: rest =>
      match jointOf mark with
      | some next => (joint, []) :: splitJoints next rest
      | none =>
          match splitJoints joint rest with
          | [] => [(joint, [.mark mark])]
          | (_, first) :: others => (joint, .mark mark :: first) :: others
  | token :: rest =>
      match splitJoints joint rest with
      | [] => [(joint, [token])]
      | (_, first) :: others => (joint, token :: first) :: others

/-! ## Running -/

/-- What has been written so far, the input that is left, how the last command ended, and whether
the line was left before its end. -/
structure State where
  out : Bytes := []
  err : Bytes := []
  left : Bytes
  ending : Ending := .exited 0
  done : Bool := false
deriving Repr

private def runProgram (words : List String) (input : Bytes) : Outcome :=
  match words with
  | [] => { left := input }
  | name :: args =>
      match program? name with
      | some program => program args input
      | none =>
          { err := Bytes.encode ("sh: 1: " ++ name ++ ": not found\n"), ending := .exited 127,
            left := input }

private def sendTo (sink wanted : Sink) (bytes : Bytes) : Bytes :=
  if sink = wanted then bytes else []

/-- One command: what it writes on both streams after they are sent elsewhere. -/
def runCommand (command : Command) (input : Bytes) : Outcome :=
  let given := if command.noInput then [] else input
  let outcome := runProgram command.words given
  { outcome with
    out := sendTo command.out .out outcome.out ++ sendTo command.err .out outcome.err
    err := sendTo command.out .err outcome.out ++ sendTo command.err .err outcome.err
    left := if command.noInput then input else outcome.left }

def runPipe : List Command → Bytes → Outcome
  | [], input => { left := input }
  | [command], input => runCommand command input
  | command :: rest, input =>
      let first := runCommand command input
      let others := runPipe rest first.out
      { others with err := first.err ++ others.err, left := first.left }

private def exitEnding (args : List String) (last : Ending) : Ending :=
  match args with
  | [] => last
  | n :: _ => .exited ((n.toNat?.getD 2) % 256)

private def signalOf? (name : String) : Option Nat :=
  match name.toNat? with
  | some signal => some signal
  | none =>
      (Ending.signals.find? fun entry => entry.2 = name || "SIG" ++ entry.2 = name).map Prod.fst

/-- The signal that a command sends to the command line itself. -/
private def ownSignal? : List String → Option Nat
  | ["$$"] => some 15
  | ["-s", name, "$$"] => signalOf? name
  | [option, "$$"] =>
      match option.toList with
      | '-' :: name => signalOf? (String.ofList name)
      | _ => none
  | _ => none

def runGroup (state : State) (group : Joint × List Token) : Option State :=
  let skip := state.done || match group.1 with
    | .always => false
    | .success => !state.ending.isSuccess
    | .failure => state.ending.isSuccess
  if skip then some state
  else
    match (splitPipes group.2).mapM fun tokens => commandOf tokens {} with
    | none => none
    | some [⟨[], _, _, _⟩] => some state
    | some [⟨"exit" :: args, _, _, _⟩] =>
        some { state with ending := exitEnding args state.ending, done := true }
    | some [⟨"kill" :: args, _, _, _⟩] =>
        match ownSignal? args with
        | some signal => some { state with ending := .stopped signal, done := true }
        | none => some { state with ending := .exited 1 }
    | some commands =>
        let outcome := runPipe commands state.left
        some { state with
          out := state.out ++ outcome.out
          err := state.err ++ outcome.err
          left := outcome.left
          ending := outcome.ending }

private def malformed (input : Bytes) : Outcome :=
  { err := Bytes.encode "sh: 1: Syntax error\n", ending := .exited 2, left := input }

def run (line : String) (input : Bytes) : Outcome :=
  match scan (line.length + 1) line.toList with
  | none => malformed input
  | some tokens =>
      match (splitJoints .always tokens).foldlM runGroup { left := input } with
      | none => malformed input
      | some ⟨out, err, left, ending, _⟩ => ⟨out, err, ending, left⟩

end RpcContract.Formatter.Shell
