import RpcContract.Formatter.Shell
import RpcContract.Generation.Error
import RpcContract.Text.Blank

/-!
# Formatters

A formatter is a command that reads a rendered text and writes the text that is kept.  It fails if
it cannot be started, if it does not end with success, or if what it writes is no text.
-/

namespace RpcContract.Formatter

/-- What a command does with its input; none if there is no such program. -/
def execute (command : List String) (input : Bytes) : Option Outcome :=
  match command with
  | [] => none
  | name :: args =>
      if name = "sh" ∨ name = "/bin/sh" then
        match args with
        | "-c" :: line :: _ => some (Shell.run line input)
        | _ => some {}
      else (program? name).map fun program => program args input

def format (command : List String) (text : String) : Except Generation.Error String :=
  match command with
  | [] => .error .noFormatter
  | program :: _ =>
      match execute command (Bytes.encode text) with
      | none => .error (.formatterMissing program .notFound)
      | some outcome =>
          if !outcome.ending.isSuccess then
            .error (.formatterFailed program outcome.ending
              (Text.trimBlanks (Bytes.decodeLossy outcome.err)))
          else
            match Bytes.decode? outcome.out with
            | some text => .ok text
            | none => .error (.formatterNoText program)

end RpcContract.Formatter
