/-!
# Options on a command line

A command has options with a long name and perhaps a letter.  `scan` reads arguments up to the first
word that belongs to no option.  The first fault on the line is the one that is reported.
-/

namespace RpcContract.CommandLine

inductive Refusal where
  | displayHelp
  | nothingGiven
  | missingSubcommand
  | invalidSubcommand
  | unknownArgument
  | argumentConflict
  | invalidValue
  | tooManyValues
  | missingRequiredArgument
deriving DecidableEq, Repr

def Refusal.name : Refusal → String
  | .displayHelp => "DisplayHelp"
  | .nothingGiven => "DisplayHelpOnMissingArgumentOrSubcommand"
  | .missingSubcommand => "MissingSubcommand"
  | .invalidSubcommand => "InvalidSubcommand"
  | .unknownArgument => "UnknownArgument"
  | .argumentConflict => "ArgumentConflict"
  | .invalidValue => "InvalidValue"
  | .tooManyValues => "TooManyValues"
  | .missingRequiredArgument => "MissingRequiredArgument"

inductive Arity where
  | none
  | one
  | atMostOne
  | many
deriving DecidableEq, Repr

structure OptionSpec where
  name : String
  letter : Option Char := none
  arity : Arity
  isPath : Bool := false
  /-- May be given several times, and commas part its values. -/
  isList : Bool := false
deriving DecidableEq, Repr

abbrev Given := List (String × List String)

namespace Given

def values (given : Given) (name : String) : List String :=
  (given.filter (·.1 == name)).flatMap Prod.snd

def has (given : Given) (name : String) : Bool := given.any (·.1 == name)

end Given

def splitValue : List Char → List (List Char)
  | [] => [[]]
  | c :: rest =>
      if c = ',' then [] :: splitValue rest
      else
        match splitValue rest with
        | [] => [[c]]
        | piece :: pieces => (c :: piece) :: pieces

/-- Takes an option with its words: there must be enough of them, an option that is no list is given
once, and a path is not empty. -/
def settle (option : OptionSpec) (words : List String) (given : Given) : Except Refusal Given :=
  if words.isEmpty && (option.arity == .one || option.arity == .many) then .error .invalidValue
  else if !option.isList && given.has option.name then .error .argumentConflict
  else
    let values := if option.isList then
        words.flatMap fun word => (splitValue word.toList).map String.ofList
      else words
    if option.isPath && values.any String.isEmpty then .error .invalidValue
    else .ok (given ++ [(option.name, values)])

structure Progress where
  given : Given := []
  pending : Option (OptionSpec × List String) := none
deriving DecidableEq, Repr

namespace Progress

def finish (progress : Progress) : Except Refusal Given :=
  match progress.pending with
  | none => .ok progress.given
  | some (option, words) => settle option words progress.given

def start (progress : Progress) (option : OptionSpec) : Except Refusal Progress := do
  return { given := ← progress.finish, pending := some (option, []) }

def take (progress : Progress) (option : OptionSpec) (words : List String) :
    Except Refusal Progress := do
  return { given := ← settle option words (← progress.finish) }

def help (progress : Progress) : Except Refusal Progress := do
  let _ ← progress.finish
  throw .displayHelp

def addWord? (progress : Progress) (word : String) : Option (Except Refusal Progress) :=
  match progress.pending with
  | none => none
  | some (option, words) =>
      let words := words ++ [word]
      some (if option.arity = .many then .ok { progress with pending := some (option, words) }
        else (settle option words progress.given).map fun given => { given := given })

end Progress

def scanLong (options : List OptionSpec) (text : List Char) (progress : Progress) :
    Except Refusal Progress :=
  let name := String.ofList (text.takeWhile (· != '='))
  let attached := match text.dropWhile (· != '=') with
    | [] => none
    | _ :: value => some (String.ofList value)
  if name = "help" then
    if attached.isSome then .error .tooManyValues else progress.help
  else
    match options.find? (·.name == name), attached with
    | none, _ => .error .unknownArgument
    | some option, some value =>
        if option.arity = .none then .error .tooManyValues else progress.take option [value]
    | some option, none =>
        if option.arity = .none then progress.take option [] else progress.start option

/-- Options by their letters; one that takes words ends the run, and the rest is its value. -/
def scanLetters (options : List OptionSpec) : List Char → Progress → Except Refusal Progress
  | [], progress => .ok progress
  | letter :: rest, progress =>
      if letter = 'h' then progress.help
      else
        match options.find? (·.letter == some letter) with
        | none => .error .unknownArgument
        | some option =>
            if option.arity = .none then do
              let progress ← progress.take option []
              scanLetters options rest progress
            else
              match rest with
              | [] => progress.start option
              | '=' :: value => progress.take option [String.ofList value]
              | value => progress.take option [String.ofList value]

/-- Where reading stopped: at the end, at a word, or at a word behind `--`. -/
inductive Stop where
  | ending
  | word (word : String) (rest : List String)
  | behindDashes (word : String)
deriving DecidableEq, Repr

def scan (options : List OptionSpec) : List String → Progress → Except Refusal (Progress × Stop)
  | [], progress => .ok (progress, .ending)
  | arg :: rest, progress =>
      match arg.toList with
      | ['-', '-'] =>
          match rest with
          | [] => .ok (progress, .ending)
          | word :: _ => .ok (progress, .behindDashes word)
      | '-' :: '-' :: text => do
          let progress ← scanLong options text progress
          scan options rest progress
      | '-' :: c :: letters => do
          let progress ← scanLetters options (c :: letters) progress
          scan options rest progress
      | _ =>
          match progress.addWord? arg with
          | some next => do
              let progress ← next
              scan options rest progress
          | none => .ok (progress, .word arg rest)

end RpcContract.CommandLine
