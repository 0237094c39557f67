import RpcContract.CommandLine.Option
import RpcContract.Files.Path
import RpcContract.Settings.Environment

/-!
# Command lines

The commands of the program and how they are read: `generate`, `templates`, `check` and `help`.
-/

namespace RpcContract.CommandLine

structure GenerateArgs where
  contract : Path
  settings : Option Path := none
  outDir : Option Path := none
  templates : List String := []
  /-- Whether a dump is wanted, and under which name. -/
  dump : Option (Option String) := none
  segments : List String := []
  apiRoot : Option String := none
  forceLog : Bool := false
  watch : Bool := false
deriving DecidableEq, Repr

inductive Command where
  | generate (args : GenerateArgs)
  | templates
  | check (contract : Path) (failOnError : Bool)
deriving DecidableEq, Repr

structure Invocation where
  verbose : Bool
  command : Command
deriving DecidableEq, Repr

/-! ## Options of each command -/

def verboseOption : OptionSpec := { name := "verbose", letter := some 'v', arity := .none }

private def contractOption : OptionSpec :=
  { name := "schema", letter := some 's', arity := .one, isPath := true }

def generateOptions : List OptionSpec := [
  verboseOption,
  contractOption,
  { name := "config", letter := some 'c', arity := .one, isPath := true },
  { name := "out", letter := some 'o', arity := .one, isPath := true },
  { name := "template", letter := some 't', arity := .many, isList := true },
  { name := "full-schema", arity := .atMostOne },
  { name := "segment", arity := .many, isList := true },
  { name := "api-root", arity := .one },
  { name := "force-log", arity := .none },
  { name := "watch", letter := some 'w', arity := .none }
]

def checkOptions : List OptionSpec := [
  verboseOption,
  contractOption,
  { name := "fail-on-error", arity := .none }
]

def commandNames : List String := ["generate", "templates", "check", "help"]

/-! ## Reading -/

def optionsOnly (options : List OptionSpec) (args : List String) :
    Except Refusal Given := do
  match ← scan options args {} with
  | (progress, .ending) => progress.finish
  | _ => throw .unknownArgument

def orVariable (given : Given) (name : String) (environment : Environment)
    (variable_ : String) : Option String :=
  if given.has name then (given.values name).head? else environment.get? variable_

def required (given : Given) (name : String) : Except Refusal Path :=
  match (given.values name).head? with
  | some value => .ok ⟨value⟩
  | none => .error .missingRequiredArgument

def readGenerate (environment : Environment) (given : Given) : Except Refusal Command := do
  let outDir := orVariable given "out" environment outDirVariable
  if outDir = some "" then throw .invalidValue
  let contract ← required given "schema"
  return .generate {
    contract := contract
    settings := ((given.values "config").head?).map Path.mk
    outDir := outDir.map Path.mk
    templates := given.values "template"
    dump := if given.has "full-schema" then some (given.values "full-schema").head? else none
    segments := given.values "segment"
    apiRoot := orVariable given "api-root" environment apiRootVariable
    forceLog := given.has "force-log"
    watch := given.has "watch" }

def readCommand (environment : Environment) (name : String) (args : List String) :
    Except Refusal (Bool × Command) := do
  match name with
  | "generate" =>
      let given ← optionsOnly generateOptions args
      return (given.has "verbose", ← readGenerate environment given)
  | "templates" =>
      let given ← optionsOnly [verboseOption] args
      return (given.has "verbose", .templates)
  | "check" =>
      let given ← optionsOnly checkOptions args
      let contract ← required given "schema"
      return (given.has "verbose", .check contract (given.has "fail-on-error"))
  | "help" =>
      match args with
      | [] => throw .displayHelp
      | [topic] =>
          if commandNames.contains topic then throw .displayHelp else throw .invalidSubcommand
      | _ => throw .invalidSubcommand
  | _ => throw .invalidSubcommand

def read (environment : Environment) (args : List String) : Except Refusal Invocation := do
  match ← scan [verboseOption] args {} with
  | (progress, .word name rest) =>
      let given ← progress.finish
      let (verbose, command) ← readCommand environment name rest
      return ⟨given.has "verbose" || verbose, command⟩
  | (_, .behindDashes word) =>
      if commandNames.contains word then throw .unknownArgument else throw .invalidSubcommand
  | (progress, .ending) =>
      let given ← progress.finish
      if given.isEmpty then throw .nothingGiven else throw .missingSubcommand

end RpcContract.CommandLine
