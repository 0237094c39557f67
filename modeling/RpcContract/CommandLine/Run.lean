import RpcContract.CommandLine.Basic
import RpcContract.Contract.Issue
import RpcContract.Contract.Load
import RpcContract.Settings.Basic

/-!
# Running commands

`run` carries out a command on a tree of files.  It gives the tree after it, what it prints, and
whether it failed.
-/

namespace RpcContract.CommandLine

inductive Message where
  | text (text : String)
  | generated (templates : List String) (directory : Path)
  | upToDate (directory : Path)
  | watching (path : Path)
deriving DecidableEq, Repr

/-- The text of a line; what a run took is given. -/
def Message.line (milliseconds : String) : Message → String
  | .text content => content
  | .generated templates directory =>
      let names := if templates.isEmpty then "schema only" else ", ".intercalate templates
      "✅ Generated " ++ names ++ " in " ++ directory.text ++ " (" ++ milliseconds ++ " ms)"
  | .upToDate directory => "ℹ️  " ++ directory.text ++ " is up to date"
  | .watching path => "👀 Watching " ++ path.text ++ " for changes"

inductive CommandError where
  | settings (error : SettingsError)
  | contract (error : LoadError)
  | generation (error : Generation.Error)
  | issues (errors : Nat) (path : Path)
deriving DecidableEq, Repr

/-- The text of an error.  Errors in templates, and texts of forms read elsewhere, are given. -/
def CommandError.message (templateText : Template.Fault → String) (formText : String) :
    CommandError → String
  | .settings error => error.message formText
  | .contract error => error.message formText
  | .generation error => error.message templateText formText
  | .issues errors path => toString errors ++ " error(s) found in " ++ path.text

structure Outcome where
  tree : FileTree
  out : List Message := []
  err : List String := []
  result : Except CommandError Unit := .ok ()

/-! ## Generating -/

def GenerateArgs.override (args : GenerateArgs) (settings : Settings) : Settings :=
  { settings with
    outDir := args.outDir.getD settings.outDir
    apiRoot := args.apiRoot.getD settings.apiRoot
    templates := if args.templates.isEmpty then settings.templates else args.templates
    dump := match args.dump with
      | some (some name) => .file name
      | some none => .standard
      | none => settings.dump }

def selectSegments (contract : Contract) (names : List String) : List Segment :=
  if names.isEmpty then contract.toSegments
  else names.map fun name =>
    { name := name, controllers := ((contract.get? name).map (·.controllers.keys)).getD [] }

def reportMessage (report : Generation.Report) : Message :=
  if report.written then .generated report.changed report.path else .upToDate report.path

def GenerateArgs.resolve (args : GenerateArgs) (environment : Environment) (tree : FileTree) :
    Except CommandError Settings := do
  let settings ← (Settings.resolve tree environment args.settings args.contract).mapError .settings
  return args.override settings

def GenerateArgs.generateOnce (args : GenerateArgs) (settings : Settings) (tree : FileTree)
    (banner : String) : Outcome :=
  match Contract.load tree args.contract with
  | .error error => { tree := tree, result := .error (.contract error) }
  | .ok contract =>
      let options := { settings.options with forceLog := args.forceLog }
      let segments := selectSegments contract args.segments
      match Generation.generate tree contract segments settings.selection options banner with
      | (tree, .ok report) => { tree := tree, out := [reportMessage report] }
      | (tree, .error error) => { tree := tree, result := .error (.generation error) }

def runGenerate (args : GenerateArgs) (environment : Environment) (tree : FileTree)
    (banner : String) : Outcome :=
  match args.resolve environment tree with
  | .error error => { tree := tree, result := .error error }
  | .ok settings =>
      let outcome := args.generateOnce settings tree banner
      match args.watch, outcome.result with
      | true, .ok () => { outcome with out := outcome.out ++ [.watching args.contract] }
      | _, _ => outcome

/-! ## Listing and checking -/

private def column (name : String) : String := name ++ "".pushn ' ' (6 - name.length)

def templateLines : List Message :=
  (Client.builtins.map fun b => .text (column b.name ++ " " ++ b.description)) ++
    [.text (column Generation.noTemplates ++ " no client files (schema dumps only)")]

private def segmentLine (name : String) (segment : SegmentSpec) : Message :=
  .text (name ++ ": " ++ toString segment.controllers.size ++ " controller(s), " ++
    toString segment.handlerCount ++ " handler(s)" ++ if segment.emit then "" else " (not emitted)")

def issueLines (issues : List Issue) : List String :=
  ["", "❌ Schema check failed. " ++ toString issues.length ++ " issue(s) found:", ""] ++
    (issues.map fun issue =>
      "[" ++ issue.severity.name ++ "] " ++ issue.location ++ ": " ++ issue.message) ++
    ["", "Please fix the issues in your handler declarations before generating.", ""]

def runCheck (path : Path) (failOnError : Bool) (tree : FileTree) : Outcome :=
  match Contract.load tree path with
  | .error error => { tree := tree, result := .error (.contract error) }
  | .ok contract =>
      let segments := contract.segments.toList.map fun (name, segment) => segmentLine name segment
      match contract.issues with
      | [] => { tree := tree, out := segments ++ [.text "✅ No issues found"] }
      | issues =>
          let errors := (issues.filter (·.severity = .error)).length
          { tree := tree
            out := segments
            err := issueLines issues
            result := if failOnError ∧ 0 < errors then .error (.issues errors path) else .ok () }

def run (command : Command) (environment : Environment) (tree : FileTree) (banner : String) :
    Outcome :=
  match command with
  | .generate args => runGenerate args environment tree banner
  | .templates => { tree := tree, out := templateLines }
  | .check path failOnError => runCheck path failOnError tree

end RpcContract.CommandLine
