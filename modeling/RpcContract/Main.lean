import RpcContract.CommandLine.Reach
import RpcContract.CommandLine.Usage
import RpcContract.Logging.Config
import Std.Time

/-!
# The program

Reads the environment, the arguments and the files that the command looks at, carries out the
command on them as values, and does the same to the disk.
-/

namespace RpcContract.CommandLine

/-! ## Reading -/

def readEnvironment : IO Environment := do
  let names := [outDirVariable, apiRootVariable] ++ Logging.Config.variableNames
  let entries ← names.filterMapM fun name => do
    return (← IO.getEnv name).map fun value => (name, value)
  return Dict.ofList entries

def contentOf (bytes : ByteArray) : Content :=
  match String.fromUTF8? bytes with
  | some content => .text content
  | none => .bytes bytes.toList

def diskPath (location : Location) : String := "/" ++ "/".intercalate location

def nodeOnDisk (location : Location) : IO (Option FileNode) := do
  try
    return some (.file (contentOf (← IO.FS.readBinFile (diskPath location))))
  catch
    | .inappropriateType .. => return some .dir
    | _ => return none

/-- Adds the nodes that a path leads through, as far as there are any. -/
def observeFrom (tree : FileTree) : Location → List String → IO FileTree
  | _, [] => return tree
  | location, piece :: rest => do
      if piece = "" ∨ piece = "." then observeFrom tree location rest
      else if piece = ".." then observeFrom tree location.dropLast rest
      else
        let location := location ++ [piece]
        match ← nodeOnDisk location with
        | some .dir => observeFrom (tree.insert location .dir) location rest
        | some node => return tree.insert location node
        | none => return tree

def observe (tree : FileTree) (path : Path) : IO FileTree :=
  observeFrom tree (if path.isAbsolute then [] else tree.current) path.pieces

partial def observeBelow (tree : FileTree) (location : Location) : IO FileTree := do
  let mut tree := tree
  for entry in ← ((← IO.currentDir) / diskPath location).readDir do
    let below := location ++ [entry.fileName]
    if let some node ← nodeOnDisk below then
      tree := tree.insert below node
      if node = .dir then tree ← observeBelow tree below
  return tree

def observeReach (tree : FileTree) (reach : Reach) : IO FileTree := do
  let mut tree := tree
  for path in reach.single ++ reach.whole do
    tree ← observe tree path
  for path in reach.whole do
    if let .ok (.node location .dir) := tree.find true path then
      tree ← observeBelow tree location
  return tree

def observeCommand (command : Command) (environment : Environment) : IO FileTree := do
  let here : Path := ⟨(← IO.currentDir).toString⟩
  let mut tree ← observe ⟨[], []⟩ here
  tree := { tree with current := here.pieces.filter (!·.isEmpty) }
  for _ in [0:reachSteps] do
    tree ← observeReach tree (command.reach environment tree)
  return tree

/-! ## Writing -/

def applyChanges (changes : List (Location × FileNode)) : IO Unit := do
  for (location, node) in changes do
    match node with
    | .dir => IO.FS.createDirAll (diskPath location)
    | .file (.text content) => IO.FS.writeFile (diskPath location) content
    | .file (.bytes bytes) => IO.FS.writeBinFile (diskPath location) ⟨bytes.toArray⟩
    | .link _ => pure ()

def currentBanner : IO String := do
  let stamp ← Std.Time.Timestamp.now
  let now := Std.Time.DateTime.ofTimestamp stamp Std.Time.TimeZone.ZoneRules.UTC
  return "auto-generated " ++ now.format "uuuu-MM-dd'T'HH:mm:ss.SSS'Z'"

def reportError (error : CommandError) : IO Unit :=
  IO.eprintln ("Error: " ++ error.message (·.name) "the form is wrong")

def showOutcome (before : FileTree) (outcome : Outcome) (started : Nat) : IO Bool := do
  applyChanges (outcome.tree.changesFrom before)
  let milliseconds := toString ((← IO.monoMsNow) - started)
  for message in outcome.out do IO.println (message.line milliseconds)
  (← IO.getStdout).flush
  for line in outcome.err do IO.eprintln line
  match outcome.result with
  | .ok () => return true
  | .error error =>
      reportError error
      return false

/-! ## Watching -/

/-- How long to wait between two looks at a file, in milliseconds. -/
def watchPause : UInt32 := 200

partial def watch (args : GenerateArgs) (settings : Settings) (environment : Environment)
    (last : Option FileNode) : IO Unit := do
  IO.sleep watchPause
  let started ← IO.monoMsNow
  let tree ← observeCommand (.generate args) environment
  let content := (tree.read args.contract).toOption.map FileNode.file
  if content.isSome && content != last then
    let _ ← showOutcome tree (args.generateOnce settings tree (← currentBanner)) started
  watch args settings environment (content.orElse fun _ => last)

def perform (invocation : Invocation) (environment : Environment) : IO UInt32 := do
  let logging := Logging.Config.ofEnvironment environment
  let logging := if invocation.verbose then logging.verbose else logging
  for directive in (logging.filter environment).2 do
    IO.eprintln (Logging.Config.warning directive)
  let started ← IO.monoMsNow
  let tree ← observeCommand invocation.command environment
  let outcome := run invocation.command environment tree (← currentBanner)
  if !(← showOutcome tree outcome started) then return 1
  match invocation.command with
  | .generate args =>
      if let (true, .ok settings) := (args.watch, args.resolve environment tree) then
        watch args settings environment ((tree.read args.contract).toOption.map FileNode.file)
      return 0
  | _ => return 0

end RpcContract.CommandLine

open RpcContract CommandLine in
def main (args : List String) : IO UInt32 := do
  let environment ← readEnvironment
  match read environment args with
  | .ok invocation => perform invocation environment
  | .error refusal =>
      let stream ← if refusal.exitCode = 0 then IO.getStdout else IO.getStderr
      if let some message := refusal.message? then stream.putStrLn ("error: " ++ message ++ "\n")
      stream.putStrLn usageText
      return refusal.exitCode.toUInt32
