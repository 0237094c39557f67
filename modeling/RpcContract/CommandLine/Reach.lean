import RpcContract.CommandLine.Run

/-!
# The files of a command

Which files a command looks at, as far as the files that are known tell: its contract leads to its
settings, these to its templates, and these to its outputs.
-/

namespace RpcContract.CommandLine

/-- Paths that are looked at, and paths of which everything below counts as well. -/
structure Reach where
  single : List Path := []
  whole : List Path := []
deriving DecidableEq, Repr

def besideContract (contract : Path) : List Path :=
  (contract.parent?.map fun directory => directory.join ⟨Settings.fileName⟩).toList

def outputReach (settings : Settings) (tree : FileTree) : List Path :=
  match settings.selection.resolve tree with
  | .error _ => []
  | .ok files =>
      let dumps := Generation.dumpPaths settings.outDir settings.dump
        (files.map fun file => (file.out, file.dump))
      settings.outDir :: dumps ++ files.map fun file => settings.outDir.join file.out

def GenerateArgs.reach (args : GenerateArgs) (environment : Environment) (tree : FileTree) :
    Reach :=
  let first := args.contract :: args.settings.toList ++ besideContract args.contract
  match args.resolve environment tree with
  | .error _ => { single := first }
  | .ok settings =>
      { single := first ++ outputReach settings tree
        whole := settings.overrides.values.map (·.path) }

def Command.reach (command : Command) (environment : Environment) (tree : FileTree) : Reach :=
  match command with
  | .generate args => args.reach environment tree
  | .templates => {}
  | .check contract _ => { single := [contract] }

/-- How often knowing more files can lead to further ones. -/
def reachSteps : Nat := 3

end RpcContract.CommandLine
