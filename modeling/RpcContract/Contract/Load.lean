import RpcContract.Contract.Format
import RpcContract.Files.Tree

/-!
# Loading a contract

A contract is read from a file: YAML if its name says so, else JSON.  Names that the file leaves out
are filled in.
-/

namespace RpcContract

inductive LoadError where
  | unreadable (path : Path) (fault : FileFault)
  | notJson (path : Path) (error : ReadError)
  | notYaml (path : Path) (error : ReadError)
deriving DecidableEq, Repr

def LoadError.message (yamlText : String) : LoadError → String
  | .unreadable path fault => "Failed to read schema file " ++ path.text ++ ": " ++ fault.message
  | .notJson path error => "Failed to parse schema file " ++ path.text ++ ": " ++ error.message
  | .notYaml path _ => "Failed to parse schema file " ++ path.text ++ ": " ++ yamlText

namespace Contract

def isYaml (path : Path) : Bool := path.extension? == some "yaml" || path.extension? == some "yml"

def load (tree : FileTree) (path : Path) : Except LoadError Contract := do
  let text ← (tree.readText path).mapError (.unreadable path)
  let contract ← if isYaml path then (readYaml text).mapError (.notYaml path)
    else (readJson text).mapError (.notJson path)
  return contract.normalize

end Contract

end RpcContract
