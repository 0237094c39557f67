import RpcContract.Client.Python
import RpcContract.Client.Rust
import RpcContract.Client.TypeScript

/-!
# Built-in templates

The clients that can be generated without a template of one's own.
-/

namespace RpcContract.Client

/-- A built-in template: its name, what it gives, its file, and whether a dump of the contract
belongs beside its output. -/
structure Builtin where
  name : String
  description : String
  path : String
  text : String
  dumps : Bool
deriving DecidableEq, Repr

def builtins : List Builtin := [
  ⟨"ts", "TypeScript fetch client (index.ts)", "index.ts.tpl", typeScriptTemplate, false⟩,
  ⟨"py", "Python client package (__init__.py + full-schema.json)", "__init__.py.tpl",
    pythonTemplate, true⟩,
  ⟨"rs", "Rust route constants (client.rs)", "client.rs.tpl", rustTemplate, false⟩
]

def builtin? (name : String) : Option Builtin := builtins.find? (·.name == name)

end RpcContract.Client
