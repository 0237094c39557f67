import RpcContract.Data.Dict

/-!
# Environments

The variables that a program is started with.
-/

namespace RpcContract

abbrev Environment := Dict String

namespace Environment

def nonEmpty? (environment : Environment) (name : String) : Option String :=
  (environment.get? name).filter (!·.isEmpty)

end Environment

def outDirVariable : String := "RPCFORGE_OUT_DIR"

def apiRootVariable : String := "RPCFORGE_API_ROOT"

end RpcContract
