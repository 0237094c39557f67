/-!
# Text by lines

Built-in templates are kept line by line.
-/

namespace RpcContract.Client

def ofLines (lines : List String) : String := String.join (lines.map (· ++ "\n"))

end RpcContract.Client
