import RpcContract.Text.Blank

/-!
# Joining paths

`joinPath` joins parts with single slashes: each part loses its outer slashes, and empty parts are
left out.
-/

namespace RpcContract

def joinPath (parts : List String) : String :=
  "/".intercalate ((parts.map (Text.trimBoth '/')).filter (!·.isEmpty))

end RpcContract
