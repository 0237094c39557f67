/-!
# Addresses of schemas

A schema has an address, and a reference is an address that may leave out its front part, which is
then taken from the schema that it stands in.  `Address.below` puts the two together.
-/

namespace RpcContract.JsonSchema

structure Address where
  scheme : Option String := none
  authority : Option String := none
  path : String := ""
  query : Option String := none
deriving DecidableEq, Repr, Inhabited

namespace Address

private def isSchemeSign (c : Char) : Bool := c.isAlphanum || c = '+' || c = '-' || c = '.'

/-- The scheme before the first colon, if there is one, and what follows it. -/
private def splitScheme (cs : List Char) : Option String × List Char :=
  let front := cs.takeWhile isSchemeSign
  match front, cs.drop front.length with
  | first :: _, ':' :: rest =>
      if first.isAlpha then (some (String.ofList front), rest) else (none, cs)
  | _, _ => (none, cs)

private def splitAuthority (cs : List Char) : Option String × List Char :=
  match cs with
  | '/' :: '/' :: rest =>
      let host := rest.takeWhile fun c => c ≠ '/' && c ≠ '?'
      (some (String.ofList host), rest.drop host.length)
  | cs => (none, cs)

def ofText (text : String) : Address :=
  let (scheme, rest) := splitScheme (text.toList.takeWhile (· != '#'))
  let (authority, rest) := splitAuthority rest
  let path := rest.takeWhile (· != '?')
  let query := match rest.drop path.length with
    | _ :: query => some (String.ofList query)
    | [] => none
  ⟨scheme, authority, String.ofList path, query⟩

def text (address : Address) : String :=
  (address.scheme.map (· ++ ":")).getD "" ++ (address.authority.map ("//" ++ ·)).getD "" ++
    address.path ++ (address.query.map ("?" ++ ·)).getD ""

/-- The steps of a path without those that stay or go up; they are given with the last one first. -/
private def plainSteps : (done : List String) → List String → List String
  | done, [] => done
  | done, "." :: [] => "" :: done
  | done, ".." :: [] => "" :: done.tail
  | done, "." :: rest => plainSteps done rest
  | done, ".." :: rest => plainSteps done.tail rest
  | done, step :: rest => plainSteps (step :: done) rest

private def stepsOf (path : String) : List String :=
  (path.toList.splitOn '/').map String.ofList

def plainPath (path : String) : String :=
  match stepsOf path with
  | "" :: steps => "/" ++ "/".intercalate (plainSteps [] steps).reverse
  | _ => path

/-- The path of a reference in the place of the last step of another path. -/
private def besidePath (base : Address) (path : String) : String :=
  if base.authority.isSome && base.path.isEmpty then "/" ++ path
  else
    let front := (base.path.toList.reverse.dropWhile (· != '/')).reverse
    String.ofList front ++ path

def below (base reference : Address) : Address :=
  if reference.scheme.isSome then { reference with path := plainPath reference.path }
  else if reference.authority.isSome then
    { reference with scheme := base.scheme, path := plainPath reference.path }
  else if reference.path.isEmpty then
    { base with query := reference.query.orElse fun _ => base.query }
  else
    let path := if reference.path.startsWith "/" then reference.path
      else besidePath base reference.path
    { base with path := plainPath path, query := reference.query }

def unreachable (address : Address) : String :=
  match address.scheme.getD "" with
  | "http" | "https" =>
      let page := if address.path.isEmpty then { address with path := "/" } else address
      "error sending request for url (" ++ page.text ++ ")"
  | "file" => "No such file or directory (os error 2)"
  | scheme => "Unknown scheme " ++ scheme

def standard : Address := ofText "json-schema:///"

end Address

end RpcContract.JsonSchema
