import RpcContract.Pattern.Notation

/-!
# Formats of texts

Dates, times, network names and addresses, and the notations that schemas name by `format`.
-/

namespace RpcContract.JsonSchema.Format

private def digits? (count : Nat) (cs : List Char) : Option (Nat × List Char) :=
  let front := cs.take count
  if front.length = count ∧ front.all Char.isDigit then
    some (front.foldl (fun n c => 10 * n + (c.toNat - '0'.toNat)) 0, cs.drop count)
  else none

private def char? (c : Char) : List Char → Option (List Char)
  | d :: rest => if c = d then some rest else none
  | [] => none

def isLeapYear (year : Nat) : Bool := year % 4 = 0 && (year % 100 ≠ 0 || year % 400 = 0)

def daysIn (year month : Nat) : Nat :=
  if month = 2 then (if isLeapYear year then 29 else 28)
  else if month ∈ [4, 6, 9, 11] then 30 else 31

def isDateChars (cs : List Char) : Bool :=
  (do
    let (year, cs) ← digits? 4 cs
    let cs ← char? '-' cs
    let (month, cs) ← digits? 2 cs
    let cs ← char? '-' cs
    let (day, cs) ← digits? 2 cs
    return cs.isEmpty && 1 ≤ month && month ≤ 12 && 1 ≤ day && day ≤ daysIn year month
    : Option Bool).getD false

private def offset? : List Char → Option (Bool × Nat)
  | ['Z'] | ['z'] => some (false, 0)
  | sign :: cs => do
      if sign ≠ '+' ∧ sign ≠ '-' then failure
      let (hour, cs) ← digits? 2 cs
      let cs ← char? ':' cs
      let (minute, cs) ← digits? 2 cs
      if hour ≤ 23 ∧ minute ≤ 59 ∧ cs.isEmpty then some (sign = '-', 60 * hour + minute) else none
  | [] => none

def isTimeChars (cs : List Char) : Bool :=
  (do
    let (hour, cs) ← digits? 2 cs
    let cs ← char? ':' cs
    let (minute, cs) ← digits? 2 cs
    let cs ← char? ':' cs
    let (second, cs) ← digits? 2 cs
    let cs ← match cs with
      | '.' :: fraction =>
          if (fraction.takeWhile Char.isDigit).isEmpty then none
          else some (fraction.dropWhile Char.isDigit)
      | cs => some cs
    let (behind, minutes) ← offset? cs
    -- a leap second is the last one of a day of universal time
    let universal : Int := 60 * hour + minute + (if behind then (minutes : Int) else -minutes)
    return hour ≤ 23 && minute ≤ 59 &&
      (second ≤ 59 || (second = 60 && Int.emod universal 1440 = 1439))
    : Option Bool).getD false

def isDateTime (text : String) : Bool :=
  let cs := text.toList
  let isMark (c : Char) : Bool := c = 'T' || c = 't'
  match cs.dropWhile (!isMark ·) with
  | [] => false
  | _ :: time => isDateChars (cs.takeWhile (!isMark ·)) && isTimeChars time

def isHostname (text : String) : Bool :=
  let cs := text.toList
  !(cs.isEmpty || cs.head? = some '-' || cs.getLast? = some '-' || cs.length > 255 ||
    cs.any (fun c => !(c.isAlphanum || c.toNat ≥ 0x80 || c = '-' || c = '.')) ||
    (cs.splitOn '.').any (·.length > 63))

private def isByteText (cs : List Char) : Bool :=
  match digits? cs.length cs with
  | some (n, _) =>
      1 ≤ cs.length && cs.length ≤ 3 && n ≤ 255 && (cs.length = 1 || cs.head? ≠ some '0')
  | none => false

def isIpv4Chars (cs : List Char) : Bool :=
  let parts := cs.splitOn '.'
  parts.length = 4 && parts.all isByteText

private def isHexGroup (cs : List Char) : Bool :=
  let isHex (c : Char) : Bool := c.isDigit || ('a' ≤ c && c ≤ 'f') || ('A' ≤ c && c ≤ 'F')
  1 ≤ cs.length && cs.length ≤ 4 && cs.all isHex

/-- How many groups of 16 bits a list of parts stands for; the last may be written in bytes. -/
private def groupCount? (parts : List (List Char)) : Option Nat :=
  match parts.getLast? with
  | none => some 0
  | some final =>
      if !parts.dropLast.all isHexGroup then none
      else if isHexGroup final then some parts.length
      else if isIpv4Chars final then some (parts.length + 1)
      else none

private def splitDoubleColon : List Char → Option (List Char × List Char)
  | ':' :: ':' :: rest => some ([], rest)
  | c :: rest => (splitDoubleColon rest).map fun (a, b) => (c :: a, b)
  | [] => none

def isIpv6Chars (cs : List Char) : Bool :=
  let parts (cs : List Char) := if cs.isEmpty then [] else cs.splitOn ':'
  match splitDoubleColon cs with
  | none => groupCount? (parts cs) = some 8
  | some (front, back) =>
      match groupCount? (parts front), groupCount? (parts back) with
      | some a, some b => a + b ≤ 7 && !(front.contains '.')
      | _, _ => false

/-! ## Addresses of resources -/

private def isUnreserved (c : Char) : Bool :=
  c.isAlphanum || c = '-' || c = '.' || c = '_' || c = '~'

private def isDelimiter (c : Char) : Bool := "!$&'()*+,;=".toList.contains c

/-- Only characters of a part of an address, with percent signs before two hexadecimal digits. -/
private def allOf (international : Bool) (extra : List Char) : List Char → Bool
  | '%' :: a :: b :: rest => isHexGroup [a] && isHexGroup [b] && allOf international extra rest
  | c :: rest =>
      (isUnreserved c || isDelimiter c || extra.contains c || (international && c.toNat ≥ 0xA0)) &&
        allOf international extra rest
  | [] => true

private def isAuthority (international : Bool) (cs : List Char) : Bool :=
  let (user, host) :=
    match cs.splitOn '@' with
    | [host] => ([], host)
    | user :: rest => (user, ['@'].intercalate rest)
    | [] => ([], [])
  let isPort (cs : List Char) : Bool :=
    cs.isEmpty || (cs.head? = some ':' && cs.tail.all Char.isDigit)
  allOf international [':'] user &&
    match host with
    | '[' :: rest =>
        let inside := rest.takeWhile (· != ']')
        let behind := rest.drop inside.length
        isIpv6Chars inside && behind.head? = some ']' && isPort behind.tail
    | host =>
        let name := host.takeWhile (· != ':')
        allOf international [] name && isPort (host.drop name.length)

private def isAddress (international needsScheme : Bool) (text : String) : Bool :=
  let cs := text.toList
  let beforeFragment := cs.takeWhile (· != '#')
  let fragment := (cs.drop beforeFragment.length).tail
  let beforeQuery := beforeFragment.takeWhile (· != '?')
  let query := (beforeFragment.drop beforeQuery.length).tail
  let isSchemeChar (c : Char) : Bool := c.isAlphanum || c = '+' || c = '-' || c = '.'
  let scheme := beforeQuery.takeWhile isSchemeChar
  let hasScheme :=
    scheme.head?.any Char.isAlpha && (beforeQuery.drop scheme.length).head? = some ':'
  let hierarchy := if hasScheme then beforeQuery.drop (scheme.length + 1) else beforeQuery
  let rest :=
    match hierarchy with
    | '/' :: '/' :: rest =>
        let authority := rest.takeWhile (· != '/')
        isAuthority international authority &&
          allOf international [':', '@', '/'] (rest.drop authority.length)
    | path =>
        (hasScheme || !(path.takeWhile (· != '/')).contains ':') &&
          allOf international [':', '@', '/'] path
  (hasScheme || !needsScheme) && rest && allOf international [':', '@', '/', '?'] query &&
    allOf international [':', '@', '/', '?'] fragment

/-! ## Pointers and templates -/

/-- A tilde stands only before `0` and `1`. -/
private def tildesEscaped : List Char → Bool
  | '~' :: '0' :: rest | '~' :: '1' :: rest => tildesEscaped rest
  | '~' :: _ => false
  | _ :: rest => tildesEscaped rest
  | [] => true

def isPointerChars : List Char → Bool
  | [] => true
  | '/' :: rest => tildesEscaped rest
  | _ => false

def isRelativePointerChars (cs : List Char) : Bool :=
  let steps := cs.takeWhile Char.isDigit
  let rest := cs.drop steps.length
  !steps.isEmpty && (steps.length = 1 || steps.head? ≠ some '0') &&
    (rest = ['#'] || isPointerChars rest)

private def isHexSign (c : Char) : Bool :=
  c.isDigit || ('a' ≤ c && c ≤ 'f') || ('A' ≤ c && c ≤ 'F')

private def isVariableName : List Char → Bool
  | [] => true
  | '%' :: a :: b :: rest => isHexSign a && isHexSign b && isVariableName rest
  | c :: rest => (c.isAlphanum || c = '_') && isVariableName rest

/-- A name with an optional star, or with a length of up to four digits behind a colon. -/
private def isVariable (cs : List Char) : Bool :=
  let name := cs.takeWhile fun c => c ≠ ':' && c ≠ '*'
  !name.isEmpty && isVariableName name &&
    match cs.drop name.length with
    | [] | ['*'] => true
    | ':' :: digits => digits.all Char.isDigit && digits.length ≤ 4 && digits.head?.any (· ≠ '0')
    | _ => false

private def isExpression (cs : List Char) : Bool :=
  let cs := match cs with
    | c :: rest => if "+#./;?&=,!@|".toList.contains c then rest else cs
    | [] => []
  (cs.splitOn ',').all isVariable

/-- A template of addresses; inside braces, what has been read of them is given backwards. -/
private def isAddressTemplate : Option (List Char) → List Char → Bool
  | none, [] => true
  | some _, [] => false
  | none, '\x7b' :: rest => isAddressTemplate (some []) rest
  | none, '%' :: a :: b :: rest => isHexSign a && isHexSign b && isAddressTemplate none rest
  | none, c :: rest =>
      ' ' < c && !"\"'<>%\\^\x60|\x7d".toList.contains c && isAddressTemplate none rest
  | some inside, '\x7d' :: rest => isExpression inside.reverse && isAddressTemplate none rest
  | some inside, c :: rest => isAddressTemplate (some (c :: inside)) rest

def isEmail (text : String) : Bool :=
  let cs := text.toList
  let domain := (cs.reverse.takeWhile (· != '@')).reverse
  let user := cs.take (cs.length - domain.length - 1)
  let isAtomChar (c : Char) : Bool :=
    c.isAlphanum || c.toNat ≥ 0x80 || "!#$%&'*+-/=?^_\x7b|\x7d~\x60".toList.contains c
  let isUser :=
    match user with
    | '"' :: rest => rest.length ≥ 2 && rest.getLast? = some '"'
    | user =>
        !user.isEmpty && (user.splitOn '.').all fun part => !part.isEmpty && part.all isAtomChar
  let isDomain :=
    match domain with
    | '[' :: rest =>
        rest.getLast? = some ']' &&
          (isIpv4Chars rest.dropLast ||
            (rest.take 5 = "IPv6:".toList && isIpv6Chars (rest.dropLast.drop 5)))
    | domain =>
        isHostname (String.ofList domain) && (domain.splitOn '.').all fun part =>
          !part.isEmpty && part.head? ≠ some '-' && part.getLast? ≠ some '-'
  cs.contains '@' && user.length ≤ 64 && isUser && isDomain

/-- The test of a format that is known from edition `edition` on, counted by the drafts' numbers. -/
def test? (edition : Nat) (name : String) : Option (String → Bool) :=
  let from_ (first : Nat) (test : String → Bool) : Option (String → Bool) :=
    if edition ≥ first then some test else none
  match name with
  | "date-time" => some isDateTime
  | "date" => some (isDateChars ·.toList)
  | "time" => some (isTimeChars ·.toList)
  | "email" => some isEmail
  | "idn-email" => from_ 7 isEmail
  | "hostname" => some isHostname
  | "idn-hostname" => from_ 7 isHostname
  | "ipv4" => some (isIpv4Chars ·.toList)
  | "ipv6" => some (isIpv6Chars ·.toList)
  | "uri" => some (isAddress false true)
  | "uri-reference" => from_ 6 (isAddress false false)
  | "iri" => from_ 7 (isAddress true true)
  | "iri-reference" => from_ 7 (isAddress true false)
  | "uri-template" => from_ 6 (isAddressTemplate none ·.toList)
  | "json-pointer" => from_ 6 (isPointerChars ·.toList)
  | "relative-json-pointer" => from_ 7 (isRelativePointerChars ·.toList)
  | "regex" => some fun text => (Pattern.read? text).isSome
  | _ => none

end RpcContract.JsonSchema.Format
