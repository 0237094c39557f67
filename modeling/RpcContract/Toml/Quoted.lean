/-!
# Quoted TOML text

Text between double quotes has escapes, text between single quotes has none.  Between three quotes
it may go over several lines.
-/

namespace RpcContract.Toml

def isPrinting (c : Char) : Bool := (0x20 ≤ c.toNat && c.toNat != 0x7F) || c == '\t'

def lineEnd? : List Char → Option (List Char)
  | '\n' :: rest => some rest
  | '\r' :: '\n' :: rest => some rest
  | _ => none

private def isHex (c : Char) : Bool :=
  c.isDigit || ('a' ≤ c && c ≤ 'f') || ('A' ≤ c && c ≤ 'F')

private def hexDigit (c : Char) : Nat :=
  if c.isDigit then c.toNat - '0'.toNat else c.toLower.toNat - 'a'.toNat + 10

private def coded? (count : Nat) (cs : List Char) : Option (Char × List Char) :=
  let digits := cs.take count
  if digits.length = count ∧ digits.all isHex then
    let n := digits.foldl (fun n c => n * 16 + hexDigit c) 0
    if n < 0xD800 ∨ (0xDFFF < n ∧ n < 0x110000) then some (Char.ofNat n, cs.drop count) else none
  else none

def escape? : List Char → Option (Char × List Char)
  | [] => none
  | c :: rest =>
      if c = 'b' then some ('\x08', rest)
      else if c = 't' then some ('\t', rest)
      else if c = 'n' then some ('\n', rest)
      else if c = 'f' then some ('\x0c', rest)
      else if c = 'r' then some ('\r', rest)
      else if c = 'e' then some ('\x1b', rest)
      else if c = '"' ∨ c = '\\' then some (c, rest)
      else if c = 'x' then coded? 2 rest
      else if c = 'u' then coded? 4 rest
      else if c = 'U' then coded? 8 rest
      else none

def line? (quote : Char) : (fuel : Nat) → List Char → Option (List Char × List Char)
  | 0, _ => none
  | _ + 1, [] => none
  | fuel + 1, c :: rest => do
      if c = quote then return ([], rest)
      else if c = '\\' ∧ quote = '"' then
        let (c, rest) ← escape? rest
        let (text, rest) ← line? quote fuel rest
        return (c :: text, rest)
      else if isPrinting c then
        let (text, rest) ← line? quote fuel rest
        return (c :: text, rest)
      else failure

private def isBlankChar (c : Char) : Bool := c == ' ' || c == '\t'

def dropSpace : (fuel : Nat) → List Char → List Char
  | 0, cs => cs
  | fuel + 1, cs =>
      match lineEnd? cs with
      | some rest => dropSpace fuel rest
      | none =>
          match cs with
          | c :: rest => if isBlankChar c then dropSpace fuel rest else cs
          | [] => []

/-- Text over several lines up to its three closing quotes, and what follows them.  Up to two more
quotes before these belong to the text. -/
def lines? (quote : Char) : (fuel : Nat) → List Char → Option (List Char × List Char)
  | 0, _ => none
  | _ + 1, [] => none
  | fuel + 1, c :: rest => do
      let run := ((c :: rest).takeWhile (· == quote)).length
      if 3 ≤ run then
        let inside := min run 5 - 3
        return (List.replicate inside quote, (c :: rest).drop (inside + 3))
      match lineEnd? (c :: rest) with
      | some rest =>
          let (text, rest) ← lines? quote fuel rest
          return ('\n' :: text, rest)
      | none =>
          if c = '\\' ∧ quote = '"' then
            match lineEnd? (rest.dropWhile isBlankChar) with
            | some more => lines? quote fuel (dropSpace fuel more)
            | none =>
                let (c, rest) ← escape? rest
                let (text, rest) ← lines? quote fuel rest
                return (c :: text, rest)
          else if isPrinting c then
            let (text, rest) ← lines? quote fuel rest
            return (c :: text, rest)
          else failure

/-- A text in quotes here, and what follows it; over several lines only where that is allowed. -/
def quoted? (several : Bool) : List Char → Option (String × List Char)
  | [] => none
  | quote :: rest => do
      if quote ≠ '"' ∧ quote ≠ '\'' then failure
      let (text, rest) ←
        if several ∧ rest.take 2 = [quote, quote] then
          let rest := rest.drop 2
          lines? quote (rest.length + 1) ((lineEnd? rest).getD rest)
        else line? quote (rest.length + 1) rest
      return (String.ofList text, rest)

end RpcContract.Toml
