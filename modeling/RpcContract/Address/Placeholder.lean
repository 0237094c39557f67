/-!
# Placeholders in paths

A path holds placeholders, written `:name` or with the name in braces.  `PathPiece.ofPath` splits a
path into placeholders and the characters between them.
-/

namespace RpcContract

inductive PathPiece where
  | char (c : Char)
  | placeholder (name : String)
deriving DecidableEq, Repr

namespace PathPiece

def isNameStart (c : Char) : Bool := c.isAlpha || c = '_'

def isNameChar (c : Char) : Bool := c.isAlphanum || c = '_'

/-- A name at the start of a text, with what follows it. -/
def name? : List Char → Option (List Char × List Char)
  | c :: rest =>
      if isNameStart c then some (c :: rest.takeWhile isNameChar, rest.dropWhile isNameChar)
      else none
  | [] => none

def placeholder? : List Char → Option (String × List Char)
  | ':' :: rest => (name? rest).map fun (name, rest) => (String.ofList name, rest)
  | '\x7b' :: rest =>
      match name? rest with
      | some (name, '\x7d' :: rest) => some (String.ofList name, rest)
      | _ => none
  | _ => none

theorem length_of_name? {cs name rest : List Char} (h : name? cs = some (name, rest)) :
    rest.length < cs.length := by
  cases cs with
  | nil => simp [name?] at h
  | cons c cs =>
      simp only [name?] at h
      split at h
      · cases h
        exact Nat.lt_succ_of_le (List.dropWhile_suffix isNameChar).length_le
      · simp at h

theorem length_of_placeholder? {cs : List Char} {name : String} {rest : List Char}
    (h : placeholder? cs = some (name, rest)) : rest.length < cs.length := by
  unfold placeholder? at h
  split at h
  next tail =>
    obtain ⟨⟨n, r⟩, found, same⟩ := Option.map_eq_some_iff.1 h
    cases same
    exact Nat.lt_succ_of_lt (length_of_name? found)
  next tail =>
    split at h
    next n r found =>
      cases h
      have := length_of_name? found
      simp only [List.length_cons] at this ⊢
      omega
    next => simp at h
  next => simp at h

def ofChars (cs : List Char) : List PathPiece :=
  match _found : placeholder? cs with
  | some (name, rest) => .placeholder name :: ofChars rest
  | none =>
      match cs with
      | [] => []
      | c :: rest => .char c :: ofChars rest
termination_by cs.length
decreasing_by
  · exact length_of_placeholder? _found
  · simp

def ofPath (path : String) : List PathPiece := ofChars path.toList

def nameOf? : PathPiece → Option String
  | .char _ => none
  | .placeholder name => some name

end PathPiece

end RpcContract
