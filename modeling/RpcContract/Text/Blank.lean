import RpcContract.Text.Ranges

/-!
# White space

The white space of the Unicode standard, and trimming by it.
-/

namespace RpcContract.Text

/-- White space by the Unicode standard. -/
def blankRanges : List (Nat × Nat) := [
  (0x9,0xD), (0x20,0x20), (0x85,0x85), (0xA0,0xA0), (0x1680,0x1680),
  (0x2000,0x200A), (0x2028,0x2029), (0x202F,0x202F), (0x205F,0x205F), (0x3000,0x3000)
]

def isBlank (c : Char) : Bool := inRanges blankRanges c.toNat

def dropBlanks (cs : List Char) : List Char := cs.dropWhile isBlank

def trimBlanks (text : String) : String :=
  String.ofList (dropBlanks (dropBlanks text.toList).reverse).reverse

/-- Text without a character at its end, however often it stands there. -/
def trimEnd (c : Char) (text : String) : String :=
  String.ofList (text.toList.reverse.dropWhile (· == c)).reverse

def trimStart (c : Char) (text : String) : String :=
  String.ofList (text.toList.dropWhile (· == c))

def trimBoth (c : Char) (text : String) : String := trimEnd c (trimStart c text)

end RpcContract.Text
