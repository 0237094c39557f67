import RpcContract.Yaml.Cursor

/-!
# Reading YAML text

`Yaml.read?` turns a text with one document into a tree.  Nodes are told apart by their column:
what belongs to a collection stands further in than the collection itself, except that a list may
stand in the column of the key that it belongs to.
-/

namespace RpcContract.Yaml

open Walk

structure Properties where
  tag : Option String := none
  anchor : Option String := none

namespace Properties

def isEmpty (properties : Properties) : Bool :=
  properties.tag.isNone && properties.anchor.isNone

def scalar (properties : Properties) (isPlain : Bool) (text : String) : Tree :=
  match properties.tag with
  | some tag => tagged tag isPlain text
  | none => if isPlain then word text else .str text

def collection (properties : Properties) (tree : Tree) : Tree :=
  match properties.tag with
  | some tag => keepTag tag tree
  | none => tree

def keep (properties : Properties) (tree : Tree) : Walk Tree := do
  if let some name := properties.anchor then
    modify fun cursor => { cursor with anchors := (name, tree) :: cursor.anchors }
  return tree

end Properties

private def isNameChar (c : Char) : Bool := !isGap c && !isFlowSign c

private def anchorName : Walk String := do
  advance
  let name ← takeLine isNameChar
  if name.isEmpty then failure
  return String.ofList name

private def tagName : Walk String := do
  advance
  if (← peek) = some '<' then
    let name ← takeLine (· ≠ '>')
    advance
    let text := String.ofList name.tail
    let standard := "tag:yaml.org,2002:"
    return if text.startsWith standard then "!!" ++ (text.drop standard.length).toString else text
  else
    let name ← takeLine isNameChar
    return "!" ++ String.ofList name

private def properties : Walk Properties := do
  let rec go : Nat → Properties → Walk Properties
    | 0, found => return found
    | fuel + 1, found => do
        match ← peek with
        | some '&' =>
            if found.anchor.isSome then failure
            let name ← anchorName
            if !endsToken (← rest) && !(← rest).head?.any isFlowSign then failure
            skipGap
            go fuel { found with anchor := some name }
        | some '!' =>
            if found.tag.isSome then failure
            let tag ← tagName
            if !endsToken (← rest) && !(← rest).head?.any isFlowSign then failure
            skipGap
            go fuel { found with tag := some tag }
        | _ => return found
  go 3 {}

private def aliasTree : Walk Tree := do
  let name ← anchorName
  match (← get).anchors.lookup name with
  | some tree => return tree
  | none => failure

private def keyText : Tree → Walk String
  | .plain text _ | .str text | .tagged _ (.plain text _) | .tagged _ (.str text) => return text
  | _ => failure

/-! ## Collections in brackets -/

private def atColon (afterQuote : Bool) : Walk Bool := do
  match ← rest with
  | ':' :: rest => return afterQuote || endsToken rest || rest.head?.any isFlowSign
  | _ => return false

mutual

/-- A node inside brackets; a colon may follow at once what is not a plain word. -/
private def flowNode : Nat → Walk (Tree × Bool)
  | 0 => failure
  | fuel + 1 => do
      let found ← properties
      skipInside
      let cs ← rest
      match cs with
      | '*' :: _ => if found.isEmpty then return (← aliasTree, false) else failure
      | '[' :: _ => do
          advance
          let items ← flowItems fuel
          return (← found.keep (found.collection (.seq items none)), true)
      | '\x7b' :: _ => do
          advance
          let fields ← flowFields fuel
          return (← found.keep (found.collection (.map fields none)), true)
      | '"' :: _ => do return (← found.keep (found.scalar false (← quoted '"')), true)
      | '\'' :: _ => do return (← found.keep (found.scalar false (← quoted '\'')), true)
      | _ =>
          if startsPlain true cs then
            return (← found.keep (found.scalar true (← plain true 0)), false)
          else
            -- nothing at all stands for an empty word
            match cs with
            | ',' :: _ | ']' :: _ | '\x7d' :: _ | ':' :: _ =>
                return (← found.keep (found.scalar true ""), false)
            | _ => failure

private def flowItems : Nat → Walk (List Tree)
  | 0 => failure
  | fuel + 1 => do
      skipInside
      if (← peek) = some ']' then
        advance
        return []
      if (← peek) = some ',' then failure
      let explicit := (← peek) = some '?' && endsToken (← rest).tail
      if explicit then advance; skipInside
      let (first, adjacent) ← flowNode fuel
      skipInside
      let item ←
        if ← atColon adjacent then do
          advance
          skipInside
          let (value, _) ← flowNode fuel
          pure (Tree.map [(← keyText first, value)] none)
        else pure (if explicit then Tree.map [] none else first)
      skipInside
      match ← peek with
      | some ',' => advance; return item :: (← flowItems fuel)
      | some ']' => advance; return [item]
      | _ => failure

private def flowFields : Nat → Walk (List (String × Tree))
  | 0 => failure
  | fuel + 1 => do
      skipInside
      if (← peek) = some '\x7d' then
        advance
        return []
      if (← peek) = some ',' then failure
      if (← peek) = some '?' && endsToken (← rest).tail then advance; skipInside
      let (key, adjacent) ← flowNode fuel
      let key ← keyText key
      skipInside
      let value ←
        if ← atColon adjacent then do
          advance
          skipInside
          let (value, _) ← flowNode fuel
          pure value
        else pure (word "")
      skipInside
      match ← peek with
      | some ',' => advance; return (key, value) :: (← flowFields fuel)
      | some '\x7d' => advance; return [(key, value)]
      | _ => failure

end

/-! ## Collections by columns -/

/-- A scalar or a collection in brackets, in one line up to a colon: the key of a map. -/
private def key? : Walk (Option String) := do
  let here ← get
  let cs ← rest
  let attempt : Walk String := do
    let found ← properties
    let cs ← rest
    let node ← match cs with
      | '*' :: _ => do
          let tree ← aliasTree
          skipGap
          pure tree
      | '"' :: _ => Tree.str <$> quoted '"'
      | '\'' :: _ => Tree.str <$> quoted '\''
      | cs =>
          if startsPlain false cs then
            (fun line => Tree.str (String.ofList line)) <$> plainLine false
          else failure
    let text ← keyText (← found.keep node)
    skipGap
    match ← rest with
    | ':' :: rest => if endsToken rest then advance else failure
    | _ => failure
    return text
  match attempt.run here with
  | some (text, next) =>
      -- a key stands in one line
      let used := cs.take (cs.length - next.rest.length)
      if used.contains '\n' || used.length > 1024 then return none
      else
        set next
        return some text
  | none => return none

private def isDash : List Char → Bool
  | '-' :: rest => endsToken rest
  | _ => false

private def isQuestion : List Char → Bool
  | '?' :: rest => endsToken rest
  | _ => false

mutual

/-- A node at column `least` or further in, or a list at column `leastDash` or further in.
`mayOpen` tells whether a list or map may begin in the line that the cursor stands in. -/
private def node : Nat → Nat → Nat → Bool → Walk Tree
  | 0, _, _, _ => failure
  | fuel + 1, least, leastDash, mayOpen => do
      let atStart := (← column) = 0
      let hadGap := endsToken (← rest) || atStart
      if !mayOpen then skipGap else let _ ← takeLine (· = ' ')
      let lineEnds := (← rest).isEmpty || (← peek) = some '\n' ||
        (hadGap && (← peek) = some '#')
      if lineEnds then skipLines
      let fresh := mayOpen || lineEnds
      let column ← column
      if (← rest).isEmpty || (← atMarker) then return word ""
      if lineEnds && column < least && !(column ≥ leastDash && isDash (← rest)) then
        return word ""
      -- properties in a line with a key belong to the key
      let here ← get
      let found ← properties
      if !found.isEmpty then
        let ends := (← rest).isEmpty || (← peek) = some '\n' || (← peek) = some '#'
        if ends then
          let inner ← node fuel least leastDash true
          let tree := match inner with
            | .plain text _ => found.scalar true text
            | .str text => found.scalar false text
            | tree => found.collection tree
          return ← found.keep tree
      let afterProperties ← get
      if fresh then
        if isDash (← rest) && found.isEmpty then
          return .seq (← blockItems fuel column) none
        if isQuestion (← rest) && found.isEmpty then
          return .map (← blockFields fuel column) none
        set here
        if (← key?).isSome then
          set here
          return .map (← blockFields fuel column) none
        set afterProperties
      content fuel found least

private def content : Nat → Properties → Nat → Walk Tree
  | 0, _, _ => failure
  | fuel + 1, found, least => do
      let cs ← rest
      match cs with
      | '*' :: _ => do
          if !found.isEmpty then failure
          let tree ← aliasTree
          finishLine
          return tree
      | '|' :: _ | '>' :: _ => do found.keep (found.scalar false (← block least))
      | '[' :: _ | '\x7b' :: _ => do
          let (tree, _) ← flowNode fuel
          finishLine
          found.keep (found.collection tree)
      | '"' :: _ | '\'' :: _ => do
          let text ← quoted (cs.head?.getD '"')
          finishLine
          found.keep (found.scalar false text)
      | cs =>
          if startsPlain false cs then do
            let text ← plain false least
            finishLine
            found.keep (found.scalar true text)
          else failure

private def blockItems : Nat → Nat → Walk (List Tree)
  | 0, _ => failure
  | fuel + 1, dashes => do
      advance
      let item ← node fuel (dashes + 1) (dashes + 1) true
      skipLines
      if (← column) = dashes && isDash (← rest) && !(← atMarker) then
        return item :: (← blockItems fuel dashes)
      else return [item]

private def blockFields : Nat → Nat → Walk (List (String × Tree))
  | 0, _ => failure
  | fuel + 1, keys => do
      let key ←
        if isQuestion (← rest) then do
          advance
          let key ← node fuel (keys + 1) (keys + 1) true
          skipLines
          match ← rest with
          | ':' :: rest =>
              if (← column) = keys && endsToken rest then advance
              keyText key
          | _ => keyText key
        else
          match ← key? with
          | some key => pure key
          | none => failure
      let value ← node fuel (keys + 1) keys false
      skipLines
      let next ← column
      if (← rest).isEmpty || (← atMarker) || next < keys then return [(key, value)]
      else if next = keys then return (key, value) :: (← blockFields fuel keys)
      else failure

end

/-! ## Documents -/

private def isAllowed (c : Char) : Bool :=
  c = '\t' || c = '\n' || (' ' ≤ c && c ≤ '~') ||
    ('\u00a0' ≤ c && c ≠ '\ufeff' && c ≠ '\ufffe' && c ≠ '\uffff')

/-- Line ends in one form, without a byte order mark. -/
private def lineEnds : List Char → List Char
  | '\r' :: '\n' :: rest => '\n' :: lineEnds rest
  | '\r' :: rest | '\u0085' :: rest => '\n' :: lineEnds rest
  | c :: rest => c :: lineEnds rest
  | [] => []

private def normalized (text : String) : List Char :=
  match text.toList with
  | '\ufeff' :: rest => lineEnds rest
  | cs => lineEnds cs

private def wordsOf (line : List Char) : List String :=
  let words := (line.splitBy fun a b => isGap a == isGap b).map String.ofList
  (words.filter fun word => !(word.toList.all isGap)).takeWhile fun word => !word.startsWith "#"

/-- A directive before a document: its version, or a handle of tags.  No other is known, and none is
given twice. -/
private def directive (seen : List String) : Walk String := do
  let line ← takeLine fun _ => true
  match wordsOf line with
  | ["%YAML", version] =>
      if (version = "1.1" || version = "1.2") && !seen.contains "%YAML" then return "%YAML"
      else failure
  | ["%TAG", handle, _] =>
      if handle.startsWith "!" && handle.endsWith "!" && !seen.contains handle then return handle
      else failure
  | _ => failure

private def directives : (fuel : Nat) → (seen : List String) → Walk Bool
  | 0, seen => return !seen.isEmpty
  | fuel + 1, seen => do
      skipLines
      if (← peek) = some '%' && (← column) = 0 then directives fuel ((← directive seen) :: seen)
      else return !seen.isEmpty

private def document : Walk Tree := do
  let size := (← rest).length
  let directed ← directives (size + 1) []
  let opened := (← atMarker) && (← peek) = some '-'
  if directed && !opened then failure
  if opened then advanceBy 3
  let tree ← node (4 * size + 8) 0 0 (!opened)
  skipLines
  if (← atMarker) && (← peek) = some '.' then
    advanceBy 3
    finishLine
    skipLines
  -- nothing may follow, not even another document
  if (← rest).isEmpty then return tree else failure

def read? (text : String) : Option Tree :=
  let cs := normalized text
  if cs.all isAllowed then (document.run { rest := cs }).map Prod.fst else none

end RpcContract.Yaml
