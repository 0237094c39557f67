import RpcContract.Formatter.Basic
import RpcContract.Generation.Selection

/-!
# Rendered outputs

A selected file is read, rendered, formatted and compared with what stands at its output.  The first
line of an output, which holds the banner, and the white space around the rest do not count.
-/

namespace RpcContract.Generation

def afterFirstLine : List Char → List Char
  | [] => []
  | c :: rest => if c = '\n' then rest else afterFirstLine rest

/-- The part of a text that is compared: all but the first line, without white space around it. -/
def comparedPart (text : String) : String :=
  Text.trimBlanks (String.ofList (afterFirstLine text.toList))

def shouldWrite (existing : Option String) (rendered : String) : Bool :=
  match existing with
  | none => true
  | some existing => comparedPart existing != comparedPart rendered

def readExisting (tree : FileTree) (path : Path) : Except Error (Option String) :=
  match tree.readText path with
  | .ok text => .ok (some text)
  | .error .notFound => .ok none
  | .error fault => .error (.unreadableOutput path fault)

abbrev Formatting := List String → String → Except Error String

structure Output where
  name : String
  path : Path
  text : String
  changed : Bool
deriving DecidableEq, Repr

namespace TemplateFile

def readSource (file : TemplateFile) (tree : FileTree) : Except Error String :=
  match file.source with
  | .builtin text => .ok text
  | .file path => (tree.readText path).mapError (.unreadableTemplate path)

/-- The text that a file gives: rendered, and formatted if there is a formatter. -/
def renderedText (file : TemplateFile) (tree : FileTree) (context : Client.Context)
    (formatter : Option (List String)) (format : Formatting := Formatter.format) :
    Except Error String := do
  let source ← file.readSource tree
  let text ← (Client.render file.path source context).mapError .template
  match formatter with
  | none => return text
  | some command => format command text

def render (file : TemplateFile) (tree : FileTree) (context : Client.Context)
    (formatter : Option (List String)) (outDir : Path)
    (format : Formatting := Formatter.format) : Except Error Output := do
  let text ← file.renderedText tree context formatter format
  let path := outDir.join file.out
  let existing ← readExisting tree path
  return ⟨file.name, path, text, shouldWrite existing text⟩

end TemplateFile

end RpcContract.Generation
