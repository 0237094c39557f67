import RpcContract.Client.Context
import RpcContract.Contract.Assembly
import RpcContract.Files.Tree
import RpcContract.Formatter.Ending

/-!
# Why a run fails

Every failure of a run by its cause, and the wording of each.
-/

namespace RpcContract.Generation

inductive Error where
  | noneCombined
  | unknownTemplate (name : String) (known : List String)
  | missingTemplate (name : String) (path : Path) (fault : FileFault)
  | unnamedTemplate (path : Path)
  | sameOutput (first second : String) (path : Path)
  | missingSegment (missing : MissingSegment)
  | unreadableTemplate (path : Path) (fault : FileFault)
  | template (error : Client.TemplateError)
  | noFormatter
  | formatterMissing (program : String) (fault : FileFault)
  | formatterFailed (program : String) (ending : Formatter.Ending) (complaint : String)
  | formatterNoText (program : String)
  | unreadableOutput (path : Path) (fault : FileFault)
  | noOutputDirectory (path : Path) (fault : FileFault)
  | noDirectory (path : Path) (fault : FileFault)
  | noDump (path : Path) (fault : FileFault)
  | noOutput (path : Path) (fault : FileFault)
deriving DecidableEq, Repr

namespace Error

private def because (what : String) (fault : FileFault) : String := what ++ ": " ++ fault.message

private def quoted (name : String) : String := "\"" ++ name ++ "\""

private def formatter (program : String) : String := "ormatter \x60" ++ program ++ "\x60"

/-- The wording of a failure; what a template and a formatter say themselves is given. -/
def message (templateText : Template.Fault → String) (notText : String) : Error → String
  | .noneCombined => "Template \"none\" cannot be combined with other templates"
  | .unknownTemplate name known =>
      "Unknown template " ++ quoted name ++ ". Available: " ++ ", ".intercalate known
  | .missingTemplate name path fault =>
      because ("Template " ++ quoted name ++ " not found at " ++ path.text) fault
  | .unnamedTemplate path => "Template path " ++ path.text ++ " has no file name"
  | .sameOutput first second path =>
      "Templates " ++ quoted first ++ " and " ++ quoted second ++ " both write " ++ path.text
  | .missingSegment missing => missing.message
  | .unreadableTemplate path fault => because ("Failed to read template " ++ path.text) fault
  | .template error =>
      "Failed to render template " ++ error.template ++ ": " ++ templateText error.cause
  | .noFormatter => "Formatter command is empty"
  | .formatterMissing program fault => because ("Failed to start f" ++ formatter program) fault
  | .formatterFailed program ending complaint =>
      "F" ++ formatter program ++ " failed (" ++ ending.text ++ "): " ++ complaint
  | .formatterNoText program =>
      "F" ++ formatter program ++ " produced invalid UTF-8: " ++ notText
  | .unreadableOutput path fault => because ("Failed to read " ++ path.text) fault
  | .noOutputDirectory path fault => because ("Failed to create " ++ path.text) fault
  | .noDirectory path fault => because ("Failed to create directory " ++ path.text) fault
  | .noDump path fault => because ("Failed to write full schema to " ++ path.text) fault
  | .noOutput path fault => because ("Failed to write " ++ path.text) fault

def fault? : Error → Option FileFault
  | .missingTemplate _ _ fault | .unreadableTemplate _ fault | .formatterMissing _ fault
  | .unreadableOutput _ fault | .noOutputDirectory _ fault | .noDirectory _ fault
  | .noDump _ fault | .noOutput _ fault => some fault
  | _ => none

end Error

end RpcContract.Generation
