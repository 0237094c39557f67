import RpcContract.CommandLine.Option

/-!
# Usage

What is shown for a command line that is refused, or that asks for help.
-/

namespace RpcContract.CommandLine

def usageText : String := "\n".intercalate [
  "Generate RPC clients from a full schema",
  "",
  "Usage: rpcforge-gen [OPTIONS] <COMMAND>",
  "",
  "Commands:",
  "  generate   Render client code from a full schema file",
  "  templates  List built-in templates",
  "  check      Check a schema for declarations that fail at request time",
  "  help       Print this message",
  "",
  "Options of generate:",
  "  -s, --schema <SCHEMA>           Path to the full schema (JSON or YAML)",
  "  -c, --config <CONFIG>           Generator config; defaults to rpcforge.toml next to the schema",
  "  -o, --out <OUT>                 Output directory",
  "  -t, --template <TEMPLATE>...    Templates to render",
  "      --full-schema [<NAME>]      Write the full schema to the output directory",
  "      --segment <SEGMENT>...      Only emit these segments",
  "      --api-root <API_ROOT>       API root baked into generated clients",
  "      --force-log                 Log \"up to date\" runs at info level",
  "  -w, --watch                     Regenerate whenever the schema file changes",
  "",
  "Options of check:",
  "  -s, --schema <SCHEMA>           Path to the full schema (JSON or YAML)",
  "      --fail-on-error             Exit with an error if any error-level issue is found",
  "",
  "Options:",
  "  -v, --verbose                   Log at debug level with source locations",
  "  -h, --help                      Print help"
]

namespace Refusal

def message? : Refusal → Option String
  | .displayHelp | .nothingGiven => none
  | .missingSubcommand => some "a command is required"
  | .invalidSubcommand => some "unrecognized command"
  | .unknownArgument => some "unexpected argument found"
  | .argumentConflict => some "an argument cannot be used more than once"
  | .invalidValue => some "a value is missing or not accepted"
  | .tooManyValues => some "a value is not expected here"
  | .missingRequiredArgument => some "a required argument was not provided"

def exitCode : Refusal → UInt8
  | .displayHelp => 0
  | _ => 2

end Refusal

end RpcContract.CommandLine
