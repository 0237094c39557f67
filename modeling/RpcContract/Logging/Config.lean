import RpcContract.Logging.Directive
import RpcContract.Settings.Environment

/-!
# Log settings

How a program logs is read from its environment.  Settings that cannot be read are as if they were
not there; directives that cannot be read are reported.
-/

namespace RpcContract

namespace Logging

inductive Format where
  | json
  | pretty
deriving DecidableEq, Repr

def Format.ofText (text : String) : Format :=
  if Text.toLower text = "json" then .json else .pretty

structure Config where
  level : String := "info"
  format : Format := .pretty
  background : Bool := false
  /-- Directives on top of the level. -/
  targets : Option String := none
  location : Bool := false
deriving DecidableEq, Repr

namespace Config

private def flagOf (environment : Environment) (name : String) : Bool :=
  environment.get? name == some "true"

def variableNames : List String := [
  "RUST_LOG", "RPCFORGE_LOG_LEVEL", "RPCFORGE_LOG_FORMAT", "RPCFORGE_LOG_ASYNC",
  "RPCFORGE_LOG_TARGET_FILTER", "RPCFORGE_LOG_INCLUDE_LOCATION"]

def ofEnvironment (environment : Environment) : Config where
  level := (environment.get? "RPCFORGE_LOG_LEVEL").getD "info"
  format := ((environment.get? "RPCFORGE_LOG_FORMAT").map Format.ofText).getD .pretty
  background := flagOf environment "RPCFORGE_LOG_ASYNC"
  targets := environment.get? "RPCFORGE_LOG_TARGET_FILTER"
  location := flagOf environment "RPCFORGE_LOG_INCLUDE_LOCATION"

def verbose (config : Config) : Config := { config with level := "debug", location := true }

/-- The level that the settings name; information where they name none. -/
def levelOf (config : Config) : Level :=
  match Text.toLower config.level with
  | "trace" => .trace
  | "debug" => .debug
  | "warn" => .warn
  | "error" => .error
  | _ => .info

/-- Adds directives; those that cannot be read are given back. -/
def addTargets : Filter → List String → Filter × List String
  | filter, [] => (filter, [])
  | filter, text :: rest =>
      match Directive.ofText? text with
      | some directive => addTargets (filter.add directive) rest
      | none =>
          let (filter, bad) := addTargets filter rest
          (filter, text :: bad)

/-- What is logged: by the general variable or the level, and by the directives of the settings;
with the directives that cannot be read. -/
def filter (config : Config) (environment : Environment) : Filter × List String :=
  let base := ((environment.get? "RUST_LOG").bind Filter.ofText?).getD (.ofLevel config.levelOf)
  let targets := (Filter.pieces (config.targets.getD "")).map Text.trimBlanks
  addTargets base (targets.filter fun text => !text.isEmpty)

def warning (directive : String) : String :=
  "Warning: Invalid log filter directive: " ++ directive

end Config

end Logging

end RpcContract
