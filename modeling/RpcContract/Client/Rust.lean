import RpcContract.Client.Lines

/-!
# The Rust route constants

One module for every controller, with a constant for the route of every handler.  The contract
itself is a text constant.
-/

namespace RpcContract.Client

def rustLines : List String := [
  "// <%= t.banner %>",
  "#![allow(dead_code)]",
  "<% for imp in t.imports %>",
  "use <%= imp %>;",
  "<% endfor %>",
  "",
  "pub const API_ROOT: &str = <%= t.apiRoot|rust_str %>;",
  "",
  "/// Full schema these routes were generated from.",
  "pub const SCHEMA_JSON: &str = <%= t.schemaJson|rust_str %>;",
  "",
  "#[derive(Debug, Clone, Copy, PartialEq, Eq)]",
  "pub struct Route \x7b",
  "    pub segment: &'static str,",
  "    pub prefix: &'static str,",
  "    pub path: &'static str,",
  "    pub method: &'static str,",
  "    pub streaming: bool,",
  "\x7d",
  "<% for segmentName, segment in t.schema|items %>",
  "<% for controllerName, controller in segment.controllers|items %>",
  "",
  "#[allow(non_snake_case, non_upper_case_globals)]",
  "pub mod <%= controllerName %> \x7b",
  "    use super::Route;",
  "<% for key, handler in controller.handlers|items %>",
  "",
  "    pub const <%= key %>: Route = Route \x7b",
  "        segment: <%= segmentName|rust_str %>,",
  "        prefix: <%= controller.prefix|rust_str %>,",
  "        path: <%= handler.path|rust_str %>,",
  "        method: <%= handler.httpMethod|rust_str %>,",
  "        streaming: <%= (handler.validation.iteration is defined)|tojson %>,",
  "    \x7d;",
  "<% endfor %>",
  "\x7d",
  "<% endfor %>",
  "<% endfor %>"
]

def rustTemplate : String := ofLines rustLines

end RpcContract.Client
