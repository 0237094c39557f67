import RpcContract.Client.Lines

/-!
# The Python client

One class for every controller, with a static method for every handler.  The module reads the dump
of the contract that is written beside it.
-/

namespace RpcContract.Client

def pythonLines : List String := [
  "# <%= t.banner %>",
  "from __future__ import annotations",
  "",
  "import json",
  "import os",
  "import urllib.error",
  "import urllib.parse",
  "import urllib.request",
  "from typing import Any, Dict, Iterator, Optional",
  "<% for imp in t.imports %>",
  "import <%= imp %>",
  "<% endfor %>",
  "",
  "",
  "def _load_full_schema() -> dict:",
  "    \"\"\"Load full-schema.json from the directory of this module.\"\"\"",
  "    schema_path = os.path.join(os.path.dirname(__file__), \"full-schema.json\")",
  "    with open(schema_path, \"r\", encoding=\"utf-8\") as f:",
  "        return json.load(f)",
  "",
  "",
  "full_schema = _load_full_schema()",
  "default_api_root = <%= t.apiRoot|tojson %>",
  "",
  "",
  "class HttpException(Exception):",
  "    def __init__(self, status_code: int, message: str):",
  "        super().__init__(message)",
  "        self.status_code = status_code",
  "",
  "",
  "def _encode_query(value: Any, prefix: str = \"\") -> list:",
  "    if value is None:",
  "        return []",
  "    if isinstance(value, list):",
  "        return [p for i, v in enumerate(value) for p in _encode_query(v, f\"\x7bprefix\x7d[\x7bi\x7d]\")]",
  "    if isinstance(value, dict):",
  "        pairs = []",
  "        for k, v in value.items():",
  "            key = urllib.parse.quote(str(k), safe=\"\")",
  "            pairs.extend(_encode_query(v, f\"\x7bprefix\x7d[\x7bkey\x7d]\" if prefix else key))",
  "        return pairs",
  "    if isinstance(value, bool):",
  "        value = \"true\" if value else \"false\"",
  "    return [f\"\x7bprefix\x7d=\x7burllib.parse.quote(str(value), safe='')\x7d\"]",
  "",
  "",
  "def _endpoint(api_root: str, parts: list, params: Optional[Dict[str, Any]], query: Optional[Dict[str, Any]]) -> str:",
  "    path = \"/\".join(p.strip(\"/\") for p in parts if p.strip(\"/\"))",
  "    for segment in path.split(\"/\"):",
  "        name = None",
  "        if segment.startswith(\":\"):",
  "            name = segment[1:]",
  "        elif segment.startswith(\"\x7b\") and segment.endswith(\"\x7d\"):",
  "            name = segment[1:-1]",
  "        if name is not None:",
  "            if not params or name not in params:",
  "                raise HttpException(0, f\"Missing path parameter \x7bname\x7d\")",
  "            path = path.replace(segment, urllib.parse.quote(str(params[name]), safe=\"\"), 1)",
  "    qs = \"&\".join(_encode_query(query or \x7b\x7d))",
  "    return f\"\x7bapi_root.rstrip('/')\x7d/\x7bpath\x7d\" + (f\"?\x7bqs\x7d\" if qs else \"\")",
  "",
  "",
  "def _call(method: str, url: str, body: Any, streaming: bool) -> Any:",
  "    data = None if body is None else json.dumps(body).encode(\"utf-8\")",
  "    request = urllib.request.Request(url, data=data, method=method, headers=\x7b\"content-type\": \"application/json\"\x7d)",
  "    try:",
  "        response = urllib.request.urlopen(request)",
  "    except urllib.error.HTTPError as e:",
  "        payload = json.loads(e.read() or b\"\x7b\x7d\")",
  "        raise HttpException(e.code, payload.get(\"message\", str(e))) from e",
  "    except OSError as e:",
  "        raise HttpException(0, str(e)) from e",
  "    if streaming or \"application/jsonl\" in response.headers.get(\"content-type\", \"\"):",
  "        return _read_json_lines(response)",
  "    return json.loads(response.read() or b\"null\")",
  "",
  "",
  "def _read_json_lines(response: Any) -> Iterator[Any]:",
  "    for raw in response:",
  "        line = raw.decode(\"utf-8\").strip()",
  "        if not line:",
  "            continue",
  "        item = json.loads(line)",
  "        if isinstance(item, dict) and item.get(\"isError\"):",
  "            raise HttpException(response.status, item.get(\"reason\", \"\"))",
  "        yield item",
  "<% for segmentName, segment in t.schema|items %>",
  "<% for controllerName, controller in segment.controllers|items %>",
  "",
  "",
  "class <%= controllerName %>:",
  "<% for key, handler in controller.handlers|items %>",
  "    @staticmethod",
  "    def <%= key %>(",
  "        body: Any = None,",
  "        query: Optional[Dict[str, Any]] = None,",
  "        params: Optional[Dict[str, Any]] = None,",
  "        api_root: Optional[str] = None,",
  "    ) -> Any:",
  "        url = _endpoint(",
  "            api_root or default_api_root,",
  "            [<%= segmentName|tojson %>, <%= controller.prefix|tojson %>, <%= handler.path|tojson %>],",
  "            params,",
  "            query,",
  "        )",
  "        return _call(<%= handler.httpMethod|tojson %>, url, body, <% if handler.validation.iteration is defined %>True<% else %>False<% endif %>)",
  "",
  "<% endfor %>",
  "<% endfor %>",
  "<% endfor %>"
]

def pythonTemplate : String := ofLines pythonLines

end RpcContract.Client
