import RpcContract.Client.Lines

/-!
# The TypeScript client

One object for every controller, with a function for every handler that calls it over the network.
-/

namespace RpcContract.Client

def typeScriptLines : List String := [
  "// <%= t.banner %>",
  "<% for imp in t.imports %>",
  "import <%= imp %>;",
  "<% endfor %>",
  "",
  "export const apiRoot = <%= t.apiRoot|tojson %>;",
  "",
  "export const schema = <%= t.schemaJson %> as const;",
  "",
  "export type HttpMethod = 'GET' | 'POST' | 'PUT' | 'PATCH' | 'DELETE' | 'HEAD' | 'OPTIONS';",
  "",
  "export interface CallInput \x7b",
  "  params?: Record<string, unknown>;",
  "  query?: Record<string, unknown>;",
  "  body?: unknown;",
  "  apiRoot?: string;",
  "  init?: RequestInit;",
  "\x7d",
  "",
  "export class HttpException extends Error \x7b",
  "  constructor(public readonly statusCode: number, message: string) \x7b",
  "    super(message);",
  "  \x7d",
  "\x7d",
  "",
  "function encodeQuery(value: unknown, prefix = ''): string[] \x7b",
  "  if (value === null || value === undefined) return [];",
  "  if (Array.isArray(value)) return value.flatMap((v, i) => encodeQuery(v, \x60$\x7bprefix\x7d[$\x7bi\x7d]\x60));",
  "  if (typeof value === 'object') \x7b",
  "    return Object.entries(value as Record<string, unknown>).flatMap(([k, v]) =>",
  "      encodeQuery(v, prefix ? \x60$\x7bprefix\x7d[$\x7bencodeURIComponent(k)\x7d]\x60 : encodeURIComponent(k))",
  "    );",
  "  \x7d",
  "  return [\x60$\x7bprefix\x7d=$\x7bencodeURIComponent(String(value))\x7d\x60];",
  "\x7d",
  "",
  "function endpoint(",
  "  root: string,",
  "  parts: string[],",
  "  params: Record<string, unknown> = \x7b\x7d,",
  "  query: Record<string, unknown> = \x7b\x7d",
  "): string \x7b",
  "  const path = parts",
  "    .map((p) => p.replace(/^\\/+|\\/+$/g, ''))",
  "    .filter(Boolean)",
  "    .join('/')",
  "    .replace(/:([A-Za-z_][A-Za-z0-9_]*)|\\\x7b([A-Za-z_][A-Za-z0-9_]*)\\\x7d/g, (_, a, b) => \x7b",
  "      const name = a ?? b;",
  "      if (params[name] === undefined) throw new HttpException(0, \x60Missing path parameter $\x7bname\x7d\x60);",
  "      return encodeURIComponent(String(params[name]));",
  "    \x7d);",
  "  const qs = encodeQuery(query).join('&');",
  "  return \x60$\x7broot.replace(/\\/+$/, '')\x7d/$\x7bpath\x7d$\x7bqs ? \x60?$\x7bqs\x7d\x60 : ''\x7d\x60;",
  "\x7d",
  "",
  "async function call(method: HttpMethod, url: string, input: CallInput, streaming: boolean): Promise<unknown> \x7b",
  "  let response: Response;",
  "  try \x7b",
  "    response = await fetch(url, \x7b",
  "      method,",
  "      ...input.init,",
  "      body: input.body === undefined ? undefined : JSON.stringify(input.body),",
  "    \x7d);",
  "  \x7d catch (e) \x7b",
  "    throw new HttpException(0, (e as Error)?.message ?? 'Network error');",
  "  \x7d",
  "  const contentType = response.headers.get('content-type') ?? '';",
  "  if (streaming || contentType.includes('application/jsonl')) \x7b",
  "    return readJsonLines(response);",
  "  \x7d",
  "  const data = contentType.includes('application/json') ? await response.json() : response;",
  "  if (!response.ok) \x7b",
  "    throw new HttpException(response.status, (data as \x7b message?: string \x7d)?.message ?? response.statusText);",
  "  \x7d",
  "  return data;",
  "\x7d",
  "",
  "async function* readJsonLines(response: Response): AsyncGenerator<unknown> \x7b",
  "  const reader = response.body?.getReader();",
  "  if (!reader) return;",
  "  const decoder = new TextDecoder();",
  "  let buffer = '';",
  "  for (;;) \x7b",
  "    const \x7b done, value \x7d = await reader.read();",
  "    buffer += decoder.decode(value, \x7b stream: !done \x7d);",
  "    const lines = buffer.split('\\n');",
  "    buffer = done ? '' : (lines.pop() ?? '');",
  "    for (const line of lines) \x7b",
  "      if (!line.trim()) continue;",
  "      const item = JSON.parse(line);",
  "      if (item?.isError) throw new HttpException(response.status, item.reason);",
  "      yield item;",
  "    \x7d",
  "    if (done) return;",
  "  \x7d",
  "\x7d",
  "<% for segmentName, segment in t.schema|items %>",
  "<% for controllerName, controller in segment.controllers|items %>",
  "",
  "export const <%= controllerName %> = \x7b",
  "<% for key, handler in controller.handlers|items %>",
  "  <%= key %>: (input: CallInput = \x7b\x7d) =>",
  "    call(",
  "      <%= handler.httpMethod|tojson %>,",
  "      endpoint(input.apiRoot ?? apiRoot, [<%= segmentName|tojson %>, <%= controller.prefix|tojson %>, <%= handler.path|tojson %>], input.params, input.query),",
  "      input,",
  "      <%= (handler.validation.iteration is defined)|tojson %>",
  "    ),",
  "<% endfor %>",
  "\x7d;",
  "<% endfor %>",
  "<% endfor %>"
]

def typeScriptTemplate : String := ofLines typeScriptLines

end RpcContract.Client
