import Atmem.Contracts.Codec
import Atmem.Contracts.Json
/-!
# Calls, requests and results

What a call is, behind a deferred-call wrapper; which names are connected
applications, and which of them write; what the request's text asks for; and
what a connected application accepted, read off the result it gave.
`re.search` of the patterns that are not over tool names, `json`, `hashlib`
and `str` are the engine's.
-/

namespace Atmem.ActionGuard

/-- The destinations a connected application serves. -/
inductive Domain
  | docs | email | chat | sms | calendar | codeReview | slides | crm | travel
deriving DecidableEq

/-- The domains, in the order of their table. -/
def domains : List Domain :=
  [.docs, .email, .chat, .sms, .calendar, .codeReview, .slides, .crm, .travel]

/-- The patterns searched for in texts. -/
inductive Pattern
  | actionVerb | actionAnywhere | explicitLocal | failureText | errorWords | hostValidation
  | readCommand | writeCommand | neutralCommand | ghApi
  | domainWords (d : Domain) | explicitDestination (d : Domain) | localCommand (label : String)
deriving DecidableEq

/-- What the standard library does with texts and values. -/
structure Engine where
  /-- `bool(pattern.search(text))`. -/
  search : Pattern → String → Bool
  /-- `pattern.search(text).group(0)`. -/
  found : Pattern → String → String
  /-- `REQUEST_PREFIX.sub('', text, count=1)`. -/
  withoutPrefix : String → String
  lower : String → String
  /-- `str(value)`. -/
  text : Json → String
  sha256 : String → String
  /-- `json.loads(text)`, where it raises no `ValueError`. -/
  loads : String → Option Json
  /-- `json.dumps(value, default=str)`. -/
  dumps : Json → String
  /-- `json.dumps(value, sort_keys=True, default=str)`. -/
  dumpsSorted : Json → String
  /-- The words `recall_query` keeps of an action's own arguments. -/
  recallQuery : String → Json → String

/-! ## Calls -/

/-- `isinstance(value, dict)`. -/
def isDict : Json → Bool
  | .obj _ => true
  | _ => false

/-- `value if isinstance(value, dict) else {}`. -/
def asDict (value : Option Json) : Json :=
  match value with
  | some (.obj kvs) => .obj kvs
  | _ => .obj []

/-- `unwrap`: the effective calls behind deferred-call wrappers, each with
whatever stands for its name. -/
def unwrap (name : String) (arguments : Json) : List (Json × Json) :=
  let arguments := asDict (some arguments)
  if name ≠ "tool_call" then [(.str name, arguments)]
  else match arguments.get? "calls" with
    | some (.arr calls) => (calls.filter isDict).map fun c =>
        ((c.get? "name").getD (.str ""), asDict (c.get? "arguments"))
    | _ => match arguments.get? "name" with
      | some (.str inner) => [(.str inner, asDict (arguments.get? "arguments"))]
      | _ => [(.str name, arguments)]

/-! ## Names -/

/-- What `(.+)$` matches of a text: all of it, up to a last newline. -/
def toLineEnd (cs : List Char) : Option (List Char) :=
  let body := if cs.getLast? = some '\n' then cs.dropLast else cs
  if body = [] ∨ '\n' ∈ body then none else some body

/-- What `.*?__(.+)$` matches: the first place where it does. -/
def lazySplit (before : List Char) : List Char → Option (List Char × List Char)
  | '_' :: '_' :: cs =>
    match toLineEnd cs with
    | some tool => some (before, tool)
    | none => lazySplit (before ++ ['_']) ('_' :: cs)
  | '\n' :: _ | [] => none
  | c :: cs => lazySplit (before ++ [c]) cs

/-- A character of `[a-z0-9-]`. -/
def isServerChar (c : Char) : Bool := c.isLower || c.isDigit || c == '-'

/-- `^mcp__([^_].*?)__(.+)$`. -/
def splitDouble (name : String) : Option (String × String) :=
  match name.toList with
  | 'm' :: 'c' :: 'p' :: '_' :: '_' :: c :: cs =>
    if c = '_' then none
    else (lazySplit [c] cs).map fun r => (String.ofList r.1, String.ofList r.2)
  | _ => none

/-- `^mcp_([a-z0-9-]+_[a-z0-9-]+)_(.+)$`. -/
def splitSingle (name : String) : Option (String × String) :=
  match name.toList with
  | 'm' :: 'c' :: 'p' :: '_' :: cs =>
    let first := cs.takeWhile isServerChar
    match cs.dropWhile isServerChar with
    | '_' :: rest =>
      let second := rest.takeWhile isServerChar
      match rest.dropWhile isServerChar with
      | '_' :: tool =>
        if first = [] ∨ second = [] then none
        else (toLineEnd tool).map fun tool =>
          (String.ofList (first ++ '_' :: second), String.ofList tool)
      | _ => none
    | _ => none
  | _ => none

/-- `split_name`: the server and the tool of an MCP name. -/
def splitName (name : String) : String × String :=
  match splitDouble name with
  | some r => r
  | none => (splitSingle name).getD ("", name)

/-- The servers whose tools read memory. -/
def memoryServers : List String := ["atmem_discovery", "atmem-discovery", "atmem"]

/-- The tool reads memory. -/
def isMemoryTool (name : String) : Bool :=
  (decide ((splitName name).1 ∈ memoryServers) &&
    decide ((splitName name).2 ∈ ["memory_search", "memory_inspect"])) || name == "memory_search"

/-- The tool is of a connected application, not of the memory server. -/
def isConnected (name : String) : Bool :=
  (splitName name).1 ≠ "" && !decide ((splitName name).1 ∈ memoryServers)

/-- Some of the verbs, and an underscore, begin the text. -/
def startsWithVerb (verbs : List String) (tool : String) : Bool :=
  verbs.any fun verb => (verb ++ "_").toList.isPrefixOf tool.toList

/-- `WRITE_PREFIX`. -/
def writeVerbs : List String :=
  ["create", "send", "post", "update", "add", "review", "place", "delete", "book", "schedule",
    "reply", "comment", "move", "archive", "assign", "close", "merge", "submit", "cancel",
    "upload", "set"]

/-- `CREATE_PREFIX`. -/
def createVerbs : List String := ["create", "add", "book", "schedule", "place", "upload"]

/-- The tool is connected and its name starts with a verb of writing. -/
def isWrite (name : String) : Bool :=
  isConnected name && startsWithVerb writeVerbs (splitName name).2

/-- The words of `DOMAIN_TOOLS`. -/
def Domain.tools : Domain → List String
  | .docs => ["doc", "docs", "note", "notes", "page", "runbook", "wiki"]
  | .email => ["email", "mail", "inbox"]
  | .chat => ["slack", "discord", "teams", "chat", "channel"]
  | .sms => ["sms", "text", "imessage"]
  | .calendar => ["calendar", "event", "meeting"]
  | .codeReview => ["pr", "prs", "pull", "issue", "repo", "review"]
  | .slides => ["deck", "decks", "slide", "slides"]
  | .crm => ["crm"]
  | .travel => ["flight", "flights", "hotel", "hotels", "trip", "travel"]

/-- The parts of a tool's name between underscores, where `$` stands before
a last newline too. -/
def nameParts (tool : String) : List String :=
  let cs := tool.toList
  ((if cs.getLast? = some '\n' then cs.dropLast else cs).splitOn '_').map String.ofList

/-- `tool_domains`. -/
def toolDomains (name : String) : List Domain :=
  domains.filter fun d => (nameParts (splitName name).2).any fun part => decide (part ∈ d.tools)

/-! ## The request -/

/-- What a request was classified as. -/
structure Intent where
  action : Bool
  domains : List Domain
  explicitLocal : Bool
  requestSha256 : String
  destinations : List Domain
deriving DecidableEq

/-- `EXPLICIT_DESTINATIONS`. -/
def explicitDestinations : List Domain := [.email, .sms, .chat, .calendar, .codeReview]

variable (E : Engine)

/-- `classify`: deterministic intent from the request's text only. -/
def classify (request : String) : Intent where
  action := E.search .actionVerb request || E.search .actionAnywhere request
  domains := domains.filter fun d => E.search (.domainWords d) (E.lower request)
  explicitLocal := E.search .explicitLocal request
  requestSha256 := E.sha256 request
  destinations := explicitDestinations.filter fun d =>
    E.search (.explicitDestination d) (E.withoutPrefix request)

/-! ## Local routes -/

/-- `LOCAL_SKILLS`; `none` stands for every destination. -/
def localSkills : List (String × Option Domain) :=
  [("apple-notes", some .docs), ("notion", some .docs), ("obsidian", some .docs),
    ("google-workspace", none), ("github", some .codeReview), ("himalaya", some .email),
    ("email-inbox-triage", some .email), ("imessage", some .sms),
    ("apple-reminders", some .calendar), ("apple-calendar", some .calendar),
    ("computer-use", none), ("powerpoint", some .slides), ("slack", some .chat),
    ("discord", some .chat)]

/-- `LOCAL_COMMANDS`, by label. -/
def localCommands : List (String × Option Domain) :=
  [("memo", some .docs), ("gh", some .codeReview), ("imsg", some .sms),
    ("himalaya", some .email), ("osascript", none), ("open-app", none), ("shortcuts", none)]

/-- The tools that run commands. -/
def terminalTools : List String := ["terminal", "execute_code", "process_manage"]

/-- The tools that write files here. -/
def localFileTools : List String := ["write_file", "patch"]

/-- `' '.join(str(arguments.get(k, '')) for k in keys)`. -/
def joined (arguments : Json) (keys : List String) : String :=
  " ".intercalate (keys.map fun k => E.text ((arguments.get? k).getD (.str "")))

/-- The last part of a skill's name, after `/` or `:`. -/
def skillBase (skill : String) : String :=
  String.ofList ((skill.toList.splitOnP fun c => c == '/' || c == ':').getLastD [])

/-- `local_route`: the signature of a local detour and its destination. -/
def localRoute (name : String) (arguments : Json) : Option (String × Option Domain) :=
  if name = "skill_view" ∨ name = "skill_manage" then
    let skill := E.lower (String.ofList (strip (E.text ((arguments.get? "name").getD (.str "")))))
    (localSkills.lookup (skillBase skill)).map fun d => ("skill:" ++ skillBase skill, d)
  else if name ∈ terminalTools then
    let command := joined E arguments ["command", "code", "cmd"]
    (localCommands.find? fun c => E.search (.localCommand c.1) command).map fun c =>
      ("command:" ++ c.1, c.2)
  else if name ∈ localFileTools then some ("file:" ++ name, some .docs)
  else none

/-- The components of a command between its separators. -/
def components (command : String) : List String :=
  ((command.toList.splitOnP fun c => c == ';' || c == '&' || c == '|' || c == '\n').map
    String.ofList).filter fun c => strip c ≠ []

/-- A command substitution, whose component cannot be read off the text. -/
def substitutes : List Char → Bool
  | '`' :: _ => true
  | '$' :: '(' :: _ => true
  | _ :: cs => substitutes cs
  | [] => false

/-- `is_read_route`: every component of a local command inspects. -/
def isReadRoute (name : String) (arguments : Json) : Bool :=
  if name ∉ terminalTools ∨ name = "execute_code" then false
  else
    let command := joined E arguments ["command", "cmd"]
    if strip command = [] ∨ substitutes command.toList = true then false
    else
      (components command).all (fun c => !E.search .writeCommand c &&
        (E.search .readCommand c || E.search .ghApi c || E.search .neutralCommand c)) &&
      (components command).any fun c => !E.search .neutralCommand c

/-! ## Results and operations -/

/-- How the result of a call was read. -/
inductive Status
  | accepted | failed | unconfirmed | undispatched
deriving DecidableEq

variable (E : Engine)

/-! ## Decoding -/

/-- `text[text.find(opening):text.rfind(closing) + 1]`, where the opening is
there. -/
def enveloped (opening closing : Char) (text : String) : Option String :=
  let cs := text.toList
  if opening ∉ cs then none
  else
    let start := cs.idxOf opening
    let stop := if closing ∈ cs then cs.length - cs.reverse.idxOf closing else 0
    some (String.ofList ((cs.take stop).drop start))

/-- `_decode_result`: the value of a result, also inside an envelope. -/
def decodeResult (text : String) : Option Json :=
  let candidates := [some text, enveloped '{' '}' text, enveloped '[' ']' text].filterMap id
  candidates.findSome? fun candidate => match E.loads candidate with
    | some (.obj kvs) => some (.obj kvs)
    | some (.arr xs) => some (.arr xs)
    | _ => none

/-- The object a value is, or a text that is one. -/
def objectOf (value : Json) : Option Json :=
  match value with
  | .obj kvs => some (.obj kvs)
  | .str s => match E.loads s with
    | some (.obj kvs) => some (.obj kvs)
    | _ => none
  | _ => none

/-- The text items of a layer's content. -/
def textItems (layer : Json) : List Json :=
  match layer.get? "content" with
  | some (.arr items) => items.filter fun item =>
    isDict item && decide (item.get? "type" = some (.str "text"))
  | _ => []

/-- `_layers`: the objects nested in results, structured content and text
content, to a depth. -/
def layers : ℕ → Json → List Json
  | 0, _ => []
  | depth + 1, value => match objectOf E value with
    | none => []
    | some layer =>
      let nested := ["result", "structuredContent"].filterMap layer.get?
      layer :: (nested.flatMap (layers depth) ++
        (textItems layer).flatMap fun item => layers depth ((item.get? "text").getD .null))

/-! ## Statuses -/

/-- `ID_KEYS`. -/
def idKeys : List String :=
  ["id", "message_id", "event_id", "doc_id", "comment_id", "review_id", "order_id"]

/-- `isinstance(value, int) and value != 0`. -/
def nonzeroExit : Option Json → Bool
  | some (.int n) => n ≠ 0
  | some (.bool b) => b
  | _ => false

/-- `value == 0`. -/
def zeroExit : Option Json → Bool
  | some (.int n) => n = 0
  | some (.bool b) => !b
  | some (.float repr) => repr = "0.0" || repr = "-0.0"
  | _ => false

/-- `isinstance(value, (str, int)) and value not in ('', None)`. -/
def isIdentity : Option Json → Bool
  | some (.str s) => s ≠ ""
  | some (.int _) | some (.bool _) => true
  | _ => false

/-- A layer that says the call failed. -/
def failing (layer : Json) : Bool :=
  decide (layer.get? "isError" = some (.bool true)) ||
    decide (layer.get? "ok" = some (.bool false)) ||
    decide (layer.get? "success" = some (.bool false)) ||
    ((layer.get? "error").any Json.truthy) || nonzeroExit (layer.get? "exit_code")

/-- A layer that says it was accepted. -/
def accepting (layer : Json) : Bool :=
  decide (layer.get? "ok" = some (.bool true)) ||
    decide (layer.get? "success" = some (.bool true)) || zeroExit (layer.get? "exit_code") ||
    idKeys.any fun k => isIdentity (layer.get? k)

/-- `set(top) == {'error'}`, with a text that is the host's validation. -/
def rejectedByHost (top : Json) : Bool :=
  match top with
  | .obj kvs => decide ((kvs.map (·.1)).dedup = ["error"]) && match kvs.lookup "error" with
    | some (.str message) => E.search .hostValidation message
    | _ => false
  | _ => false

/-- `result if isinstance(result, str) else json.dumps(result, default=str)`. -/
def resultText (result : Json) : String :=
  match result with
  | .str s => s
  | result => E.dumps result

/-- `result if isinstance(result, (dict, list)) else _decode_result(text)`. -/
def resultValue (result : Json) : Option Json :=
  match result with
  | .obj kvs => some (.obj kvs)
  | .arr xs => some (.arr xs)
  | result => decodeResult E (resultText E result)

/-- `result_status`: acceptance needs an affirmative marker. -/
def resultStatus (result : Json) : Status :=
  if result = .null then .unconfirmed
  else
    let found := match resultValue E result with
      | some (.obj kvs) => layers E 5 (.obj kvs)
      | _ => []
    match found with
    | [] =>
      if E.search .failureText (resultText E result) || E.search .errorWords (resultText E result)
      then .failed else .unconfirmed
    | top :: _ =>
      if rejectedByHost E top then .undispatched
      else if found.any failing then .failed
      else if found.any accepting then .accepted
      else .unconfirmed

/-- `value.get('results') if isinstance(value, dict) else value`. -/
def resultItems (value : Option Json) : Option (List Json) :=
  let items := match value with
    | some (.obj kvs) => kvs.lookup "results"
    | value => value
  match items with
  | some (.arr xs) => some xs
  | _ => none

/-- `_per_call_status`: only an itemised result can confirm several. -/
def perCallStatus (result : Json) (count : ℕ) : List Status :=
  let overall := resultStatus E result
  let single :=
    if count = 1 ∨ overall = .undispatched then List.replicate count overall
    else List.replicate count (if overall = .failed then .failed else .unconfirmed)
  match resultItems (resultValue E result) with
  | some items => if items.length = count then items.map (resultStatus E) else single
  | none => single

/-! ## Operations -/

/-- The arguments that name a record. -/
def recordKeys : List String :=
  ["doc_id", "event_id", "row_id", "deck_id", "slide", "pr", "pr_number", "issue_number",
    "comment_id", "message_id", "record_id"]

/-- The arguments that name a recipient. -/
def destinationKeys : List String :=
  ["to", "recipient", "recipients", "channel", "user", "user_id", "phone", "number", "email",
    "repo"]

/-- The arguments that tell one object from another. -/
def identityKeys : List String :=
  ["title", "name", "summary", "start", "date", "when", "path", "filename"]

/-- The arguments that say where a record is. -/
def scopeKeys : List String := ["repo", "owner", "project"]

/-- The fields of the keys that are there and not empty. -/
def pick (arguments : Json) (keys : List String) : List (String × Json) :=
  keys.filterMap fun k => match arguments.get? k with
    | none | some .null | some (.str "") | some (.arr []) => none
    | some value => some (k, value)

/-- What identifies the operation of a call. -/
def identityOf (name : String) (arguments : Json) : List (String × Json) :=
  if startsWithVerb createVerbs (splitName name).2 then
    pick arguments recordKeys ++ pick arguments destinationKeys ++ pick arguments identityKeys
  else if pick arguments recordKeys ≠ [] then
    pick arguments recordKeys ++ pick arguments scopeKeys
  else if pick arguments destinationKeys ≠ [] then pick arguments destinationKeys
  else pick arguments identityKeys

/-- `operation_key`: the tool, and the fields that identify what it acts
on; a call with none of them is told apart by all its arguments. -/
def operationKey (name : String) (arguments : Json) : String :=
  let identity := identityOf name arguments
  let identity := if identity = [] then
      [("arguments_sha256", Json.str (E.sha256 (E.dumpsSorted arguments)))]
    else identity
  name ++ "|" ++ E.dumpsSorted (.obj identity)

end Atmem.ActionGuard
