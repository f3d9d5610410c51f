import Psst.Codex.Fence

/-!
# The App Server as a host

What the activation loop sees of the App Server: a launch with its handshake, one turn on the
thread, and the loop that waits for the turn's end. A failure of the start is classified by its
error alone, wherever it came from.
-/

namespace Psst

open Json

/-- `HostFailure` -/
inductive HostFailure where
  | retryableBeforeStart
  | outcomeUnknown
  | permanent
  deriving DecidableEq

/-- `classify_start` -/
def classifyStart : AppServerError → HostFailure
  | .launch | .exited | .rejected => .retryableBeforeStart
  | .configuration | .schema | .protocol => .permanent
  | .timeout => .outcomeUnknown

/-- `ThreadPolicy`. The record of a new thread is a file, and belongs to the host's state. -/
inductive ThreadPolicy where
  | resume (threadId : String)
  | create
  deriving DecidableEq

/-- `AppServerConfig`, with the MCP command as text where it is one. -/
structure AppServerConfig where
  mcpCommand : Option String
  mcpEnvironment : List (String × String)
  thread : ThreadPolicy
  cwd : String

/-! ## What is asked for -/

/-- `dynamic_tools` -/
def dynamicTools : Value :=
  let integer (minimum maximum : UInt64) : Value :=
    .object [("type", .string "integer"), ("minimum", .number (.posInt minimum)),
      ("maximum", .number (.posInt maximum))]
  let strings (bounds : List (String × Value)) : Value :=
    .object ([("type", .string "array"), ("items", .object [("type", .string "string")])] ++ bounds)
  let schema (properties : List (String × Value)) (required : String) : Value :=
    .object [("type", .string "object"), ("properties", .object properties),
      ("required", .array [.string required]), ("additionalProperties", .bool false)]
  .array [
    .object [("type", .string "function"), ("name", .string receiveTool),
      ("description",
        .string "Retrieve pending Psst messages. Retrieval does not acknowledge them."),
      ("inputSchema", schema
        [("limit", integer 1 100), ("wait_seconds", integer 0 30),
          ("acknowledge_ids", strings [("maxItems", .number (.posInt 0))])]
        "acknowledge_ids")],
    .object [("type", .string "function"), ("name", .string acknowledgeTool),
      ("description",
        .string "Acknowledge Psst messages only after they have been processed."),
      ("inputSchema", schema
        [("message_ids",
          strings [("minItems", .number (.posInt 1)), ("maxItems", .number (.posInt 100))])]
        "message_ids")]]

/-- The parameters of the first request. -/
def greetingParams : Value :=
  .object [("clientInfo", .object [("name", .string "psst-codex"),
      ("title", .string "Psst wake-on-mail"), ("version", .string "0.1.0-alpha.2")]),
    ("capabilities", .object [("experimentalApi", .bool true)])]

/-- The request for the thread. -/
def threadRequest (config : AppServerConfig) : String × Value :=
  match config.thread with
  | .resume threadId =>
    ("thread/resume", .object [("threadId", .string threadId), ("dynamicTools", dynamicTools)])
  | .create =>
    ("thread/start", .object [("cwd", .string config.cwd), ("approvalPolicy", .string "never"),
      ("sandbox", .string "workspace-write"), ("serviceName", .string "psst-codex"),
      ("dynamicTools", dynamicTools)])

/-! ## Launching -/

/-- How `persist_thread_id` gets on with its new file. -/
inductive RecordFate where
  | written
  /-- the file could not be opened -/
  | refused
  /-- it was opened, and then written to or synced in vain -/
  | broken (content : String)

/-- `persist_thread_id`: the file must be new. -/
def persistThreadId (record : Option String) (threadId : String) (fate : RecordFate) :
    Except AppServerError Unit × Option String :=
  if record.isSome then (.error .configuration, record)
  else
    match fate with
    | .refused => (.error .configuration, record)
    | .broken content => (.error .configuration, some content)
    | .written => (.ok (), some (threadId ++ "\n"))

/-- What the system and the App Server do about one launch: whether the process is spawned,
everything it will ever write, and how the writes of the handshake and the file end. -/
structure Launching where
  spawned : Bool
  reader : List WireEvent
  greeting : Sink
  greeted : Sink
  thread : Sink
  record : RecordFate

section Codec

variable [SerdeJson]

/-- `mcp_override` -/
def mcpOverride (config : AppServerConfig) : Except AppServerError String :=
  let text (value : String) := AppServerClient.textOf (.string value)
  match config.mcpCommand.bind text with
  | none => .error .configuration
  | some command =>
    match config.mcpEnvironment.mapM fun entry =>
        (text entry.2).map fun value => entry.1 ++ "=" ++ value with
    | none => .error .configuration
    | some environment =>
      .ok ("mcp_servers=\x7bpsst_wake=\x7bcommand=" ++ command ++ ",env=\x7b"
        ++ ",".intercalate environment ++ "\x7d,required=true\x7d\x7d")

/-- `JsonLines::notification` -/
def JsonLines.notification (method : String) (params : Value) (sink : Sink) (l : JsonLines) :
    Except AppServerError Unit × JsonLines :=
  l.write (.object [("method", .string method), ("params", params)]) sink

/-- What `initialize_thread` makes of the response for the thread. -/
def threadOf (config : AppServerConfig) (response : Value) : Except AppServerError String :=
  match ((response.pointer ["thread", "id"]).bind Value.asStr).filter fun value =>
      validIdentifier value 128 with
  | none => .error .protocol
  | some threadId =>
    match config.thread with
    | .create => .ok threadId
    | .resume expected => if expected = threadId then .ok threadId else .error .protocol

/-- `initialize_thread`, with the record file before and after. There is no result while a
response is still to come. -/
def initializeThread (config : AppServerConfig) (record : Option String) (env : Launching)
    (l : JsonLines) : Option (Except AppServerError String) × JsonLines × Option String :=
  match l.request 1 "initialize" greetingParams env.greeting with
  | (none, l) => (none, l, record)
  | (some (.error e), l) => (some (.error e), l, record)
  | (some (.ok _), l) =>
    match l.notification "initialized" (.object []) env.greeted with
    | (.error e, l) => (some (.error e), l, record)
    | (.ok (), l) =>
      match l.request 2 (threadRequest config).1 (threadRequest config).2 env.thread with
      | (none, l) => (none, l, record)
      | (some (.error e), l) => (some (.error e), l, record)
      | (some (.ok response), l) =>
        match threadOf config response with
        | .error e => (some (.error e), l, record)
        | .ok threadId =>
          match config.thread with
          | .resume _ => (some (.ok threadId), l, record)
          | .create =>
            match persistThreadId record threadId env.record with
            | (.error e, record) => (some (.error e), l, record)
            | (.ok (), record) => (some (.ok threadId), l, record)

/-- `AppServerClient::launch`, with what went over the pipes and the record file. -/
def AppServerClient.launch (config : AppServerConfig) (record : Option String) (env : Launching) :
    Option (Except AppServerError AppServerClient) × List Traffic × Option String :=
  match mcpOverride config with
  | .error e => (some (.error e), [], record)
  | .ok _ =>
    if env.spawned = false then (some (.error .launch), [], record)
    else
      match initializeThread config record env (.new env.reader) with
      | (none, l, record) => (none, l.transcript, record)
      | (some (.error e), l, record) => (some (.error e), l.transcript, record)
      | (some (.ok threadId), l, record) =>
        (some (.ok ⟨l, threadId, config.cwd, 3, ∅⟩), l.transcript, record)

/-! ## Waiting for the end of a turn -/

/-- What one round of the loop of `wait_completed` comes to. -/
inductive Waited where
  /-- an answer or a line is still to come -/
  | hanging
  | again
  | ended (result : Except AppServerError Unit)

/-- One round of the loop of `wait_completed`. -/
def AppServerClient.waitCompleted (c : AppServerClient) (expected : String)
    (forward answer : Sink) : Waited × AppServerClient :=
  match c.protocol.readWithTimeout with
  | (none, protocol) => (.hanging, { c with protocol := protocol })
  | (some (.error e), protocol) => (.ended (.error e), { c with protocol := protocol })
  | (some (.ok message), protocol) =>
    let c := { c with protocol := protocol }
    if (message.get "method").bind Value.asStr = some "item/tool/call" then
      match c.handleToolCall message expected forward answer with
      | (none, c, _) => (.hanging, c)
      | (some (.error e), c, _) => (.ended (.error e), c)
      | (some (.ok ()), c, _) => (.again, c)
    else
      match completionResult message c.threadId expected with
      | some result => (.ended result, c)
      | none => (.again, c)

end Codec

end Psst
