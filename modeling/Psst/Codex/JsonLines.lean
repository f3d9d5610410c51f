import Psst.Lib.JsonValue
import Psst.Lib.Lts

/-!
# JSON lines to and from the App Server

The client of the App Server reads one pipe. `request` waits there for its response and queues
what else arrives; `read_with_timeout` returns what was queued before it reads on. What the pipe
and the clock bring is a list of events, an octet at a time, so that a deadline may pass in the
middle of a line.
-/

namespace Psst

open Json

/-- The `serde_json` crate. Nothing about it is assumed. -/
class SerdeJson where
  fromSlice : List UInt8 → Option Value
  toVec : Value → List UInt8

/-- `AppServerError` -/
inductive AppServerError where
  | configuration
  | schema
  | launch
  | protocol
  | rejected
  | timeout
  | exited
  deriving DecidableEq

/-- What the pipe and the clock bring to a read. -/
inductive WireEvent where
  | octet (byte : UInt8)
  /-- the read has waited long enough -/
  | elapsed
  /-- the end of the file -/
  | ended
  /-- an error of the pipe -/
  | broken

/-- How `write_all` and `flush` end. -/
inductive Sink where
  | taken
  | refused
  | unflushed

/-- A frame on its way over the pipes. -/
inductive Traffic where
  | sent (frame : Value)
  | received (message : Value)

/-! ## `JsonLines` -/

/-- `JsonLines`: what its reader will still bring, the messages it has queued, and a record of
the frames in both directions. -/
structure JsonLines where
  reader : List WireEvent
  pending : List Value
  transcript : List Traffic

/-- `MAX_FRAME_BYTES` -/
def maxFrameBytes : Nat := 1048576

/-- `read_until`: the octets up to the delimiter or the end of the file. Octets read before the
deadline passes or the pipe breaks are lost. -/
def readUntil (delimiter : UInt8) (bytes : List UInt8) :
    List WireEvent → Option (Except AppServerError (List UInt8) × List WireEvent)
  | [] => none
  | .octet byte :: events =>
    if byte = delimiter then some (.ok (bytes ++ [byte]), events)
    else readUntil delimiter (bytes ++ [byte]) events
  | .elapsed :: events => some (.error .timeout, events)
  | .ended :: events => some (.ok bytes, events)
  | .broken :: events => some (.error .exited, events)

section Codec

variable [SerdeJson]

/-- The message of a line that was read. -/
def parseLine (bytes : List UInt8) : Except AppServerError Value :=
  if bytes.length = 0 then .error .exited
  else if maxFrameBytes < bytes.length ∨ bytes.getLast? ≠ some 10 then .error .protocol
  else
    match SerdeJson.fromSlice bytes.dropLast with
    | some message => .ok message
    | none => .error .protocol

/-- `message.get("id").and_then(Value::as_u64) == Some(id)` -/
def carries (id : UInt64) (message : Value) : Bool :=
  decide ((message.get "id").bind Value.asU64 = some id)

/-- What `request` makes of the message that carries its id. -/
def reply (message : Value) : Except AppServerError Value :=
  if (message.get "error").isSome then .error .rejected
  else
    match message.get "result" with
    | some result => .ok result
    | none => .error .protocol

namespace JsonLines

/-- `JsonLines::new` -/
def new (reader : List WireEvent) : JsonLines := ⟨reader, [], []⟩

/-- `read_from_wire`. There is no result while the line is still to come. -/
def readFromWire (l : JsonLines) : Option (Except AppServerError Value) × JsonLines :=
  match readUntil 10 [] l.reader with
  | none => (none, l)
  | some (found, events) =>
    let message := found.bind parseLine
    (some message, { l with
      reader := events
      transcript := l.transcript ++ message.toOption.toList.map .received })

/-- `read_with_timeout` -/
def readWithTimeout (l : JsonLines) : Option (Except AppServerError Value) × JsonLines :=
  match l.pending with
  | message :: pending => (some (.ok message), { l with pending := pending })
  | [] => l.readFromWire

/-- `write` -/
def write (value : Value) (sink : Sink) (l : JsonLines) : Except AppServerError Unit × JsonLines :=
  if maxFrameBytes < (SerdeJson.toVec value ++ [10]).length then (.error .protocol, l)
  else
    match sink with
    | .refused => (.error .exited, l)
    | .unflushed => (.error .exited, { l with transcript := l.transcript ++ [.sent value] })
    | .taken => (.ok (), { l with transcript := l.transcript ++ [.sent value] })

/-- The loop of `request`. Every turn takes an event, so there are no more turns than events. -/
def awaitResponse (id : UInt64) : Nat → JsonLines → Option (Except AppServerError Value) × JsonLines
  | 0, l => (none, l)
  | fuel + 1, l =>
    match l.readFromWire with
    | (none, l) => (none, l)
    | (some (.error e), l) => (some (.error e), l)
    | (some (.ok message), l) =>
      if carries id message then (some (reply message), l)
      else awaitResponse id fuel { l with pending := l.pending ++ [message] }

def requestFrame (id : UInt64) (method : String) (params : Value) : Value :=
  .object [("method", .string method), ("id", .number (.posInt id)), ("params", params)]

/-- `request` -/
def request (id : UInt64) (method : String) (params : Value) (sink : Sink) (l : JsonLines) :
    Option (Except AppServerError Value) × JsonLines :=
  match l.write (requestFrame id method params) sink with
  | (.error e, l) => (some (.error e), l)
  | (.ok (), l) => l.awaitResponse id (l.reader.length + 1)

/-- `response` -/
def response (id result : Value) (sink : Sink) (l : JsonLines) :
    Except AppServerError Unit × JsonLines :=
  l.write (.object [("id", id), ("result", result)]) sink

/-- The messages read off the wire so far. -/
def received (l : JsonLines) : List Value :=
  l.transcript.filterMap fun traffic =>
    match traffic with
    | .received message => some message
    | .sent _ => none

end JsonLines

end Codec

end Psst
