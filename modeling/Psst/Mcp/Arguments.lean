import Psst.Lib.Decode
import Psst.Protocol.Request

/-!
# Tool arguments

The server checks the arguments of a call before it dispatches it, with a grammar of its own for
every text; the request that the dispatch builds is checked again by the protocol's rules. The two
agree, except on correlation identifiers: there the server follows the published pattern and its
white space.
-/

namespace Psst

open Json

/-! ## Inputs -/

def Priority.decode (value : Value) : Option MessagePriority :=
  match value.variantName with
  | some "normal" => some .normal
  | some "high" => some .high
  | _ => none

def Availability.decode (value : Value) : Option Availability :=
  match value.variantName with
  | some "idle" => some .idle
  | some "busy" => some .busy
  | some "blocked" => some .blocked
  | some "unknown" => some .unknown
  | _ => none

structure SquadJoinInput where
  squad : String
  name : String
  role : String
  mission : Option String

structure SquadDescribeInput where
  squad : String

structure MessageSendInput where
  recipient : String
  body : String
  priority : MessagePriority
  replyTo : Option String
  correlationId : Option String

structure MessageReceiveInput where
  limit : UInt16
  waitSeconds : UInt8
  acknowledgeIds : List String

structure MessageAcknowledgeInput where
  messageIds : List String

structure AgentStatusInput where
  availability : Option Availability

abbrev Arguments := List (String × Value)

def EmptyInput.decode (arguments : Arguments) : Option Unit :=
  if denyUnknownFields [] arguments then some () else none

def SquadJoinInput.decode (arguments : Arguments) : Option SquadJoinInput := do
  guard (denyUnknownFields ["squad", "name", "role", "mission"] arguments)
  let squad ← requiredField Value.asStr "squad" arguments
  let name ← requiredField Value.asStr "name" arguments
  let role ← requiredField Value.asStr "role" arguments
  let mission ← optionalField Value.asStr "mission" arguments
  pure ⟨squad, name, role, mission⟩

def SquadDescribeInput.decode (arguments : Arguments) : Option SquadDescribeInput := do
  guard (denyUnknownFields ["squad"] arguments)
  let squad ← requiredField Value.asStr "squad" arguments
  pure ⟨squad⟩

def MessageSendInput.decode (arguments : Arguments) : Option MessageSendInput := do
  guard (denyUnknownFields ["recipient", "body", "priority", "reply_to", "correlation_id"]
    arguments)
  let recipient ← requiredField Value.asStr "recipient" arguments
  let body ← requiredField Value.asStr "body" arguments
  let priority ← defaultField .normal Priority.decode "priority" arguments
  let replyTo ← optionalField Value.asStr "reply_to" arguments
  let correlationId ← optionalField Value.asStr "correlation_id" arguments
  pure ⟨recipient, body, priority, replyTo, correlationId⟩

def MessageReceiveInput.decode (arguments : Arguments) : Option MessageReceiveInput := do
  guard (denyUnknownFields ["limit", "wait_seconds", "acknowledge_ids"] arguments)
  let limit ← defaultField 20 Value.asU16 "limit" arguments
  let waitSeconds ← defaultField 0 Value.asU8 "wait_seconds" arguments
  let acknowledgeIds ← defaultField [] Value.asStrings "acknowledge_ids" arguments
  pure ⟨limit, waitSeconds, acknowledgeIds⟩

def MessageAcknowledgeInput.decode (arguments : Arguments) : Option MessageAcknowledgeInput := do
  guard (denyUnknownFields ["message_ids"] arguments)
  let messageIds ← requiredField Value.asStrings "message_ids" arguments
  pure ⟨messageIds⟩

def AgentStatusInput.decode (arguments : Arguments) : Option AgentStatusInput := do
  guard (denyUnknownFields ["availability"] arguments)
  let availability ← optionalField Availability.decode "availability" arguments
  pure ⟨availability⟩

/-! ## The server's grammar -/

/-- `valid_routing`. A character outside ASCII has bytes that are in no routing name, and without
one the characters are the bytes. -/
def validRouting (value : String) (max : Nat) (member : Bool) : Bool :=
  !value.isEmpty && decide (value.utf8ByteSize ≤ max)
    && value.toList.zipIdx.all fun (c, index) =>
      isAsciiLowercase c || isAsciiDigit c
        || (decide (0 < index) && decide (index + 1 < value.toList.length)
          && (c == '-' || (member && (c == '_' || c == '.'))))

def validSquad (value : String) : Bool := validRouting value 64 false

def validMember (value : String) : Bool := validRouting value 64 true

def validTrimmed (value : String) (max : Nat) : Bool :=
  !value.isEmpty && decide (value.utf8ByteSize ≤ max) && trim value.toList == value.toList

/-- The white space of ECMAScript. -/
def ecmascriptWhitespace (c : Char) : Bool :=
  let n := c.toNat
  (9 ≤ n && n ≤ 13) || n == 0x20 || n == 0xa0 || n == 0x1680 || (0x2000 ≤ n && n ≤ 0x200a)
    || n == 0x2028 || n == 0x2029 || n == 0x202f || n == 0x205f || n == 0x3000 || n == 0xfeff

def validCorrelationId (value : String) : Bool :=
  !value.isEmpty && decide (value.utf8ByteSize ≤ 256)
    && (value.toList.all fun c => !(decide (c.toNat ≤ 0x1f) || c.toNat == 0x7f))
    && (value.toList.head?.any fun c => !ecmascriptWhitespace c)
    && value.toList.getLast?.any fun c => !ecmascriptWhitespace c

def validMessageId (value : String) : Bool :=
  decide (5 ≤ value.utf8ByteSize) && decide (value.utf8ByteSize ≤ 128)
    && "msg_".toList.isPrefixOf value.toList
    && (value.toList.drop 4).all fun c => isAsciiLowercase c || isAsciiDigit c || c == '-'

def validJoin (input : SquadJoinInput) : Bool :=
  validSquad input.squad && validMember input.name && validTrimmed input.role 256
    && input.mission.all fun value => validTrimmed value 4096

def validSend (input : MessageSendInput) : Bool :=
  validMember input.recipient
    && decide (1 ≤ input.body.utf8ByteSize) && decide (input.body.utf8ByteSize ≤ 65536)
    && input.replyTo.all validMessageId && input.correlationId.all validCorrelationId

def validReceive (input : MessageReceiveInput) : Bool :=
  decide (1 ≤ input.limit.toNat) && decide (input.limit.toNat ≤ 100)
    && decide (input.waitSeconds.toNat ≤ 30) && decide (input.acknowledgeIds.length ≤ 100)
    && input.acknowledgeIds.all validMessageId && decide input.acknowledgeIds.Nodup

def validAcknowledge (input : MessageAcknowledgeInput) : Bool :=
  decide (1 ≤ input.messageIds.length) && decide (input.messageIds.length ≤ 100)
    && input.messageIds.all validMessageId && decide input.messageIds.Nodup

/-- The check of one tool's arguments. -/
def validFor (name : String) (arguments : Arguments) : Bool :=
  match name with
  | "squad_join" => (SquadJoinInput.decode arguments).any validJoin
  | "squad_leave" | "squad_list" | "squad_roster" => (EmptyInput.decode arguments).isSome
  | "squad_describe" => (SquadDescribeInput.decode arguments).any fun input => validSquad input.squad
  | "message_send" => (MessageSendInput.decode arguments).any validSend
  | "message_receive" => (MessageReceiveInput.decode arguments).any validReceive
  | "message_acknowledge" => (MessageAcknowledgeInput.decode arguments).any validAcknowledge
  | "agent_status" => (AgentStatusInput.decode arguments).isSome
  | _ => false

/-- `McpError::invalid_params` -/
structure InvalidParams where
  message : String

/-- `validate_arguments` -/
def validateArguments (name : String) (arguments : Arguments) : Except InvalidParams Unit :=
  if validFor name arguments then .ok ()
  else .error ⟨"tool arguments do not match the declared schema"⟩

end Psst
