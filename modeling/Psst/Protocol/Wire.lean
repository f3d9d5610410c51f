import Psst.Lib.Json
import Psst.Protocol.Message

/-!
# Bodies as JSON texts

What `serde_json` writes for each body, field by field in the order of the source's structs. An
absent optional field is left out where the struct says `skip_serializing_if` and written as
`null` where it does not.
-/

namespace Psst

open Json

/-! ## Timestamps -/

/-- The last `width` decimal digits of a number, with leading zeros. -/
def fixedDigits : Nat → Nat → Text
  | 0, _ => []
  | width + 1, n => fixedDigits width (n / 10) ++ [Nat.digitChar (n % 10)]

/-- Year, month and day of a day counted from 1970-01-01, in the proleptic Gregorian calendar. -/
def civilFromDays (days : Nat) : Nat × Nat × Nat :=
  let z := days + 719468
  let era := z / 146097
  let dayOfEra := z % 146097
  let yearOfEra := (dayOfEra - dayOfEra / 1460 + dayOfEra / 36524 - dayOfEra / 146096) / 365
  let dayOfYear := dayOfEra - (365 * yearOfEra + yearOfEra / 4 - yearOfEra / 100)
  -- months count from March, so that the leap day is the last of the year
  let month := (5 * dayOfYear + 2) / 153
  let day := dayOfYear - (153 * month + 2) / 5 + 1
  if month < 10 then (yearOfEra + era * 400, month + 3, day)
  else (yearOfEra + era * 400 + 1, month - 9, day)

/-- `Display for ApiTimestamp`: RFC 3339 with milliseconds, in UTC. The calendar ends with the
year 9999, so four digits hold every year. -/
def ApiTimestamp.display (t : ApiTimestamp) : Text :=
  let millis := t.value.asI64
  let (year, month, day) := civilFromDays (millis / 86400000)
  fixedDigits 4 year ++ '-' :: fixedDigits 2 month ++ '-' :: fixedDigits 2 day
    ++ 'T' :: fixedDigits 2 (millis / 3600000 % 24) ++ ':' :: fixedDigits 2 (millis / 60000 % 60)
    ++ ':' :: fixedDigits 2 (millis / 1000 % 60) ++ '.' :: fixedDigits 3 (millis % 1000) ++ ['Z']

def ApiTimestamp.json (t : ApiTimestamp) : Text := quote t.display

example : ApiTimestamp.display ⟨⟨1786064523004, by decide⟩, by decide⟩
    = "2026-08-07T01:02:03.004Z".toList := by decide

example : ApiTimestamp.display ⟨⟨951827696789, by decide⟩, by decide⟩
    = "2000-02-29T12:34:56.789Z".toList := by decide

/-! ## Enumerations -/

def SquadState.wire : SquadState → String
  | .active => "active"
  | .archived => "archived"

def MembershipStateDto.wire : MembershipStateDto → String
  | .joined => "joined"
  | .left => "left"

def TransportPresence.wire : TransportPresence → String
  | .online => "online"
  | .offline => "offline"

def AgentMode.wire : AgentMode → String
  | .cooperative => "cooperative"
  | .scheduled => "scheduled"
  | .harnessed => "harnessed"

def Availability.wire : Availability → String
  | .idle => "idle"
  | .busy => "busy"
  | .blocked => "blocked"
  | .unknown => "unknown"

def AvailabilitySource.wire : AvailabilitySource → String
  | .sessionLifecycle => "session_lifecycle"
  | .mcpConnection => "mcp_connection"
  | .toolActivity => "tool_activity"
  | .agentReported => "agent_reported"
  | .unknown => "unknown"

def MessagePriority.wire : MessagePriority → String
  | .normal => "normal"
  | .high => "high"

/-! ## Bodies -/

def SquadSummary.json (q : SquadSummary) : Text :=
  obj ([field "id" (str q.id.val), field "name" (str q.name.val),
      field "mission" (str q.mission.val), field "state" (str q.state.wire),
      field "created_at" q.createdAt.json]
    ++ optional "archived_at" ApiTimestamp.json q.archivedAt)

def SessionResponse.json (r : SessionResponse) : Text :=
  obj [field "agent_id" (str r.agentId.val), field "membership_id" (str r.membershipId.val),
    field "instance_id" (str r.instanceId.val), field "squad" r.squad.json,
    field "member_name" (str r.memberName.val), field "role" (str r.role.val),
    field "heartbeat_interval_seconds" (nat r.heartbeatIntervalSeconds.toNat),
    field "lease_seconds" (nat r.leaseSeconds.toNat),
    field "lease_expires_at" r.leaseExpiresAt.json]

def LeaveSquadResponse.json (r : LeaveSquadResponse) : Text :=
  obj [field "membership_id" (str r.membershipId.val), field "left_at" r.leftAt.json]

def RosterMemberDto.json (m : RosterMemberDto) : Text :=
  obj ([field "membership_id" (str m.membershipId.val), field "name" (str m.name.val),
      field "role" (str m.role.val), field "membership_state" (str m.membershipState.wire),
      field "presence" (str m.presence.wire), field "availability" (str m.availability.wire),
      field "availability_source" (str m.availabilitySource.wire),
      field "availability_observed_at" m.availabilityObservedAt.json]
    ++ optional "mode" (fun mode => str (AgentMode.wire mode)) m.mode
    ++ optional "last_seen_at" ApiTimestamp.json m.lastSeenAt)

def RosterResponse.json (r : RosterResponse) : Text :=
  obj [field "squad" (str r.squad.val), field "members" (arr (r.members.map RosterMemberDto.json))]

def HeartbeatResponse.json (r : HeartbeatResponse) : Text :=
  obj [field "lease_expires_at" r.leaseExpiresAt.json,
    field "heartbeat_interval_seconds" (nat r.heartbeatIntervalSeconds.toNat)]

def MessageDto.json (m : MessageDto) : Text :=
  obj ([field "sequence" (nat m.sequence), field "id" (str m.id.val),
      field "squad" (str m.squad.val), field "sender" (str m.sender.val),
      field "recipient" (str m.recipient.val), field "body" (str m.body.val),
      field "priority" (str m.priority.wire)]
    ++ optional "reply_to" (fun id : MessageId => str id.val) m.replyTo
    ++ optional "correlation_id" (fun id : CorrelationId => str id.val) m.correlationId
    ++ [field "created_at" m.createdAt.json]
    ++ optional "acknowledged_at" ApiTimestamp.json m.acknowledgedAt)

def SendMessageResponse.json (r : SendMessageResponse) : Text :=
  obj [field "message" r.message.json, field "idempotent_replay" (bool r.idempotentReplay)]

def InboxResponse.json (r : InboxResponse) : Text :=
  obj [field "messages" (arr (r.messages.map MessageDto.json)),
    field "pending_count" (nat r.pendingCount),
    field "highest_priority" (nullable (fun p => str (MessagePriority.wire p)) r.highestPriority),
    field "oldest_message_id" (nullable (fun id : MessageId => str id.val) r.oldestMessageId)]

def AckMessagesResponse.json (r : AckMessagesResponse) : Text :=
  obj [field "acknowledged_ids" (arr (r.acknowledgedIds.map fun id => str id.val))]

def TranscriptResponse.json (r : TranscriptResponse) : Text :=
  obj ([field "messages" (arr (r.messages.map MessageDto.json))]
    ++ optional "next_after" nat r.nextAfter)

def ResponseBody.json : ResponseBody → Text
  | .squads body => arr (body.map SquadSummary.json)
  | .squad body => body.json
  | .archived body => obj [field "squad" body.squad.json]
  | .session body => body.json
  | .left body => body.json
  | .roster body => body.json
  | .heartbeat body => body.json
  | .sent body => body.json
  | .inbox body => body.json
  | .acknowledged body => body.json
  | .transcript body => body.json

/-- `MAX_INBOX_BYTES` -/
def maxInboxBytes : Nat := 1024 * 1024

/-- `encode_bounded_inbox`: the encoded body, unless it is too large. -/
def encodeBoundedInbox (response : InboxResponse) : Option Text :=
  if weight utf8 response.json ≤ maxInboxBytes then some response.json else none

end Psst
