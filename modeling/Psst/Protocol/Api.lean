import Psst.Store.Schema

/-!
# The wire protocol of a session

Error codes, timestamps and the bodies of the endpoints a session lives on: join, resume,
heartbeat and leave. A field the sender took from a validated value keeps that type here, so
the receiver's own parse of it cannot fail; what the receiver checks beyond single fields is
`validate`.
-/

namespace Psst

/-! ## Errors -/

inductive ApiErrorCode where
  | invalidRequest
  | notFound
  | squadArchived
  | notMember
  | nameInUse
  | leaseExpired
  | recipientNotFound
  | idempotencyConflict
  | payloadTooLarge
  | rateLimited
  | databaseBusy
  | internalError
  deriving DecidableEq

def ApiErrorCode.httpStatus : ApiErrorCode → Nat
  | .invalidRequest => 400
  | .notFound | .recipientNotFound => 404
  | .notMember => 403
  | .payloadTooLarge => 413
  | .squadArchived | .nameInUse | .leaseExpired | .idempotencyConflict => 409
  | .rateLimited => 429
  | .databaseBusy => 503
  | .internalError => 500

structure ErrorBody where
  code : ApiErrorCode
  message : String
  retryable : Bool
  deriving DecidableEq

/-- The message bound; the relay sends no details. -/
def ErrorBody.validate (e : ErrorBody) : Bool :=
  decide (1 ≤ e.message.utf8ByteSize) && decide (e.message.utf8ByteSize ≤ 512)

/-! ## Timestamps -/

/-- The last millisecond of the year 9999, the end of the calendar the timestamps are
written in. -/
def maxTimestampMillis : Nat := 253402300799999

/-- `ApiTimestamp`: an instant the calendar can write with four-digit years. -/
structure ApiTimestamp where
  value : UnixMillis
  inCalendar : value.asI64 ≤ maxTimestampMillis
  deriving DecidableEq

def ApiTimestamp.ofMillis? (value : UnixMillis) : Option ApiTimestamp :=
  if h : value.asI64 ≤ maxTimestampMillis then some ⟨value, h⟩ else none

theorem ApiTimestamp.ofMillis?_eq_some {value : UnixMillis}
    (h : value.asI64 ≤ maxTimestampMillis) :
    ApiTimestamp.ofMillis? value = some ⟨value, h⟩ := dif_pos h

/-! ## Bodies -/

structure SquadSummary where
  id : SquadId
  name : SquadName
  mission : Mission
  state : SquadState
  createdAt : ApiTimestamp
  archivedAt : Option ApiTimestamp
  deriving DecidableEq

/-- An active squad has no archive time; an archived one has one no earlier than its
creation. -/
def SquadSummary.validate (q : SquadSummary) : Bool :=
  match q.state with
  | .active => q.archivedAt.isNone
  | .archived => q.archivedAt.any fun archivedAt => decide (q.createdAt.value ≤ archivedAt.value)

/-- The body of a join or a resume. -/
structure SessionResponse where
  agentId : AgentId
  membershipId : MembershipId
  instanceId : InstanceId
  squad : SquadSummary
  memberName : MemberName
  role : Role
  heartbeatIntervalSeconds : UInt32
  leaseSeconds : UInt32
  leaseExpiresAt : ApiTimestamp
  deriving DecidableEq

structure LeaveSquadResponse where
  membershipId : MembershipId
  leftAt : ApiTimestamp
  deriving DecidableEq

structure HeartbeatResponse where
  leaseExpiresAt : ApiTimestamp
  heartbeatIntervalSeconds : UInt32
  deriving DecidableEq

/-! ## Responses -/

/-- An instance and the token that authenticates it, as the two parties hold it between
`psst-session-credential` and `authorization`. -/
structure Credential where
  instanceId : InstanceId
  resumeToken : ResumeToken
  deriving DecidableEq

inductive Body where
  | empty
  | error (body : ErrorBody)
  | session (body : SessionResponse)
  | heartbeat (body : HeartbeatResponse)
  | left (body : LeaveSquadResponse)
  deriving DecidableEq

/-- An HTTP response: the status, whether its content type is JSON, the credential header
(which comes with `cache-control: no-store`), and the body. -/
structure HttpResponse where
  status : Nat
  json : Bool
  issued : Option Credential
  body : Body
  deriving DecidableEq

end Psst
