import Psst.Relay.Worker

/-!
# Request handlers

What the handlers of the session endpoints answer once their dispatch has returned. A
command that committed can still be answered with an error here: the response is built from
timestamps, and one past the calendar is an internal error.
-/

namespace Psst

/-! ## Errors -/

def RepositoryError.code : RepositoryError → ApiErrorCode
  | .invalidRequest => .invalidRequest
  | .notFound => .notFound
  | .squadArchived => .squadArchived
  | .notMember => .notMember
  | .nameInUse => .nameInUse
  | .leaseExpired => .leaseExpired
  | .recipientNotFound => .recipientNotFound
  | .idempotencyConflict => .idempotencyConflict
  | .payloadTooLarge => .payloadTooLarge
  | .databaseBusy => .databaseBusy
  | .internal | .invalidStoredData | .entropyUnavailable | .injectedFailure => .internalError

/-- `From<DispatchError> for ApiFailure`. -/
def DispatchError.apiFailure : DispatchError → ApiErrorCode
  | .rateLimited => .rateLimited
  | .unavailable | .timeout => .databaseBusy
  | .store error => error.code

def ApiErrorCode.message : ApiErrorCode → String
  | .invalidRequest => "The request is invalid."
  | .notFound => "The requested resource was not found."
  | .squadArchived => "The squad is archived."
  | .notMember => "The session is not an active member."
  | .nameInUse => "The requested name is in use."
  | .leaseExpired => "The session lease has expired."
  | .recipientNotFound => "The recipient was not found."
  | .idempotencyConflict => "The idempotency key conflicts."
  | .payloadTooLarge => "The payload is too large."
  | .rateLimited => "The relay is busy; retry later."
  | .databaseBusy => "The database is busy; retry later."
  | .internalError => "The relay encountered an internal error."

def ApiErrorCode.retryable : ApiErrorCode → Bool
  | .rateLimited | .databaseBusy => true
  | _ => false

/-- `IntoResponse for ApiFailure`. -/
def ApiErrorCode.intoResponse (code : ApiErrorCode) : HttpResponse where
  status := code.httpStatus
  json := true
  issued := none
  body := .error ⟨code, code.message, code.retryable⟩

/-- `StatusCode::REQUEST_TIMEOUT` with nothing in it. -/
def requestTimeout : HttpResponse where
  status := 408
  json := false
  issued := none
  body := .empty

/-! ## Response bodies -/

def timestamp (value : UnixMillis) : Except ApiErrorCode ApiTimestamp :=
  match ApiTimestamp.ofMillis? value with
  | some t => .ok t
  | none => .error .internalError

def seconds (value : Duration) : Except ApiErrorCode UInt32 :=
  if value.asSecs < 2 ^ 32 then .ok (UInt32.ofNat value.asSecs) else .error .internalError

def squadDto (value : SquadRecord) : Except ApiErrorCode SquadSummary := do
  let createdAt ← timestamp value.createdAt
  let archivedAt ← value.archivedAt.mapM timestamp
  pure ⟨value.id, value.name, value.mission, value.state, createdAt, archivedAt⟩

def sessionResponse (membership : MembershipRecord) (squad : SquadRecord)
    (record : InstanceRecord) : Except ApiErrorCode SessionResponse := do
  let summary ← squadDto squad
  let heartbeatIntervalSeconds ← seconds record.heartbeatInterval
  let leaseSeconds ← seconds record.leaseDuration
  let leaseExpiresAt ← timestamp record.leaseExpiresAt
  pure
    { agentId := membership.agentId
      membershipId := membership.id
      instanceId := record.id
      squad := summary
      memberName := membership.name
      role := membership.role
      heartbeatIntervalSeconds := heartbeatIntervalSeconds
      leaseSeconds := leaseSeconds
      leaseExpiresAt := leaseExpiresAt }

/-- A successful handler's response. -/
def okResponse (issued : Option Credential) (body : Body) : HttpResponse where
  status := 200
  json := true
  issued := issued
  body := body

/-! ## The session endpoints -/

def joinSquad (outcome : JoinAndClaimOutcome) : Except ApiErrorCode HttpResponse := do
  let body ← sessionResponse outcome.membership outcome.squad outcome.claim.record
  pure (okResponse (some ⟨outcome.claim.record.id, outcome.claim.resumeToken⟩) (.session body))

def resumeSquad (request : WorkerResume) (context : SessionContext) :
    Except ApiErrorCode HttpResponse := do
  let body ← sessionResponse context.membership context.squad context.record
  pure (okResponse (some ⟨context.record.id, request.prior.resumeToken⟩) (.session body))

def leaveSquad (outcome : LeaveOutcome) : Except ApiErrorCode HttpResponse := do
  let leftAt ← timestamp outcome.leftAt
  pure (okResponse none (.left ⟨outcome.membershipId, leftAt⟩))

def heartbeatHandler (record : InstanceRecord) : Except ApiErrorCode HttpResponse := do
  let leaseExpiresAt ← timestamp record.leaseExpiresAt
  let heartbeatIntervalSeconds ← seconds record.heartbeatInterval
  pure (okResponse none (.heartbeat ⟨leaseExpiresAt, heartbeatIntervalSeconds⟩))

/-- The handler of a session endpoint on its command's reply; `none` for the other
endpoints. -/
def StoreCommand.respond : StoreCommand → Reply → Option (Except ApiErrorCode HttpResponse)
  | .join _, .joined outcome => some (joinSquad outcome)
  | .resume request, .resumed context => some (resumeSquad request context)
  | .leave _ _, .left outcome => some (leaveSquad outcome)
  | .heartbeat _ _ _ _, .heartbeat record => some (heartbeatHandler record)
  | _, _ => none

/-- What the relay has put on the wire for a call. -/
def Call.response (c : Call) : Option HttpResponse :=
  match c.stage with
  | .rejected code => some code.intoResponse
  | .returned (.error e) => some e.apiFailure.intoResponse
  | .returned (.ok reply) =>
    (c.command.respond reply).map fun
      | .ok response => response
      | .error code => code.intoResponse
  | .timedOut => some requestTimeout
  | .inFlight | .admitted | .awaiting | .dropped => none

end Psst
