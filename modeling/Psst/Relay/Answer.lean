import Psst.Lib.Traverse
import Psst.Protocol.Wire
import Psst.Relay.Handler

/-!
# Response bodies

What every handler makes of its command's reply. Each timestamp of the reply has to be in the
calendar; only the inbox handler looks at the size of what it has built.
-/

namespace Psst

/-! ## Handlers -/

def messageDto (value : MessageView) : Except ApiErrorCode MessageDto := do
  let createdAt ← timestamp value.message.createdAt
  let acknowledgedAt ← value.acknowledgedAt.mapM timestamp
  pure
    { sequence := value.message.sequence
      id := value.message.id
      squad := value.squad
      sender := value.sender
      recipient := value.recipient
      body := value.message.semantics.body
      priority := value.message.semantics.priority
      replyTo := value.message.semantics.replyTo
      correlationId := value.message.semantics.correlationId
      createdAt := createdAt
      acknowledgedAt := acknowledgedAt }

def rosterMemberDto (value : RosterMember) : Except ApiErrorCode RosterMemberDto := do
  let availabilityObservedAt ← timestamp value.availability.observedAt
  let lastSeenAt ← value.lastSeenAt.mapM timestamp
  pure
    { membershipId := value.membership.id
      name := value.membership.name
      role := value.membership.role
      membershipState := if value.membership.leftAt.isSome then .left else .joined
      presence := value.presence
      availability := value.availability.availability
      availabilitySource := value.availability.source
      availabilityObservedAt := availabilityObservedAt
      mode := value.mode
      lastSeenAt := lastSeenAt }

def rosterHandler (name : SquadName) (members : List RosterMember) :
    Except ApiErrorCode RosterResponse := do
  let members ← members.mapM rosterMemberDto
  pure ⟨name, members⟩

def sendMessageHandler (outcome : SendOutcome) : Except ApiErrorCode SendMessageResponse := do
  let message ← messageDto outcome.message
  pure ⟨message, outcome.idempotentReplay⟩

/-- The response of an inbox page, before it is encoded. -/
def inboxResponse (page : InboxPage) : Except ApiErrorCode InboxResponse := do
  let messages ← page.messages.mapM messageDto
  pure ⟨messages, page.pendingCount, page.highestPriority, page.oldestMessageId⟩

def encodeInbox (page : InboxPage) : Except ApiErrorCode InboxResponse := do
  let response ← inboxResponse page
  match encodeBoundedInbox response with
  | some _ => .ok response
  | none => .error .payloadTooLarge

def transcriptHandler (views : List MessageView) : Except ApiErrorCode TranscriptResponse := do
  let messages ← views.mapM messageDto
  pure ⟨messages, messages.getLast?.map MessageDto.sequence⟩

theorem messageDto_eq_ok {value : MessageView} {dto : MessageDto} (h : messageDto value = .ok dto) :
    ∃ createdAt acknowledgedAt, timestamp value.message.createdAt = .ok createdAt
      ∧ value.acknowledgedAt.mapM timestamp = .ok acknowledgedAt
      ∧ dto =
        { sequence := value.message.sequence, id := value.message.id, squad := value.squad,
          sender := value.sender, recipient := value.recipient,
          body := value.message.semantics.body, priority := value.message.semantics.priority,
          replyTo := value.message.semantics.replyTo,
          correlationId := value.message.semantics.correlationId, createdAt := createdAt,
          acknowledgedAt := acknowledgedAt } := by
  obtain ⟨createdAt, hcreated, h⟩ := Except.bind_eq_ok.mp h
  obtain ⟨acknowledgedAt, hacknowledged, h⟩ := Except.bind_eq_ok.mp h
  cases h
  exact ⟨createdAt, acknowledgedAt, hcreated, hacknowledged, rfl⟩

theorem transcriptHandler_eq_ok {views : List MessageView} {r : TranscriptResponse}
    (h : transcriptHandler views = .ok r) :
    List.Forall₂ (fun view dto => messageDto view = .ok dto) views r.messages
      ∧ r.nextAfter = r.messages.getLast?.map MessageDto.sequence := by
  obtain ⟨messages, hmessages, h⟩ := Except.bind_eq_ok.mp h
  cases h
  exact ⟨Traverse.mapM_eq_ok.mp hmessages, rfl⟩

/-! ## Bodies -/

/-- The body of a command's successful answer. A command is always replied to in kind. -/
def StoreCommand.body : StoreCommand → Reply → Except ApiErrorCode ResponseBody
  | .listSquads, .squads records => .squads <$> records.mapM squadDto
  | .createSquad _, .squad record | .describeSquad _, .squad record => .squad <$> squadDto record
  | .archive _ _, .squad record => (.archived ⟨·⟩) <$> squadDto record
  | .join _, .joined outcome =>
    .session <$> sessionResponse outcome.membership outcome.squad outcome.claim.record
  | .resume _, .resumed context =>
    .session <$> sessionResponse context.membership context.squad context.record
  | .leave _ _, .left outcome =>
    (fun leftAt => .left ⟨outcome.membershipId, leftAt⟩) <$> timestamp outcome.leftAt
  | .roster _ name, .roster members => .roster <$> rosterHandler name members
  | .heartbeat _ _ _ _, .heartbeat record => do
    let leaseExpiresAt ← timestamp record.leaseExpiresAt
    let heartbeatIntervalSeconds ← seconds record.heartbeatInterval
    pure (.heartbeat ⟨leaseExpiresAt, heartbeatIntervalSeconds⟩)
  | .send _ _, .sent outcome => .sent <$> sendMessageHandler outcome
  | .pending _ _, .page page => .inbox <$> encodeInbox page
  | .acknowledge _ ids, .acknowledged => .ok (.acknowledged ⟨ids⟩)
  | .transcript _ _, .transcript views => .transcript <$> transcriptHandler views
  | _, _ => .error .internalError

/-- What the handlers check of a command before they dispatch it. -/
def StoreCommand.Admissible : StoreCommand → Prop
  | .pending _ limit => 1 ≤ limit ∧ limit ≤ 100
  | .transcript _ query => 1 ≤ query.limit ∧ query.limit ≤ 100
  | .acknowledge _ ids => (1 ≤ ids.length ∧ ids.length ≤ 100) ∧ ids.Nodup
  | command => ∀ policy ∈ command.policy, policy = .default

variable [Sha256]

/-- The command, run on `s` at `now`, is answered with `body`. -/
def Store.Emits (s : Store) (command : StoreCommand) (now : UnixMillis)
    (generated : Option ResumeToken) (body : ResponseBody) : Prop :=
  ∃ reply, (s.execute command now generated).1 = .ok reply ∧ command.body reply = .ok body

end Psst
