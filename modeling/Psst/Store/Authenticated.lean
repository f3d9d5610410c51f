import Psst.Store.Inbox

/-!
# Credential-authenticated commands

`authenticated.rs`: the commands the relay runs on behalf of a session. A credential first
authenticates historically (the instance exists and the token matches), then a command
that needs current authority asks, in this order, for an unexpired lease, an active squad,
and an unclosed instance of a membership that has not left.
-/

namespace Psst

open Table

/-! ## Credentials and authority -/

structure AuthenticatedSession where
  instanceId : InstanceId
  resumeToken : ResumeToken
  now : UnixMillis

structure Identity where
  membership : MembershipId
  squad : SquadId
  mode : AgentMode
  expiry : UnixMillis
  lastSeen : UnixMillis
  createdAt : UnixMillis
  deriving DecidableEq

/-- `instances i JOIN memberships m ON m.id = i.membership_id WHERE i.id = ?` -/
def Tables.instanceJoin (t : Tables) (id : InstanceId) : Option (InstanceRow × MembershipRow) := do
  let i ← t.instanceById id
  let m ← t.membershipById i.membershipId
  pure (i, m)

/-- The same join, extended with `squads s ON s.id = m.squad_id`. -/
def Tables.instanceJoinSquad (t : Tables) (id : InstanceId) :
    Option (InstanceRow × MembershipRow × SquadRecord) := do
  let (i, m) ← t.instanceJoin id
  let q ← t.squadById m.squadId
  pure (i, m, q)

theorem Store.instanceJoin_eq_some {s : Store} {id : InstanceId} {i : InstanceRow}
    {m : MembershipRow} :
    s.instanceJoin id = some (i, m)
      ↔ (i ∈ s.instances ∧ i.id = id) ∧ m ∈ s.memberships ∧ m.id = i.membershipId := by
  simp only [Tables.instanceJoin, Option.bind_eq_bind, Option.bind_eq_some_iff, Option.pure_def,
    Option.some.injEq, Prod.mk.injEq]
  constructor
  · rintro ⟨i', hi, m', hm, rfl, rfl⟩
    exact ⟨s.instanceById_eq_some.mp hi, s.membershipById_eq_some.mp hm⟩
  · rintro ⟨hi, hm⟩
    exact ⟨i, s.instanceById_eq_some.mpr hi, m, s.membershipById_eq_some.mpr hm, rfl, rfl⟩

theorem Store.instanceJoinSquad_eq_some {s : Store} {id : InstanceId} {i : InstanceRow}
    {m : MembershipRow} {q : SquadRecord} :
    s.instanceJoinSquad id = some (i, m, q)
      ↔ ((i ∈ s.instances ∧ i.id = id) ∧ m ∈ s.memberships ∧ m.id = i.membershipId)
          ∧ q ∈ s.squads ∧ q.id = m.squadId := by
  simp only [Tables.instanceJoinSquad, Option.bind_eq_bind, Option.bind_eq_some_iff,
    Option.pure_def, Option.some.injEq, Prod.mk.injEq]
  constructor
  · rintro ⟨⟨i', m'⟩, hjoin, q', hq, rfl, rfl, rfl⟩
    exact ⟨Store.instanceJoin_eq_some.mp hjoin, s.squadById_eq_some.mp hq⟩
  · rintro ⟨hjoin, hq⟩
    exact ⟨(i, m), Store.instanceJoin_eq_some.mpr hjoin, q, s.squadById_eq_some.mpr hq, rfl,
      rfl, rfl⟩

/-- The identity of an instance row and its membership. -/
def identityOf (i : InstanceRow) (m : MembershipRow) : Identity where
  membership := m.id
  squad := m.squadId
  mode := i.mode
  expiry := i.leaseExpiresAt
  lastSeen := i.lastSeenAt
  createdAt := i.createdAt

variable [Sha256]

def authenticateHistorical (session : AuthenticatedSession) : StoreTx Identity := do
  let row ← Tx.query fun s => s.instanceJoin session.instanceId
  let (i, m) ← Tx.expect row .notFound
  Tx.require (authenticates i.resumeTokenHash session.resumeToken) .notFound
  pure (identityOf i m)

def authorizeCurrent (session : AuthenticatedSession) : StoreTx Identity := do
  let identity ← authenticateHistorical session
  -- an expired lease is reported before any lifecycle state
  Tx.require (session.now < identity.expiry) .leaseExpired
  let row ← Tx.query fun s => s.instanceJoinSquad session.instanceId
  let (i, m, q) ← Tx.expect row .internal
  Tx.require (q.state = .active) .squadArchived
  Tx.require (i.closedAt = none ∧ m.leftAt = none) .notMember
  pure identity

/-- The credential authenticates historically as instance `i` of membership `m`. -/
structure Store.Authenticates (s : Store) (session : AuthenticatedSession) (i : InstanceRow)
    (m : MembershipRow) : Prop where
  mem : i ∈ s.instances
  id : i.id = session.instanceId
  member : m ∈ s.memberships
  memberId : m.id = i.membershipId
  token : authenticates i.resumeTokenHash session.resumeToken

/-- The credential holds current authority at its clock reading. -/
structure Store.Authorizes (s : Store) (session : AuthenticatedSession) (i : InstanceRow)
    (m : MembershipRow) : Prop extends Store.Authenticates s session i m where
  lease : session.now < i.leaseExpiresAt
  squad : ∃ q ∈ s.squads, q.id = m.squadId ∧ q.state = .active
  unclosed : i.closedAt = none
  joined : m.leftAt = none

@[simp] theorem authenticateHistorical_eq_ok {session : AuthenticatedSession} {s s' : Store}
    {identity : Identity} :
    (authenticateHistorical session).run s = .ok (identity, s')
      ↔ ∃ i m, s.Authenticates session i m ∧ identity = identityOf i m ∧ s = s' := by
  simp only [authenticateHistorical, Tx.bind_eq_ok, Tx.query_eq_ok, Tx.expect_eq_ok,
    Tx.require_eq_ok, Tx.pure_eq_ok]
  constructor
  · rintro ⟨_, _, ⟨rfl, rfl⟩, ⟨i, m⟩, _, ⟨hjoin, rfl⟩, _, _, ⟨htoken, rfl⟩, rfl, rfl⟩
    obtain ⟨⟨hi, hid⟩, hm, hmid⟩ := Store.instanceJoin_eq_some.mp hjoin
    exact ⟨i, m, ⟨hi, hid, hm, hmid, htoken⟩, rfl, rfl⟩
  · rintro ⟨i, m, h, rfl, rfl⟩
    have hjoin := Store.instanceJoin_eq_some.mpr ⟨⟨h.mem, h.id⟩, h.member, h.memberId⟩
    exact ⟨_, _, ⟨rfl, rfl⟩, (i, m), s, ⟨hjoin, rfl⟩, (), s, ⟨h.token, rfl⟩, rfl, rfl⟩

/-- An instance row is authenticated by at most one row and membership. -/
theorem Store.Authenticates.unique {s : Store} {session : AuthenticatedSession}
    {i j : InstanceRow} {m n : MembershipRow} (h : s.Authenticates session i m)
    (h' : s.Authenticates session j n) : i = j ∧ m = n := by
  have hij : i = j := s.constraints.instanceId.eq h.mem h'.mem (h.id.trans h'.id.symm)
  subst hij
  exact ⟨rfl, s.constraints.membershipId.eq h.member h'.member (h.memberId.trans h'.memberId.symm)⟩

/-- **`authorize_current` succeeds exactly on current authority.** -/
@[simp] theorem authorizeCurrent_eq_ok {session : AuthenticatedSession} {s s' : Store}
    {identity : Identity} :
    (authorizeCurrent session).run s = .ok (identity, s')
      ↔ ∃ i m, s.Authorizes session i m ∧ identity = identityOf i m ∧ s = s' := by
  simp only [authorizeCurrent, Tx.bind_eq_ok, authenticateHistorical_eq_ok, Tx.query_eq_ok,
    Tx.expect_eq_ok, Tx.require_eq_ok, Tx.pure_eq_ok]
  constructor
  · rintro ⟨_, _, ⟨i, m, hauth, rfl, rfl⟩, _, _, ⟨hlease, rfl⟩, _, _, ⟨rfl, rfl⟩, ⟨j, n, q⟩, _,
      ⟨hjoin, rfl⟩, _, _, ⟨hactive, rfl⟩, _, _, ⟨⟨hclosed, hleft⟩, rfl⟩, rfl, rfl⟩
    obtain ⟨⟨⟨hj, hjid⟩, hn, hnid⟩, hq, hqid⟩ := Store.instanceJoinSquad_eq_some.mp hjoin
    -- the second query reads the rows the first one authenticated
    have hij : i = j := s.constraints.instanceId.eq hauth.mem hj (hauth.id.trans hjid.symm)
    subst hij
    have hmn : m = n := s.constraints.membershipId.eq hauth.member hn
      (hauth.memberId.trans hnid.symm)
    subst hmn
    exact ⟨i, m, ⟨hauth, hlease, ⟨q, hq, hqid, hactive⟩, hclosed, hleft⟩, rfl, rfl⟩
  · rintro ⟨i, m, h, rfl, rfl⟩
    obtain ⟨q, hq, hqid, hactive⟩ := h.squad
    have hjoin := Store.instanceJoinSquad_eq_some.mpr
      ⟨⟨⟨h.mem, h.id⟩, h.member, h.memberId⟩, hq, hqid⟩
    exact ⟨_, _, ⟨i, m, h.toAuthenticates, rfl, rfl⟩, (), s, ⟨h.lease, rfl⟩, _, s, ⟨rfl, rfl⟩,
      (i, m, q), s, ⟨hjoin, rfl⟩, (), s, ⟨hactive, rfl⟩, (), s, ⟨⟨h.unclosed, h.joined⟩, rfl⟩,
      rfl, rfl⟩

/-! ## Lookups -/

def squadByNameTx (name : SquadName) : StoreTx SquadRecord := do
  let found ← Tx.query fun s => s.squadByName name
  Tx.expect found .notFound

def squadByIdTx (id : SquadId) : StoreTx SquadRecord := do
  let found ← Tx.query fun s => s.squadById id
  Tx.expect found .notFound

def membershipByIdTx (id : MembershipId) : StoreTx MembershipRecord := do
  let found ← Tx.query fun s => s.membershipById id
  let m ← Tx.expect found .notFound
  pure m.toMembershipRecord

structure MessageView where
  message : MessageRecord
  squad : SquadName
  sender : MemberName
  recipient : MemberName
  acknowledgedAt : Option UnixMillis
  deriving DecidableEq

/-- The join of `message_view_on`. -/
def Tables.messageView (t : Tables) (message : MessageRecord) : Option MessageView := do
  let m ← t.messages.find? fun m => decide (m.id = message.id)
  let q ← t.squadById m.squadId
  let sender ← t.membershipById m.senderMembershipId
  let recipient ← t.membershipById m.recipientMembershipId
  pure ⟨message, q.name, sender.name, recipient.name, m.acknowledgedAt⟩

def messageViewOn (message : MessageRecord) : StoreTx MessageView := do
  let view ← Tx.query fun s => s.messageView message
  Tx.expect view .invalidStoredData

/-- `message_view_on` for every record of a page; each join can only read. -/
def messageViewsOn (messages : List MessageRecord) : StoreTx (List MessageView) := do
  let views ← Tx.query fun s => messages.mapM s.messageView
  Tx.expect views .invalidStoredData

/-! ## Joining -/

structure JoinAndClaim where
  membership : JoinMembership
  instanceId : InstanceId
  mode : AgentMode
  clientKind : String
  hostname : Option String
  availability : Availability
  availabilitySource : AvailabilitySource
  leasePolicy : LeasePolicy

structure JoinAndClaimOutcome where
  membership : MembershipRecord
  squad : SquadRecord
  claim : ClaimOutcome

/-- The first instance of the membership a join creates. -/
def JoinAndClaim.instance (request : JoinAndClaim) (token : ResumeToken) : NewInstance where
  id := request.instanceId
  membershipId := request.membership.membershipId
  mode := request.mode
  clientKind := request.clientKind
  hostname := request.hostname
  resumeToken := token
  availability := request.availability
  availabilitySource := request.availabilitySource
  now := request.membership.joinedAt
  leasePolicy := request.leasePolicy

def joinAndClaim (request : JoinAndClaim) (generated : Option ResumeToken) :
    StoreTx JoinAndClaimOutcome := do
  validateClient request.clientKind request.hostname
  validateObservation request.availability request.availabilitySource request.membership.joinedAt
  let token ← Tx.expect generated .entropyUnavailable
  let squad ← findOrCreateSquad request.membership
  insertAgent request.membership.agentId request.membership.joinedAt
  insertMembership (request.membership.row squad)
  let record ← insertInstance (request.instance token)
  let squadRecord ← squadByIdTx squad
  pure ⟨request.membership.record squad, squadRecord, record, token⟩

/-! ## Commands of a current session -/

def authenticatedHeartbeat (session : AuthenticatedSession) (availability : Availability)
    (source : AvailabilitySource) (policy : LeasePolicy) : StoreTx InstanceRecord := do
  validateObservation availability source session.now
  let identity ← authorizeCurrent session
  let effectiveNow := max session.now identity.lastSeen
  let expiry ← Tx.ofExcept
    ((renewLease (InstanceState.atNow none identity.expiry effectiveNow) identity.expiry
      effectiveNow policy.leaseDuration).mapError fun _ => RepositoryError.leaseExpired)
  StoreTx.write (Tables.renewInstances (fun i => decide (i.id = session.instanceId))
    (InstanceRow.renewed availability source effectiveNow expiry))
  pure
    { id := session.instanceId
      membershipId := identity.membership
      mode := identity.mode
      availability := availability
      availabilitySource := source
      availabilityObservedAt := effectiveNow
      leaseExpiresAt := expiry
      lastSeenAt := effectiveNow
      createdAt := identity.createdAt
      closedAt := none
      heartbeatInterval := policy.heartbeatInterval
      leaseDuration := policy.leaseDuration }

def authenticatedRoster (session : AuthenticatedSession) (expectedSquad : SquadName) :
    StoreTx (List RosterMember) := do
  let identity ← authenticateHistorical session
  let squad ← squadByIdTx identity.squad
  Tx.require (squad.name = expectedSquad) .notFound
  roster expectedSquad session.now

def authenticatedSend (session : AuthenticatedSession) (request : SendMessage) :
    StoreTx MessageRecord := do
  let identity ← authenticateHistorical session
  Tx.require (request.semantics.sender = identity.membership
    ∧ request.semantics.squad = identity.squad) .notMember
  let retry ← resolveRetry request
  match retry with
  | some record => pure record
  | none => do
    let _ ← authorizeCurrent session
    sendInTransaction request

structure SendByName where
  id : MessageId
  recipient : MemberName
  recipientMembershipId : Option MembershipId
  body : MessageBody
  priority : MessagePriority
  dedupeKey : DedupeKey
  replyTo : Option MessageId
  correlationId : Option CorrelationId

structure SendOutcome where
  message : MessageView
  idempotentReplay : Bool
  deriving DecidableEq

def sendFromName (request : SendByName) (squad : SquadId) (sender recipient : MembershipId)
    (createdAt : UnixMillis) : SendMessage where
  id := request.id
  semantics :=
    { squad := squad
      sender := sender
      recipient := recipient
      body := request.body
      priority := request.priority
      replyTo := request.replyTo
      correlationId := request.correlationId }
  dedupeKey := request.dedupeKey
  createdAt := createdAt

/-- A pinned recipient must be the one the name resolved to. -/
def SendByName.pinAgrees (request : SendByName) (recipient : MembershipId) : Prop :=
  ∀ pin ∈ request.recipientMembershipId, pin = recipient

instance (request : SendByName) (recipient : MembershipId) :
    Decidable (request.pinAgrees recipient) :=
  inferInstanceAs (Decidable (∀ pin ∈ request.recipientMembershipId, pin = recipient))

/-- The joined member a routing name denotes. -/
def Tables.joinedByName (t : Tables) (squad : SquadId) (name : MemberName) :
    Option MembershipRow :=
  t.memberships.find? fun m =>
    decide (m.squadId = squad) && decide (m.normalizedName = name) && m.joined

def authenticatedSendByName (session : AuthenticatedSession) (request : SendByName) :
    StoreTx SendOutcome := do
  let identity ← authenticateHistorical session
  let stored ← Tx.query fun s =>
    s.messageByDedupe identity.squad identity.membership request.dedupeKey
  match stored with
  | some m => do
    Tx.require (request.pinAgrees m.recipientMembershipId) .idempotencyConflict
    let candidate := sendFromName request identity.squad identity.membership
      m.recipientMembershipId session.now
    let found ← findByDedupe candidate
    let existing ← Tx.expect found .invalidStoredData
    Tx.require (existing.semantics = candidate.semantics) .idempotencyConflict
    let view ← messageViewOn existing
    Tx.require (view.recipient = request.recipient) .idempotencyConflict
    pure ⟨view, true⟩
  | none => do
    let _ ← authorizeCurrent session
    let found ← Tx.query fun s => s.joinedByName identity.squad request.recipient
    let recipient ← Tx.expect found .recipientNotFound
    Tx.require (request.pinAgrees recipient.id) .recipientNotFound
    let send := sendFromName request identity.squad identity.membership recipient.id session.now
    let record ← sendInTransaction send
    let view ← messageViewOn record
    pure ⟨view, false⟩

structure InboxPage where
  messages : List MessageView
  pendingCount : Nat
  highestPriority : Option MessagePriority
  oldestMessageId : Option MessageId
  recipientMembership : MembershipId

/-- The highest priority among rows: `high` ranks above `normal`. -/
def highestPriorityOf (rows : List MessageRow) : Option MessagePriority :=
  if rows.any fun m => decide (m.priority = .high) then some .high
  else if rows.isEmpty then none
  else some .normal

def authenticatedPendingPage (session : AuthenticatedSession) (limit : Nat) :
    StoreTx InboxPage := do
  let identity ← authorizeCurrent session
  let pending ← Tx.query fun s => s.pendingRows identity.membership
  let records ← pendingInboxOn ⟨identity.membership, limit⟩
  let messages ← messageViewsOn records
  pure ⟨messages, pending.length, highestPriorityOf pending, pending.head?.map MessageRow.id,
    identity.membership⟩

def authenticatedPending (session : AuthenticatedSession) (limit : Nat) :
    StoreTx (List MessageRecord) := do
  let identity ← authorizeCurrent session
  pendingInboxOn ⟨identity.membership, limit⟩

/-- Unlike `acknowledge_messages`, the batch length is not checked here. -/
def authenticatedAcknowledge (session : AuthenticatedSession) (messageIds : List MessageId) :
    StoreTx Unit := do
  let identity ← authorizeCurrent session
  acknowledgeOn ⟨identity.membership, messageIds, session.now⟩

/-! ## Transcript -/

structure TranscriptQuery where
  squad : SquadId
  after : Int
  limit : Nat

structure TranscriptByName where
  squad : SquadName
  after : Int
  limit : Nat

/-- `WHERE squad_id = ? AND sequence > ? ORDER BY sequence LIMIT ?` -/
def Tables.transcriptRows (t : Tables) (squad : SquadId) (after : Int) (limit : Nat) :
    List MessageRow :=
  ((t.messages.filter fun m => decide (m.squadId = squad) && decide (after < m.sequence)
    ).insertionSort fun a b => a.sequence ≤ b.sequence).take limit

/-- Here a row that does not decode surfaces as an internal error. -/
def transcriptRecords (squad : SquadId) (after : Int) (limit : Nat) :
    StoreTx (List MessageRecord) := do
  let rows ← Tx.query fun s => s.transcriptRows squad after limit
  Tx.ofExcept ((rows.mapM mapMessage).mapError fun _ => .internal)

def authenticatedTranscript (session : AuthenticatedSession) (q : TranscriptQuery) :
    StoreTx (List MessageRecord) := do
  Tx.require ((1 ≤ q.limit ∧ q.limit ≤ 100) ∧ 0 ≤ q.after) .invalidRequest
  let identity ← authorizeCurrent session
  Tx.require (identity.squad = q.squad) .notMember
  transcriptRecords q.squad q.after q.limit

def authenticatedTranscriptViews (session : AuthenticatedSession) (q : TranscriptByName) :
    StoreTx (List MessageView) := do
  Tx.require ((1 ≤ q.limit ∧ q.limit ≤ 100) ∧ 0 ≤ q.after) .invalidRequest
  let identity ← authorizeCurrent session
  let squad ← squadByIdTx identity.squad
  Tx.require (squad.name = q.squad) .notMember
  let records ← transcriptRecords identity.squad q.after q.limit
  messageViewsOn records

/-! ## Leaving, archiving, resuming -/

structure LeaveOutcome where
  membershipId : MembershipId
  leftAt : UnixMillis
  deriving DecidableEq

/-- The session's `leave` closes its own instance only. -/
def authenticatedLeave (session : AuthenticatedSession) (expectedSquad : SquadName) :
    StoreTx LeaveOutcome := do
  let identity ← authorizeCurrent session
  let squad ← squadByIdTx identity.squad
  Tx.require (squad.name = expectedSquad) .notFound
  StoreTx.write
    (Tables.closeInstances (fun i => decide (i.id = session.instanceId)) session.now)
  StoreTx.write (Tables.setLeft identity.membership session.now)
  pure ⟨identity.membership, session.now⟩

def authenticatedArchive (session : AuthenticatedSession) (squad : SquadId) : StoreTx Unit := do
  let identity ← authorizeCurrent session
  Tx.require (identity.squad = squad) .notMember
  let changed ← Tx.query fun s =>
    s.squads.any fun q => decide (q.id = squad) && decide (q.state = .active)
  StoreTx.write (Tables.archiveSquads (fun q => decide (q.id = squad)) session.now)
  Tx.require (changed = true) .squadArchived

def authenticatedArchiveByName (session : AuthenticatedSession) (squadName : SquadName) :
    StoreTx SquadRecord := do
  let identity ← authorizeCurrent session
  let squad ← squadByNameTx squadName
  Tx.require (identity.squad = squad.id) .notMember
  Tx.require (squad.state = .active) .squadArchived
  StoreTx.write (Tables.archiveSquads (fun q => decide (q.id = squad.id)) session.now)
  pure { squad with state := .archived, archivedAt := some session.now }

structure AuthenticatedResume where
  priorInstance : InstanceId
  token : ResumeToken
  newInstance : InstanceId
  mode : AgentMode
  clientKind : String
  hostname : Option String
  availability : Availability
  source : AvailabilitySource
  now : UnixMillis
  policy : LeasePolicy
  expectedSquad : SquadName

structure SessionContext where
  membership : MembershipRecord
  squad : SquadRecord
  record : InstanceRecord

/-- The replacement instance a resume inserts for `membership`. -/
def AuthenticatedResume.instance (request : AuthenticatedResume) (membership : MembershipId) :
    NewInstance where
  id := request.newInstance
  membershipId := membership
  mode := request.mode
  clientKind := request.clientKind
  hostname := request.hostname
  resumeToken := request.token
  availability := request.availability
  availabilitySource := request.source
  now := request.now
  leasePolicy := request.policy

/-- An unclosed instance of the membership whose lease runs past `now`. -/
def Tables.hasLiveOwner (t : Tables) (membership : MembershipId) (now : UnixMillis) : Bool :=
  t.instances.any fun i =>
    decide (i.membershipId = membership) && i.unclosed && decide (now < i.leaseExpiresAt)

def authenticatedResume (request : AuthenticatedResume) : StoreTx SessionContext := do
  validateClient request.clientKind request.hostname
  validateObservation request.availability request.source request.now
  let row ← Tx.query fun s =>
    (s.instanceJoinSquad request.priorInstance).filter fun r => r.2.1.joined
  let (prior, m, q) ← Tx.expect row .notFound
  Tx.require (authenticates prior.resumeTokenHash request.token) .notFound
  Tx.require (q.name = request.expectedSquad) .notFound
  Tx.require (q.state = .active) .squadArchived
  Tx.require (¬ (prior.closedAt = none ∧ request.now < prior.leaseExpiresAt)) .nameInUse
  let hasLiveOwner ← Tx.query fun s => s.hasLiveOwner m.id request.now
  Tx.require (hasLiveOwner = false) .nameInUse
  StoreTx.write (Tables.closeInstances (fun i => decide (i.membershipId = m.id)) request.now)
  let membershipRecord ← membershipByIdTx m.id
  let squad ← squadByIdTx membershipRecord.squadId
  let result ← insertInstance (request.instance m.id)
  pure ⟨membershipRecord, squad, result⟩

end Psst
