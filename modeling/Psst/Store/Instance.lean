import Psst.Store.Repository

/-!
# Instances and leases

`instance.rs`: the lease policy, claiming the first instance of a membership, the
token-authenticated heartbeat, and resuming after the previous owner is gone. The token a
claim generates comes from the operating system and is an argument here; `none` is a
failing random source.
-/

namespace Psst

open Table

/-! ## Lease policy -/

/-- `LeasePolicy`: the lease outlives the heartbeat and its milliseconds fit an `i64`.
Nothing asks for a lease of a whole millisecond. -/
structure LeasePolicy where
  heartbeatInterval : Duration
  leaseDuration : Duration
  heartbeatPositive : heartbeatInterval.isZero = false
  leaseLonger : heartbeatInterval.asNanos < leaseDuration.asNanos
  leaseFits : leaseDuration.asMillis < 2 ^ 63
  deriving DecidableEq

namespace LeasePolicy

def new (heartbeatInterval leaseDuration : Duration) : Except RepositoryError LeasePolicy :=
  if h : heartbeatInterval.isZero = false
      ∧ heartbeatInterval.asNanos < leaseDuration.asNanos
      ∧ leaseDuration.asMillis < 2 ^ 63 then
    .ok ⟨heartbeatInterval, leaseDuration, h.1, h.2.1, h.2.2⟩
  else .error .invalidRequest

/-- Ten-second heartbeats on a thirty-second lease. -/
def default : LeasePolicy where
  heartbeatInterval := .fromSecs 10
  leaseDuration := .fromSecs 30
  heartbeatPositive := by decide
  leaseLonger := by decide
  leaseFits := by decide

/-- The lease lasts at least one millisecond, the unit of every stored timestamp. -/
def AtLeastOneMilli (policy : LeasePolicy) : Prop := 1 ≤ policy.leaseDuration.asMillis

instance (policy : LeasePolicy) : Decidable policy.AtLeastOneMilli :=
  inferInstanceAs (Decidable (_ ≤ _))

theorem default_atLeastOneMilli : default.AtLeastOneMilli := by decide

end LeasePolicy

/-! ## Authentication -/

section Authentication

variable [Sha256]

/-- `TOKEN_HASH_DOMAIN` -/
def tokenHashDomain : List UInt8 := asBytes "psst/resume-token/v1\x00"

def tokenHash (token : ResumeToken) : Digest :=
  Sha256.digest (tokenHashDomain ++ asBytes token.val)

/-- `authenticate`, as the test it makes; callers choose the error. -/
def authenticates (stored : Digest) (supplied : ResumeToken) : Prop :=
  stored = tokenHash supplied

instance (stored : Digest) (supplied : ResumeToken) : Decidable (authenticates stored supplied) :=
  inferInstanceAs (Decidable (_ = _))

end Authentication

def validateObservation (availability : Availability) (source : AvailabilitySource)
    (observedAt : UnixMillis) : StoreTx Unit :=
  match AvailabilityObservation.new availability source observedAt with
  | .ok _ => pure ()
  | .error _ => throw .invalidRequest

@[simp] theorem validateObservation_eq_ok {availability : Availability}
    {source : AvailabilitySource} {observedAt : UnixMillis} {s s' : Store} {u : Unit} :
    (validateObservation availability source observedAt).run s = .ok (u, s')
      ↔ (availability = .unknown ↔ source = .unknown) ∧ s = s' := by
  unfold validateObservation AvailabilityObservation.new
  by_cases h : availability = .unknown ↔ source = .unknown <;> simp [h]

def validateClient (clientKind : String) (hostname : Option String) : StoreTx Unit :=
  Tx.require (¬ ((trim clientKind.toList).isEmpty
    ∨ hostname.any fun value => (trim value.toList).isEmpty)) .invalidRequest

@[simp] theorem validateClient_eq_ok {clientKind : String} {hostname : Option String}
    {s s' : Store} {u : Unit} :
    (validateClient clientKind hostname).run s = .ok (u, s')
      ↔ ¬ ((trim clientKind.toList).isEmpty
          ∨ hostname.any fun value => (trim value.toList).isEmpty) ∧ s = s' :=
  Tx.require_eq_ok

/-- The membership is joined and its squad is active. -/
def Tables.ActiveMembership (t : Tables) (member : MembershipId) : Prop :=
  ∃ m ∈ t.memberships, m.id = member ∧ m.leftAt = none
    ∧ ∃ q ∈ t.squads, q.id = m.squadId ∧ q.state = .active

/-- `require_active_membership`: joined, in an active squad. -/
def requireActiveMembership (membershipId : MembershipId) : StoreTx Unit := do
  let active ← Tx.query fun s => s.memberships.any fun m =>
    decide (m.id = membershipId) && m.joined
      && s.squads.any fun q => decide (q.id = m.squadId) && decide (q.state = .active)
  Tx.require (active = true) .notMember

@[simp] theorem requireActiveMembership_eq_ok {member : MembershipId} {s s' : Store} {u : Unit} :
    (requireActiveMembership member).run s = .ok (u, s')
      ↔ s.ActiveMembership member ∧ s = s' := by
  simp [requireActiveMembership, Tables.ActiveMembership, and_assoc]

/-! ## Records -/

structure InstanceRecord where
  id : InstanceId
  membershipId : MembershipId
  mode : AgentMode
  availability : Availability
  availabilitySource : AvailabilitySource
  availabilityObservedAt : UnixMillis
  leaseExpiresAt : UnixMillis
  lastSeenAt : UnixMillis
  createdAt : UnixMillis
  closedAt : Option UnixMillis
  heartbeatInterval : Duration
  leaseDuration : Duration
  deriving DecidableEq

/-- What every new instance is made from: the arguments of `insert_instance`. -/
structure NewInstance where
  id : InstanceId
  membershipId : MembershipId
  mode : AgentMode
  clientKind : String
  hostname : Option String
  resumeToken : ResumeToken
  availability : Availability
  availabilitySource : AvailabilitySource
  now : UnixMillis
  leasePolicy : LeasePolicy

variable [Sha256]

/-- The row inserted for a lease that ends at `expiry`. -/
def NewInstance.row (n : NewInstance) (expiry : UnixMillis) : InstanceRow where
  id := n.id
  membershipId := n.membershipId
  mode := n.mode
  clientKind := n.clientKind
  hostname := n.hostname
  resumeTokenHash := tokenHash n.resumeToken
  availability := n.availability
  availabilitySource := n.availabilitySource
  availabilityObservedAt := n.now
  leaseExpiresAt := expiry
  lastSeenAt := n.now
  createdAt := n.now
  closedAt := none

/-- The record a row is reported as, under the policy of the request. -/
def InstanceRow.record (i : InstanceRow) (policy : LeasePolicy) : InstanceRecord where
  id := i.id
  membershipId := i.membershipId
  mode := i.mode
  availability := i.availability
  availabilitySource := i.availabilitySource
  availabilityObservedAt := i.availabilityObservedAt
  leaseExpiresAt := i.leaseExpiresAt
  lastSeenAt := i.lastSeenAt
  createdAt := i.createdAt
  closedAt := i.closedAt
  heartbeatInterval := policy.heartbeatInterval
  leaseDuration := policy.leaseDuration

/-- Append an instance row. -/
def Tables.addInstance (row : InstanceRow) (t : Tables) : Tables :=
  { t with instances := t.instances ++ [row] }

def insertInstance (n : NewInstance) : StoreTx InstanceRecord := do
  let expiry ← Tx.expect (n.now.checkedAdd n.leasePolicy.leaseDuration) .invalidRequest
  StoreTx.write (Tables.addInstance (n.row expiry))
  pure ((n.row expiry).record n.leasePolicy)

@[simp] theorem insertInstance_eq_ok {n : NewInstance} {s s' : Store} {record : InstanceRecord} :
    (insertInstance n).run s = .ok (record, s')
      ↔ ∃ expiry, n.now.checkedAdd n.leasePolicy.leaseDuration = some expiry
          ∧ s'.toTables = s.toTables.addInstance (n.row expiry)
          ∧ record = (n.row expiry).record n.leasePolicy := by
  simp only [insertInstance, Tx.bind_eq_ok, Tx.expect_eq_ok, StoreTx.write_eq_ok]
  constructor
  · rintro ⟨expiry, _, ⟨hexpiry, rfl⟩, _, t, hwrite, hpure⟩
    cases hpure
    exact ⟨expiry, hexpiry, hwrite, rfl⟩
  · rintro ⟨expiry, hexpiry, hwrite, rfl⟩
    exact ⟨expiry, s, ⟨hexpiry, rfl⟩, (), s', hwrite, rfl⟩

/-! ## Operations -/

structure ClaimInstance where
  id : InstanceId
  membershipId : MembershipId
  mode : AgentMode
  clientKind : String
  hostname : Option String
  availability : Availability
  availabilitySource : AvailabilitySource
  now : UnixMillis
  leasePolicy : LeasePolicy

structure ClaimOutcome where
  record : InstanceRecord
  resumeToken : ResumeToken

/-- The instance a claim inserts, with the token generated for it. -/
def ClaimInstance.instance (request : ClaimInstance) (token : ResumeToken) : NewInstance where
  id := request.id
  membershipId := request.membershipId
  mode := request.mode
  clientKind := request.clientKind
  hostname := request.hostname
  resumeToken := token
  availability := request.availability
  availabilitySource := request.availabilitySource
  now := request.now
  leasePolicy := request.leasePolicy

def claimInstance (request : ClaimInstance) (generated : Option ResumeToken) :
    StoreTx ClaimOutcome := do
  validateObservation request.availability request.availabilitySource request.now
  validateClient request.clientKind request.hostname
  let resumeToken ← Tx.expect generated .entropyUnavailable
  requireActiveMembership request.membershipId
  let hasHistory ← Tx.query fun s =>
    s.instances.any fun i => decide (i.membershipId = request.membershipId)
  Tx.require (hasHistory = false) .nameInUse
  let record ← insertInstance (request.instance resumeToken)
  pure ⟨record, resumeToken⟩

/-- The columns a heartbeat rewrites. -/
def InstanceRow.renewed (availability : Availability) (source : AvailabilitySource)
    (effectiveNow expiry : UnixMillis) (i : InstanceRow) : InstanceRow :=
  { i with
    availability := availability
    availabilitySource := source
    availabilityObservedAt := effectiveNow
    leaseExpiresAt := expiry
    lastSeenAt := effectiveNow }

def Tables.renewInstances (p : InstanceRow → Bool) (f : InstanceRow → InstanceRow)
    (t : Tables) : Tables :=
  { t with instances := updateWhere p f t.instances }

structure HeartbeatInstance where
  id : InstanceId
  resumeToken : ResumeToken
  availability : Availability
  availabilitySource : AvailabilitySource
  now : UnixMillis
  leasePolicy : LeasePolicy

/-- The unclosed instance with this id whose membership has not left. -/
def Tables.currentInstance (t : Tables) (id : InstanceId) : Option InstanceRow :=
  (t.instanceById id).filter fun i =>
    i.unclosed && (t.membershipById i.membershipId).any MembershipRow.joined

/-- A lease error stays one; any other renewal error is an invalid request. -/
def heartbeatError : DomainError → RepositoryError
  | .leaseExpired => .leaseExpired
  | _ => .invalidRequest

def heartbeatInstance (request : HeartbeatInstance) : StoreTx InstanceRecord := do
  validateObservation request.availability request.availabilitySource request.now
  let stored ← Tx.query fun s => s.currentInstance request.id
  let i ← Tx.expect stored .notMember
  Tx.require (authenticates i.resumeTokenHash request.resumeToken) .notMember
  -- stored observation time never moves backwards
  let effectiveNow := max request.now i.lastSeenAt
  let state := InstanceState.atNow none i.leaseExpiresAt effectiveNow
  let renewed ← Tx.ofExcept
    ((renewLease state i.leaseExpiresAt effectiveNow request.leasePolicy.leaseDuration).mapError
      heartbeatError)
  let f := InstanceRow.renewed request.availability request.availabilitySource effectiveNow renewed
  StoreTx.write (Tables.renewInstances (fun j => decide (j.id = request.id) && j.unclosed) f)
  pure ((f i).record request.leasePolicy)

/-- A resume request carries exactly the arguments of the insert it ends in. -/
abbrev ResumeInstance := NewInstance

def resumeInstance (request : ResumeInstance) : StoreTx InstanceRecord := do
  validateObservation request.availability request.availabilitySource request.now
  validateClient request.clientKind request.hostname
  requireActiveMembership request.membershipId
  let stored ← Tx.query fun s => s.newestInstance request.membershipId
  let predecessor ← Tx.expect stored .notMember
  Tx.require (authenticates predecessor.resumeTokenHash request.resumeToken) .notMember
  Tx.require (¬ (predecessor.closedAt = none ∧ request.now < predecessor.leaseExpiresAt)) .nameInUse
  StoreTx.write
    (Tables.closeInstances (fun i => decide (i.membershipId = request.membershipId)) request.now)
  insertInstance request

end Psst
