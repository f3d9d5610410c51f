import Psst.Core.Secret

/-!
# Lifecycle states, leases and message semantics

The state rules of `psst-core`: the derived instance state, lease renewal, the advisory
availability observation, and the fields that make two sends the same logical send.
-/

namespace Psst

/-- `DomainError`. -/
inductive DomainError where
  | invalidValue (e : InvalidValue)
  | invalidStateTransition (entity action : String)
  | leaseExpired
  | idempotencyConflict (existing : MessageId)
  deriving DecidableEq

inductive AgentMode where
  | cooperative
  | scheduled
  | harnessed
  deriving DecidableEq, Repr

inductive SquadState where
  | active
  | archived
  deriving DecidableEq, Repr

/-! ## Leases -/

inductive InstanceState where
  | online
  | expired
  | closed
  deriving DecidableEq, Repr

namespace InstanceState

/-- `InstanceState::at`: closed wins over expired, and the expiry instant is expired. -/
def atNow (closedAt : Option UnixMillis) (leaseExpiresAt now : UnixMillis) : InstanceState :=
  if closedAt.isSome then .closed
  else if leaseExpiresAt ≤ now then .expired
  else .online

theorem atNow_eq_online {closedAt : Option UnixMillis} {leaseExpiresAt now : UnixMillis} :
    InstanceState.atNow closedAt leaseExpiresAt now = .online
      ↔ closedAt = none ∧ now < leaseExpiresAt := by
  unfold InstanceState.atNow
  cases closedAt with
  | none => by_cases h : leaseExpiresAt ≤ now <;> simp [h, not_le.mp]
  | some c => simp

end InstanceState

/-- `renew_lease`: a clock that went backwards cannot shorten the lease. -/
def renewLease (state : InstanceState) (currentExpiry now : UnixMillis) (duration : Duration) :
    Except DomainError UnixMillis :=
  if state = .closed then
    .error (.invalidStateTransition "instance" "heartbeat")
  else if state = .expired ∨ currentExpiry ≤ now then
    .error .leaseExpired
  else
    match now.checkedAdd duration with
    | none => .error (.invalidValue ⟨"lease", "overflows timestamp"⟩)
    | some candidate => .ok (max candidate currentExpiry)

/-- A successful renewal happened before the expiry and did not move it backwards. -/
theorem renewLease_eq_ok {state : InstanceState} {currentExpiry now renewed : UnixMillis}
    {duration : Duration} (h : renewLease state currentExpiry now duration = .ok renewed) :
    now < currentExpiry ∧ currentExpiry ≤ renewed := by
  unfold renewLease at h
  split at h
  · cases h
  · split at h
    · cases h
    · rename_i hlive
      split at h
      · cases h
      · cases h
        exact ⟨not_le.mp fun hle => hlive (Or.inr hle), le_max_right _ _⟩

/-! ## Availability -/

inductive Availability where
  | idle
  | busy
  | blocked
  | unknown
  deriving DecidableEq, Repr

inductive AvailabilitySource where
  | sessionLifecycle
  | mcpConnection
  | toolActivity
  | agentReported
  | unknown
  deriving DecidableEq, Repr

/-- `AvailabilityObservation`: unknown availability and unknown source come together. -/
structure AvailabilityObservation where
  availability : Availability
  source : AvailabilitySource
  observedAt : UnixMillis
  consistent : availability = .unknown ↔ source = .unknown
  deriving DecidableEq

/-- `AvailabilityObservation::new`. -/
def AvailabilityObservation.new (availability : Availability) (source : AvailabilitySource)
    (observedAt : UnixMillis) : Except DomainError AvailabilityObservation :=
  if h : availability = .unknown ↔ source = .unknown then
    .ok ⟨availability, source, observedAt, h⟩
  else
    .error (.invalidValue ⟨"availability",
      "availability and observation source must both be known or both be unknown"⟩)

/-! ## Messages -/

inductive MessagePriority where
  | normal
  | high
  deriving DecidableEq, Repr

/-- Every field that decides whether a retry is the same logical send. -/
structure MessageSemantics where
  squad : SquadId
  sender : MembershipId
  recipient : MembershipId
  body : MessageBody
  priority : MessagePriority
  replyTo : Option MessageId
  correlationId : Option CorrelationId
  deriving DecidableEq

end Psst
