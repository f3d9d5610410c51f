import Psst.Protocol.Api
import Psst.Store.Repository

/-!
# The wire protocol of messages and squads

The bodies of the remaining endpoints and the checks the typed client makes of them. As for the
session bodies, a field that comes from a validated value keeps its type, so the client's parse
of it cannot fail and `validate` is what it checks beyond single fields.
-/

namespace Psst

/-! ## Messages -/

structure MessageDto where
  sequence : Nat
  id : MessageId
  squad : SquadName
  sender : MemberName
  recipient : MemberName
  body : MessageBody
  priority : MessagePriority
  replyTo : Option MessageId
  correlationId : Option CorrelationId
  createdAt : ApiTimestamp
  acknowledgedAt : Option ApiTimestamp

/-- A message is not acknowledged before it is created. -/
def MessageDto.validate (m : MessageDto) : Bool :=
  !m.acknowledgedAt.any fun value => decide (value.value < m.createdAt.value)

/-- Every message is valid and the sequences increase; `previous` is the one before. -/
def validateMessagePage : Option Nat → List MessageDto → Bool
  | _, [] => true
  | previous, m :: rest =>
    m.validate && !previous.any (fun value => decide (m.sequence ≤ value))
      && validateMessagePage (some m.sequence) rest

structure SendMessageResponse where
  message : MessageDto
  idempotentReplay : Bool

structure InboxResponse where
  messages : List MessageDto
  pendingCount : Nat
  highestPriority : Option MessagePriority
  oldestMessageId : Option MessageId

/-- The activation metadata agrees with the page. -/
def InboxResponse.validate (r : InboxResponse) : Bool :=
  decide (r.messages.length ≤ 100)
    && validateMessagePage none r.messages
    && decide (r.messages.length ≤ r.pendingCount)
    && if r.pendingCount = 0 then
        r.messages.isEmpty && r.highestPriority.isNone && r.oldestMessageId.isNone
      else
        !r.messages.isEmpty && r.highestPriority.isSome
          && decide (r.oldestMessageId = r.messages.head?.map MessageDto.id)

structure AckMessagesResponse where
  acknowledgedIds : List MessageId

def AckMessagesResponse.validate (r : AckMessagesResponse) : Bool :=
  decide (1 ≤ r.acknowledgedIds.length ∧ r.acknowledgedIds.length ≤ 100)

structure TranscriptResponse where
  messages : List MessageDto
  nextAfter : Option Nat

def TranscriptResponse.validate (r : TranscriptResponse) : Bool :=
  decide (r.messages.length ≤ 100)
    && validateMessagePage none r.messages
    && decide (r.nextAfter = r.messages.getLast?.map MessageDto.sequence)

/-! ## Squads and members -/

structure ArchiveSquadResponse where
  squad : SquadSummary

inductive MembershipStateDto where
  | joined
  | left
  deriving DecidableEq

/-- `psst_protocol::RosterMember`. -/
structure RosterMemberDto where
  membershipId : MembershipId
  name : MemberName
  role : Role
  membershipState : MembershipStateDto
  presence : TransportPresence
  availability : Availability
  availabilitySource : AvailabilitySource
  availabilityObservedAt : ApiTimestamp
  mode : Option AgentMode
  lastSeenAt : Option ApiTimestamp

structure RosterResponse where
  squad : SquadName
  members : List RosterMemberDto

/-- Availability and its source are known together, and who left is offline. -/
def RosterMemberDto.consistent (m : RosterMemberDto) : Bool :=
  (decide (m.availability = .unknown) == decide (m.availabilitySource = .unknown))
    && !(decide (m.membershipState = .left) && decide (m.presence ≠ .offline))

def RosterResponse.validate (r : RosterResponse) : Bool := r.members.all RosterMemberDto.consistent

/-! ## Bodies -/

/-- The body of a successful answer. -/
inductive ResponseBody where
  | squads (body : List SquadSummary)
  | squad (body : SquadSummary)
  | archived (body : ArchiveSquadResponse)
  | session (body : SessionResponse)
  | left (body : LeaveSquadResponse)
  | roster (body : RosterResponse)
  | heartbeat (body : HeartbeatResponse)
  | sent (body : SendMessageResponse)
  | inbox (body : InboxResponse)
  | acknowledged (body : AckMessagesResponse)
  | transcript (body : TranscriptResponse)

/-! ## Pages -/

theorem validateMessagePage_iff {previous : Option Nat} {messages : List MessageDto} :
    validateMessagePage previous messages = true
      ↔ (∀ m ∈ messages, m.validate = true)
        ∧ (previous.toList ++ messages.map MessageDto.sequence).IsChain (· < ·) := by
  induction messages generalizing previous with
  | nil => cases previous <;> simp [validateMessagePage]
  | cons m rest ih =>
      rw [validateMessagePage, Bool.and_eq_true, Bool.and_eq_true, ih]
      cases previous with
      | none => simp [and_assoc]
      | some value =>
          simp only [Option.any_some, Option.toList_some, List.map_cons, List.mem_cons,
            forall_eq_or_imp, Bool.not_eq_true', decide_eq_false_iff_not, Nat.not_le,
            List.singleton_append, List.isChain_cons_cons]
          tauto

end Psst
