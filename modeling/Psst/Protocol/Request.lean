import Psst.Core.Identifier
import Psst.Core.State

/-!
# Requests, before they are validated

The requests a client builds from what it is given, and the bounds that `Validate` puts on them
before anything else is done with them.
-/

namespace Psst.Protocol

def maxInboxMessages : UInt16 := 100

def maxWaitSeconds : UInt8 := 30

def maxAckMessages : Nat := 100

structure ClientMetadata where
  kind : String
  hostname : Option String
  version : Option String

/-- `validate_client` -/
def validateClient (client : ClientMetadata) : Except InvalidValue Unit :=
  if client.kind.isEmpty || decide (64 < client.kind.utf8ByteSize)
      || client.kind.toList.any isControl then
    .error ⟨"client.kind", "must be printable and at most 64 bytes"⟩
  else if client.hostname.any fun value => value.isEmpty || decide (255 < value.utf8ByteSize) then
    .error ⟨"client.hostname", "must be between 1 and 255 bytes"⟩
  else if client.version.any fun value => value.isEmpty || decide (64 < value.utf8ByteSize) then
    .error ⟨"client.version", "must be between 1 and 64 bytes"⟩
  else .ok ()

structure JoinSquadRequest where
  name : String
  role : String
  mode : AgentMode
  client : ClientMetadata
  mission : Option String

structure SendMessageRequest where
  recipientMembershipId : Option String
  recipient : String
  body : String
  priority : MessagePriority
  dedupeKey : String
  replyTo : Option String
  correlationId : Option String

structure AckMessagesRequest where
  messageIds : List String

structure InboxQuery where
  limit : UInt16
  waitSeconds : UInt8

/-- The check of a field that may be left out. -/
def validateSome (check : String → Except InvalidValue Unit) : Option String →
    Except InvalidValue Unit
  | none => .ok ()
  | some value => check value

def JoinSquadRequest.validate (r : JoinSquadRequest) : Except InvalidValue Unit := do
  MemberName.rule.check r.name
  Role.rule.check r.role
  validateSome Mission.rule.check r.mission
  validateClient r.client

def SendMessageRequest.validate (r : SendMessageRequest) : Except InvalidValue Unit := do
  MemberName.rule.check r.recipient
  validateSome (OpaqueId.check .membership) r.recipientMembershipId
  MessageBody.rule.check r.body
  DedupeKey.rule.check r.dedupeKey
  validateSome (OpaqueId.check .message) r.replyTo
  validateSome CorrelationId.rule.check r.correlationId

def AckMessagesRequest.validate (r : AckMessagesRequest) : Except InvalidValue Unit :=
  if r.messageIds.isEmpty || decide (maxAckMessages < r.messageIds.length) then
    .error ⟨"message_ids", "must contain between 1 and 100 IDs"⟩
  else r.messageIds.forM (OpaqueId.check .message)

def InboxQuery.validate (q : InboxQuery) : Except InvalidValue Unit :=
  if q.limit = 0 ∨ maxInboxMessages < q.limit then .error ⟨"limit", "must be between 1 and 100"⟩
  else if maxWaitSeconds < q.waitSeconds then
    .error ⟨"wait", "must be between 0 and 30 seconds"⟩
  else .ok ()

/-! ## What the checks accept -/

@[simp] theorem validateSome_eq_ok {check : String → Except InvalidValue Unit}
    {value : Option String} :
    validateSome check value = .ok () ↔ ∀ v, value = some v → check v = .ok () := by
  cases value with
  | none => simp [validateSome]
  | some v => simp [validateSome]

theorem bind_eq_ok {x y : Except InvalidValue Unit} :
    (x >>= fun _ => y) = .ok () ↔ x = .ok () ∧ y = .ok () := by
  cases x with
  | error e => simp [bind, Except.bind]
  | ok u => simp [bind, Except.bind]

theorem JoinSquadRequest.validate_eq_ok {r : JoinSquadRequest} :
    r.validate = .ok () ↔ MemberName.rule.check r.name = .ok () ∧ Role.rule.check r.role = .ok ()
      ∧ (∀ mission, r.mission = some mission → Mission.rule.check mission = .ok ())
      ∧ validateClient r.client = .ok () := by
  unfold JoinSquadRequest.validate
  simp only [bind_eq_ok, validateSome_eq_ok]

theorem SendMessageRequest.validate_eq_ok {r : SendMessageRequest} :
    r.validate = .ok () ↔ MemberName.rule.check r.recipient = .ok ()
      ∧ (∀ id, r.recipientMembershipId = some id → OpaqueId.check .membership id = .ok ())
      ∧ MessageBody.rule.check r.body = .ok () ∧ DedupeKey.rule.check r.dedupeKey = .ok ()
      ∧ (∀ id, r.replyTo = some id → OpaqueId.check .message id = .ok ())
      ∧ ∀ id, r.correlationId = some id → CorrelationId.rule.check id = .ok () := by
  unfold SendMessageRequest.validate
  simp only [bind_eq_ok, validateSome_eq_ok]

theorem forM_eq_ok {check : String → Except InvalidValue Unit} {values : List String} :
    values.forM check = .ok () ↔ ∀ v ∈ values, check v = .ok () := by
  induction values with
  | nil => simp [pure, Except.pure]
  | cons v values ih =>
      rw [List.forall_mem_cons, ← ih]
      exact bind_eq_ok

theorem AckMessagesRequest.validate_eq_ok {r : AckMessagesRequest} :
    r.validate = .ok () ↔ 1 ≤ r.messageIds.length ∧ r.messageIds.length ≤ maxAckMessages
      ∧ ∀ id ∈ r.messageIds, OpaqueId.check .message id = .ok () := by
  unfold AckMessagesRequest.validate
  split_ifs with hbounds
  · simp only [Bool.or_eq_true, List.isEmpty_iff, decide_eq_true_eq] at hbounds
    simp only [false_iff, not_and]
    rintro hpos hmax
    rcases hbounds with hempty | hlong
    · rw [hempty] at hpos
      simp at hpos
    · omega
  · simp only [Bool.or_eq_true, List.isEmpty_iff, decide_eq_true_eq, not_or] at hbounds
    obtain ⟨hne, hlong⟩ := hbounds
    have hpos : 1 ≤ r.messageIds.length := List.length_pos_iff.mpr hne
    rw [forM_eq_ok]
    constructor
    · exact fun h => ⟨hpos, by omega, h⟩
    · exact fun h => h.2.2

theorem InboxQuery.validate_eq_ok {q : InboxQuery} :
    q.validate = .ok () ↔ 1 ≤ q.limit.toNat ∧ q.limit.toNat ≤ 100 ∧ q.waitSeconds.toNat ≤ 30 := by
  unfold InboxQuery.validate
  have hzero : q.limit = 0 ↔ q.limit.toNat = 0 := UInt16.toNat_inj.symm
  have hmax : maxInboxMessages < q.limit ↔ 100 < q.limit.toNat := UInt16.lt_iff_toNat_lt
  have hwait : maxWaitSeconds < q.waitSeconds ↔ 30 < q.waitSeconds.toNat := UInt8.lt_iff_toNat_lt
  split_ifs with hlimit hlong
  · rw [hzero, hmax] at hlimit
    simp only [false_iff]
    omega
  · rw [hwait] at hlong
    simp only [false_iff]
    omega
  · rw [hzero, hmax] at hlimit
    rw [hwait] at hlong
    simp only [true_iff]
    omega

end Psst.Protocol
