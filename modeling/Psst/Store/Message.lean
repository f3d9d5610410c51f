import Psst.Store.Instance

/-!
# Durable sends

`message.rs`: a send is looked up by its dedupe key before anything is authorized, so an
exact retry returns the stored record whatever happened to its sender since. The body is
stored with its digest, and every read of the row checks it.
-/

namespace Psst

open Table

structure SendMessage where
  id : MessageId
  semantics : MessageSemantics
  dedupeKey : DedupeKey
  createdAt : UnixMillis

/-- `MessageRecord`: the immutable part of a stored message. -/
structure MessageRecord where
  sequence : Nat
  id : MessageId
  semantics : MessageSemantics
  dedupeKey : DedupeKey
  createdAt : UnixMillis
  deriving DecidableEq

/-- The record a message row is read back as. -/
def MessageRow.record (m : MessageRow) : MessageRecord where
  sequence := m.sequence
  id := m.id
  semantics := m.semantics
  dedupeKey := m.dedupeKey
  createdAt := m.createdAt

/-- The row with this (squad, sender, dedupe key). -/
def Tables.messageByDedupe (t : Tables) (squad : SquadId) (sender : MembershipId)
    (key : DedupeKey) : Option MessageRow :=
  t.messages.find? fun m => decide ((m.squadId, m.senderMembershipId, m.dedupeKey)
    = (squad, sender, key))

theorem Store.messageByDedupe_eq_some {s : Store} {squad : SquadId} {sender : MembershipId}
    {key : DedupeKey} {m : MessageRow} :
    s.messageByDedupe squad sender key = some m
      ↔ m ∈ s.messages ∧ (m.squadId, m.senderMembershipId, m.dedupeKey) = (squad, sender, key) :=
  s.constraints.messageDedupe.find?_eq_some

/-! ## Authorization of a new send -/

def authorizeSquadAndMembers (semantics : MessageSemantics) : StoreTx Unit := do
  let found ← Tx.query fun s => s.squadById semantics.squad
  let squad ← Tx.expect found .notFound
  Tx.require (squad.state = .active) .squadArchived
  let senderActive ← Tx.query fun s => s.activeMember semantics.squad semantics.sender
  Tx.require (senderActive = true) .notMember
  let recipientActive ← Tx.query fun s => s.activeMember semantics.squad semantics.recipient
  Tx.require (recipientActive = true) .recipientNotFound

@[simp] theorem authorizeSquadAndMembers_eq_ok {semantics : MessageSemantics} {s s' : Store}
    {u : Unit} :
    (authorizeSquadAndMembers semantics).run s = .ok (u, s')
      ↔ (∃ q ∈ s.squads, q.id = semantics.squad ∧ q.state = .active)
          ∧ (∃ m ∈ s.memberships, m.id = semantics.sender ∧ m.squadId = semantics.squad
              ∧ m.leftAt = none)
          ∧ (∃ m ∈ s.memberships, m.id = semantics.recipient ∧ m.squadId = semantics.squad
              ∧ m.leftAt = none) ∧ s = s' := by
  simp only [authorizeSquadAndMembers, Tx.bind_eq_ok, Tx.query_eq_ok, Tx.expect_eq_ok,
    Tx.require_eq_ok]
  constructor
  · rintro ⟨_, _, ⟨rfl, rfl⟩, q, _, ⟨hq, rfl⟩, _, _, ⟨hactive, rfl⟩, _, _, ⟨rfl, rfl⟩, _, _,
      ⟨hsender, rfl⟩, _, _, ⟨rfl, rfl⟩, hrecipient, rfl⟩
    obtain ⟨hmem, hid⟩ := s.squadById_eq_some.mp hq
    exact ⟨⟨q, hmem, hid, hactive⟩, s.activeMember_eq_true.mp hsender,
      s.activeMember_eq_true.mp hrecipient, rfl⟩
  · rintro ⟨⟨q, hmem, hid, hactive⟩, hsender, hrecipient, rfl⟩
    exact ⟨_, s, ⟨rfl, rfl⟩, q, s, ⟨s.squadById_eq_some.mpr ⟨hmem, hid⟩, rfl⟩, (), s,
      ⟨hactive, rfl⟩, _, s, ⟨rfl, rfl⟩, (), s, ⟨s.activeMember_eq_true.mpr hsender, rfl⟩, _, s,
      ⟨rfl, rfl⟩, s.activeMember_eq_true.mpr hrecipient, rfl⟩

def authorizeReply (semantics : MessageSemantics) : StoreTx Unit :=
  match semantics.replyTo with
  | none => pure ()
  | some replyTo => do
    let valid ← Tx.query fun s => s.messages.any fun m =>
      decide (m.id = replyTo) && decide (m.squadId = semantics.squad)
    Tx.require (valid = true) .invalidRequest

theorem authorizeReply_state {semantics : MessageSemantics} {s s' : Store} {u : Unit}
    (h : (authorizeReply semantics).run s = .ok (u, s')) : s = s' := by
  unfold authorizeReply at h
  split at h
  · simpa using h
  · simp at h
    exact h.2

/-! ## Retries and inserts -/

variable [Sha256]

def bodyDigest (body : MessageBody) : Digest := Sha256.digest (asBytes body.val)

/-- `map_message`: decode a row, refusing a body that does not match its digest. -/
def mapMessage (m : MessageRow) : Except RepositoryError MessageRecord :=
  if m.bodyHash = bodyDigest m.body then .ok m.record else .error .invalidStoredData

@[simp] theorem mapMessage_eq_ok {m : MessageRow} {record : MessageRecord} :
    mapMessage m = .ok record ↔ m.bodyHash = bodyDigest m.body ∧ m.record = record := by
  unfold mapMessage
  split <;> simp_all

def findByDedupe (request : SendMessage) : StoreTx (Option MessageRecord) := do
  let row ← Tx.query fun s =>
    s.messageByDedupe request.semantics.squad request.semantics.sender request.dedupeKey
  match row with
  | none => pure none
  | some m => do
    let record ← Tx.ofExcept (mapMessage m)
    pure (some record)

/-- `resolve_retry`: the stored record, a conflict, or nothing yet. -/
def resolveRetry (request : SendMessage) : StoreTx (Option MessageRecord) := do
  let existing ← findByDedupe request
  match existing with
  | none => pure none
  | some record => do
    Tx.require (record.semantics = request.semantics) .idempotencyConflict
    pure (some record)

theorem resolveRetry_eq_none {request : SendMessage} {s s' : Store} :
    (resolveRetry request).run s = .ok (none, s')
      ↔ s.messageByDedupe request.semantics.squad request.semantics.sender request.dedupeKey = none
          ∧ s = s' := by
  simp only [resolveRetry, findByDedupe, Tx.bind_eq_ok, Tx.query_eq_ok]
  cases hfound : s.messageByDedupe request.semantics.squad request.semantics.sender
      request.dedupeKey with
  | none => simp
  | some m => simp

theorem resolveRetry_eq_some {request : SendMessage} {record : MessageRecord} {s s' : Store} :
    (resolveRetry request).run s = .ok (some record, s')
      ↔ ∃ m, s.messageByDedupe request.semantics.squad request.semantics.sender request.dedupeKey
            = some m
          ∧ m.bodyHash = bodyDigest m.body ∧ m.semantics = request.semantics
          ∧ m.record = record ∧ s = s' := by
  simp only [resolveRetry, findByDedupe, Tx.bind_eq_ok, Tx.query_eq_ok]
  cases hfound : s.messageByDedupe request.semantics.squad request.semantics.sender
      request.dedupeKey with
  | none => simp
  | some m =>
      have hsem : m.record.semantics = m.semantics := rfl
      simp [hsem, and_assoc, and_comm, and_left_comm]

/-- The row a new send inserts at sequence `n`. -/
def SendMessage.row (request : SendMessage) (n : Nat) : MessageRow where
  sequence := n
  id := request.id
  squadId := request.semantics.squad
  senderMembershipId := request.semantics.sender
  recipientMembershipId := request.semantics.recipient
  body := request.semantics.body
  bodyHash := bodyDigest request.semantics.body
  priority := request.semantics.priority
  replyTo := request.semantics.replyTo
  correlationId := request.semantics.correlationId
  dedupeKey := request.dedupeKey
  createdAt := request.createdAt
  acknowledgedAt := none

/-- `AUTOINCREMENT`: one past the larger of the high-water mark and the largest sequence. -/
def Tables.nextSequence (t : Tables) : Nat :=
  (t.messages.foldl (fun n m => max n m.sequence) t.sqliteSequence) + 1

/-- Insert a message row, advancing the sequence. -/
def Tables.insertMessage (request : SendMessage) (t : Tables) : Tables :=
  { t with
    messages := t.messages ++ [request.row t.nextSequence]
    sqliteSequence := t.nextSequence }

def sendInTransaction (request : SendMessage) : StoreTx MessageRecord := do
  let retry ← resolveRetry request
  match retry with
  | some record => pure record
  | none => do
    authorizeSquadAndMembers request.semantics
    authorizeReply request.semantics
    let sequence ← Tx.query fun s => s.nextSequence
    StoreTx.write (Tables.insertMessage request)
    pure (request.row sequence).record

/-- **A send either replays the stored record or inserts one row.** -/
theorem sendInTransaction_eq_ok {request : SendMessage} {record : MessageRecord} {s s' : Store}
    (h : (sendInTransaction request).run s = .ok (record, s')) :
    ((resolveRetry request).run s = .ok (some record, s) ∧ s' = s)
      ∨ (s.messageByDedupe request.semantics.squad request.semantics.sender request.dedupeKey = none
        ∧ (authorizeSquadAndMembers request.semantics).run s = .ok ((), s)
        ∧ s'.toTables = s.toTables.insertMessage request
        ∧ record = (request.row s.nextSequence).record) := by
  simp only [sendInTransaction, Tx.bind_eq_ok] at h
  obtain ⟨retry, t, hretry, h⟩ := h
  cases retry with
  | some r =>
      cases h
      obtain ⟨m, hm, hhash, hsem, hrec, rfl⟩ := resolveRetry_eq_some.mp hretry
      exact Or.inl ⟨hretry, rfl⟩
  | none =>
      obtain ⟨hnone, rfl⟩ := resolveRetry_eq_none.mp hretry
      simp only [Tx.bind_eq_ok, Tx.query_eq_ok, StoreTx.write_eq_ok, Tx.pure_eq_ok] at h
      obtain ⟨_, t, hauth, _, t', hreply, _, _, ⟨rfl, rfl⟩, _, t'', hwrite, rfl, rfl⟩ := h
      have hst : s = t := (authorizeSquadAndMembers_eq_ok.mp hauth).2.2.2
      have htt : t = t' := authorizeReply_state hreply
      subst hst htt
      exact Or.inr ⟨hnone, hauth, hwrite, rfl⟩

def sendMessage (request : SendMessage) : StoreTx MessageRecord := sendInTransaction request

end Psst
