import Psst.Store.Message

/-!
# The pending inbox and acknowledgement

`inbox.rs`: a bounded read of the unacknowledged messages of one membership in sequence
order, and an atomic acknowledgement of an explicit batch.
-/

namespace Psst

open Table

def maxInboxMessages : Nat := 100

def maxInboxOutputBytes : Nat := 1024 * 1024

def maxAckMessages : Nat := 100

/-! ## Reading -/

/-- Six bytes for every byte of a variable field, and a fixed overhead. No value reaches
the `usize` limit at which the source saturates. -/
def conservativeSerializedSize (message : MessageRecord) : Nat :=
  (message.id.val.utf8ByteSize + message.semantics.squad.val.utf8ByteSize
    + message.semantics.sender.val.utf8ByteSize + message.semantics.recipient.val.utf8ByteSize
    + message.semantics.body.val.utf8ByteSize + message.dedupeKey.val.utf8ByteSize
    + (message.semantics.replyTo.map fun v => v.val.utf8ByteSize).getD 0
    + (message.semantics.correlationId.map fun v => v.val.utf8ByteSize).getD 0) * 6 + 512

/-- A message of `recipient` that has not been acknowledged. -/
def MessageRow.pendingFor (recipient : MembershipId) (m : MessageRow) : Bool :=
  decide (m.recipientMembershipId = recipient) && m.acknowledgedAt.isNone

/-- The rows of a pending inbox, oldest first. -/
def Tables.pendingRows (t : Tables) (recipient : MembershipId) : List MessageRow :=
  (t.messages.filter (MessageRow.pendingFor recipient)).insertionSort
    fun a b => a.sequence ≤ b.sequence

section Reading

variable [Sha256]

/-- The read loop: stop before the first message that would exceed the output budget. -/
def inboxPage : List MessageRow → Nat → List MessageRecord →
    Except RepositoryError (List MessageRecord)
  | [], _, messages => .ok messages
  | row :: rows, estimated, messages => do
    let message ← mapMessage row
    let itemBytes := conservativeSerializedSize message
    let separator := if messages.isEmpty then 0 else 1
    if maxInboxOutputBytes < estimated + separator + itemBytes then
      .ok messages
    else
      inboxPage rows (estimated + separator + itemBytes) (messages ++ [message])

structure InboxQuery where
  recipient : MembershipId
  limit : Nat

def pendingInboxOn (q : InboxQuery) : StoreTx (List MessageRecord) := do
  Tx.require (1 ≤ q.limit ∧ q.limit ≤ maxInboxMessages) .invalidRequest
  let rows ← Tx.query fun s => (s.pendingRows q.recipient).take q.limit
  -- two bytes for the array brackets
  Tx.ofExcept (inboxPage rows 2 [])

def pendingInbox (q : InboxQuery) : StoreTx (List MessageRecord) := pendingInboxOn q

end Reading

/-! ## Acknowledging -/

structure AcknowledgeMessages where
  recipient : MembershipId
  messageIds : List MessageId
  acknowledgedAt : UnixMillis

/-- `EXISTS(SELECT 1 FROM messages WHERE id = ? AND recipient_membership_id = ?)` -/
def Tables.ownsMessage (t : Tables) (recipient : MembershipId) (id : MessageId) : Bool :=
  t.messages.any fun m => decide (m.id = id) && decide (m.recipientMembershipId = recipient)

/-- The first pass: every id must be owned; repeated ids are looked up once. -/
def checkOwned (recipient : MembershipId) : List MessageId → List MessageId →
    StoreTx (List MessageId)
  | [], distinct => pure distinct
  | id :: ids, distinct =>
    if id ∈ distinct then
      checkOwned recipient ids distinct
    else do
      let owned ← Tx.query fun s => s.ownsMessage recipient id
      Tx.require (owned = true) .notFound
      checkOwned recipient ids (distinct ++ [id])

theorem Tables.ownsMessage_eq_true {t : Tables} {recipient : MembershipId} {id : MessageId} :
    t.ownsMessage recipient id = true
      ↔ ∃ m ∈ t.messages, m.id = id ∧ m.recipientMembershipId = recipient := by
  simp [Tables.ownsMessage]

/-- The first pass succeeds, without a write, exactly when every id is owned. -/
theorem checkOwned_of_owned {recipient : MembershipId} {s : Store} (ids : List MessageId) :
    ∀ distinct : List MessageId,
      (∀ id ∈ ids, s.ownsMessage recipient id = true) →
        ∃ d, (checkOwned recipient ids distinct).run s = .ok (d, s)
          ∧ ∀ id, id ∈ d ↔ id ∈ distinct ∨ id ∈ ids := by
  induction ids with
  | nil =>
      intro distinct _
      exact ⟨distinct, rfl, by simp⟩
  | cons id ids ih =>
      intro distinct howned
      have hrest : ∀ id ∈ ids, s.ownsMessage recipient id = true := fun j hj =>
        howned j (List.mem_cons_of_mem _ hj)
      unfold checkOwned
      by_cases hin : id ∈ distinct
      · obtain ⟨d, hd, hmem⟩ := ih distinct hrest
        refine ⟨d, by simpa [hin] using hd, fun j => ?_⟩
        rw [hmem, List.mem_cons]
        constructor
        · rintro (h | h)
          · exact Or.inl h
          · exact Or.inr (Or.inr h)
        · rintro (h | rfl | h)
          · exact Or.inl h
          · exact Or.inl hin
          · exact Or.inr h
      · obtain ⟨d, hd, hmem⟩ := ih (distinct ++ [id]) hrest
        refine ⟨d, ?_, fun j => ?_⟩
        · rw [if_neg hin, Tx.run_query_bind, Tx.run_require_bind,
            if_pos (howned id (List.mem_cons_self ..))]
          exact hd
        · rw [hmem]
          simp [or_assoc]

/-- The first id that is not owned stops the first pass. -/
theorem checkOwned_of_not_owned {recipient : MembershipId} {s : Store} (ids : List MessageId) :
    ∀ distinct : List MessageId,
      (∃ id ∈ ids, id ∉ distinct ∧ s.ownsMessage recipient id = false) →
        (checkOwned recipient ids distinct).run s = .error .notFound := by
  induction ids with
  | nil => simp
  | cons id ids ih =>
      rintro distinct ⟨j, hj, hnot, howned⟩
      unfold checkOwned
      by_cases hin : id ∈ distinct
      · rw [if_pos hin]
        rcases List.mem_cons.mp hj with rfl | hj
        · exact absurd hin hnot
        · exact ih distinct ⟨j, hj, hnot, howned⟩
      · rw [if_neg hin, Tx.run_query_bind, Tx.run_require_bind]
        by_cases hid : s.ownsMessage recipient id = true
        · rw [if_pos hid]
          have hne : j ≠ id := by
            rintro rfl
            rw [howned] at hid
            cases hid
          refine ih _ ⟨j, ?_, ?_, howned⟩
          · exact (List.mem_cons.mp hj).resolve_left hne
          · simp [hnot, hne]
        · rw [if_neg hid]

/-- `UPDATE messages SET acknowledged_at = ? WHERE id = ? AND recipient_membership_id = ? AND
acknowledged_at IS NULL` -/
def Tables.acknowledge (recipient : MembershipId) (acknowledgedAt : UnixMillis) (id : MessageId)
    (t : Tables) : Tables :=
  { t with
    messages := updateWhere (fun m => decide (m.id = id) && m.pendingFor recipient)
      (fun m => { m with acknowledgedAt := some acknowledgedAt }) t.messages }

/-- Acknowledge every pending message of `recipient` whose id is in the batch. -/
def Tables.acknowledgeAll (recipient : MembershipId) (acknowledgedAt : UnixMillis)
    (ids : List MessageId) (t : Tables) : Tables :=
  { t with
    messages := updateWhere (fun m => decide (m.id ∈ ids) && m.pendingFor recipient)
      (fun m => { m with acknowledgedAt := some acknowledgedAt }) t.messages }

/-- Acknowledging touches no constrained column. -/
theorem Tables.Constraints.acknowledgeAll {t : Tables} (h : t.Constraints)
    (recipient : MembershipId) (acknowledgedAt : UnixMillis) (ids : List MessageId) :
    (t.acknowledgeAll recipient acknowledgedAt ids).Constraints := by
  -- each row of the result has a row of `t` with the same constrained columns, and back
  have hback : ∀ m ∈ (t.acknowledgeAll recipient acknowledgedAt ids).messages,
      ∃ o ∈ t.messages, o.id = m.id ∧ o.squadId = m.squadId
        ∧ o.senderMembershipId = m.senderMembershipId
        ∧ o.recipientMembershipId = m.recipientMembershipId ∧ o.replyTo = m.replyTo := by
    intro m hm
    obtain ⟨o, ho, rfl⟩ := mem_updateWhere.mp hm
    refine ⟨o, ho, ?_⟩
    split <;> simp
  have hforth : ∀ o ∈ t.messages, ∃ m ∈ (t.acknowledgeAll recipient acknowledgedAt ids).messages,
      m.id = o.id ∧ m.squadId = o.squadId := by
    intro o ho
    refine ⟨_, mem_updateWhere.mpr ⟨o, ho, rfl⟩, ?_⟩
    split <;> simp
  refine
    { h with
      messageSequence := h.messageSequence.updateWhere fun _ => rfl
      messageId := h.messageId.updateWhere fun _ => rfl
      messageDedupe := h.messageDedupe.updateWhere fun _ => rfl
      messageSender := ?_, messageRecipient := ?_, messageReply := ?_ }
  · intro m hm
    obtain ⟨o, ho, -, hsquad, hsender, -, -⟩ := hback m hm
    obtain ⟨r, hr, hid, hsq⟩ := h.messageSender o ho
    exact ⟨r, hr, hid.trans hsender, hsq.trans hsquad⟩
  · intro m hm
    obtain ⟨o, ho, -, hsquad, -, hrecipient, -⟩ := hback m hm
    obtain ⟨r, hr, hid, hsq⟩ := h.messageRecipient o ho
    exact ⟨r, hr, hid.trans hrecipient, hsq.trans hsquad⟩
  · intro m hm reply hreply
    obtain ⟨o, ho, -, hsquad, -, -, hrep⟩ := hback m hm
    obtain ⟨x, hx, hid, hsq⟩ := h.messageReply o ho reply (hrep ▸ hreply)
    obtain ⟨y, hy, hyid, hysq⟩ := hforth x hx
    exact ⟨y, hy, hyid.trans hid, (hysq.trans hsq).trans hsquad⟩

theorem Tables.acknowledge_eq_acknowledgeAll {recipient : MembershipId} {at' : UnixMillis}
    {id : MessageId} {t : Tables} :
    t.acknowledge recipient at' id = t.acknowledgeAll recipient at' [id] := by
  simp [Tables.acknowledge, Tables.acknowledgeAll]

/-- Acknowledging a row and then a batch acknowledges the row at the first reading. -/
theorem Tables.acknowledgeAll_cons {recipient : MembershipId} {at' : UnixMillis} {id : MessageId}
    {ids : List MessageId} {t : Tables} :
    (t.acknowledge recipient at' id).acknowledgeAll recipient at' ids
      = t.acknowledgeAll recipient at' (id :: ids) := by
  simp only [Tables.acknowledge, Tables.acknowledgeAll, updateWhere, List.map_map]
  congr 1
  apply List.map_congr_left
  intro m _
  by_cases hp : m.pendingFor recipient = true
  · by_cases hid : m.id = id
    · simp [hp, hid]
    · simp [hp, hid]
  · simp [hp]

/-- The second pass, one update per distinct id. The source iterates a hash set, so the
order is arbitrary; `acknowledgeEach_run` shows that only the set matters. -/
def acknowledgeEach (recipient : MembershipId) (acknowledgedAt : UnixMillis) :
    List MessageId → StoreTx Unit
  | [] => pure ()
  | id :: ids => do
    StoreTx.write (Tables.acknowledge recipient acknowledgedAt id)
    acknowledgeEach recipient acknowledgedAt ids

theorem acknowledgeEach_run {recipient : MembershipId} {at' : UnixMillis} (ids : List MessageId) :
    ∀ s : Store, (acknowledgeEach recipient at' ids).run s
      = .ok ((), ⟨_, s.constraints.acknowledgeAll recipient at' ids⟩) := by
  induction ids with
  | nil =>
      intro s
      have hself : s.toTables.acknowledgeAll recipient at' [] = s.toTables := by
        simp [Tables.acknowledgeAll, updateWhere_eq_self]
      simp only [acknowledgeEach, Tx.run_pure]
      exact congrArg _ (Prod.ext rfl (Store.ext_tables hself.symm))
  | cons id ids ih =>
      intro s
      have hstep : (s.toTables.acknowledge recipient at' id).Constraints := by
        rw [Tables.acknowledge_eq_acknowledgeAll]
        exact s.constraints.acknowledgeAll recipient at' [id]
      unfold acknowledgeEach
      rw [Tx.run_bind_of_ok _ (StoreTx.write_run_of_constraints hstep), ih]
      exact congrArg _ (Prod.ext rfl (Store.ext_tables Tables.acknowledgeAll_cons))

def acknowledgeOn (request : AcknowledgeMessages) : StoreTx Unit := do
  let distinct ← checkOwned request.recipient request.messageIds []
  acknowledgeEach request.recipient request.acknowledgedAt distinct

/-- **All or nothing, successfully.** A batch of owned ids acknowledges exactly the pending
messages of the recipient among them; repetitions and order do not matter. -/
theorem acknowledgeOn_of_owned {request : AcknowledgeMessages} {s : Store}
    (howned : ∀ id ∈ request.messageIds, s.ownsMessage request.recipient id = true) :
    (acknowledgeOn request).run s = .ok ((), ⟨_, s.constraints.acknowledgeAll request.recipient
      request.acknowledgedAt request.messageIds⟩) := by
  obtain ⟨d, hd, hmem⟩ := checkOwned_of_owned request.messageIds [] howned
  unfold acknowledgeOn
  rw [Tx.run_bind_of_ok _ hd, acknowledgeEach_run]
  refine congrArg _ (Prod.ext rfl (Store.ext_tables ?_))
  have hsame : ∀ m : MessageRow, decide (m.id ∈ d) = decide (m.id ∈ request.messageIds) := by
    intro m
    simp [hmem]
  simp only [Tables.acknowledgeAll, hsame]

/-- **All or nothing, refused.** One id that is unknown or foreign fails the batch. -/
theorem acknowledgeOn_of_not_owned {request : AcknowledgeMessages} {s : Store}
    (h : ∃ id ∈ request.messageIds, s.ownsMessage request.recipient id = false) :
    (acknowledgeOn request).run s = .error .notFound := by
  obtain ⟨id, hid, hnot⟩ := h
  unfold acknowledgeOn
  rw [Tx.run_bind_of_error _ (checkOwned_of_not_owned _ _ ⟨id, hid, by simp, hnot⟩)]

theorem acknowledgeOn_eq_ok {request : AcknowledgeMessages} {s s' : Store} {u : Unit}
    (h : (acknowledgeOn request).run s = .ok (u, s')) :
    (∀ id ∈ request.messageIds, s.ownsMessage request.recipient id = true)
      ∧ s'.toTables = s.toTables.acknowledgeAll request.recipient request.acknowledgedAt
          request.messageIds := by
  by_cases howned : ∀ id ∈ request.messageIds, s.ownsMessage request.recipient id = true
  · rw [acknowledgeOn_of_owned howned] at h
    cases h
    exact ⟨howned, rfl⟩
  · push Not at howned
    obtain ⟨id, hid, hnot⟩ := howned
    rw [acknowledgeOn_of_not_owned ⟨id, hid, by simpa using hnot⟩] at h
    cases h

def acknowledgeMessages (request : AcknowledgeMessages) : StoreTx Unit := do
  Tx.require (1 ≤ request.messageIds.length ∧ request.messageIds.length ≤ maxAckMessages)
    .invalidRequest
  acknowledgeOn request

end Psst
