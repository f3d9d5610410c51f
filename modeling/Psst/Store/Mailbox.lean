import Psst.Store.Idempotency

/-!
# Mailboxes

The message table refines one abstract mailbox per membership. A mailbox holds the pending
messages in commit order and remembers what was acknowledged and when; it changes only by a
delivery at its end or by a batch its own member acknowledges. Reading it never changes it.
-/

namespace Psst

open Table Relation

/-! ## The abstract mailbox -/

/-- What one member sees: pending messages, oldest first, and acknowledgement times. -/
@[ext]
structure Mailbox where
  pending : List MessageRecord
  acknowledged : Set (MessageId × UnixMillis)

/-- A delivery, or a batch the member acknowledges; `batch` says which batches it may. -/
inductive Mailbox.Step (batch : List MessageId → Prop) : Mailbox → Mailbox → Prop where
  | deliver (b : Mailbox) (record : MessageRecord) :
      Step batch b { b with pending := b.pending ++ [record] }
  | acknowledge (b : Mailbox) (ids : List MessageId) (now : UnixMillis) (hbatch : batch ids) :
      Step batch b
        { pending := b.pending.filter fun record => decide (record.id ∉ ids)
          acknowledged := b.acknowledged
            ∪ {p | p.2 = now ∧ p.1 ∈ ids ∧ ∃ record ∈ b.pending, record.id = p.1} }

abbrev Mailbox.Steps (batch : List MessageId → Prop) : Mailbox → Mailbox → Prop :=
  ReflTransGen (Mailbox.Step batch)

namespace Mailbox

variable {batch : List MessageId → Prop} {b b' : Mailbox}

/-- A pending message stays pending until a batch names it. -/
theorem Steps.pending_mem (h : Steps batch b b') {record : MessageRecord}
    (hmem : record ∈ b.pending) (hnot : ∀ ids, batch ids → record.id ∉ ids) :
    record ∈ b'.pending := by
  induction h with
  | refl => exact hmem
  | tail _ hstep ih =>
      cases hstep with
      | deliver new => exact List.mem_append_left _ ih
      | acknowledge ids now hbatch =>
          exact List.mem_filter.mpr ⟨ih, by simpa using hnot ids hbatch⟩

/-- Acknowledgements are never forgotten. -/
theorem Steps.acknowledged_mem (h : Steps batch b b') {p : MessageId × UnixMillis}
    (hmem : p ∈ b.acknowledged) : p ∈ b'.acknowledged := by
  induction h with
  | refl => exact hmem
  | tail _ hstep ih =>
      cases hstep with
      | deliver new => exact ih
      | acknowledge ids now hbatch => exact Or.inl ih

end Mailbox

/-! ## Sequence order -/

/-- Rows are stored in the order of their sequence numbers. -/
def Store.Sequenced (s : Store) : Prop :=
  (s.messages.map MessageRow.sequence).Pairwise (· < ·)

theorem foldl_max_ge (rows : List MessageRow) :
    ∀ n, n ≤ rows.foldl (fun n m => max n m.sequence) n
      ∧ ∀ m ∈ rows, m.sequence ≤ rows.foldl (fun n m => max n m.sequence) n := by
  induction rows with
  | nil => simp
  | cons r rows ih =>
      intro n
      obtain ⟨hle, hall⟩ := ih (max n r.sequence)
      refine ⟨(le_max_left _ _).trans hle, fun m hm => ?_⟩
      rcases List.mem_cons.mp hm with rfl | hm
      · exact (le_max_right _ _).trans hle
      · exact hall m hm

/-- The next sequence number is above every stored one. -/
theorem Tables.sequence_lt_next (t : Tables) {m : MessageRow} (hm : m ∈ t.messages) :
    m.sequence < t.nextSequence :=
  Nat.lt_succ_of_le ((foldl_max_ge t.messages t.sqliteSequence).2 m hm)

/-- In sequence order the pending rows are the stored pending rows. -/
theorem Store.Sequenced.pendingRows_eq {s : Store} (h : s.Sequenced) (r : MembershipId) :
    s.pendingRows r = s.messages.filter (MessageRow.pendingFor r) := by
  refine List.Pairwise.insertionSort_eq ?_
  have hle : s.messages.Pairwise fun a b => a.sequence ≤ b.sequence :=
    (List.pairwise_map.mp h).imp Nat.le_of_lt
  exact hle.filter _

/-- The mailbox the message table stands for. -/
def Store.mailbox (s : Store) (r : MembershipId) : Mailbox where
  pending := (s.messages.filter (MessageRow.pendingFor r)).map MessageRow.record
  acknowledged := {p | ∃ m ∈ s.messages, m.recipientMembershipId = r ∧ m.id = p.1
    ∧ m.acknowledgedAt = some p.2}

theorem Store.mem_pending {s : Store} {r : MembershipId} {record : MessageRecord} :
    record ∈ (s.mailbox r).pending
      ↔ ∃ m ∈ s.messages, m.recipientMembershipId = r ∧ m.acknowledgedAt = none
          ∧ m.record = record := by
  simp [Store.mailbox, MessageRow.pendingFor, and_assoc]

/-- An acknowledged id has one acknowledgement time and is not pending. -/
theorem Store.acknowledged_unique {s : Store} {r : MembershipId} {id : MessageId}
    {now : UnixMillis} (h : (id, now) ∈ (s.mailbox r).acknowledged) :
    (∀ now', (id, now') ∈ (s.mailbox r).acknowledged → now' = now)
      ∧ ∀ record ∈ (s.mailbox r).pending, record.id ≠ id := by
  obtain ⟨m, hm, -, hid, hack⟩ := h
  constructor
  · rintro now' ⟨m', hm', -, hid', hack'⟩
    rw [s.constraints.messageId.eq hm' hm (hid'.trans hid.symm), hack] at hack'
    exact (Option.some.inj hack').symm
  · intro record hrec heq
    obtain ⟨m', hm', -, hnone, rfl⟩ := Store.mem_pending.mp hrec
    rw [s.constraints.messageId.eq hm' hm (heq.trans hid.symm), hack] at hnone
    cases hnone

/-! ## Acknowledging a batch -/

section Acknowledging

variable {r recipient : MembershipId} {now : UnixMillis} {ids : List MessageId} {t : Tables}

/-- A member's own batch removes exactly the named rows from its pending rows. -/
theorem Tables.pending_acknowledgeAll_self :
    (t.acknowledgeAll r now ids).messages.filter (MessageRow.pendingFor r)
      = (t.messages.filter (MessageRow.pendingFor r)).filter fun m => !decide (m.id ∈ ids) :=
  filter_updateWhere_out t.messages fun m _ => by simp [MessageRow.pendingFor]

/-- Another member's batch does not touch the pending rows. -/
theorem Tables.pending_acknowledgeAll_other (hne : recipient ≠ r) :
    (t.acknowledgeAll recipient now ids).messages.filter (MessageRow.pendingFor r)
      = t.messages.filter (MessageRow.pendingFor r) := by
  refine filter_updateWhere_of_out t.messages fun m hm => ?_
  simp [MessageRow.pendingFor] at hm
  simp [MessageRow.pendingFor, hm.2.1, hne]

/-- A member's own batch adds its pending, named rows to the acknowledged ones. -/
theorem Tables.acknowledged_acknowledgeAll {id : MessageId} {at' : UnixMillis} :
    (∃ m ∈ (t.acknowledgeAll r now ids).messages, m.recipientMembershipId = r ∧ m.id = id
        ∧ m.acknowledgedAt = some at')
      ↔ (∃ m ∈ t.messages, m.recipientMembershipId = r ∧ m.id = id ∧ m.acknowledgedAt = some at')
        ∨ (at' = now ∧ id ∈ ids ∧ ∃ m ∈ t.messages, m.pendingFor r = true ∧ m.id = id) := by
  simp only [Tables.acknowledgeAll, mem_updateWhere]
  constructor
  · rintro ⟨m, ⟨o, ho, rfl⟩, hrec, hid, hack⟩
    split at hrec
    · rename_i hupd
      simp only [hupd, if_true] at hid hack
      simp only [Bool.and_eq_true, decide_eq_true_eq] at hupd
      cases hack
      exact Or.inr ⟨rfl, hid ▸ hupd.1, o, ho, hupd.2, hid⟩
    · rename_i hupd
      simp only [hupd] at hid hack
      exact Or.inl ⟨o, ho, hrec, hid, hack⟩
  · rintro (⟨m, hm, hrec, hid, hack⟩ | ⟨rfl, hin, m, hm, hpending, hid⟩)
    · have hnot : m.pendingFor r = false := by simp [MessageRow.pendingFor, hack]
      exact ⟨m, ⟨m, hm, by simp [hnot]⟩, hrec, hid, hack⟩
    · have hrec : m.recipientMembershipId = r := by
        simp [MessageRow.pendingFor] at hpending
        exact hpending.1
      exact ⟨{ m with acknowledgedAt := some at' }, ⟨m, hm, by simp [hid, hin, hpending]⟩, hrec,
        hid, rfl⟩

/-- Another member's batch acknowledges nothing for `r`. -/
theorem Tables.acknowledged_acknowledgeAll_other (hne : recipient ≠ r) {id : MessageId}
    {at' : UnixMillis} :
    (∃ m ∈ (t.acknowledgeAll recipient now ids).messages, m.recipientMembershipId = r ∧ m.id = id
        ∧ m.acknowledgedAt = some at')
      ↔ ∃ m ∈ t.messages, m.recipientMembershipId = r ∧ m.id = id
          ∧ m.acknowledgedAt = some at' := by
  have hrow : ∀ o : MessageRow, o.recipientMembershipId = r → o.pendingFor recipient = false := by
    intro o ho
    simp [MessageRow.pendingFor, ho, hne.symm]
  simp only [Tables.acknowledgeAll, mem_updateWhere]
  constructor
  · rintro ⟨m, ⟨o, ho, rfl⟩, hrec, hid, hack⟩
    have horec : o.recipientMembershipId = r := by
      split at hrec <;> exact hrec
    simp only [hrow o horec, Bool.and_false, Bool.false_eq_true, if_false] at hid hack
    exact ⟨o, ho, horec, hid, hack⟩
  · rintro ⟨m, hm, hrec, hid, hack⟩
    exact ⟨m, ⟨m, hm, by simp [hrow m hrec]⟩, hrec, hid, hack⟩

/-- Repeating a committed batch, in any order and with any repetitions, changes nothing. -/
theorem acknowledgeOn_again {s t : Store} {ids' : List MessageId} {now' : UnixMillis}
    (h : (acknowledgeOn ⟨r, ids, now⟩).run s = .ok ((), t)) (hsub : ∀ id ∈ ids', id ∈ ids) :
    (acknowledgeOn ⟨r, ids', now'⟩).run t = .ok ((), t) := by
  obtain ⟨howned, htables⟩ := acknowledgeOn_eq_ok h
  have howned' : ∀ id ∈ ids', t.ownsMessage r id = true := by
    intro id hid
    obtain ⟨m, hm, hmid, hrec⟩ := Tables.ownsMessage_eq_true.mp (howned id (hsub id hid))
    refine Tables.ownsMessage_eq_true.mpr
      ⟨_, by rw [htables]; exact mem_updateWhere.mpr ⟨m, hm, rfl⟩, ?_⟩
    split <;> exact ⟨hmid, hrec⟩
  rw [acknowledgeOn_of_owned howned']
  refine congrArg _ (Prod.ext rfl (Store.ext_tables ?_))
  -- nothing in the batch is pending any more
  have hself : updateWhere (fun m => decide (m.id ∈ ids') && m.pendingFor r)
      (fun m => { m with acknowledgedAt := some now' }) t.messages = t.messages := by
    refine updateWhere_eq_self fun m hm hupd => ?_
    simp only [Bool.and_eq_true, decide_eq_true_eq] at hupd
    have hmem : m ∈ t.messages.filter (MessageRow.pendingFor r) :=
      List.mem_filter.mpr ⟨hm, hupd.2⟩
    rw [htables, Tables.pending_acknowledgeAll_self] at hmem
    have hnot := (List.mem_filter.mp hmem).2
    simp only [Bool.not_eq_true', decide_eq_false_iff_not] at hnot
    exact absurd (hsub m.id hupd.1) hnot
  exact Tables.ext rfl rfl rfl rfl hself rfl

end Acknowledging

/-! ## Simulation -/

section Simulation

variable [Sha256] {c : Context} {s s' : Store}

theorem Change.sequenced (h : Change c s s') (hs : s.Sequenced) : s'.Sequenced := by
  unfold Store.Sequenced
  rcases h.messages_cases with heq | ⟨request, heq⟩ | ⟨recipient, now, ids, -, heq⟩
  · rw [heq]
    exact hs
  · rw [heq, List.map_append, List.pairwise_append]
    refine ⟨hs, List.pairwise_singleton _ _, ?_⟩
    intro a ha b hb
    obtain ⟨m, hm, rfl⟩ := List.mem_map.mp ha
    simp only [List.map_cons, List.map_nil, List.mem_singleton] at hb
    rw [hb]
    exact s.toTables.sequence_lt_next hm
  · have hcolumn : (s.toTables.acknowledgeAll recipient now ids).messages.map MessageRow.sequence
        = s.messages.map MessageRow.sequence :=
      map_updateWhere MessageRow.sequence (by intro m; rfl)
    rw [heq, hcolumn]
    exact hs

/-- **Each change is a mailbox step or leaves the mailbox alone.** -/
theorem Change.mailbox (h : Change c s s') (r : MembershipId) :
    Mailbox.Steps (c.acknowledges r) (s.mailbox r) (s'.mailbox r) := by
  rcases h.messages_cases with heq | ⟨request, heq⟩ | ⟨recipient, now, ids, hbatch, heq⟩
  · have : s'.mailbox r = s.mailbox r := by simp only [Store.mailbox, heq]
    rw [this]
  · -- a new row is pending for its recipient and acknowledged by nobody
    have hack : (s'.mailbox r).acknowledged = (s.mailbox r).acknowledged := by
      ext p
      simp only [Store.mailbox, heq, Set.mem_ofPred_eq, List.mem_append, List.mem_singleton]
      constructor
      · rintro ⟨m, hm | rfl, hrec, hid, hacked⟩
        · exact ⟨m, hm, hrec, hid, hacked⟩
        · cases hacked
      · rintro ⟨m, hm, rest⟩
        exact ⟨m, Or.inl hm, rest⟩
    by_cases hrec : request.semantics.recipient = r
    · have hpending : MessageRow.pendingFor r (request.row s.nextSequence) = true := by
        simp [MessageRow.pendingFor, SendMessage.row, hrec]
      have hbox : s'.mailbox r
          = { s.mailbox r with
              pending := (s.mailbox r).pending ++ [(request.row s.nextSequence).record] } := by
        refine Mailbox.ext ?_ hack
        simp [Store.mailbox, heq, hpending]
      rw [hbox]
      exact .single (.deliver _ _)
    · have hpending : MessageRow.pendingFor r (request.row s.nextSequence) = false := by
        simp [MessageRow.pendingFor, SendMessage.row, hrec]
      have hbox : s'.mailbox r = s.mailbox r := by
        refine Mailbox.ext ?_ hack
        simp [Store.mailbox, heq, hpending]
      rw [hbox]
  · by_cases hrec : recipient = r
    · subst hrec
      have hbox : s'.mailbox recipient
          = { pending := (s.mailbox recipient).pending.filter fun record =>
                decide (record.id ∉ ids)
              acknowledged := (s.mailbox recipient).acknowledged
                ∪ {p | p.2 = now ∧ p.1 ∈ ids
                    ∧ ∃ record ∈ (s.mailbox recipient).pending, record.id = p.1} } := by
        refine Mailbox.ext ?_ ?_
        · simp only [Store.mailbox, heq]
          rw [Tables.pending_acknowledgeAll_self, List.filter_map]
          congr 1
          apply List.filter_congr
          intro m _
          rw [Function.comp_apply, decide_not]
          rfl
        · ext p
          simp only [Store.mailbox, heq, Set.mem_ofPred_eq, Set.mem_union]
          rw [Tables.acknowledged_acknowledgeAll]
          simp [MessageRow.record, and_assoc]
      rw [hbox]
      exact .single (.acknowledge _ ids now hbatch)
    · have hbox : s'.mailbox r = s.mailbox r := by
        refine Mailbox.ext ?_ ?_
        · simp only [Store.mailbox, heq]
          rw [Tables.pending_acknowledgeAll_other hrec]
        · ext p
          simp only [Store.mailbox, heq, Set.mem_ofPred_eq]
          rw [Tables.acknowledged_acknowledgeAll_other hrec]
      rw [hbox]

theorem reach_sequenced {ok : Store → Op → Prop} (h : storeLts.Reach ok s) : s.Sequenced := by
  refine h.invariant ?_ ?_
  · rintro s rfl
    exact List.Pairwise.nil
  · rintro s op t hs - rfl
    exact Changes.keeps (fun _ _ hchange => hchange.sequenced) (s.exec_changes_any op) hs

/-- **Each operation is a sequence of mailbox steps**, whose batches it commits itself. -/
theorem Store.exec_mailbox (s : Store) (op : Op) (r : MembershipId) :
    Mailbox.Steps (s.Acknowledges op r) (s.mailbox r) ((s.exec op).mailbox r) := by
  refine Changes.keeps
    (Q := fun t => Mailbox.Steps (s.Acknowledges op r) (s.mailbox r) (t.mailbox r)) ?_
    (s.exec_changes_any op) .refl
  intro t t' hchange ht
  exact ht.trans (hchange.mailbox r)

end Simulation

/-! ## Reading -/

/-- Every message fits a page on its own. -/
theorem conservativeSerializedSize_fits (message : MessageRecord) :
    2 + 0 + conservativeSerializedSize message ≤ maxInboxOutputBytes := by
  have hid := OpaqueId.size_le message.id
  have hsquad := OpaqueId.size_le message.semantics.squad
  have hsender := OpaqueId.size_le message.semantics.sender
  have hrecipient := OpaqueId.size_le message.semantics.recipient
  have hbody := TextRule.size_le _ message.semantics.body
  have hkey := TextRule.size_le _ message.dedupeKey
  have hreply : (message.semantics.replyTo.map fun v => v.val.utf8ByteSize).getD 0 ≤ 128 := by
    cases message.semantics.replyTo with
    | none => simp
    | some v => exact OpaqueId.size_le v
  have hcorrelation :
      (message.semantics.correlationId.map fun v => v.val.utf8ByteSize).getD 0 ≤ 256 := by
    cases message.semantics.correlationId with
    | none => simp
    | some v => exact TextRule.size_le _ v
  simp only [MessageBody.rule, DedupeKey.rule] at hbody hkey
  unfold conservativeSerializedSize maxInboxOutputBytes
  omega

section Reading

variable [Sha256] {s : Store} {r : MembershipId}

/-- One turn of the read loop on a row that decodes. -/
theorem inboxPage_cons {m : MessageRow} (hdigest : m.bodyHash = bodyDigest m.body)
    (rows : List MessageRow) (estimated : Nat) (messages : List MessageRecord) :
    inboxPage (m :: rows) estimated messages
      = if maxInboxOutputBytes < estimated + (if messages.isEmpty then 0 else 1)
            + conservativeSerializedSize m.record then
          .ok messages
        else
          inboxPage rows (estimated + (if messages.isEmpty then 0 else 1)
            + conservativeSerializedSize m.record) (messages ++ [m.record]) := by
  have hmap : mapMessage m = .ok m.record := mapMessage_eq_ok.mpr ⟨hdigest, rfl⟩
  simp only [inboxPage, hmap, bind, Except.bind]

/-- The read loop returns a prefix of the rows it is given. -/
theorem inboxPage_prefix (rows : List MessageRow) :
    ∀ (estimated : Nat) (messages : List MessageRecord),
      (∀ m ∈ rows, m.bodyHash = bodyDigest m.body) →
        ∃ page, inboxPage rows estimated messages = .ok (messages ++ page)
          ∧ page <+: rows.map MessageRow.record := by
  induction rows with
  | nil =>
      intro estimated messages _
      exact ⟨[], by simp [inboxPage], List.prefix_rfl⟩
  | cons m rows ih =>
      intro estimated messages hdigest
      have hrest : ∀ o ∈ rows, o.bodyHash = bodyDigest o.body := fun o ho =>
        hdigest o (List.mem_cons_of_mem _ ho)
      rw [inboxPage_cons (hdigest m (List.mem_cons_self ..))]
      by_cases hfull : maxInboxOutputBytes < estimated + (if messages.isEmpty then 0 else 1)
          + conservativeSerializedSize m.record
      · rw [if_pos hfull]
        exact ⟨[], by simp, List.nil_prefix⟩
      · rw [if_neg hfull]
        obtain ⟨page, hpage, hprefix⟩ := ih _ (messages ++ [m.record]) hrest
        refine ⟨m.record :: page, by rw [hpage]; simp, ?_⟩
        rw [List.map_cons]
        exact (List.prefix_cons_inj _).mpr hprefix

/-- The first row read is always returned. -/
theorem inboxPage_first (m : MessageRow) (rows : List MessageRow)
    (hdigest : ∀ o ∈ m :: rows, o.bodyHash = bodyDigest o.body) :
    ∃ page, inboxPage (m :: rows) 2 [] = .ok (m.record :: page) := by
  have hfits := conservativeSerializedSize_fits m.record
  obtain ⟨page, hpage, -⟩ := inboxPage_prefix rows (2 + 0 + conservativeSerializedSize m.record)
    [m.record] fun o ho => hdigest o (List.mem_cons_of_mem _ ho)
  refine ⟨page, ?_⟩
  rw [inboxPage_cons (hdigest m (List.mem_cons_self ..))]
  simp only [List.isEmpty_nil, if_true]
  rw [if_neg (not_lt.mpr hfits)]
  exact hpage

/-- What a read runs on: the pending rows, cut at the limit. -/
theorem pendingInboxOn_run (hseq : s.Sequenced) {limit : Nat}
    (hlimit : 1 ≤ limit ∧ limit ≤ maxInboxMessages) :
    (pendingInboxOn ⟨r, limit⟩).run s
      = (inboxPage ((s.messages.filter (MessageRow.pendingFor r)).take limit) 2 []).map
          fun page => (page, s) := by
  unfold pendingInboxOn
  rw [Tx.run_require_bind, if_pos hlimit, Tx.run_query_bind, hseq.pendingRows_eq]
  rfl

/-- **A read returns a prefix of the mailbox** and changes nothing. -/
theorem pendingInboxOn_prefix (hreach : storeLts.Reach Lts.always s) {limit : Nat}
    (hlimit : 1 ≤ limit ∧ limit ≤ maxInboxMessages) :
    ∃ page, Tx.commit (pendingInboxOn ⟨r, limit⟩) s = (.ok page, s)
      ∧ page <+: (s.mailbox r).pending := by
  have hdigest := reach_digestsMatch hreach
  obtain ⟨page, hpage, hprefix⟩ := inboxPage_prefix
    ((s.messages.filter (MessageRow.pendingFor r)).take limit) 2 [] fun m hm =>
      hdigest m (List.mem_filter.mp (List.mem_of_mem_take hm)).1
  refine ⟨page, Tx.commit_of_ok ?_, hprefix.trans ?_⟩
  · rw [pendingInboxOn_run (reach_sequenced hreach) hlimit, hpage]
    rfl
  · rw [List.map_take]
    exact List.take_prefix _ _

/-- Acknowledging one owned message through the repository. -/
theorem exec_acknowledge_one {id : MessageId} (now : UnixMillis)
    (howned : s.ownsMessage r id = true) :
    (s.exec (.acknowledgeMessages ⟨r, [id], now⟩)).toTables
      = s.toTables.acknowledgeAll r now [id] := by
  have hrun : (acknowledgeMessages ⟨r, [id], now⟩).run s
      = .ok ((), ⟨_, s.constraints.acknowledgeAll r now [id]⟩) := by
    unfold acknowledgeMessages
    rw [Tx.run_require_bind, if_pos (by simp [maxAckMessages])]
    exact acknowledgeOn_of_owned (by simpa using howned)
  show ((Tx.commit (acknowledgeMessages ⟨r, [id], now⟩) s).2).toTables = _
  rw [Tx.commit_of_ok hrun]

/-- The operation acknowledges, for `r`, one message other than `id`. -/
def AcknowledgesOther (r : MembershipId) (id : MessageId) (_ : Store) (op : Op) : Prop :=
  ∃ other now, other ≠ id ∧ op = .acknowledgeMessages ⟨r, [other], now⟩

/-- Once the messages before it are acknowledged, a pending message is the oldest one. -/
theorem pending_becomes_oldest {m : MessageRow} {post : List MessageRow} (pre : List MessageRow) :
    ∀ s : Store, s.messages.filter (MessageRow.pendingFor r) = pre ++ m :: post →
      ∃ t, storeLts.Steps (AcknowledgesOther r m.id) s t
        ∧ t.messages.filter (MessageRow.pendingFor r) = m :: post := by
  induction pre with
  | nil => exact fun s h => ⟨s, .refl s, h⟩
  | cons p pre ih =>
      intro s h
      have hids : ((p :: (pre ++ m :: post)).map MessageRow.id).Nodup := by
        have hunique := s.constraints.messageId
        unfold UniqueKey UniqueOn at hunique
        rw [List.filter_true] at hunique
        have hsub := (List.filter_sublist (p := MessageRow.pendingFor r)
          (l := s.messages)).map MessageRow.id
        rw [h] at hsub
        exact hunique.sublist hsub
      rw [List.map_cons, List.nodup_cons] at hids
      have hother : ∀ x ∈ pre ++ m :: post, x.id ≠ p.id := fun x hx heq =>
        hids.1 (List.mem_map.mpr ⟨x, hx, heq⟩)
      have hp : p ∈ s.messages ∧ p.pendingFor r = true := by
        rw [← List.mem_filter, h]
        exact List.mem_cons_self ..
      have howned : s.ownsMessage r p.id = true := by
        refine Tables.ownsMessage_eq_true.mpr ⟨p, hp.1, rfl, ?_⟩
        have hpending := hp.2
        simp [MessageRow.pendingFor] at hpending
        exact hpending.1
      let op : Op := .acknowledgeMessages ⟨r, [p.id], p.createdAt⟩
      have htables := exec_acknowledge_one p.createdAt howned
      -- only the acknowledged row leaves the pending ones
      have hleft : (s.exec op).messages.filter (MessageRow.pendingFor r) = pre ++ m :: post := by
        rw [htables, Tables.pending_acknowledgeAll_self, h, List.cons_append,
          List.filter_cons_of_neg (by simp), List.filter_eq_self]
        intro x hx
        simpa using hother x hx
      obtain ⟨t, hsteps, ht⟩ := ih (s.exec op) hleft
      have hfirst : storeLts.Steps (AcknowledgesOther r m.id) s (s.exec op) :=
        (Lts.Steps.refl s).tail ⟨p.id, p.createdAt, (hother m (by simp)).symm, rfl⟩ rfl
      exact ⟨t, hfirst.trans hsteps, ht⟩

/-- **Every pending message can be read**, after its predecessors are acknowledged. -/
theorem pending_is_returned (hreach : storeLts.Reach Lts.always s) {record : MessageRecord}
    (hrecord : record ∈ (s.mailbox r).pending) {limit : Nat}
    (hlimit : 1 ≤ limit ∧ limit ≤ maxInboxMessages) :
    ∃ t page, storeLts.Steps (AcknowledgesOther r record.id) s t
      ∧ Tx.commit (pendingInboxOn ⟨r, limit⟩) t = (.ok page, t) ∧ record ∈ page := by
  obtain ⟨m, hm, rfl⟩ := List.mem_map.mp hrecord
  obtain ⟨pre, post, hsplit⟩ := List.append_of_mem hm
  obtain ⟨t, hsteps, ht⟩ := pending_becomes_oldest pre s hsplit
  have hreach' : storeLts.Reach Lts.always t :=
    hreach.steps (hsteps.mono fun _ _ _ => trivial)
  have hdigest := reach_digestsMatch hreach'
  have htake : (t.messages.filter (MessageRow.pendingFor r)).take limit
      = m :: post.take (limit - 1) := by
    rw [ht, List.take_cons (by omega)]
  obtain ⟨page, hpage⟩ := inboxPage_first m (post.take (limit - 1)) fun o ho => by
    rw [← htake] at ho
    exact hdigest o (List.mem_filter.mp (List.mem_of_mem_take ho)).1
  refine ⟨t, m.record :: page, hsteps, Tx.commit_of_ok ?_, List.mem_cons_self ..⟩
  rw [pendingInboxOn_run (reach_sequenced hreach') hlimit, htake, hpage]
  rfl

end Reading

/-! ## The refinement -/

section Refinement

variable [Sha256] {s : Store} {r : MembershipId}

/-- A batch a session acknowledges is decided by ownership, once the session is authorized. -/
theorem authenticatedAcknowledge_run {session : AuthenticatedSession} {i : InstanceRow}
    {m : MembershipRow} (hauth : s.Authorizes session i m) (ids : List MessageId) :
    (authenticatedAcknowledge session ids).run s
      = (acknowledgeOn ⟨m.id, ids, session.now⟩).run s :=
  Tx.run_bind_of_ok _ (authorizeCurrent_eq_ok.mpr ⟨i, m, hauth, rfl, rfl⟩)

/-- A committed batch is the acknowledgement of its ids and nothing else. -/
theorem Store.Acknowledges.exec_tables {op : Op} {ids : List MessageId}
    (h : s.Acknowledges op r ids) :
    ∃ now, (s.exec op).toTables = s.toTables.acknowledgeAll r now ids := by
  cases op with
  | acknowledgeMessages request =>
      obtain ⟨⟨rfl, rfl⟩, t, hrun⟩ := h
      refine ⟨request.acknowledgedAt, ?_⟩
      have hexec : s.exec (.acknowledgeMessages request) = t :=
        congrArg Prod.snd (Tx.commit_of_ok hrun)
      simp only [acknowledgeMessages, Tx.bind_eq_ok, Tx.require_eq_ok] at hrun
      obtain ⟨_, _, ⟨-, rfl⟩, hon⟩ := hrun
      rw [hexec]
      exact (acknowledgeOn_eq_ok hon).2
  | authenticatedAcknowledge session messageIds =>
      obtain ⟨⟨⟨i, m, hauth, rfl⟩, rfl⟩, t, hrun⟩ := h
      refine ⟨session.now, ?_⟩
      have hexec : s.exec (.authenticatedAcknowledge session ids) = t :=
        congrArg Prod.snd (Tx.commit_of_ok hrun)
      rw [authenticatedAcknowledge_run hauth] at hrun
      rw [hexec]
      exact (acknowledgeOn_eq_ok hrun).2
  | _ => exact h.elim

/-- The message table, read and written by the operations, is a mailbox of `r`. -/
structure MailboxRefinement (s : Store) (r : MembershipId) : Prop where
  /-- a read changes nothing and returns a prefix of the pending messages -/
  read : ∀ limit, 1 ≤ limit ∧ limit ≤ maxInboxMessages →
    ∃ page, Tx.commit (pendingInboxOn ⟨r, limit⟩) s = (.ok page, s)
      ∧ page <+: (s.mailbox r).pending
  /-- every pending message is read once `r` has acknowledged the ones before it -/
  readable : ∀ record ∈ (s.mailbox r).pending, ∀ limit, 1 ≤ limit ∧ limit ≤ maxInboxMessages →
    ∃ t page, storeLts.Steps (AcknowledgesOther r record.id) s t
      ∧ Tx.commit (pendingInboxOn ⟨r, limit⟩) t = (.ok page, t) ∧ record ∈ page
  /-- every operation is a sequence of mailbox steps; its batches are batches `r` commits -/
  simulated : ∀ op, Mailbox.Steps (s.Acknowledges op r) (s.mailbox r) ((s.exec op).mailbox r)
  /-- a message stays pending along every run in which `r` commits no batch that names it -/
  stays : ∀ record ∈ (s.mailbox r).pending, ∀ t,
    storeLts.Steps (fun u op => ∀ ids, u.Acknowledges op r ids → record.id ∉ ids) s t →
      record ∈ (t.mailbox r).pending
  /-- a committed batch acknowledges the pending messages it names -/
  commits : ∀ op ids, s.Acknowledges op r ids →
    ∀ record ∈ (s.mailbox r).pending, record.id ∈ ids →
      ∃ now, (record.id, now) ∈ ((s.exec op).mailbox r).acknowledged
  /-- an acknowledged message keeps its time and is never pending again -/
  final : ∀ id now, (id, now) ∈ (s.mailbox r).acknowledged →
    ∀ t, storeLts.Steps Lts.always s t →
      (∀ now', (id, now') ∈ (t.mailbox r).acknowledged ↔ now' = now)
        ∧ ∀ record ∈ (t.mailbox r).pending, record.id ≠ id
  /-- an unknown or foreign id fails the whole batch, at every entry point -/
  refused : ∀ ids, (∃ id ∈ ids, ∀ m ∈ s.messages, m.id = id → m.recipientMembershipId ≠ r) →
    (∀ now, Tx.commit (acknowledgeOn ⟨r, ids, now⟩) s = (.error .notFound, s))
      ∧ (∀ now, ids.length ≤ maxAckMessages →
          Tx.commit (acknowledgeMessages ⟨r, ids, now⟩) s = (.error .notFound, s))
      ∧ ∀ session i m, s.Authorizes session i m → m.id = r →
          Tx.commit (authenticatedAcknowledge session ids) s = (.error .notFound, s)
  /-- repetitions inside a batch do not matter, and neither does repeating it -/
  idempotent : ∀ ids now t, (acknowledgeOn ⟨r, ids, now⟩).run s = .ok ((), t) →
    (∀ ids', (∀ id, id ∈ ids' ↔ id ∈ ids) →
        (acknowledgeOn ⟨r, ids', now⟩).run s = .ok ((), t))
      ∧ ∀ ids' now', (∀ id ∈ ids', id ∈ ids) →
          (acknowledgeOn ⟨r, ids', now'⟩).run t = .ok ((), t)

/-- **Mailbox refinement.** In every reachable state and for every membership, the message
table is that membership's mailbox. -/
theorem mailbox_refinement (hreach : storeLts.Reach Lts.always s) (r : MembershipId) :
    MailboxRefinement s r where
  read _ hlimit := pendingInboxOn_prefix hreach hlimit
  readable _ hrecord _ hlimit := pending_is_returned hreach hrecord hlimit
  simulated op := s.exec_mailbox op r
  stays record hrecord t hsteps := by
    refine hsteps.keeps (P := fun u => record ∈ (u.mailbox r).pending) ?_ hrecord
    rintro u op v hu hnot rfl
    exact (u.exec_mailbox op r).pending_mem hu hnot
  commits op ids hack record hrecord hin := by
    obtain ⟨now, htables⟩ := hack.exec_tables
    obtain ⟨m, hm, hrec, hnone, rfl⟩ := Store.mem_pending.mp hrecord
    refine ⟨now, ?_⟩
    show ∃ o ∈ (s.exec op).messages, _
    rw [htables]
    refine Tables.acknowledged_acknowledgeAll.mpr (Or.inr ⟨rfl, hin, m, hm, ?_, rfl⟩)
    simp [MessageRow.pendingFor, hrec, hnone]
  final id now hack t hsteps := by
    have hlater : (id, now) ∈ (t.mailbox r).acknowledged := by
      refine hsteps.keeps (P := fun u => (id, now) ∈ (u.mailbox r).acknowledged) ?_ hack
      rintro u op v hu - rfl
      exact (u.exec_mailbox op r).acknowledged_mem hu
    obtain ⟨htime, hpending⟩ := Store.acknowledged_unique hlater
    exact ⟨fun now' => ⟨htime now', fun h => h ▸ hlater⟩, hpending⟩
  refused ids hbad := by
    have howns : ∃ id ∈ ids, s.ownsMessage r id = false := by
      obtain ⟨id, hid, hforeign⟩ := hbad
      refine ⟨id, hid, Bool.eq_false_iff.mpr fun h => ?_⟩
      obtain ⟨m, hm, hmid, hrec⟩ := Tables.ownsMessage_eq_true.mp h
      exact hforeign m hm hmid hrec
    have hon : ∀ now, (acknowledgeOn ⟨r, ids, now⟩).run s = .error .notFound := fun now =>
      acknowledgeOn_of_not_owned howns
    refine ⟨fun now => Tx.commit_of_error (hon now), fun now hlen => Tx.commit_of_error ?_, ?_⟩
    · have hpos : 1 ≤ ids.length := by
        obtain ⟨id, hid, -⟩ := howns
        exact List.length_pos_of_mem hid
      unfold acknowledgeMessages
      rw [Tx.run_require_bind, if_pos ⟨hpos, hlen⟩]
      exact hon now
    · rintro session i m hauth rfl
      refine Tx.commit_of_error ?_
      rw [authenticatedAcknowledge_run hauth]
      exact hon session.now
  idempotent ids now t hrun := by
    refine ⟨fun ids' hsame => ?_, fun ids' now' hsub => acknowledgeOn_again hrun hsub⟩
    obtain ⟨howned, htables⟩ := acknowledgeOn_eq_ok hrun
    have howned' : ∀ id ∈ ids', s.ownsMessage r id = true := fun id hid =>
      howned id ((hsame id).mp hid)
    rw [acknowledgeOn_of_owned howned']
    refine congrArg _ (Prod.ext rfl (Store.ext_tables ?_))
    rw [htables]
    have hids : ∀ m : MessageRow, decide (m.id ∈ ids') = decide (m.id ∈ ids) := fun m => by
      simp [hsame]
    simp only [Tables.acknowledgeAll, hids]

end Refinement

open Sample in
/-- Bob's mailbox holds Alice's greeting until he acknowledges it. -/
theorem mailbox_refinement_greeting :
    ((greeting ⟨"msg_one", by decide⟩ ⟨110, by decide⟩).row 1).record
        ∈ ((Store.empty.run greeted).mailbox bob).pending
      ∧ MailboxRefinement (Store.empty.run greeted) bob := by
  refine ⟨Store.mem_pending.mpr ⟨(greeting ⟨"msg_one", by decide⟩ ⟨110, by decide⟩).row 1, ?_, rfl,
    rfl, rfl⟩, mailbox_refinement (reach_run greeted fun _ _ _ => trivial) bob⟩
  decide

end Psst
