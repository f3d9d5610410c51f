import Psst.Protocol.Size
import Psst.Relay.Answer
import Psst.Relay.Archive
import Psst.Store.View

/-!
# Inbox pages

The store bounds a page by an estimate over identifiers and dedupe keys; the wire carries names
and an envelope instead. For every message the estimate leaves room for its names, and for the
first one also for the envelope, so a page that is returned is also encoded. Reading and
acknowledging what was read therefore always gets through an inbox.
-/

namespace Psst

open Json

/-! ## Sequence numbers in range -/

/-- No stored message is numbered past the high-water mark. -/
def Store.Numbered (s : Store) : Prop := ∀ m ∈ s.messages, m.sequence ≤ s.sqliteSequence

section Numbering

variable [Sha256] {c : Context} {s s' : Store}

theorem Change.numbered (h : Change c s s') (hs : s.Numbered) : s'.Numbered := by
  have hsame : s'.messages = s.messages → s'.sqliteSequence = s.sqliteSequence → s'.Numbered := by
    intro hmessages hsequence m hm
    rw [hsequence]
    exact hs m (hmessages ▸ hm)
  cases h with
  | send request _ _ heq =>
      intro m hm
      rw [heq] at hm ⊢
      rcases List.mem_append.mp hm with hm | hm
      · exact Nat.le_of_lt (s.sequence_lt_next hm)
      · rw [List.mem_singleton.mp hm]
        exact Nat.le_refl _
  | acknowledge recipient now ids _ _ _ heq =>
      intro m hm
      rw [heq] at hm ⊢
      obtain ⟨o, ho, rfl⟩ := Table.mem_updateWhere.mp hm
      have hle := hs o ho
      split <;> exact hle
  | squad _ _ _ heq => exact hsame (by rw [heq]) (by rw [heq])
  | agent _ heq => exact hsame (by rw [heq]) (by rw [heq])
  | membership _ _ _ heq => exact hsame (by rw [heq]) (by rw [heq])
  | claim _ _ _ _ _ _ _ heq => exact hsame (by rw [heq]; rfl) (by rw [heq]; rfl)
  | renew _ _ _ _ _ _ _ _ _ _ heq => exact hsame (by rw [heq]; rfl) (by rw [heq]; rfl)
  | replace _ _ _ _ _ _ _ heq => exact hsame (by rw [heq]; rfl) (by rw [heq]; rfl)
  | leave _ _ _ _ heq => exact hsame (by rw [heq]; rfl) (by rw [heq]; rfl)
  | archive _ _ _ _ _ heq => exact hsame (by rw [heq]; rfl) (by rw [heq]; rfl)

theorem reach_numbered {ok : Store → Op → Prop} (h : storeLts.Reach ok s) : s.Numbered := by
  refine h.invariant ?_ ?_
  · rintro s rfl m hm
    cases hm
  · rintro s op t hs - rfl
    exact Changes.keeps (fun _ _ hchange => hchange.numbered) (s.exec_changes_any op) hs

omit [Sha256] in
theorem Store.Numbered.sequence_lt (h : s.Numbered) {m : MessageRow} (hm : m ∈ s.messages) :
    m.sequence < 2 ^ 63 :=
  Nat.lt_of_le_of_lt (h m hm) s.constraints.sequenceRange

omit [Sha256] in
/-- Distinct numbers in range: the table is no longer than the range. -/
theorem Store.Numbered.length_le (h : s.Numbered) (hseq : s.Sequenced) :
    s.messages.length ≤ 2 ^ 63 := by
  have hnodup : (s.messages.map MessageRow.sequence).Nodup := hseq.imp fun hlt => Nat.ne_of_lt hlt
  have hsub : s.messages.map MessageRow.sequence ⊆ List.range (s.sqliteSequence + 1) := by
    intro n hn
    obtain ⟨m, hm, rfl⟩ := List.mem_map.mp hn
    exact List.mem_range.mpr (Nat.lt_succ_of_le (h m hm))
  have hlength := hnodup.length_le_of_subset hsub
  have hrange := s.constraints.sequenceRange
  rw [List.length_map, List.length_range] at hlength
  omega

end Numbering

/-! ## The size of a page -/

section Size

variable {s : Store}

/-- **A message fits its estimate**, with room left for the envelope of a page. -/
theorem Store.Views.json_le {m : MessageRow} {view : MessageView} {dto : MessageDto}
    (h : s.Views m view) (hdto : messageDto view = .ok dto) (hsequence : m.sequence < 2 ^ 63)
    (hpending : m.acknowledgedAt = none) :
    weight utf8 dto.json + 233 ≤ conservativeSerializedSize m.record := by
  obtain ⟨createdAt, acknowledgedAt, -, hack, rfl⟩ := messageDto_eq_ok hdto
  rw [h.acknowledgedAt, hpending] at hack
  cases hack
  have hsize := MessageDto.json_le
    { sequence := view.message.sequence, id := view.message.id, squad := view.squad,
      sender := view.sender, recipient := view.recipient, body := view.message.semantics.body,
      priority := view.message.semantics.priority, replyTo := view.message.semantics.replyTo,
      correlationId := view.message.semantics.correlationId, createdAt := createdAt,
      acknowledgedAt := none } (by rw [h.message]; exact hsequence)
  -- what the estimate counts beyond the texts: three identifiers and a key
  have hsquad := OpaqueId.size_ge m.squadId
  have hsender := OpaqueId.size_ge m.senderMembershipId
  have hrecipient := OpaqueId.size_ge m.recipientMembershipId
  have hkey := TextRule.size_pos _ m.dedupeKey
  simp only [MessageDto.textBytes, Option.isSome_none, Bool.false_eq_true, if_false] at hsize
  rw [h.message] at hsize ⊢
  unfold conservativeSerializedSize
  simp only [MessageRow.record, MessageRow.semantics] at hsize ⊢
  omega

theorem highestPriority_le (p : Option MessagePriority) :
    weight utf8 (nullable (fun p => str (MessagePriority.wire p)) p) ≤ 8 := by
  cases p with
  | none => decide
  | some p => exact p.wire_le

theorem oldestMessageId_le (id : Option MessageId) :
    weight utf8 (nullable (fun id : MessageId => str id.val) id) ≤ 130 := by
  cases id with
  | none => decide
  | some id => exact OpaqueId.str_le id

/-- The envelope of a page. -/
theorem InboxResponse.json_le (r : InboxResponse) (hcount : r.pendingCount ≤ 2 ^ 63) :
    weight utf8 r.json ≤ 231 + fieldBytes (r.messages.map MessageDto.json) := by
  have hdigits : weight utf8 (nat r.pendingCount) ≤ 19 :=
    weight_utf8_nat_le (by decide) (by omega)
  have harr := weight_arr_le (r.messages.map MessageDto.json)
  have hpriority := highestPriority_le r.highestPriority
  have holdest := oldestMessageId_le r.oldestMessageId
  have hnames : weight utf8 (str "messages") = 10 ∧ weight utf8 (str "pending_count") = 15
      ∧ weight utf8 (str "highest_priority") = 18 ∧ weight utf8 (str "oldest_message_id") = 19 := by
    decide
  obtain ⟨h1, h2, h3, h4⟩ := hnames
  refine (weight_obj_le _).trans ?_
  simp only [fieldBytes_cons, fieldBytes_nil, weight_utf8_field, h1, h2, h3, h4]
  omega

/-- The messages of a page, each within its estimate. -/
theorem fieldBytes_messages_le {rows : List MessageRow} {dtos : List MessageDto}
    (h : List.Forall₂ (fun m dto => weight utf8 (MessageDto.json dto) + 233
      ≤ conservativeSerializedSize m.record) rows dtos) :
    fieldBytes (dtos.map MessageDto.json) + 232 * rows.length
      ≤ ((rows.map MessageRow.record).map conservativeSerializedSize).sum := by
  induction h with
  | nil => exact Nat.le_refl _
  | cons hfirst _ ih =>
      simp only [List.map_cons, fieldBytes_cons, List.length_cons, List.sum_cons]
      omega

end Size

/-! ## The response -/

section Response

variable [Sha256] {s : Store} {session : AuthenticatedSession} {limit n : Nat}
  {member : MembershipRow} {page : InboxPage} {r : InboxResponse}

omit [Sha256] in
theorem inboxResponse_eq_ok (h : inboxResponse page = .ok r) :
    List.Forall₂ (fun view dto => messageDto view = .ok dto) page.messages r.messages
      ∧ r.pendingCount = page.pendingCount ∧ r.highestPriority = page.highestPriority
      ∧ r.oldestMessageId = page.oldestMessageId := by
  obtain ⟨messages, hmessages, h⟩ := Except.bind_eq_ok.mp h
  cases h
  exact ⟨Traverse.mapM_eq_ok.mp hmessages, rfl, rfl, rfl⟩

theorem Store.InboxRead.mem (_ : s.InboxRead session limit member n page) {m : MessageRow}
    (hm : m ∈ (s.pending member.id).take n) :
    m ∈ s.messages ∧ m.recipientMembershipId = member.id ∧ m.acknowledgedAt = none := by
  obtain ⟨hmem, hpending⟩ := List.mem_filter.mp (List.mem_of_mem_take hm)
  simp only [MessageRow.pendingFor, Bool.and_eq_true, decide_eq_true_eq,
    Option.isNone_iff_eq_none] at hpending
  exact ⟨hmem, hpending⟩

theorem Store.InboxRead.length (h : s.InboxRead session limit member n page) :
    ((s.pending member.id).take n).length = n := by
  rw [List.length_take, Nat.min_eq_left h.atMost.2]

/-- **A page that is returned is encoded.** -/
theorem Store.InboxRead.encodes (h : s.InboxRead session limit member n page)
    (hnumbered : s.Numbered) (hseq : s.Sequenced) (hr : inboxResponse page = .ok r) :
    encodeBoundedInbox r = some r.json := by
  obtain ⟨hdtos, hcount, -, -⟩ := inboxResponse_eq_ok hr
  have hmessages : List.Forall₂ (fun m dto => weight utf8 (MessageDto.json dto) + 233
      ≤ conservativeSerializedSize m.record) ((s.pending member.id).take n) r.messages := by
    refine Traverse.imp_of_mem (Traverse.comp h.messages hdtos) ?_
    rintro m hm dto ⟨view, hview, hdto⟩
    obtain ⟨hmem, -, hpending⟩ := h.mem hm
    exact hview.json_le hdto (hnumbered.sequence_lt hmem) hpending
  have hlength : page.pendingCount ≤ 2 ^ 63 := by
    rw [h.pendingCount]
    exact (List.length_filter_le _ _).trans (hnumbered.length_le hseq)
  have hsize := r.json_le (hcount ▸ hlength)
  have hsum := fieldBytes_messages_le hmessages
  have hbound := h.bounded
  rw [estimatedSize, List.length_map, h.length] at hbound
  rw [h.length] at hsum
  unfold encodeBoundedInbox
  rw [if_pos]
  unfold maxInboxBytes
  unfold maxInboxOutputBytes at hbound
  -- an empty page is its envelope; otherwise the first message leaves room for it
  rcases Nat.eq_zero_or_pos n with hzero | hpos
  · have hnil : r.messages = [] := by
      have hnone := hmessages
      rw [hzero, List.take_zero] at hnone
      exact List.forall₂_nil_left_iff.mp hnone
    rw [hnil] at hsize
    simp only [List.map_nil, fieldBytes_nil] at hsize
    omega
  · omega

omit [Sha256] in
theorem dto_of_pending {m : MessageRow} {view : MessageView} {dto : MessageDto}
    (hview : s.Views m view) (hdto : messageDto view = .ok dto) (hpending : m.acknowledgedAt = none) :
    dto.validate = true ∧ dto.sequence = m.sequence ∧ dto.id = m.id := by
  obtain ⟨createdAt, acknowledgedAt, -, hack, rfl⟩ := messageDto_eq_ok hdto
  rw [hview.acknowledgedAt, hpending] at hack
  cases hack
  exact ⟨rfl, by rw [hview.message]; rfl, by rw [hview.message]; rfl⟩

/-- **A page that is returned is valid.** -/
theorem Store.InboxRead.validates (h : s.InboxRead session limit member n page)
    (hseq : s.Sequenced) (hr : inboxResponse page = .ok r) : r.validate = true := by
  obtain ⟨hdtos, hcount, hpriority, holdest⟩ := inboxResponse_eq_ok hr
  have hpairs : List.Forall₂ (fun m dto => MessageDto.validate dto = true
      ∧ MessageDto.sequence dto = m.sequence ∧ MessageDto.id dto = m.id)
      ((s.pending member.id).take n) r.messages := by
    refine Traverse.imp_of_mem (Traverse.comp h.messages hdtos) ?_
    rintro m hm dto ⟨view, hview, hdto⟩
    exact dto_of_pending hview hdto (h.mem hm).2.2
  have hlength : r.messages.length = n := hpairs.length_eq.symm.trans h.length
  have hvalid : ∀ dto ∈ r.messages, dto.validate = true := by
    intro dto hdto
    obtain ⟨m, -, hm⟩ := Traverse.exists_of_mem_right hpairs hdto
    exact hm.1
  have hchain : (r.messages.map MessageDto.sequence).IsChain (· < ·) := by
    rw [Traverse.map_eq_map (f := MessageRow.sequence) (fun _ _ hpair => hpair.2.1) hpairs]
    refine List.Pairwise.isChain (List.pairwise_map.mpr ?_)
    exact ((List.pairwise_map.mp hseq).filter _).sublist (List.take_sublist _ _)
  have hids := Traverse.map_eq_map (f := MessageRow.id) (fun _ _ hpair => hpair.2.2) hpairs
  have hpage : validateMessagePage none r.messages = true :=
    validateMessagePage_iff.mpr ⟨hvalid, hchain⟩
  have hatMost := h.atMost
  have hlimit : limit ≤ 100 := h.accepted.2
  have hlong : r.messages.length ≤ 100 := by omega
  have hcounted : r.messages.length ≤ r.pendingCount := by
    rw [hcount, h.pendingCount]
    omega
  unfold InboxResponse.validate
  simp only [hpage, hlong, hcounted, decide_true, Bool.true_and]
  -- the metadata describes the pending rows: none, or a first one that is on the page
  cases hpending : s.pending member.id with
  | nil =>
      have hzero : r.pendingCount = 0 := by rw [hcount, h.pendingCount, hpending]; rfl
      have hnil : r.messages = [] := List.length_eq_zero_iff.mp (by omega)
      rw [if_pos hzero, hnil, hpriority, holdest, h.highestPriority, h.oldestMessageId, hpending]
      rfl
  | cons first rest =>
      have hpos : 0 < n := h.progress (by rw [hpending]; exact List.cons_ne_nil _ _)
      have hnonzero : r.pendingCount ≠ 0 := by
        rw [hcount, h.pendingCount, hpending]
        exact Nat.succ_ne_zero _
      have hhead : r.messages.head?.map MessageDto.id = some first.id := by
        rw [← List.head?_map, hids, List.head?_map, hpending]
        cases n with
        | zero => omega
        | succ n => rfl
      have hsome : r.highestPriority.isSome = true := by
        rw [hpriority, h.highestPriority, hpending, highestPriorityOf]
        split
        · rfl
        · rfl
      have hnonempty : r.messages.isEmpty = false := by
        rw [List.isEmpty_eq_false_iff, ← List.length_pos_iff_ne_nil]
        omega
      rw [if_neg hnonzero, hnonempty, hsome, hhead, holdest, h.oldestMessageId, hpending]
      simp

end Response

/-! ## Reading an inbox to its end -/

/-- Without the first rows, the others are left. -/
theorem filter_not_mem_take {rows : List MessageRow} (h : (rows.map MessageRow.id).Nodup) :
    ∀ n, rows.filter (fun m => !decide (m.id ∈ (rows.take n).map MessageRow.id)) = rows.drop n := by
  intro n
  have hsplit : ((rows.take n).map MessageRow.id ++ (rows.drop n).map MessageRow.id).Nodup := by
    rw [← List.map_append, List.take_append_drop]
    exact h
  have hdisjoint := (List.nodup_append.mp hsplit).2.2
  have hfirst : (rows.take n).filter
      (fun m => !decide (m.id ∈ (rows.take n).map MessageRow.id)) = [] := by
    refine List.filter_eq_nil_iff.mpr fun m hm => ?_
    simp only [Bool.not_eq_true', decide_eq_false_iff_not, not_not]
    exact List.mem_map_of_mem hm
  have hrest : (rows.drop n).filter
      (fun m => !decide (m.id ∈ (rows.take n).map MessageRow.id)) = rows.drop n := by
    refine List.filter_eq_self.mpr fun m hm => ?_
    simp only [Bool.not_eq_true', decide_eq_false_iff_not]
    exact fun hin => hdisjoint _ hin _ (List.mem_map_of_mem hm) rfl
  have hparts : rows.filter (fun m => !decide (m.id ∈ (rows.take n).map MessageRow.id))
      = (rows.take n ++ rows.drop n).filter
        (fun m => !decide (m.id ∈ (rows.take n).map MessageRow.id)) := by
    rw [List.take_append_drop]
  rw [hparts, List.filter_append, hfirst, hrest, List.nil_append]

/-- One read and the acknowledgement of what it returned. -/
structure Round where
  limit : Nat
  readAt : UnixMillis
  acknowledgedAt : UnixMillis

section Draining

variable [Sha256]

/-- A client's round: it acknowledges the ids of the page, unless the page is empty. -/
def Store.round (s : Store) (credential : Credential) (r : Round) :
    Except RepositoryError (List MessageView × Store) :=
  match s.execute (.pending credential r.limit) r.readAt none with
  | (.ok (.page page), t) =>
    if page.messages.isEmpty then .ok ([], t)
    else
      match t.execute (.acknowledge credential (page.messages.map fun view => view.message.id))
          r.acknowledgedAt none with
      | (.ok _, u) => .ok (page.messages, u)
      | (.error e, _) => .error e
  | (.ok _, _) => .error .internal
  | (.error e, _) => .error e

/-- Round after round. -/
def Store.drain (credential : Credential) :
    List Round → Store → Except RepositoryError (List MessageView × Store)
  | [], s => .ok ([], s)
  | r :: rounds, s => do
    let (delivered, t) ← s.round credential r
    let (rest, u) ← Store.drain credential rounds t
    pure (delivered ++ rest, u)

/-- The credential is authorized for as long as its lease lasts. -/
structure Store.Leased (s : Store) (credential : Credential) (i : InstanceRow)
    (member : MembershipRow) : Prop where
  reach : storeLts.Reach Lts.always s
  authorized : ∀ now, now < i.leaseExpiresAt → s.Authorizes (session credential now) i member

/-- A round within the lease, with a limit the relay accepts. -/
structure Round.Within (r : Round) (i : InstanceRow) : Prop where
  limit : 1 ≤ r.limit ∧ r.limit ≤ 100
  readAt : r.readAt < i.leaseExpiresAt
  acknowledgedAt : r.acknowledgedAt < i.leaseExpiresAt

variable {s : Store} {credential : Credential} {i : InstanceRow} {member : MembershipRow}

/-- Acknowledging the first rows leaves the others pending, and the credential authorized. -/
theorem Store.Leased.acknowledge (h : s.Leased credential i member) {now : UnixMillis}
    (hnow : now < i.leaseExpiresAt) (n : Nat) :
    ∃ t, s.execute (.acknowledge credential (((s.pending member.id).take n).map MessageRow.id)) now
        none = (.ok .acknowledged, t)
      ∧ t.Leased credential i member ∧ t.pending member.id = (s.pending member.id).drop n := by
  have howned : ∀ id ∈ ((s.pending member.id).take n).map MessageRow.id,
      s.ownsMessage member.id id = true := by
    intro id hid
    obtain ⟨m, hm, rfl⟩ := List.mem_map.mp hid
    obtain ⟨hmem, hpending⟩ := List.mem_filter.mp (List.mem_of_mem_take hm)
    simp only [MessageRow.pendingFor, Bool.and_eq_true, decide_eq_true_eq] at hpending
    exact Tables.ownsMessage_eq_true.mpr ⟨m, hmem, rfl, hpending.1⟩
  let t : Store := ⟨_, s.constraints.acknowledgeAll member.id now
    (((s.pending member.id).take n).map MessageRow.id)⟩
  have hrun : (authenticatedAcknowledge (session credential now)
      (((s.pending member.id).take n).map MessageRow.id)).run s = .ok ((), t) := by
    rw [authenticatedAcknowledge_run (h.authorized now hnow)]
    exact acknowledgeOn_of_owned howned
  have hexecute : s.execute (.acknowledge credential
      (((s.pending member.id).take n).map MessageRow.id)) now none = (.ok .acknowledged, t) := by
    show s.answer _ _ = _
    unfold Store.answer
    rw [Tx.commit_of_ok hrun]
    rfl
  refine ⟨t, hexecute, ⟨?_, ?_⟩, ?_⟩
  · have hstep : t = s.exec (StoreCommand.op now none (.acknowledge credential
        (((s.pending member.id).take n).map MessageRow.id))) := by
      rw [← Store.execute_snd, hexecute]
    exact h.reach.steps ((Lts.Steps.refl _).tail trivial hstep)
  · -- only messages were written
    intro now' hnow'
    have hauth := h.authorized now' hnow'
    exact ⟨⟨hauth.mem, hauth.id, hauth.member, hauth.memberId, hauth.token⟩, hauth.lease,
      hauth.squad, hauth.unclosed, hauth.joined⟩
  · -- ids are unique, so the rows that leave are the first ones
    have hnodup : ((s.pending member.id).map MessageRow.id).Nodup := by
      have hunique := s.constraints.messageId
      unfold Table.UniqueKey Table.UniqueOn at hunique
      rw [List.filter_true] at hunique
      exact hunique.sublist (List.filter_sublist.map _)
    show (t.toTables.messages.filter _) = _
    rw [Tables.pending_acknowledgeAll_self]
    exact filter_not_mem_take hnodup n

theorem Store.Authorizes.leased (hreach : storeLts.Reach Lts.always s) {now : UnixMillis}
    (h : s.Authorizes (session credential now) i member) : s.Leased credential i member :=
  ⟨hreach, fun _ hnow => ⟨⟨h.mem, h.id, h.member, h.memberId, h.token⟩, hnow, h.squad, h.unclosed,
    h.joined⟩⟩

/-- A read within the lease succeeds. -/
theorem Store.Leased.read (h : s.Leased credential i member) {limit : Nat} {now : UnixMillis}
    (hlimit : 1 ≤ limit ∧ limit ≤ 100) (hnow : now < i.leaseExpiresAt) :
    ∃ n page, s.execute (.pending credential limit) now none = (.ok (.page page), s)
      ∧ s.InboxRead (session credential now) limit member n page := by
  obtain ⟨n, page, hrun, hread⟩ := authenticatedPendingPage_run (reach_sequenced h.reach)
    (reach_digestsMatch h.reach) (h.authorized now hnow) hlimit
  refine ⟨n, page, ?_, hread⟩
  show s.answer _ _ = _
  unfold Store.answer
  rw [Tx.commit_of_ok hrun]
  rfl

theorem Store.InboxRead.records {limit n : Nat} {session : AuthenticatedSession} {page : InboxPage}
    (h : s.InboxRead session limit member n page) :
    page.messages.map (fun view => view.message)
      = ((s.pending member.id).take n).map MessageRow.record :=
  Traverse.map_eq_map (fun _ _ hview => hview.message) h.messages

/-- **A round delivers the first pending messages**, at least one if there is one. -/
theorem Store.Leased.round (h : s.Leased credential i member) {r : Round} (hr : r.Within i) :
    ∃ delivered t n, s.round credential r = .ok (delivered, t) ∧ t.Leased credential i member
      ∧ delivered.map (fun view => view.message)
          = ((s.pending member.id).take n).map MessageRow.record
      ∧ t.pending member.id = (s.pending member.id).drop n
      ∧ (s.pending member.id ≠ [] → 0 < n) := by
  obtain ⟨n, page, hpage, hread⟩ := h.read hr.limit hr.readAt
  have hrecords := hread.records
  by_cases hempty : page.messages = []
  · have hzero : n = 0 := by
      have hlength := congrArg List.length hrecords
      rw [hempty, List.length_map, List.length_map, hread.length] at hlength
      exact hlength.symm
    refine ⟨[], s, 0, ?_, h, rfl, rfl, fun hne => ?_⟩
    · unfold Store.round
      rw [hpage]
      simp only [hempty, List.isEmpty_nil, if_true]
    · have hpos := hread.progress hne
      omega
  · have hids : page.messages.map (fun view => view.message.id)
        = ((s.pending member.id).take n).map MessageRow.id :=
      Traverse.map_eq_map (fun _ _ hview => by rw [hview.message]; rfl) hread.messages
    obtain ⟨t, ht, hleased, hleft⟩ := h.acknowledge hr.acknowledgedAt n
    refine ⟨page.messages, t, n, ?_, hleased, hrecords, hleft, hread.progress⟩
    unfold Store.round
    rw [hpage]
    simp only [List.isEmpty_iff, hempty, if_false, hids, ht]

/-- **Rounds deliver what is pending in its order**, and get through it. -/
theorem Store.Leased.drain (rounds : List Round) :
    ∀ s : Store, s.Leased credential i member → (∀ r ∈ rounds, r.Within i) →
      ∃ delivered t, s.drain credential rounds = .ok (delivered, t)
        ∧ delivered.map (fun view => view.message) ++ (t.pending member.id).map MessageRow.record
          = (s.pending member.id).map MessageRow.record
        ∧ (t.pending member.id).length ≤ (s.pending member.id).length - rounds.length := by
  induction rounds with
  | nil => exact fun s _ _ => ⟨[], s, rfl, rfl, Nat.le_refl _⟩
  | cons r rounds ih =>
      intro s h hrounds
      obtain ⟨first, t, n, hround, hleased, hfirst, hleft, hprogress⟩ :=
        h.round (hrounds r (List.mem_cons_self ..))
      obtain ⟨rest, u, hdrain, hrest, hlength⟩ :=
        ih t hleased fun r' hr' => hrounds r' (List.mem_cons_of_mem _ hr')
      refine ⟨first ++ rest, u, ?_, ?_, ?_⟩
      · rw [Store.drain, hround]
        show (Store.drain credential rounds t >>= _) = _
        rw [hdrain]
        rfl
      · rw [List.map_append, List.append_assoc, hrest, hfirst, hleft, ← List.map_append,
          List.take_append_drop]
      · rw [hleft, List.length_drop] at hlength
        rw [List.length_cons]
        by_cases hne : s.pending member.id = []
        · rw [hne] at hlength ⊢
          simpa using hlength
        · have hpos := hprogress hne
          omega

end Draining

namespace Sample

def bobCredential : Credential := ⟨bobInstance, bobToken⟩

end Sample

end Psst
