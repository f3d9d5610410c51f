import Psst.Lib.Traverse
import Psst.Store.Mailbox

/-!
# Views of stored messages

What a reader is shown of a message row: the row's own columns and the names its keys denote.
Every stored row has a view. The reads of a transcript and of an inbox are taken apart here,
so that their callers see the rows they return and nothing of the queries.
-/

namespace Psst

open Table

/-- `view` shows the stored row `m`. -/
structure Store.Views (s : Store) (m : MessageRow) (view : MessageView) : Prop where
  mem : m ∈ s.messages
  message : view.message = m.record
  squad : ∃ q ∈ s.squads, q.id = m.squadId ∧ q.name = view.squad
  sender : ∃ p ∈ s.memberships, p.id = m.senderMembershipId ∧ p.name = view.sender
  recipient : ∃ p ∈ s.memberships, p.id = m.recipientMembershipId ∧ p.name = view.recipient
  acknowledgedAt : view.acknowledgedAt = m.acknowledgedAt

section Views

variable {s : Store}

theorem Store.messageView_eq_some {m : MessageRow} (hm : m ∈ s.messages) {view : MessageView} :
    s.messageView m.record = some view ↔ s.Views m view := by
  have hfind : s.messages.find? (fun o => decide (o.id = m.id)) = some m :=
    s.constraints.messageId.find?_eq_some.mpr ⟨hm, rfl⟩
  have hview : s.messageView m.record = (do
      let q ← s.squadById m.squadId
      let sender ← s.membershipById m.senderMembershipId
      let recipient ← s.membershipById m.recipientMembershipId
      pure ⟨m.record, q.name, sender.name, recipient.name, m.acknowledgedAt⟩) := by
    unfold Tables.messageView
    rw [show m.record.id = m.id from rfl, hfind]
    rfl
  rw [hview]
  constructor
  · intro h
    obtain ⟨q, hq, h⟩ := Option.bind_eq_some_iff.mp h
    obtain ⟨sender, hsender, h⟩ := Option.bind_eq_some_iff.mp h
    obtain ⟨recipient, hrecipient, h⟩ := Option.bind_eq_some_iff.mp h
    cases h
    obtain ⟨hqmem, hqid⟩ := s.squadById_eq_some.mp hq
    obtain ⟨hsmem, hsid⟩ := s.membershipById_eq_some.mp hsender
    obtain ⟨hrmem, hrid⟩ := s.membershipById_eq_some.mp hrecipient
    exact ⟨hm, rfl, ⟨q, hqmem, hqid, rfl⟩, ⟨sender, hsmem, hsid, rfl⟩,
      ⟨recipient, hrmem, hrid, rfl⟩, rfl⟩
  · intro h
    obtain ⟨q, hq, hqid, hqname⟩ := h.squad
    obtain ⟨sender, hsender, hsid, hsname⟩ := h.sender
    obtain ⟨recipient, hrecipient, hrid, hrname⟩ := h.recipient
    rw [s.squadById_eq_some.mpr ⟨hq, hqid⟩, s.membershipById_eq_some.mpr ⟨hsender, hsid⟩,
      s.membershipById_eq_some.mpr ⟨hrecipient, hrid⟩]
    show some _ = some view
    rw [← h.message, ← h.acknowledgedAt, hqname, hsname, hrname]

/-- The keys of a stored row denote stored rows. -/
theorem Store.exists_views {m : MessageRow} (hm : m ∈ s.messages) : ∃ view, s.Views m view := by
  obtain ⟨sender, hsender, hsid, hssquad⟩ := s.constraints.messageSender m hm
  obtain ⟨recipient, hrecipient, hrid, -⟩ := s.constraints.messageRecipient m hm
  obtain ⟨q, hq, hqid⟩ := s.constraints.membershipSquad sender hsender
  exact ⟨⟨m.record, q.name, sender.name, recipient.name, m.acknowledgedAt⟩, hm, rfl,
    ⟨q, hq, hqid.trans hssquad, rfl⟩, ⟨sender, hsender, hsid, rfl⟩,
    ⟨recipient, hrecipient, hrid, rfl⟩, rfl⟩

/-- A page of stored records is shown row by row. -/
theorem messageViewsOn_eq_ok {rows : List MessageRow} (hrows : ∀ m ∈ rows, m ∈ s.messages)
    {views : List MessageView} {s' : Store} :
    (messageViewsOn (rows.map MessageRow.record)).run s = .ok (views, s')
      ↔ List.Forall₂ s.Views rows views ∧ s = s' := by
  unfold messageViewsOn
  rw [Tx.run_query_bind, Tx.expect_eq_ok, Traverse.mapM_eq_some, List.forall₂_map_left_iff]
  refine and_congr_left fun _ => ?_
  constructor
  · intro h
    induction h with
    | nil => exact .nil
    | @cons m view rows views hview _ ih =>
        exact .cons ((Store.messageView_eq_some (hrows m (List.mem_cons_self ..))).mp hview)
          (ih fun o ho => hrows o (List.mem_cons_of_mem _ ho))
  · intro h
    exact h.imp fun m view hview => (Store.messageView_eq_some hview.mem).mpr hview

theorem Store.exists_views_of_rows (rows : List MessageRow) (hrows : ∀ m ∈ rows, m ∈ s.messages) :
    ∃ views, List.Forall₂ s.Views rows views := by
  induction rows with
  | nil => exact ⟨[], .nil⟩
  | cons m rows ih =>
      obtain ⟨view, hview⟩ := s.exists_views (hrows m (List.mem_cons_self ..))
      obtain ⟨views, hviews⟩ := ih fun o ho => hrows o (List.mem_cons_of_mem _ ho)
      exact ⟨view :: views, .cons hview hviews⟩

end Views

/-! ## Transcript reads -/

section Transcript

variable [Sha256] {s s' : Store}

theorem mapM_mapMessage_eq_ok {rows : List MessageRow} {records : List MessageRecord}
    (h : rows.mapM mapMessage = .ok records) : records = rows.map MessageRow.record := by
  have hall := Traverse.mapM_eq_ok.mp h
  induction hall with
  | nil => rfl
  | cons hfirst hrest ih =>
      obtain ⟨-, rfl⟩ := mapMessage_eq_ok.mp hfirst
      rw [List.map_cons, ← ih (Traverse.mapM_eq_ok.mpr hrest)]

omit [Sha256] in
/-- In sequence order a transcript page is the first rows of the squad past the cursor. -/
theorem Store.Sequenced.transcriptRows_eq (h : s.Sequenced) (squad : SquadId) (after : Int)
    (limit : Nat) :
    s.transcriptRows squad after limit
      = (s.messages.filter fun m => decide (m.squadId = squad) && decide (after < m.sequence)
          ).take limit := by
  refine congrArg (List.take limit) (List.Pairwise.insertionSort_eq ?_)
  have hle : s.messages.Pairwise fun a b => a.sequence ≤ b.sequence :=
    (List.pairwise_map.mp h).imp Nat.le_of_lt
  exact hle.filter _

/-- A transcript read that succeeds shows rows of the session's own squad. -/
theorem authenticatedTranscriptViews_eq_ok {session : AuthenticatedSession}
    {query : TranscriptByName} {views : List MessageView}
    (h : (authenticatedTranscriptViews session query).run s = .ok (views, s')) :
    (1 ≤ query.limit ∧ query.limit ≤ 100)
      ∧ (∃ i m q, s.Authorizes session i m ∧ q ∈ s.squads ∧ q.id = m.squadId
          ∧ q.name = query.squad
          ∧ List.Forall₂ s.Views (s.transcriptRows q.id query.after query.limit) views)
      ∧ s = s' := by
  simp only [authenticatedTranscriptViews, squadByIdTx, transcriptRecords, Tx.bind_eq_ok,
    Tx.require_eq_ok, authorizeCurrent_eq_ok, Tx.query_eq_ok, Tx.expect_eq_ok,
    Tx.ofExcept_eq_ok] at h
  obtain ⟨_, _, ⟨⟨hlimit, -⟩, rfl⟩, _, _, ⟨i, m, hauth, rfl, rfl⟩, q, _,
    ⟨_, _, ⟨rfl, rfl⟩, hq, rfl⟩, _, _, ⟨hname, rfl⟩, records, _,
    ⟨_, _, ⟨rfl, rfl⟩, hrecords, rfl⟩, hviews⟩ := h
  obtain ⟨hmem, hid⟩ := s.squadById_eq_some.mp hq
  change q.id = m.squadId at hid
  rw [mapM_mapMessage_eq_ok (Tx.mapError_eq_ok.mp hrecords)] at hviews
  have hrows : ∀ o ∈ s.transcriptRows (identityOf i m).squad query.after query.limit,
      o ∈ s.messages := by
    intro o ho
    have hsorted := List.mem_of_mem_take ho
    exact (List.mem_filter.mp ((List.mem_insertionSort _).mp hsorted)).1
  obtain ⟨hshown, rfl⟩ := (messageViewsOn_eq_ok hrows).mp hviews
  refine ⟨hlimit, ⟨i, m, q, hauth, hmem, hid, hname, ?_⟩, rfl⟩
  rw [hid]
  exact hshown

end Transcript

/-! ## Inbox reads -/

/-- The pending rows of a member, oldest first. -/
def Store.pending (s : Store) (member : MembershipId) : List MessageRow :=
  s.messages.filter (MessageRow.pendingFor member)

/-- What the read loop counts for a list of messages: their sizes and the separators. -/
def estimatedSize (records : List MessageRecord) : Nat :=
  (records.map conservativeSerializedSize).sum + (records.length - 1)

section Inbox

variable [Sha256] {s s' : Store}

/-- The read loop stays within its budget. `estimated` counts what it holds already. -/
theorem inboxPage_bounded (rows : List MessageRow) :
    ∀ (estimated : Nat) (messages : List MessageRecord),
      (∀ m ∈ rows, m.bodyHash = bodyDigest m.body) → estimated ≤ maxInboxOutputBytes →
        ∃ n, n ≤ rows.length
          ∧ inboxPage rows estimated messages
              = .ok (messages ++ (rows.take n).map MessageRow.record)
          ∧ estimated + (((rows.take n).map MessageRow.record).map conservativeSerializedSize).sum
              + (n - if messages.isEmpty then 1 else 0) ≤ maxInboxOutputBytes := by
  induction rows with
  | nil =>
      intro estimated messages _ hle
      exact ⟨0, Nat.le_refl _, by simp [inboxPage], by simpa using hle⟩
  | cons m rows ih =>
      intro estimated messages hdigest hle
      have hrest : ∀ o ∈ rows, o.bodyHash = bodyDigest o.body := fun o ho =>
        hdigest o (List.mem_cons_of_mem _ ho)
      rw [inboxPage_cons (hdigest m (List.mem_cons_self ..))]
      by_cases hfull : maxInboxOutputBytes < estimated + (if messages.isEmpty then 0 else 1)
          + conservativeSerializedSize m.record
      · rw [if_pos hfull]
        exact ⟨0, Nat.zero_le _, by simp, by simpa using hle⟩
      · rw [if_neg hfull]
        obtain ⟨n, hn, hpage, hsum⟩ := ih _ (messages ++ [m.record]) hrest (not_lt.mp hfull)
        refine ⟨n + 1, Nat.succ_le_succ hn, by rw [hpage]; simp, ?_⟩
        have hne : (messages ++ [m.record]).isEmpty = false := by simp
        rw [hne] at hsum
        simp only [Bool.false_eq_true, if_false, Nat.sub_zero] at hsum
        simp only [List.take_succ_cons, List.map_cons, List.sum_cons]
        by_cases hempty : messages.isEmpty = true
        · simp only [hempty, if_true] at hsum ⊢
          omega
        · simp only [hempty] at hsum ⊢
          simp only [Bool.false_eq_true, if_false] at hsum ⊢
          omega

/-- What a read of an inbox returns: `n` rows of the pending ones, and what it says about all
of them. -/
structure Store.InboxRead (s : Store) (session : AuthenticatedSession) (limit : Nat)
    (member : MembershipRow) (n : Nat) (page : InboxPage) : Prop where
  authorized : ∃ i, s.Authorizes session i member
  accepted : 1 ≤ limit ∧ limit ≤ maxInboxMessages
  atMost : n ≤ limit ∧ n ≤ (s.pending member.id).length
  messages : List.Forall₂ s.Views ((s.pending member.id).take n) page.messages
  pendingCount : page.pendingCount = (s.pending member.id).length
  highestPriority : page.highestPriority = highestPriorityOf (s.pending member.id)
  oldestMessageId : page.oldestMessageId = (s.pending member.id).head?.map MessageRow.id
  recipient : page.recipientMembership = member.id
  /-- the first pending row is always returned -/
  progress : s.pending member.id ≠ [] → 0 < n
  bounded : 2 + estimatedSize (((s.pending member.id).take n).map MessageRow.record)
    ≤ maxInboxOutputBytes

/-- The rows a read runs over give a page within the budget that is not empty when they are
not. -/
theorem inboxPage_rows (rows : List MessageRow)
    (hdigest : ∀ m ∈ rows, m.bodyHash = bodyDigest m.body) :
    ∃ n, n ≤ rows.length ∧ inboxPage rows 2 [] = .ok ((rows.take n).map MessageRow.record)
      ∧ (rows ≠ [] → 0 < n)
      ∧ 2 + estimatedSize ((rows.take n).map MessageRow.record) ≤ maxInboxOutputBytes := by
  obtain ⟨n, hn, hpage, hsum⟩ := inboxPage_bounded rows 2 [] hdigest (by decide)
  rw [List.nil_append] at hpage
  refine ⟨n, hn, hpage, ?_, ?_⟩
  · intro hne
    cases rows with
    | nil => exact absurd rfl hne
    | cons m rows =>
        obtain ⟨page, hfirst⟩ := inboxPage_first m rows hdigest
        rw [hfirst] at hpage
        cases n with
        | zero => cases hpage
        | succ n => exact Nat.succ_pos n
  · simp only [List.isEmpty_nil, if_true] at hsum
    rw [estimatedSize, List.length_map, List.length_take, Nat.min_eq_left hn]
    omega

/-- **A read of an inbox**, once authorized, returns a first part of what is pending. -/
theorem authenticatedPendingPage_run (hseq : s.Sequenced) (hdigest : s.DigestsMatch)
    {session : AuthenticatedSession} {i : InstanceRow} {member : MembershipRow} {limit : Nat}
    (hauth : s.Authorizes session i member) (hlimit : 1 ≤ limit ∧ limit ≤ maxInboxMessages) :
    ∃ n page, (authenticatedPendingPage session limit).run s = .ok (page, s)
      ∧ s.InboxRead session limit member n page := by
  obtain ⟨n, hn, hpage, hprogress, hbound⟩ := inboxPage_rows ((s.pending member.id).take limit)
    fun m hm => hdigest m (List.mem_filter.mp (List.mem_of_mem_take hm)).1
  have hn : n ≤ limit ∧ n ≤ (s.pending member.id).length := by
    rw [List.length_take] at hn
    omega
  have htake : ((s.pending member.id).take limit).take n = (s.pending member.id).take n := by
    rw [List.take_take, Nat.min_eq_left (by omega)]
  rw [htake] at hpage hbound
  have hrows : ∀ m ∈ (s.pending member.id).take n, m ∈ s.messages := fun m hm =>
    (List.mem_filter.mp (List.mem_of_mem_take hm)).1
  obtain ⟨views, hviews⟩ := s.exists_views_of_rows _ hrows
  have hread : (pendingInboxOn ⟨member.id, limit⟩).run s
      = .ok (((s.pending member.id).take n).map MessageRow.record, s) := by
    rw [pendingInboxOn_run hseq hlimit]
    show Except.map _ (inboxPage ((s.pending member.id).take limit) 2 []) = _
    rw [hpage]
    rfl
  have hcurrent : (authorizeCurrent session).run s = .ok (identityOf i member, s) :=
    authorizeCurrent_eq_ok.mpr ⟨i, member, hauth, rfl, rfl⟩
  have hpending : s.pendingRows member.id = s.pending member.id := hseq.pendingRows_eq member.id
  refine ⟨n, ⟨views, (s.pending member.id).length, highestPriorityOf (s.pending member.id),
    (s.pending member.id).head?.map MessageRow.id, member.id⟩, ?_, ?_⟩
  · rw [authenticatedPendingPage, Tx.run_bind_of_ok s hcurrent, Tx.run_query_bind]
    show ((pendingInboxOn ⟨member.id, limit⟩) >>= _).run s = _
    rw [Tx.run_bind_of_ok s hread,
      Tx.run_bind_of_ok s ((messageViewsOn_eq_ok hrows).mpr ⟨hviews, rfl⟩)]
    show Except.ok (InboxPage.mk views (s.pendingRows member.id).length
      (highestPriorityOf (s.pendingRows member.id))
      ((s.pendingRows member.id).head?.map MessageRow.id) member.id, s) = _
    rw [hpending]
  · refine ⟨⟨i, hauth⟩, hlimit, hn, hviews, rfl, rfl, rfl, rfl, ?_, hbound⟩
    intro hne
    refine hprogress fun hempty => ?_
    rcases List.take_eq_nil_iff.mp hempty with hzero | hnil
    · omega
    · exact hne hnil

/-- Every answered read is such a read. -/
theorem authenticatedPendingPage_reads (hseq : s.Sequenced) (hdigest : s.DigestsMatch)
    {session : AuthenticatedSession} {limit : Nat} {page : InboxPage}
    (h : (authenticatedPendingPage session limit).run s = .ok (page, s')) :
    ∃ member n, s.InboxRead session limit member n page ∧ s = s' := by
  have hparts := h
  simp only [authenticatedPendingPage, pendingInboxOn, Tx.bind_eq_ok, authorizeCurrent_eq_ok,
    Tx.query_eq_ok, Tx.require_eq_ok] at hparts
  obtain ⟨_, _, ⟨i, m, hauth, rfl, rfl⟩, _, _, ⟨-, rfl⟩, _, _, ⟨_, _, ⟨hlimit, rfl⟩, -⟩, -⟩ :=
    hparts
  obtain ⟨n, page', hrun, hread⟩ := authenticatedPendingPage_run hseq hdigest hauth hlimit
  rw [hrun] at h
  cases h
  exact ⟨m, n, hread, rfl⟩

end Inbox

end Psst
