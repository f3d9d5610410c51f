import Psst.Store.Agreement
import Psst.Store.Confinement
import Psst.Store.View

/-!
# Sending by name

`authenticated_send_by_name` against `authenticated_send`. A name is resolved against the roster
for a new message and against the committed row for a repeated one, so a name that a later member
takes over never redirects a message that was sent before.
-/

namespace Psst

open Table

/-- The recipient a send by name stands for: the committed one of its dedupe key, otherwise the
joined member of that name, which a pin has to agree with. -/
def Store.recipientFor (s : Store) (identity : Identity) (request : SendByName) :
    Option MembershipId :=
  match s.messageByDedupe identity.squad identity.membership request.dedupeKey with
  | some m => some m.recipientMembershipId
  | none => ((s.joinedByName identity.squad request.recipient).map fun r => r.id).filter
      fun id => decide (request.pinAgrees id)

/-- The repetition agrees with the committed row. -/
abbrev SendByName.Agrees (request : SendByName) (row : MessageRow) (view : MessageView)
    (semantics : MessageSemantics) : Prop :=
  request.pinAgrees row.recipientMembershipId ∧ row.semantics = semantics
    ∧ view.recipient = request.recipient

section Routing

variable [Sha256] {s s' t : Store} {session : AuthenticatedSession} {request : SendByName}

def Store.sentByName (s : Store) (session : AuthenticatedSession) (request : SendByName) :
    Except RepositoryError SendOutcome × Store :=
  Tx.commit (authenticatedSendByName session request) s

/-- The same message, sent to a membership. -/
def Store.sentByIdentity (s : Store) (session : AuthenticatedSession) (request : SendByName)
    (identity : Identity) (recipient : MembershipId) :
    Except RepositoryError MessageRecord × Store :=
  Tx.commit (authenticatedSend session
    (sendFromName request identity.squad identity.membership recipient session.now)) s

/-! ## A stored key -/

/-- **A stored key is answered from its row alone.** -/
theorem authenticatedSendByName_of_stored {identity : Identity} {row : MessageRow}
    {view : MessageView} (hauth : (authenticateHistorical session).run s = .ok (identity, s))
    (hstored : s.messageByDedupe identity.squad identity.membership request.dedupeKey = some row)
    (hhash : row.bodyHash = bodyDigest row.body) (hview : s.Views row view) :
    (authenticatedSendByName session request).run s
      = if request.Agrees row view (sendFromName request identity.squad identity.membership
            row.recipientMembershipId session.now).semantics then
          .ok (⟨view, true⟩, s)
        else .error .idempotencyConflict := by
  let candidate := sendFromName request identity.squad identity.membership
    row.recipientMembershipId session.now
  have hfound : (findByDedupe candidate).run s = .ok (some row.record, s) := by
    rw [findByDedupe, Tx.run_query_bind]
    simp only [candidate, sendFromName, hstored]
    rw [Tx.run_bind_of_ok s (Tx.ofExcept_eq_ok.mpr ⟨mapMessage_eq_ok.mpr ⟨hhash, rfl⟩, rfl⟩)]
    rfl
  have hshown : (messageViewOn row.record).run s = .ok (view, s) := by
    rw [messageViewOn, Tx.run_query_bind, (Store.messageView_eq_some hview.mem).mpr hview]
    rfl
  rw [authenticatedSendByName, Tx.run_bind_of_ok s hauth, Tx.run_query_bind, hstored]
  simp only []
  rw [Tx.run_require_bind]
  by_cases hpin : request.pinAgrees row.recipientMembershipId
  · rw [if_pos hpin, Tx.run_bind_of_ok s hfound, Tx.run_bind_of_ok s (Tx.run_expect_some s _ _),
      Tx.run_require_bind]
    by_cases hsemantics : row.record.semantics = (sendFromName request identity.squad
        identity.membership row.recipientMembershipId session.now).semantics
    · rw [if_pos hsemantics, Tx.run_bind_of_ok s hshown, Tx.run_require_bind]
      by_cases hname : view.recipient = request.recipient
      · rw [if_pos hname, if_pos ⟨hpin, hsemantics, hname⟩]
        rfl
      · rw [if_neg hname, if_neg fun h => hname h.2.2]
    · rw [if_neg hsemantics, if_neg fun h => hsemantics h.2.1]
  · rw [if_neg hpin, if_neg fun h => hpin h.1]

theorem sentByName_of_stored {identity : Identity} {row : MessageRow} {view : MessageView}
    (hauth : (authenticateHistorical session).run s = .ok (identity, s))
    (hstored : s.messageByDedupe identity.squad identity.membership request.dedupeKey = some row)
    (hhash : row.bodyHash = bodyDigest row.body) (hview : s.Views row view) :
    (request.Agrees row view (sendFromName request identity.squad identity.membership
          row.recipientMembershipId session.now).semantics
        ∧ s.sentByName session request = (.ok ⟨view, true⟩, s))
      ∨ (¬ request.Agrees row view (sendFromName request identity.squad identity.membership
            row.recipientMembershipId session.now).semantics
          ∧ s.sentByName session request = (.error .idempotencyConflict, s)) := by
  have hrun := authenticatedSendByName_of_stored hauth hstored hhash hview
  by_cases hagrees : request.Agrees row view (sendFromName request identity.squad
      identity.membership row.recipientMembershipId session.now).semantics
  · rw [if_pos hagrees] at hrun
    exact Or.inl ⟨hagrees, Tx.commit_of_ok hrun⟩
  · rw [if_neg hagrees] at hrun
    exact Or.inr ⟨hagrees, Tx.commit_of_error hrun⟩

theorem sentByIdentity_of_stored {identity : Identity} {row : MessageRow}
    (hauth : (authenticateHistorical session).run s = .ok (identity, s))
    (hstored : s.messageByDedupe identity.squad identity.membership request.dedupeKey = some row)
    (hhash : row.bodyHash = bodyDigest row.body) :
    (s.sentByIdentity session request identity row.recipientMembershipId).2 = s
      ∧ (row.semantics = (sendFromName request identity.squad identity.membership
            row.recipientMembershipId session.now).semantics →
          (s.sentByIdentity session request identity row.recipientMembershipId).1
            = .ok row.record) := by
  obtain ⟨hmem, hkey⟩ := Store.messageByDedupe_eq_some.mp hstored
  have hsender : identity.membership = row.senderMembershipId :=
    (congrArg (fun k => k.2.1) hkey).symm
  have hrun := authenticatedSend_of_stored (sendFromName request identity.squad
    identity.membership row.recipientMembershipId session.now) hauth hsender hmem hhash hkey
  unfold Store.sentByIdentity
  by_cases hsemantics : row.semantics = (sendFromName request identity.squad identity.membership
      row.recipientMembershipId session.now).semantics
  · rw [if_pos hsemantics] at hrun
    rw [Tx.commit_of_ok hrun]
    exact ⟨rfl, fun _ => rfl⟩
  · rw [if_neg hsemantics] at hrun
    rw [Tx.commit_of_error hrun]
    exact ⟨rfl, fun h => absurd h hsemantics⟩

/-! ## A new key -/

omit [Sha256] in
theorem Store.recipientFor_of_new {identity : Identity} {recipient : MembershipId}
    (hnew : s.messageByDedupe identity.squad identity.membership request.dedupeKey = none)
    (h : s.recipientFor identity request = some recipient) :
    ∃ p, s.joinedByName identity.squad request.recipient = some p ∧ request.pinAgrees p.id
      ∧ p.id = recipient := by
  rw [Store.recipientFor, hnew] at h
  obtain ⟨hfound, hpin⟩ := Option.filter_eq_some_iff.mp h
  obtain ⟨p, hp, rfl⟩ := Option.map_eq_some_iff.mp hfound
  exact ⟨p, hp, of_decide_eq_true hpin, rfl⟩

/-- What a send by identity runs for a key that is not stored. -/
theorem authenticatedSend_of_new {identity : Identity} (recipient : MembershipId)
    (hauth : (authenticateHistorical session).run s = .ok (identity, s))
    (hnew : s.messageByDedupe identity.squad identity.membership request.dedupeKey = none) :
    (authenticatedSend session (sendFromName request identity.squad identity.membership recipient
        session.now)).run s
      = (authorizeCurrent session >>= fun _ => sendInTransaction
          (sendFromName request identity.squad identity.membership recipient session.now)).run s := by
  have hretry : (resolveRetry (sendFromName request identity.squad identity.membership recipient
      session.now)).run s = .ok (none, s) := resolveRetry_eq_none.mpr ⟨hnew, rfl⟩
  rw [authenticatedSend, Tx.run_bind_of_ok s hauth, Tx.run_require_bind, if_pos ⟨rfl, rfl⟩,
    Tx.run_bind_of_ok s hretry]

/-- What a send by name runs for a key that is not stored. -/
theorem authenticatedSendByName_of_new {identity : Identity}
    (hauth : (authenticateHistorical session).run s = .ok (identity, s))
    (hnew : s.messageByDedupe identity.squad identity.membership request.dedupeKey = none) :
    (authenticatedSendByName session request).run s = (do
      let _ ← authorizeCurrent session
      let found ← Tx.query fun s => s.joinedByName identity.squad request.recipient
      let recipient ← Tx.expect found .recipientNotFound
      Tx.require (request.pinAgrees recipient.id) .recipientNotFound
      let send := sendFromName request identity.squad identity.membership recipient.id session.now
      let record ← sendInTransaction send
      let view ← messageViewOn record
      pure ⟨view, false⟩ : StoreTx SendOutcome).run s := by
  rw [authenticatedSendByName, Tx.run_bind_of_ok s hauth, Tx.run_query_bind, hnew]

/-- What was just sent can be shown. -/
theorem sendInTransaction_view {send : SendMessage} {record : MessageRecord}
    (h : (sendInTransaction send).run s = .ok (record, s')) :
    ∃ view, view.message = record ∧ (messageViewOn record).run s' = .ok (view, s') := by
  obtain ⟨row, hrow, rfl⟩ : ∃ row ∈ s'.messages, row.record = record := by
    rcases sendInTransaction_eq_ok h with ⟨hretry, rfl⟩ | ⟨-, -, hwrite, rfl⟩
    · obtain ⟨m, hm, -, -, hrec, -⟩ := resolveRetry_eq_some.mp hretry
      exact ⟨m, (Store.messageByDedupe_eq_some.mp hm).1, hrec⟩
    · exact ⟨_, by rw [hwrite]; exact List.mem_append_right _ (List.mem_singleton_self _), rfl⟩
  obtain ⟨view, hview⟩ := s'.exists_views hrow
  refine ⟨view, hview.message, ?_⟩
  rw [messageViewOn, Tx.run_query_bind, (Store.messageView_eq_some hrow).mpr hview]
  rfl

/-- **A new message goes where its name points**, and is stored as a send by identity stores it. -/
theorem sentByName_of_new {identity : Identity} {recipient : MembershipRow}
    (hauth : (authenticateHistorical session).run s = .ok (identity, s))
    (hnew : s.messageByDedupe identity.squad identity.membership request.dedupeKey = none)
    (hjoined : s.joinedByName identity.squad request.recipient = some recipient)
    (hpin : request.pinAgrees recipient.id) :
    (∃ e, (s.sentByIdentity session request identity recipient.id) = (.error e, s)
        ∧ s.sentByName session request = (.error e, s))
      ∨ ∃ view t, s.sentByIdentity session request identity recipient.id = (.ok view.message, t)
          ∧ s.sentByName session request = (.ok ⟨view, false⟩, t) := by
  have hid := authenticatedSend_of_new recipient.id hauth hnew
  have hname := authenticatedSendByName_of_new hauth hnew
  cases hcurrent : (authorizeCurrent session).run s with
  | error e =>
      rw [Tx.run_bind_of_error s hcurrent] at hid hname
      exact Or.inl ⟨e, Tx.commit_of_error hid, Tx.commit_of_error hname⟩
  | ok r =>
      obtain ⟨current, u⟩ := r
      obtain rfl : u = s := authorizeCurrent_readOnly session s current u hcurrent
      rw [Tx.run_bind_of_ok u hcurrent] at hid hname
      rw [Tx.run_query_bind, hjoined, Tx.run_bind_of_ok u (Tx.run_expect_some u _ _),
        Tx.run_require_bind, if_pos hpin] at hname
      cases hsend : (sendInTransaction (sendFromName request identity.squad identity.membership
          recipient.id session.now)).run u with
      | error e =>
          rw [hsend] at hid
          rw [Tx.run_bind_of_error u hsend] at hname
          exact Or.inl ⟨e, Tx.commit_of_error hid, Tx.commit_of_error hname⟩
      | ok r =>
          obtain ⟨record, t⟩ := r
          obtain ⟨view, rfl, hview⟩ := sendInTransaction_view hsend
          rw [hsend] at hid
          rw [Tx.run_bind_of_ok u hsend, Tx.run_bind_of_ok t hview] at hname
          exact Or.inr ⟨view, t, Tx.commit_of_ok hid, Tx.commit_of_ok hname⟩

/-- A name nobody has, or somebody else than the pinned member, is refused. -/
theorem sentByName_of_unresolved {identity : Identity}
    (hauth : (authenticateHistorical session).run s = .ok (identity, s))
    (hnone : s.recipientFor identity request = none) :
    ∃ e, s.sentByName session request = (.error e, s) := by
  cases hnew : s.messageByDedupe identity.squad identity.membership request.dedupeKey with
  | some row =>
      rw [Store.recipientFor, hnew] at hnone
      cases hnone
  | none =>
      have hname := authenticatedSendByName_of_new hauth hnew
      cases hcurrent : (authorizeCurrent session).run s with
      | error e =>
          rw [Tx.run_bind_of_error s hcurrent] at hname
          exact ⟨e, Tx.commit_of_error hname⟩
      | ok r =>
          obtain ⟨current, u⟩ := r
          obtain rfl : u = s := authorizeCurrent_readOnly session s current u hcurrent
          rw [Tx.run_bind_of_ok u hcurrent, Tx.run_query_bind] at hname
          cases hjoined : u.joinedByName identity.squad request.recipient with
          | none =>
              rw [hjoined, Tx.run_bind_of_error u (Tx.run_expect_none u _)] at hname
              exact ⟨_, Tx.commit_of_error hname⟩
          | some recipient =>
              rw [Store.recipientFor, hnew] at hnone
              simp only [hjoined, Option.map_some] at hnone
              have hpin : ¬ request.pinAgrees recipient.id := by
                intro hpin
                simp [Option.filter, hpin] at hnone
              rw [hjoined, Tx.run_bind_of_ok u (Tx.run_expect_some u _ _), Tx.run_require_bind,
                if_neg hpin] at hname
              exact ⟨_, Tx.commit_of_error hname⟩

/-! ## Names over time -/

/-- A membership keeps its name. -/
def Store.NamesKept (s t : Store) : Prop :=
  ∀ p ∈ s.memberships, ∃ p' ∈ t.memberships, p'.id = p.id ∧ p'.name = p.name

theorem Change.namesKept {c : Context} (h : Change c s s') : s.NamesKept s' := by
  have hsame : s'.memberships = s.memberships → s.NamesKept s' :=
    fun heq p hp => ⟨p, by rw [heq]; exact hp, rfl, rfl⟩
  cases h with
  | membership row _ _ heq =>
      exact fun p hp => ⟨p, by rw [heq]; exact List.mem_append_left _ hp, rfl, rfl⟩
  | leave member now _ _ heq =>
      intro p hp
      refine ⟨_, by rw [heq]; exact mem_updateWhere.mpr ⟨p, hp, rfl⟩, ?_⟩
      split <;> exact ⟨rfl, rfl⟩
  | squad _ _ _ heq => exact hsame (by rw [heq])
  | agent _ heq => exact hsame (by rw [heq])
  | claim _ _ _ _ _ _ _ heq => exact hsame (by rw [heq]; rfl)
  | renew _ _ _ _ _ _ _ _ _ _ heq => exact hsame (by rw [heq]; rfl)
  | replace _ _ _ _ _ _ _ heq => exact hsame (by rw [heq]; rfl)
  | archive _ _ _ _ _ heq => exact hsame (by rw [heq]; rfl)
  | send _ _ _ heq => exact hsame (by rw [heq]; rfl)
  | acknowledge _ _ _ _ _ _ heq => exact hsame (by rw [heq]; rfl)

omit [Sha256] in
theorem Store.NamesKept.trans {u : Store} (h : s.NamesKept t) (h' : t.NamesKept u) :
    s.NamesKept u := by
  intro p hp
  obtain ⟨p', hp', hid, hname⟩ := h p hp
  obtain ⟨p'', hp'', hid', hname'⟩ := h' p' hp'
  exact ⟨p'', hp'', hid'.trans hid, hname'.trans hname⟩

theorem steps_namesKept {ok : Store → Op → Prop} (h : storeLts.Steps ok s t) : s.NamesKept t := by
  refine h.related (P := fun _ => True) (fun s p hp => ⟨p, hp, rfl, rfl⟩)
    (fun _ _ _ h h' => h.trans h') ?_ trivial
  rintro s op t - - rfl
  refine ⟨Changes.keeps (Q := fun t => s.NamesKept t) ?_ (s.exec_changes_any op)
    fun p hp => ⟨p, hp, rfl, rfl⟩, trivial⟩
  exact fun t t' hchange ht => ht.trans hchange.namesKept

/-! ## The refinement -/

/-- A message that was committed, and a later repetition of its dedupe key by its sender. -/
structure Store.Repeated (s t : Store) (row : MessageRow) (session : AuthenticatedSession)
    (identity : Identity) (request : SendByName) : Prop where
  mem : row ∈ s.messages
  authenticated : (authenticateHistorical session).run t = .ok (identity, t)
  sender : identity.membership = row.senderMembershipId
  key : request.dedupeKey = row.dedupeKey

/-- The row a repetition finds, and what it shows. -/
theorem Store.Repeated.found {row : MessageRow} {identity : Identity}
    (h : s.Repeated t row session identity request) (hlater : storeLts.Steps Lts.always s t) :
    ∃ row' view, row'.record = row.record ∧ t.Views row' view
      ∧ t.messageByDedupe identity.squad identity.membership request.dedupeKey = some row'
      ∧ ∀ p ∈ s.memberships, p.id = row.recipientMembershipId → view.recipient = p.name := by
  obtain ⟨row', hrow', hev⟩ := steps_messagesKept hlater row h.mem
  obtain ⟨view, hview⟩ := t.exists_views hrow'
  have hkeys := hev.key_eq
  simp only [Prod.mk.injEq] at hkeys
  obtain ⟨hsquad, hsender, hkey⟩ := hkeys
  refine ⟨row', view, hev.record_eq, hview, ?_, ?_⟩
  · -- the sender's membership fixes the squad of the identity
    obtain ⟨i, m, hi, rfl, -⟩ := authenticateHistorical_eq_ok.mp h.authenticated
    obtain ⟨p, hp, hpid, hpsquad⟩ := t.constraints.messageSender row' hrow'
    have hm : m = p := t.constraints.membershipId.eq hi.member hp
      ((show m.id = row.senderMembershipId from h.sender).trans (hsender.symm.trans hpid.symm))
    refine Store.messageByDedupe_eq_some.mpr ⟨hrow', ?_⟩
    rw [h.key, h.sender, hsender, hkey, ← hpsquad, ← hm]
    rfl
  · intro p hp hpid
    obtain ⟨p', hp', hid, hname⟩ := steps_namesKept hlater p hp
    obtain ⟨r, hr, hrid, hrname⟩ := hview.recipient
    have hrecipient : row'.recipientMembershipId = row.recipientMembershipId :=
      congrArg (fun record => record.semantics.recipient) hev.record_eq
    rw [← hrname, ← hname]
    exact congrArg (·.name) (t.constraints.membershipId.eq hr hp'
      (by rw [hrid, hrecipient, hid, hpid]))

/-- Routing names are stored normalized. -/
def Store.Named (s : Store) : Prop := ∀ m ∈ s.memberships, m.normalizedName = m.name

theorem Change.named {c : Context} (h : Change c s s') (hs : s.Named) : s'.Named := by
  have hsame : s'.memberships = s.memberships → s'.Named := fun heq m hm => hs m (heq ▸ hm)
  cases h with
  | membership row _ hname heq =>
      intro m hm
      rw [heq] at hm
      rcases List.mem_append.mp hm with hm | hm
      · exact hs m hm
      · rw [List.mem_singleton.mp hm]
        exact hname
  | leave member now _ _ heq =>
      intro m hm
      rw [heq] at hm
      obtain ⟨o, ho, rfl⟩ := mem_updateWhere.mp hm
      have hname := hs o ho
      split <;> exact hname
  | squad _ _ _ heq => exact hsame (by rw [heq])
  | agent _ heq => exact hsame (by rw [heq])
  | claim _ _ _ _ _ _ _ heq => exact hsame (by rw [heq]; rfl)
  | renew _ _ _ _ _ _ _ _ _ _ heq => exact hsame (by rw [heq]; rfl)
  | replace _ _ _ _ _ _ _ heq => exact hsame (by rw [heq]; rfl)
  | archive _ _ _ _ _ heq => exact hsame (by rw [heq]; rfl)
  | send _ _ _ heq => exact hsame (by rw [heq]; rfl)
  | acknowledge _ _ _ _ _ _ heq => exact hsame (by rw [heq]; rfl)

theorem reach_named {ok : Store → Op → Prop} (h : storeLts.Reach ok s) : s.Named := by
  refine h.invariant ?_ ?_
  · rintro s rfl m hm
    cases hm
  · rintro s op t hs - rfl
    exact Changes.keeps (fun _ _ hchange => hchange.named) (s.exec_changes_any op) hs

/-- The message a send by name answered with: one that was stored under its key, or a new one. -/
structure Store.Sends (s : Store) (session : AuthenticatedSession) (request : SendByName)
    (outcome : SendOutcome) (s' : Store) (m : MembershipRow) (row : MessageRow) : Prop where
  authenticates : ∃ i, s.Authenticates session i m
  repeats : s'.Repeats m request row
  views : s'.Views row outcome.message
  writes : s' = s ∨ (s.messageByDedupe m.squadId m.id request.dedupeKey = none
    ∧ s'.messages = s.messages ++ [row])

theorem authenticatedSendByName_eq_ok (hnames : s.Named) {outcome : SendOutcome}
    (h : (authenticatedSendByName session request).run s = .ok (outcome, s')) :
    ∃ m row, s.Sends session request outcome s' m row := by
  simp only [authenticatedSendByName, Tx.bind_eq_ok, authenticateHistorical_eq_ok,
    Tx.query_eq_ok] at h
  obtain ⟨_, _, ⟨i, m, hauth, rfl, rfl⟩, stored, _, ⟨hstored, rfl⟩, h⟩ := h
  cases stored with
  | some row =>
      simp only [findByDedupe, Tx.bind_eq_ok, Tx.require_eq_ok,
        Tx.expect_eq_ok, messageViewOn, Tx.query_eq_ok, Tx.pure_eq_ok] at h
      obtain ⟨_, _, ⟨hpin, rfl⟩, found, t, ⟨again, _, ⟨hagain, rfl⟩, hfound⟩, record, _,
        ⟨rfl, rfl⟩, _, _, ⟨hsemantics, rfl⟩, view, _, ⟨_, _, ⟨hview, rfl⟩, rfl, rfl⟩, _, _,
        ⟨hrecipient, rfl⟩, rfl, rfl⟩ := h
      have hrow : again = some row := by
        rw [← hagain]
        exact hstored
      subst hrow
      simp only [Tx.bind_eq_ok, Tx.ofExcept_eq_ok, mapMessage_eq_ok, Tx.pure_eq_ok,
        Option.some.injEq] at hfound
      obtain ⟨_, _, ⟨⟨-, rfl⟩, rfl⟩, rfl, rfl⟩ := hfound
      obtain ⟨hmem, hkey⟩ := Store.messageByDedupe_eq_some.mp hstored
      have hsem : row.semantics = (sendFromName request m.squadId m.id
          row.recipientMembershipId session.now).semantics := hsemantics
      simp only [Prod.mk.injEq, identityOf] at hkey
      have hviews := (Store.messageView_eq_some hmem).mp hview
      obtain ⟨r, hr, hrid, hrname⟩ := hviews.recipient
      exact ⟨m, row, ⟨i, hauth⟩, ⟨hmem, hkey.1, hkey.2.1, hkey.2.2,
        congrArg MessageSemantics.body hsem, congrArg MessageSemantics.priority hsem,
        congrArg MessageSemantics.replyTo hsem, congrArg MessageSemantics.correlationId hsem,
        hpin, r, hr, hrid, hrname.trans hrecipient⟩, hviews, Or.inl rfl⟩
  | none =>
      simp only [Tx.bind_eq_ok, authorizeCurrent_eq_ok, Tx.query_eq_ok, Tx.expect_eq_ok,
        Tx.require_eq_ok, messageViewOn, Tx.pure_eq_ok] at h
      obtain ⟨_, _, ⟨j, n, hcurrent, -, rfl⟩, _, _, ⟨rfl, rfl⟩, r, _, ⟨hr, rfl⟩, _, _, ⟨hpin, rfl⟩,
        record, t, hsend, view, _, ⟨_, _, ⟨hview, rfl⟩, rfl, rfl⟩, rfl, rfl⟩ := h
      rcases sendInTransaction_eq_ok hsend with ⟨hretry, -⟩ | ⟨hnone, -, hwrite, rfl⟩
      · obtain ⟨row, hrow, -⟩ := resolveRetry_eq_some.mp hretry
        have hclash : s.messageByDedupe (identityOf i m).squad (identityOf i m).membership
          request.dedupeKey = some row := hrow
        rw [hstored] at hclash
        cases hclash
      have hmessages : t.messages = s.messages ++ [(sendFromName request m.squadId m.id r.id
          session.now).row s.nextSequence] := by
        rw [hwrite]
        rfl
      have hmemberships : t.memberships = s.memberships := by
        rw [hwrite]
        rfl
      obtain ⟨hrmem, -, hrname, -⟩ := Store.joinedByName_eq_some.mp hr
      have hmem : (sendFromName request m.squadId m.id r.id session.now).row s.nextSequence
          ∈ t.messages := by
        rw [hmessages]
        exact List.mem_append_right _ (List.mem_singleton_self _)
      refine ⟨m, _, ⟨i, hauth⟩, ⟨hmem, rfl, rfl, rfl, rfl, rfl, rfl, rfl, hpin, r, ?_, rfl, ?_⟩,
        (Store.messageView_eq_some hmem).mp hview, Or.inr ⟨hnone, hmessages⟩⟩
      · rw [hmemberships]
        exact hrmem
      · exact (hnames r hrmem).symm.trans hrname

end Routing

namespace Sample

/-- Bob leaves, and somebody else joins under his name. -/
def anotherBob : List Op :=
  [.authenticatedLeave (bobAt (instant 120)) alpha,
    .joinAndClaim (joinAlpha bobName ⟨"agt_new", by decide⟩ ⟨"mem_new", by decide⟩
      ⟨"ins_new", by decide⟩ (instant 130)) (some bobToken)]

/-- The greeting by name, as Alice's client repeats it. -/
def greetingByName (name : MemberName) : SendByName where
  id := messageTwo
  recipient := name
  recipientMembershipId := none
  body := hello
  priority := .normal
  dedupeKey := (greeting messageTwo (instant 140)).dedupeKey
  replyTo := none
  correlationId := none

def aliceIdentity : Identity :=
  ⟨alice, alphaId, .cooperative, instant 30100, instant 100, instant 100⟩

end Sample

end Psst
