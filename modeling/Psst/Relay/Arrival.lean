import Psst.Relay.Command
import Psst.Store.Mailbox

/-!
# What makes a message arrive

The handler of an inbox request waits for a message of its recipient. Of all the commands the
worker runs only a send brings one, and its reply names the recipient: that name is what the
worker notifies.
-/

namespace Psst

open Table

/-! ## What session commands leave alone -/

/-- A part of the tables that no command about sessions writes: neither an active squad, an
agent or a membership, nor the instances, nor a departure. -/
structure Tables.Settled {γ : Type} (q : Tables → γ) : Prop where
  squad : ∀ t row, row.archivedAt = none →
    q { t with squads := t.squads ++ [row] } = q t
  agent : ∀ t row, q { t with agents := t.agents ++ [row] } = q t
  membership : ∀ t row, q { t with memberships := t.memberships ++ [row] } = q t
  instances : ∀ t rows, q { t with instances := rows } = q t
  left : ∀ t member now, q (Tables.setLeft member now t) = q t

theorem Tables.settled_messages : Tables.Settled fun t => t.messages where
  squad _ _ _ := rfl
  agent _ _ := rfl
  membership _ _ := rfl
  instances _ _ := rfl
  left _ _ _ := rfl

section Settled

variable {γ : Type} {q : Tables → γ}

theorem createSquad_keeps (hq : Tables.Settled q) (request : CreateSquad) :
    (createSquad request).Keeps fun s : Store => q s.toTables :=
  (Tx.readOnly_require _ _).keeps.bind fun _ =>
    (Tx.readOnly_query _).keeps.bind fun _ =>
      (Tx.readOnly_require _ _).keeps.bind fun _ =>
        Tx.Keeps.bind (StoreTx.write_keeps fun t => hq.squad t _ rfl) fun _ =>
          (Tx.readOnly_pure _).keeps

theorem findOrCreateSquad_keeps (hq : Tables.Settled q) (request : JoinMembership) :
    (findOrCreateSquad request).Keeps fun s : Store => q s.toTables := by
  refine (Tx.readOnly_query _).keeps.bind fun existing => ?_
  cases existing with
  | some squad =>
      exact (Tx.readOnly_require _ _).keeps.bind fun _ => (Tx.readOnly_pure _).keeps
  | none =>
      exact (Tx.readOnly_expect _ _).keeps.bind fun _ =>
        Tx.Keeps.bind (StoreTx.write_keeps fun t => hq.squad t _ rfl) fun _ =>
          (Tx.readOnly_pure _).keeps

theorem insertMembership_keeps (hq : Tables.Settled q) (row : MembershipRow) :
    (insertMembership row).Keeps fun s : Store => q s.toTables :=
  (Tx.readOnly_require _ _).keeps.bind fun _ =>
    (Tx.readOnly_query _).keeps.bind fun _ =>
      (Tx.readOnly_require _ _).keeps.bind fun _ =>
        StoreTx.write_keeps fun t => hq.membership t _

theorem validateObservation_readOnly (availability : Availability) (source : AvailabilitySource)
    (now : UnixMillis) : (validateObservation availability source now).ReadOnly :=
  fun _ _ _ h => (validateObservation_eq_ok.mp h).2.symm

variable [Sha256]

theorem insertInstance_keeps (hq : Tables.Settled q) (n : NewInstance) :
    (insertInstance n).Keeps fun s : Store => q s.toTables :=
  (Tx.readOnly_expect _ _).keeps.bind fun _ =>
    Tx.Keeps.bind (StoreTx.write_keeps fun t => hq.instances t _) fun _ =>
      (Tx.readOnly_pure _).keeps

theorem joinAndClaim_keeps (hq : Tables.Settled q) (request : JoinAndClaim)
    (generated : Option ResumeToken) :
    (joinAndClaim request generated).Keeps fun s : Store => q s.toTables :=
  (Tx.readOnly_require _ _).keeps.bind fun _ =>
    (validateObservation_readOnly _ _ _).keeps.bind fun _ =>
      (Tx.readOnly_expect _ _).keeps.bind fun _ =>
        (findOrCreateSquad_keeps hq _).bind fun _ =>
          Tx.Keeps.bind (StoreTx.write_keeps fun t => hq.agent t _) fun _ =>
            (insertMembership_keeps hq _).bind fun _ =>
              (insertInstance_keeps hq _).bind fun _ =>
                (squadByIdTx_readOnly _).keeps.bind fun _ => (Tx.readOnly_pure _).keeps

theorem authenticatedHeartbeat_keeps (hq : Tables.Settled q) (session : AuthenticatedSession)
    (availability : Availability) (source : AvailabilitySource) (policy : LeasePolicy) :
    (authenticatedHeartbeat session availability source policy).Keeps
      fun s : Store => q s.toTables :=
  (validateObservation_readOnly _ _ _).keeps.bind fun _ =>
    (authorizeCurrent_readOnly session).keeps.bind fun _ =>
      (Tx.readOnly_ofExcept _).keeps.bind fun _ =>
        Tx.Keeps.bind (StoreTx.write_keeps fun t => hq.instances t _) fun _ =>
          (Tx.readOnly_pure _).keeps

theorem authenticatedLeave_keeps (hq : Tables.Settled q) (session : AuthenticatedSession)
    (squad : SquadName) :
    (authenticatedLeave session squad).Keeps fun s : Store => q s.toTables :=
  (authorizeCurrent_readOnly session).keeps.bind fun _ =>
    (squadByIdTx_readOnly _).keeps.bind fun _ =>
      (Tx.readOnly_require _ _).keeps.bind fun _ =>
        Tx.Keeps.bind (StoreTx.write_keeps fun t => hq.instances t _) fun _ =>
          Tx.Keeps.bind (StoreTx.write_keeps fun t => hq.left t _ _) fun _ =>
            (Tx.readOnly_pure _).keeps

theorem authenticatedResume_keeps (hq : Tables.Settled q) (request : AuthenticatedResume) :
    (authenticatedResume request).Keeps fun s : Store => q s.toTables := by
  refine (Tx.readOnly_require _ _).keeps.bind fun _ => ?_
  refine (validateObservation_readOnly _ _ _).keeps.bind fun _ => ?_
  refine (Tx.readOnly_query _).keeps.bind fun _ => ?_
  refine (Tx.readOnly_expect _ _).keeps.bind fun ⟨prior, m, squad⟩ => ?_
  refine (Tx.readOnly_require _ _).keeps.bind fun _ => ?_
  refine (Tx.readOnly_require _ _).keeps.bind fun _ => ?_
  refine (Tx.readOnly_require _ _).keeps.bind fun _ => ?_
  refine (Tx.readOnly_require _ _).keeps.bind fun _ => ?_
  refine (Tx.readOnly_query _).keeps.bind fun _ => ?_
  refine (Tx.readOnly_require _ _).keeps.bind fun _ => ?_
  refine Tx.Keeps.bind (StoreTx.write_keeps fun t => hq.instances t _) fun _ => ?_
  have hmember : (membershipByIdTx m.id).ReadOnly :=
    (Tx.readOnly_query _).bind fun _ => (Tx.readOnly_expect _ _).bind fun _ => Tx.readOnly_pure _
  refine hmember.keeps.bind fun _ => ?_
  refine (squadByIdTx_readOnly _).keeps.bind fun _ => ?_
  exact (insertInstance_keeps hq _).bind fun _ => (Tx.readOnly_pure _).keeps

theorem authenticatedArchiveByName_keepsMessages (session : AuthenticatedSession)
    (squad : SquadName) :
    (authenticatedArchiveByName session squad).Keeps fun s : Store => s.messages :=
  (authorizeCurrent_readOnly session).keeps.bind fun _ =>
    (describeSquad_readOnly _).keeps.bind fun _ =>
      (Tx.readOnly_require _ _).keeps.bind fun _ =>
        (Tx.readOnly_require _ _).keeps.bind fun _ =>
          Tx.Keeps.bind (StoreTx.write_keeps (q := fun t => t.messages) fun _ => rfl) fun _ =>
            (Tx.readOnly_pure _).keeps

end Settled

section Commands

variable [Sha256]

/-! ## Sends -/

variable {s s' : Store}

/-- **A send inserts at most one message**, for the recipient its reply names. -/
theorem authenticatedSendByName_messages {session : AuthenticatedSession} {request : SendByName}
    {outcome : SendOutcome}
    (h : (authenticatedSendByName session request).run s = .ok (outcome, s')) :
    s' = s ∨ ∃ send : SendMessage, s'.toTables = s.toTables.insertMessage send
      ∧ outcome.message.message.semantics.recipient = send.semantics.recipient := by
  simp only [authenticatedSendByName, Tx.bind_eq_ok, authenticateHistorical_eq_ok,
    Tx.query_eq_ok] at h
  obtain ⟨_, _, ⟨i, m, hauth, rfl, rfl⟩, stored, _, ⟨hstored, rfl⟩, h⟩ := h
  cases stored with
  | some row =>
      left
      simp only [Tx.bind_eq_ok, Tx.require_eq_ok, Tx.expect_eq_ok, messageViewOn, Tx.query_eq_ok,
        Tx.pure_eq_ok] at h
      obtain ⟨_, _, ⟨-, rfl⟩, found, t, hfound, record, _, ⟨-, rfl⟩, _, _, ⟨-, rfl⟩, view, _,
        ⟨_, _, ⟨-, rfl⟩, -, rfl⟩, _, _, ⟨-, rfl⟩, -, rfl⟩ := h
      exact findByDedupe_readOnly _ _ _ _ hfound
  | none =>
      simp only [Tx.bind_eq_ok, authorizeCurrent_eq_ok, Tx.query_eq_ok, Tx.expect_eq_ok,
        Tx.require_eq_ok, messageViewOn, Tx.pure_eq_ok] at h
      obtain ⟨_, _, ⟨_, _, -, -, rfl⟩, _, _, ⟨-, rfl⟩, r, _, ⟨-, rfl⟩, _, _, ⟨-, rfl⟩, record, t,
        hsend, view, _, ⟨_, _, ⟨hview, rfl⟩, rfl, rfl⟩, rfl, rfl⟩ := h
      rcases sendInTransaction_eq_ok hsend with ⟨-, rfl⟩ | ⟨-, -, heq, rfl⟩
      · exact Or.inl rfl
      · refine Or.inr ⟨_, heq, ?_⟩
        simp only [Tables.messageView, Option.bind_eq_bind, Option.bind_eq_some_iff,
          Option.pure_def, Option.some.injEq] at hview
        obtain ⟨_, -, _, -, _, -, _, -, rfl⟩ := hview
        rfl

/-! ## Arrival -/

omit [Sha256] in
theorem Tables.pendingRows_eq_nil {t : Tables} {member : MembershipId} :
    t.pendingRows member = [] ↔ ∀ m ∈ t.messages, m.pendingFor member = false := by
  rw [Tables.pendingRows, ← List.length_eq_zero_iff, List.length_insertionSort,
    List.length_eq_zero_iff, List.filter_eq_nil_iff]
  simp

/-- **Only a send fills an empty inbox**, and its reply names the recipient. -/
theorem Store.execute_arrival {member : MembershipId} (hnil : s.pendingRows member = [])
    (command : StoreCommand) (now : UnixMillis) (generated : Option ResumeToken) :
    (s.execute command now generated).2.pendingRows member = []
      ∨ ∃ outcome, (s.execute command now generated).1 = .ok (.sent outcome)
          ∧ outcome.message.message.semantics.recipient = member := by
  have hkeep : ∀ {α : Type} {x : StoreTx α} (reply : α → Reply), x.Keeps (fun s : Store => s.messages) →
      (s.answer x reply).2.pendingRows member = [] := by
    intro α x reply hx
    have hmessages : (s.answer x reply).2.messages = s.messages := hx.commit_snd s
    rw [Tables.pendingRows_eq_nil, hmessages]
    exact Tables.pendingRows_eq_nil.mp hnil
  cases command with
  | join request => exact Or.inl (hkeep .joined (joinAndClaim_keeps Tables.settled_messages _ _))
  | listSquads => exact Or.inl (hkeep .squads (Tx.readOnly_query _).keeps)
  | createSquad request => exact Or.inl (hkeep .squad (createSquad_keeps Tables.settled_messages _))
  | describeSquad name => exact Or.inl (hkeep .squad (describeSquad_readOnly name).keeps)
  | roster credential name =>
      exact Or.inl (hkeep .roster (authenticatedRoster_readOnly _ _).keeps)
  | heartbeat credential availability source policy =>
      exact Or.inl (hkeep .heartbeat (authenticatedHeartbeat_keeps Tables.settled_messages _ _ _ _))
  | pending credential limit =>
      exact Or.inl (hkeep .page (authenticatedPendingPage_readOnly _ _).keeps)
  | transcript credential query =>
      exact Or.inl (hkeep .transcript (authenticatedTranscriptViews_readOnly _ _).keeps)
  | leave credential squad => exact Or.inl (hkeep .left (authenticatedLeave_keeps Tables.settled_messages _ _))
  | archive credential squad =>
      exact Or.inl (hkeep .squad (authenticatedArchiveByName_keepsMessages _ _))
  | resume request => exact Or.inl (hkeep .resumed (authenticatedResume_keeps Tables.settled_messages _))
  | acknowledge credential ids =>
      left
      show (Tx.commit (authenticatedAcknowledge (session credential now) ids) s).2.pendingRows
        member = []
      rcases Tx.commit_cases (authenticatedAcknowledge (session credential now) ids) s with
        ⟨e, -, hc⟩ | ⟨a, t, hrun, hc⟩
      · rw [hc]
        exact hnil
      · rw [hc]
        simp only [authenticatedAcknowledge, Tx.bind_eq_ok, authorizeCurrent_eq_ok] at hrun
        obtain ⟨_, _, ⟨_, _, -, -, rfl⟩, hrun⟩ := hrun
        rw [Tables.pendingRows_eq_nil, (acknowledgeOn_eq_ok hrun).2]
        intro m hm
        -- an acknowledged row is pending for nobody, the others are as they were
        obtain ⟨o, ho, rfl⟩ := mem_updateWhere.mp hm
        have hout := Tables.pendingRows_eq_nil.mp hnil o ho
        split
        · simp [MessageRow.pendingFor]
        · exact hout
  | send credential request =>
      show (Tx.commit (authenticatedSendByName (session credential now) request) s).2.pendingRows
        member = [] ∨ ∃ outcome, (Tx.commit _ s).1.map Reply.sent = .ok (.sent outcome) ∧ _
      rcases Tx.commit_cases (authenticatedSendByName (session credential now) request) s with
        ⟨e, -, hc⟩ | ⟨outcome, t, hrun, hc⟩
      · rw [hc]
        exact Or.inl hnil
      rw [hc]
      rcases authenticatedSendByName_messages hrun with rfl | ⟨send, heq, hrecipient⟩
      · exact Or.inl hnil
      by_cases hmember : send.semantics.recipient = member
      · exact Or.inr ⟨outcome, rfl, hrecipient.trans hmember⟩
      · left
        rw [Tables.pendingRows_eq_nil, heq]
        intro m hm
        rcases List.mem_append.mp hm with hm | hm
        · exact Tables.pendingRows_eq_nil.mp hnil m hm
        · cases List.mem_singleton.mp hm
          simp [MessageRow.pendingFor, SendMessage.row, hmember]

/-- What an answered inbox query says: whose inbox it is, and how much is in it. -/
theorem authenticatedPendingPage_eq_ok {session : AuthenticatedSession} {limit : Nat}
    {page : InboxPage} (h : (authenticatedPendingPage session limit).run s = .ok (page, s')) :
    s' = s ∧ page.pendingCount = (s.pendingRows page.recipientMembership).length
      ∧ ∃ i ∈ s.instances, i.id = session.instanceId
          ∧ i.membershipId = page.recipientMembership := by
  have hread := authenticatedPendingPage_readOnly session limit s page s' h
  simp only [authenticatedPendingPage, Tx.bind_eq_ok, authorizeCurrent_eq_ok, Tx.query_eq_ok,
    Tx.pure_eq_ok] at h
  obtain ⟨_, _, ⟨i, m, hauth, rfl, rfl⟩, pending, _, ⟨rfl, rfl⟩, records, _, -, messages, _, -,
    rfl, -⟩ := h
  exact ⟨hread, rfl, i, hauth.mem, hauth.id, hauth.memberId.symm⟩

end Commands

end Psst
