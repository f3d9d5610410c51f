import Psst.Client.Client
import Psst.Relay.Arrival
import Psst.Relay.Calendar
import Psst.Relay.Inbox
import Psst.Relay.Transcript
import Psst.Store.Constraint
import Psst.Store.Routing

/-!
# Responses and the clock

The client refuses a squad archived before it was created, and a message acknowledged before it
was sent. The store stamps each of the four times with the clock reading of its own command, so
these two orders hold exactly as long as no archive and no acknowledgement is run by a clock
that reads less than the creation time of what it stamps. Every other response is valid whatever
the clock reads.
-/

namespace Psst

open Table

/-- What the typed client checks of a body it has parsed. -/
def ResponseBody.validate : ResponseBody → Bool
  | .squads body => body.all SquadSummary.validate
  | .squad body => body.validate
  | .archived body => body.squad.validate
  | .session body => body.validate
  | .left _ => true
  | .roster body => body.validate
  | .heartbeat body => body.validate
  | .sent body => body.message.validate
  | .inbox body => body.validate
  | .acknowledged body => body.validate
  | .transcript body => body.validate

/-! ## Stamps in order -/

/-- Nothing is archived or acknowledged before it was created. -/
structure Store.Chronological (s : Store) : Prop where
  squads : ∀ q ∈ s.squads, ∀ t ∈ q.archivedAt, q.createdAt ≤ t
  messages : ∀ m ∈ s.messages, ∀ t ∈ m.acknowledgedAt, m.createdAt ≤ t

/-- The rows that carry a second stamp, and all messages. -/
def Tables.stamped (t : Tables) : List SquadRecord × List MessageRow :=
  (t.squads.filter fun q => q.archivedAt.isSome, t.messages)

theorem Tables.settled_stamped : Tables.Settled Tables.stamped where
  squad t row h := by simp [Tables.stamped, List.filter_append, h]
  agent _ _ := rfl
  membership _ _ := rfl
  instances _ _ := rfl
  left _ _ _ := rfl

section Stamps

variable {s s' : Store}

theorem Store.Chronological.of_stamped (h : s.Chronological)
    (heq : s'.toTables.stamped = s.toTables.stamped) : s'.Chronological := by
  obtain ⟨hsquads, hmessages⟩ := Prod.mk.inj heq
  refine ⟨fun q hq t ht => ?_, fun m hm => h.messages m (hmessages ▸ hm)⟩
  have hstamped : q ∈ s'.squads.filter fun q => q.archivedAt.isSome :=
    List.mem_filter.mpr ⟨hq, Option.isSome_of_mem ht⟩
  rw [hsquads] at hstamped
  exact h.squads q (List.mem_filter.mp hstamped).1 t ht

/-- A batch is stamped in order exactly if its pending messages were created by then. -/
theorem Store.Chronological.acknowledgeAll (h : s.Chronological) {recipient : MembershipId}
    {now : UnixMillis} {ids : List MessageId}
    (heq : s'.toTables = s.toTables.acknowledgeAll recipient now ids) :
    s'.Chronological ↔ ∀ m ∈ s.messages, m.id ∈ ids → m.pendingFor recipient = true →
      m.createdAt ≤ now := by
  have hsquads : s'.squads = s.squads := by rw [heq]; rfl
  have hmessages : s'.messages = (s.toTables.acknowledgeAll recipient now ids).messages := by
    rw [heq]
  constructor
  · intro hs' m hm hid hpending
    refine hs'.messages { m with acknowledgedAt := some now } ?_ now rfl
    rw [hmessages]
    exact mem_updateWhere.mpr ⟨m, hm, by simp [hid, hpending]⟩
  · intro hcreated
    refine ⟨fun q hq => h.squads q (hsquads ▸ hq), fun m hm t ht => ?_⟩
    rw [hmessages] at hm
    obtain ⟨o, ho, rfl⟩ := mem_updateWhere.mp hm
    split at ht
    · rename_i hbatch
      rw [if_pos hbatch]
      simp only [Bool.and_eq_true, decide_eq_true_eq] at hbatch
      cases ht
      exact hcreated o ho hbatch.1 hbatch.2
    · rename_i hbatch
      rw [if_neg hbatch]
      exact h.messages o ho t ht

/-- A squad is stamped in order exactly if it was created by then. -/
theorem Store.Chronological.archiveSquads (h : s.Chronological) {q : SquadRecord}
    {now : UnixMillis} (hq : q ∈ s.squads) (hactive : q.state = .active)
    (heq : s'.toTables = s.toTables.archiveSquads (fun r => decide (r.id = q.id)) now) :
    s'.Chronological ↔ q.createdAt ≤ now := by
  have hmessages : s'.messages = s.messages := by rw [heq]; rfl
  have hsquads : s'.squads = (s.toTables.archiveSquads (fun r => decide (r.id = q.id)) now).squads :=
    by rw [heq]
  constructor
  · intro hs'
    refine hs'.squads { q with state := .archived, archivedAt := some now } ?_ now rfl
    rw [hsquads]
    exact mem_updateWhere.mpr ⟨q, hq, by simp [hactive]⟩
  · intro hcreated
    refine ⟨fun p hp t ht => ?_, fun m hm => h.messages m (hmessages ▸ hm)⟩
    rw [hsquads] at hp
    obtain ⟨o, ho, rfl⟩ := mem_updateWhere.mp hp
    split at ht
    · rename_i hsame
      rw [if_pos hsame]
      simp only [Bool.and_eq_true, decide_eq_true_eq] at hsame
      cases ht
      rw [s.constraints.squadId.eq ho hq hsame.1]
      exact hcreated
    · rename_i hother
      rw [if_neg hother]
      exact h.squads o ho t ht

end Stamps

/-! ## On time -/

section Time

variable [Sha256] {s : Store}

/-- The command finds nothing to stamp that was created after the clock's reading. -/
def Store.OnTime (s : Store) (task : Task) : Prop :=
  match task.command with
  | .archive credential squad =>
    ∀ i m, s.Authorizes (session credential task.now) i m →
      ∀ q ∈ s.squads, q.name = squad → q.id = m.squadId → q.createdAt ≤ task.now
  | .acknowledge credential ids =>
    ∀ i m, s.Authorizes (session credential task.now) i m →
      (∀ id ∈ ids, s.ownsMessage m.id id = true) →
        ∀ row ∈ s.messages, row.id ∈ ids → row.pendingFor m.id = true → row.createdAt ≤ task.now
  | _ => True

theorem authenticatedArchiveByName_eq_ok {session : AuthenticatedSession} {name : SquadName}
    {record : SquadRecord} {s' : Store}
    (h : (authenticatedArchiveByName session name).run s = .ok (record, s')) :
    ∃ i m q, s.Authorizes session i m ∧ q ∈ s.squads ∧ q.name = name ∧ q.id = m.squadId
      ∧ q.state = .active
      ∧ record = { q with state := .archived, archivedAt := some session.now }
      ∧ s'.toTables
        = s.toTables.archiveSquads (fun r => decide (r.id = q.id)) session.now := by
  simp only [authenticatedArchiveByName, squadByNameTx, Tx.bind_eq_ok, authorizeCurrent_eq_ok,
    Tx.query_eq_ok, Tx.expect_eq_ok, Tx.require_eq_ok, StoreTx.write_eq_ok, Tx.pure_eq_ok] at h
  obtain ⟨_, _, ⟨i, m, hauth, rfl, rfl⟩, q, _, ⟨_, _, ⟨rfl, rfl⟩, hq, rfl⟩, _, _, ⟨hsquad, rfl⟩, _,
    _, ⟨hactive, rfl⟩, _, _, hwrite, rfl, rfl⟩ := h
  obtain ⟨hmem, hname⟩ := s.squadByName_eq_some.mp hq
  exact ⟨i, m, q, hauth, hmem, hname, hsquad.symm, hactive, rfl, hwrite⟩

theorem authenticatedAcknowledge_eq_ok {session : AuthenticatedSession} {ids : List MessageId}
    {u : Unit} {s' : Store} (h : (authenticatedAcknowledge session ids).run s = .ok (u, s')) :
    ∃ i m, s.Authorizes session i m ∧ (∀ id ∈ ids, s.ownsMessage m.id id = true)
      ∧ s'.toTables = s.toTables.acknowledgeAll m.id session.now ids := by
  simp only [authenticatedAcknowledge, Tx.bind_eq_ok, authorizeCurrent_eq_ok] at h
  obtain ⟨_, _, ⟨i, m, hauth, rfl, rfl⟩, h⟩ := h
  obtain ⟨howned, heq⟩ := acknowledgeOn_eq_ok h
  exact ⟨i, m, hauth, howned, heq⟩

/-- A member archives its own squad. -/
theorem authenticatedArchiveByName_of_authorizes {session : AuthenticatedSession} {i : InstanceRow}
    {m : MembershipRow} (hauth : s.Authorizes session i m) {q : SquadRecord} (hq : q ∈ s.squads)
    (hid : q.id = m.squadId) :
    ∃ record s', (authenticatedArchiveByName session q.name).run s = .ok (record, s') := by
  have hcurrent : (authorizeCurrent session).run s = .ok (identityOf i m, s) :=
    authorizeCurrent_eq_ok.mpr ⟨i, m, hauth, rfl, rfl⟩
  have hsquad : (squadByNameTx q.name).run s = .ok (q, s) := by
    rw [squadByNameTx, Tx.run_query_bind, s.squadByName_eq_some.mpr ⟨hq, rfl⟩]
    rfl
  have hsame : (identityOf i m).squad = q.id := hid.symm
  have hactive : q.state = .active := hauth.isOpen q hq hid
  rw [authenticatedArchiveByName, Tx.run_bind_of_ok s hcurrent, Tx.run_bind_of_ok s hsquad,
    Tx.run_require_bind, if_pos hsame, Tx.run_require_bind, if_pos hactive,
    Tx.run_bind_of_ok s (StoreTx.write_run_of_constraints (s.constraints.archiveSquads _ _))]
  exact ⟨_, _, rfl⟩

/-- A recipient acknowledges its own messages. -/
theorem authenticatedAcknowledge_of_authorizes {session : AuthenticatedSession} {i : InstanceRow}
    {m : MembershipRow} (hauth : s.Authorizes session i m) {ids : List MessageId}
    (howned : ∀ id ∈ ids, s.ownsMessage m.id id = true) :
    ∃ s', (authenticatedAcknowledge session ids).run s = .ok ((), s') := by
  have hcurrent : (authorizeCurrent session).run s = .ok (identityOf i m, s) :=
    authorizeCurrent_eq_ok.mpr ⟨i, m, hauth, rfl, rfl⟩
  rw [authenticatedAcknowledge, Tx.run_bind_of_ok s hcurrent]
  exact ⟨_, acknowledgeOn_of_owned howned⟩

omit [Sha256] in
theorem Store.answer_snd_of_ok {α : Type} {x : StoreTx α} (reply : α → Reply) {a : α} {t : Store}
    (h : x.run s = .ok (a, t)) : (s.answer x reply).2 = t := by
  simp only [Store.answer, Tx.commit_of_ok h]

/-- A send stamps nothing. -/
theorem Store.Chronological.send (h : s.Chronological) {session : AuthenticatedSession}
    {request : SendByName} {outcome : SendOutcome} {s' : Store}
    (hrun : (authenticatedSendByName session request).run s = .ok (outcome, s')) :
    s'.Chronological := by
  rcases authenticatedSendByName_messages hrun with rfl | ⟨send, heq, -⟩
  · exact h
  refine ⟨fun q hq => h.squads q (by rw [heq] at hq; exact hq), fun m hm t ht => ?_⟩
  rw [heq] at hm
  rcases List.mem_append.mp hm with hm | hm
  · exact h.messages m hm t ht
  · rw [List.mem_singleton.mp hm] at ht
    cases ht

/-- **The stamps stay in order exactly if the command is on time.** -/
theorem Store.Chronological.execute_iff (h : s.Chronological) (task : Task) :
    (s.execute task.command task.now task.generated).2.Chronological ↔ s.OnTime task := by
  obtain ⟨command, now, generated⟩ := task
  have hkeep : ∀ {α : Type} {x : StoreTx α} (reply : α → Reply),
      x.Keeps (fun s : Store => Tables.stamped s.toTables) → (s.answer x reply).2.Chronological :=
    fun reply hx => h.of_stamped (hx.commit_snd s)
  cases command with
  | join request =>
      exact iff_of_true (hkeep .joined (joinAndClaim_keeps Tables.settled_stamped _ _)) trivial
  | listSquads => exact iff_of_true (hkeep .squads (Tx.readOnly_query _).keeps) trivial
  | createSquad request =>
      exact iff_of_true (hkeep .squad (createSquad_keeps Tables.settled_stamped _)) trivial
  | describeSquad name =>
      exact iff_of_true (hkeep .squad (describeSquad_readOnly name).keeps) trivial
  | roster credential name =>
      exact iff_of_true (hkeep .roster (authenticatedRoster_readOnly _ _).keeps) trivial
  | heartbeat credential availability source policy =>
      exact iff_of_true
        (hkeep .heartbeat (authenticatedHeartbeat_keeps Tables.settled_stamped _ _ _ _)) trivial
  | pending credential limit =>
      exact iff_of_true (hkeep .page (authenticatedPendingPage_readOnly _ _).keeps) trivial
  | transcript credential query =>
      exact iff_of_true (hkeep .transcript (authenticatedTranscriptViews_readOnly _ _).keeps) trivial
  | leave credential squad =>
      exact iff_of_true (hkeep .left (authenticatedLeave_keeps Tables.settled_stamped _ _)) trivial
  | resume request =>
      exact iff_of_true (hkeep .resumed (authenticatedResume_keeps Tables.settled_stamped _)) trivial
  | send credential request =>
      refine iff_of_true ?_ trivial
      rcases s.answer_cases (authenticatedSendByName (session credential now) request) .sent with
        hsame | ⟨outcome, hrun⟩
      · exact hsame.symm ▸ h
      · exact h.send hrun
  | archive credential squad =>
      constructor
      · rintro hs' i m hauth q hq rfl hid
        obtain ⟨record, t, hrun⟩ := authenticatedArchiveByName_of_authorizes hauth hq hid
        obtain ⟨j, n, p, -, hp, hname, -, hactive, -, heq⟩ := authenticatedArchiveByName_eq_ok hrun
        obtain rfl := s.constraints.squadName.eq hp hq hname
        refine (h.archiveSquads hp hactive heq).mp ?_
        rw [← Store.answer_snd_of_ok .squad hrun]
        exact hs'
      · intro htime
        rcases s.answer_cases (authenticatedArchiveByName (session credential now) squad) .squad with
          hsame | ⟨record, hrun⟩
        · exact hsame.symm ▸ h
        obtain ⟨i, m, q, hauth, hq, hname, hid, hactive, -, heq⟩ :=
          authenticatedArchiveByName_eq_ok hrun
        exact (h.archiveSquads hq hactive heq).mpr (htime i m hauth q hq hname hid)
  | acknowledge credential ids =>
      constructor
      · intro hs' i m hauth howned
        obtain ⟨t, hrun⟩ := authenticatedAcknowledge_of_authorizes hauth howned
        obtain ⟨j, n, hauth', -, heq⟩ := authenticatedAcknowledge_eq_ok hrun
        obtain ⟨rfl, rfl⟩ := hauth.toAuthenticates.unique hauth'.toAuthenticates
        refine (h.acknowledgeAll heq).mp ?_
        rw [← Store.answer_snd_of_ok (fun _ => .acknowledged) hrun]
        exact hs'
      · intro htime
        rcases s.answer_cases (authenticatedAcknowledge (session credential now) ids)
          (fun _ => .acknowledged) with hsame | ⟨u, hrun⟩
        · exact hsame.symm ▸ h
        obtain ⟨i, m, hauth, howned, heq⟩ := authenticatedAcknowledge_eq_ok hrun
        exact (h.acknowledgeAll heq).mpr (htime i m hauth howned)

theorem reach_chronological (h : commandLts.Reach Store.OnTime s) : s.Chronological := by
  refine h.invariant (P := Store.Chronological) ?_ ?_
  · rintro s rfl
    exact ⟨(fun q hq => by cases hq), (fun m hm => by cases hm)⟩
  · rintro s task t hs htime rfl
    exact (hs.execute_iff task).mpr htime

end Time

/-! ## Valid responses -/

section Responses

theorem timestamp_value {value : UnixMillis} {t : ApiTimestamp} (h : timestamp value = .ok t) :
    t.value = value := by
  unfold timestamp ApiTimestamp.ofMillis? at h
  split at h
  · rename_i heq
    split at heq
    · cases heq
      cases h
      rfl
    · cases heq
  · cases h

/-- An optional stamp keeps its value. -/
theorem mapM_timestamp_value {value : Option UnixMillis} {t : Option ApiTimestamp}
    (h : value.mapM timestamp = .ok t) : t.map ApiTimestamp.value = value := by
  cases value with
  | none =>
      cases h
      rfl
  | some value =>
      obtain ⟨stamp, hstamp, h⟩ := Except.bind_eq_ok.mp h
      cases h
      exact congrArg some (timestamp_value hstamp)

/-- A squad whose stamps are in order has a valid summary. -/
theorem squadDto_validates {q : SquadRecord} {dto : SquadSummary}
    (hstate : q.state = .active ↔ q.archivedAt = none) (htime : ∀ t ∈ q.archivedAt, q.createdAt ≤ t)
    (h : squadDto q = .ok dto) : dto.validate = true := by
  obtain ⟨createdAt, hcreated, h⟩ := Except.bind_eq_ok.mp h
  obtain ⟨archivedAt, harchived, h⟩ := Except.bind_eq_ok.mp h
  cases h
  have hvalue := mapM_timestamp_value harchived
  unfold SquadSummary.validate
  cases hs : q.state with
  | active =>
      rw [hstate.mp hs] at hvalue
      simpa using hvalue
  | archived =>
      cases archivedAt with
      | none =>
          have hactive := hstate.mpr hvalue.symm
          rw [hs] at hactive
          cases hactive
      | some t =>
          have hle : createdAt.value ≤ t.value := by
            rw [timestamp_value hcreated]
            exact htime _ hvalue.symm
          simpa using hle

theorem messageDto_validates {view : MessageView} {dto : MessageDto}
    (htime : ∀ t ∈ view.acknowledgedAt, view.message.createdAt ≤ t)
    (h : messageDto view = .ok dto) : dto.validate = true := by
  obtain ⟨createdAt, acknowledgedAt, hcreated, hacknowledged, rfl⟩ := messageDto_eq_ok h
  have hvalue := mapM_timestamp_value hacknowledged
  unfold MessageDto.validate
  cases acknowledgedAt with
  | none => rfl
  | some t =>
      have hle : createdAt.value ≤ t.value := by
        rw [timestamp_value hcreated]
        exact htime _ hvalue.symm
      simpa using hle

/-- A session of the default policy in an active squad has a valid body. -/
theorem sessionResponse_validates {membership : MembershipRecord} {q : SquadRecord}
    {record : InstanceRecord} {body : SessionResponse} (hactive : q.state = .active)
    (harchived : q.archivedAt = none)
    (hheartbeat : record.heartbeatInterval = LeasePolicy.default.heartbeatInterval)
    (hduration : record.leaseDuration = LeasePolicy.default.leaseDuration)
    (h : sessionResponse membership q record = .ok body) : body.validate = true := by
  have hheartbeat' : seconds record.heartbeatInterval = .ok 10 := by rw [hheartbeat]; rfl
  have hduration' : seconds record.leaseDuration = .ok 30 := by rw [hduration]; rfl
  obtain ⟨summary, hsummary, h⟩ := Except.bind_eq_ok.mp h
  obtain ⟨heartbeat, hbeat, h⟩ := Except.bind_eq_ok.mp h
  obtain ⟨lease, hlease, h⟩ := Except.bind_eq_ok.mp h
  obtain ⟨leaseExpiresAt, -, h⟩ := Except.bind_eq_ok.mp h
  cases h
  obtain rfl : 10 = heartbeat := Except.ok.inj (hheartbeat'.symm.trans hbeat)
  obtain rfl : 30 = lease := Except.ok.inj (hduration'.symm.trans hlease)
  have hsquad : summary.validate = true :=
    squadDto_validates (iff_of_true hactive harchived)
      (fun t ht => by rw [harchived] at ht; cases ht) hsummary
  unfold SessionResponse.validate
  rw [hsquad]
  rfl

/-- Who has left is offline, and an observation names its source. -/
theorem rosterMember_consistent {t : Tables} {now : UnixMillis} {m : MembershipRow}
    {line : RosterMember} {dto : RosterMemberDto} (h : rosterMember t now m = .ok line)
    (hdto : rosterMemberDto line = .ok dto) : dto.consistent = true := by
  have hleft : line.membership.leftAt.isSome = true → line.presence = .offline := by
    intro hsome
    simp only [rosterMember] at h
    split at h
    · split at h
      · rename_i honline
        split at h
        · cases h
          simp only [MembershipRow.joined, Bool.and_eq_true, Option.isNone_iff_eq_none] at honline
          rw [show m.toMembershipRecord.leftAt = none from honline.1.1] at hsome
          cases hsome
        · cases h
      · cases h
        rfl
    · cases h
      rfl
  obtain ⟨observedAt, -, hdto⟩ := Except.bind_eq_ok.mp hdto
  obtain ⟨lastSeenAt, -, hdto⟩ := Except.bind_eq_ok.mp hdto
  cases hdto
  have hknown := line.availability.consistent
  unfold RosterMemberDto.consistent
  cases hgone : line.membership.leftAt.isSome with
  | true => simp [hleft hgone, hknown]
  | false => simp [hknown]

variable {s : Store}

theorem Store.Chronological.squad (h : s.Chronological) {q : SquadRecord} (hq : q ∈ s.squads)
    {dto : SquadSummary} (hdto : squadDto q = .ok dto) : dto.validate = true :=
  squadDto_validates (s.constraints.squadCheck q hq).2 (h.squads q hq) hdto

theorem Store.Chronological.message (h : s.Chronological) {row : MessageRow} {view : MessageView}
    (hview : s.Views row view) {dto : MessageDto} (hdto : messageDto view = .ok dto) :
    dto.validate = true := by
  refine messageDto_validates (fun t ht => ?_) hdto
  rw [hview.message]
  exact h.messages row hview.mem t (hview.acknowledgedAt ▸ ht)

variable [Sha256]

/-- A transcript page of a store in order is valid. -/
theorem Store.Chronological.transcript (h : s.Chronological) (hseq : s.Sequenced)
    {session : AuthenticatedSession} {query : TranscriptByName} {views : List MessageView}
    {t : Store} (hrun : (authenticatedTranscriptViews session query).run s = .ok (views, t))
    {r : TranscriptResponse} (hr : transcriptHandler views = .ok r) : r.validate = true := by
  obtain ⟨hlimit, ⟨i, m, q, -, -, -, -, hviews⟩, -⟩ := authenticatedTranscriptViews_eq_ok hrun
  obtain ⟨hdtos, hnext⟩ := transcriptHandler_eq_ok hr
  have hpairs : List.Forall₂ (fun row dto => MessageDto.validate dto = true
      ∧ MessageDto.sequence dto = row.sequence) (s.transcriptRows q.id query.after query.limit)
      r.messages := by
    refine (Traverse.comp hviews hdtos).imp ?_
    rintro row dto ⟨view, hview, hdto⟩
    refine ⟨h.message hview hdto, ?_⟩
    obtain ⟨_, _, -, -, rfl⟩ := messageDto_eq_ok hdto
    exact congrArg MessageRecord.sequence hview.message
  have hvalid : ∀ dto ∈ r.messages, dto.validate = true := by
    intro dto hdto
    obtain ⟨row, -, hpair⟩ := Traverse.exists_of_mem_right hpairs hdto
    exact hpair.1
  have hchain : (r.messages.map MessageDto.sequence).IsChain (· < ·) := by
    rw [Traverse.map_eq_map (f := MessageRow.sequence) (fun _ _ hpair => hpair.2) hpairs,
      hseq.transcriptRows_eq]
    refine List.Pairwise.isChain (List.pairwise_map.mpr ?_)
    exact ((List.pairwise_map.mp hseq).filter _).sublist (List.take_sublist _ _)
  have hlength : r.messages.length ≤ 100 := by
    rw [← hpairs.length_eq, hseq.transcriptRows_eq]
    exact (List.length_take_le _ _).trans hlimit.2
  have hpage : validateMessagePage none r.messages = true :=
    validateMessagePage_iff.mpr ⟨hvalid, hchain⟩
  unfold TranscriptResponse.validate
  simp [hpage, hlength, hnext]

/-- Every line of a roster is consistent. -/
theorem roster_validates {session : AuthenticatedSession} {name : SquadName}
    {members : List RosterMember} {t : Store}
    (hrun : (authenticatedRoster session name).run s = .ok (members, t)) {r : RosterResponse}
    (hr : rosterHandler name members = .ok r) : r.validate = true := by
  simp only [authenticatedRoster, roster, Tx.bind_eq_ok, Tx.query_eq_ok, Tx.ofExcept_eq_ok] at hrun
  obtain ⟨_, _, -, _, _, -, _, _, -, _, _, -, lines, u, ⟨rfl, rfl⟩, hlines, -⟩ := hrun
  obtain ⟨dtos, hdtos, hr⟩ := Except.bind_eq_ok.mp hr
  cases hr
  refine List.all_eq_true.mpr fun dto hdto => ?_
  obtain ⟨m, -, line, hline, hdto⟩ := Traverse.exists_of_mem_right
    (Traverse.comp (Traverse.mapM_eq_ok.mp hlines) (Traverse.mapM_eq_ok.mp hdtos)) hdto
  exact rosterMember_consistent hline hdto

/-- What the renewed record says of the policy. -/
theorem authenticatedHeartbeat_interval {session : AuthenticatedSession}
    {availability : Availability} {source : AvailabilitySource} {policy : LeasePolicy}
    {record : InstanceRecord} {t : Store}
    (h : (authenticatedHeartbeat session availability source policy).run s = .ok (record, t)) :
    record.heartbeatInterval = policy.heartbeatInterval := by
  simp only [authenticatedHeartbeat, Tx.bind_eq_ok, Tx.pure_eq_ok] at h
  obtain ⟨_, _, -, _, _, -, _, _, -, _, _, -, rfl, -⟩ := h
  rfl

/-- **Every answer of a store in order is valid**, if its command is on time. -/
theorem Store.Chronological.emits (h : s.Chronological) (hreach : storeLts.Reach Lts.always s)
    {task : Task} (hadmissible : task.command.Admissible) (htime : s.OnTime task)
    {body : ResponseBody} (hemits : s.Emits task.command task.now task.generated body) :
    body.validate = true := by
  obtain ⟨command, now, generated⟩ := task
  have hseq := reach_sequenced hreach
  obtain ⟨reply, hreply, hbody⟩ := hemits
  cases command with
  | listSquads =>
      obtain ⟨records, hrun, rfl⟩ := Store.answer_eq_ok.mp hreply
      obtain ⟨dtos, hdtos, rfl⟩ := Traverse.map_eq_ok.mp hbody
      obtain ⟨rfl, -⟩ := Tx.query_eq_ok.mp hrun
      refine List.all_eq_true.mpr fun dto hdto => ?_
      obtain ⟨q, hq, hqdto⟩ := Traverse.exists_of_mem_right (Traverse.mapM_eq_ok.mp hdtos) hdto
      exact h.squad ((List.mem_insertionSort _).mp hq) hqdto
  | createSquad request =>
      obtain ⟨record, hrun, rfl⟩ := Store.answer_eq_ok.mp hreply
      obtain ⟨dto, hdto, rfl⟩ := Traverse.map_eq_ok.mp hbody
      simp [createSquad, insertSquad] at hrun
      obtain ⟨-, -, -, rfl⟩ := hrun
      exact squadDto_validates (iff_of_true rfl rfl) (fun t ht => by cases ht) hdto
  | describeSquad name =>
      obtain ⟨record, hrun, rfl⟩ := Store.answer_eq_ok.mp hreply
      obtain ⟨dto, hdto, rfl⟩ := Traverse.map_eq_ok.mp hbody
      simp only [describeSquad, Tx.bind_eq_ok, Tx.query_eq_ok, Tx.expect_eq_ok] at hrun
      obtain ⟨_, _, ⟨rfl, rfl⟩, hfound, -⟩ := hrun
      exact h.squad (s.squadByName_eq_some.mp hfound).1 hdto
  | archive credential squad =>
      obtain ⟨record, hrun, rfl⟩ := Store.answer_eq_ok.mp hreply
      obtain ⟨dto, hdto, rfl⟩ := Traverse.map_eq_ok.mp hbody
      obtain ⟨i, m, q, hauth, hq, hname, hid, -, rfl, -⟩ := authenticatedArchiveByName_eq_ok hrun
      refine squadDto_validates
        (iff_of_false (fun hstate => by cases hstate) (fun hnone => by cases hnone))
        (fun t ht => ?_) hdto
      cases ht
      exact htime i m hauth q hq hname hid
  | join request =>
      obtain ⟨outcome, hrun, rfl⟩ := Store.answer_eq_ok.mp hreply
      obtain ⟨r, hr, rfl⟩ := Traverse.map_eq_ok.mp hbody
      obtain ⟨token, expiry, -, -, hsquad, hactive, -, hclaim, -, -⟩ := joinAndClaim_eq_ok hrun
      have hpolicy : request.leasePolicy = .default := hadmissible _ rfl
      refine sessionResponse_validates hactive (Store.archivedAt_of_active hsquad hactive) ?_ ?_ hr
      · rw [hclaim, ← hpolicy]
        rfl
      · rw [hclaim, ← hpolicy]
        rfl
  | resume request =>
      obtain ⟨context, hrun, rfl⟩ := Store.answer_eq_ok.mp hreply
      obtain ⟨r, hr, rfl⟩ := Traverse.map_eq_ok.mp hbody
      obtain ⟨expiry, -, hsquad, hactive, hrecord, -⟩ := authenticatedResume_issues hrun
      have hpolicy : request.leasePolicy = .default := hadmissible _ rfl
      refine sessionResponse_validates hactive (Store.archivedAt_of_active hsquad hactive) ?_ ?_ hr
      · rw [hrecord, ← hpolicy]
        rfl
      · rw [hrecord, ← hpolicy]
        rfl
  | leave credential squad =>
      obtain ⟨outcome, -, rfl⟩ := Store.answer_eq_ok.mp hreply
      obtain ⟨leftAt, -, rfl⟩ := Traverse.map_eq_ok.mp hbody
      rfl
  | roster credential name =>
      obtain ⟨members, hrun, rfl⟩ := Store.answer_eq_ok.mp hreply
      obtain ⟨r, hr, rfl⟩ := Traverse.map_eq_ok.mp hbody
      exact roster_validates hrun hr
  | heartbeat credential availability source policy =>
      obtain ⟨record, hrun, rfl⟩ := Store.answer_eq_ok.mp hreply
      obtain ⟨leaseExpiresAt, -, hbody⟩ := Except.bind_eq_ok.mp hbody
      obtain ⟨interval, hinterval, hbody⟩ := Except.bind_eq_ok.mp hbody
      cases hbody
      have hpolicy : policy = .default := hadmissible _ rfl
      rw [authenticatedHeartbeat_interval hrun, hpolicy] at hinterval
      cases hinterval
      rfl
  | send credential request =>
      obtain ⟨outcome, hrun, rfl⟩ := Store.answer_eq_ok.mp hreply
      obtain ⟨r, hr, rfl⟩ := Traverse.map_eq_ok.mp hbody
      obtain ⟨dto, hdto, hr⟩ := Except.bind_eq_ok.mp hr
      cases hr
      obtain ⟨m, row, hsends⟩ := authenticatedSendByName_eq_ok (reach_named hreach) hrun
      exact (h.send hrun).message hsends.views hdto
  | pending credential limit =>
      obtain ⟨page, hrun, rfl⟩ := Store.answer_eq_ok.mp hreply
      obtain ⟨r, hr, rfl⟩ := Traverse.map_eq_ok.mp hbody
      obtain ⟨response, hresponse, hr⟩ := Except.bind_eq_ok.mp hr
      obtain ⟨member, n, hread, -⟩ :=
        authenticatedPendingPage_reads hseq (reach_digestsMatch hreach) hrun
      split at hr
      · cases hr
        exact hread.validates hseq hresponse
      · cases hr
  | acknowledge credential ids =>
      obtain ⟨u, -, rfl⟩ := Store.answer_eq_ok.mp hreply
      cases hbody
      exact decide_eq_true hadmissible.1
  | transcript credential query =>
      obtain ⟨views, hrun, rfl⟩ := Store.answer_eq_ok.mp hreply
      obtain ⟨r, hr, rfl⟩ := Traverse.map_eq_ok.mp hbody
      exact h.transcript hseq hrun hr

/-- **Responses under any clock.** In a run whose archives and acknowledgements are all on time,
every response passes the client's checks. -/
theorem responses_validate (hreach : commandLts.Reach Store.OnTime s) {task : Task}
    (hadmissible : task.command.Admissible) (htime : s.OnTime task) {body : ResponseBody}
    (hemits : s.Emits task.command task.now task.generated body) : body.validate = true :=
  (reach_chronological hreach).emits (commandLts_reach hreach) hadmissible htime hemits

end Responses

namespace Sample

/-- The squad as an archive by this clock reports it. -/
def archivedBy (now : UnixMillis) : SquadRecord := { archivedAlpha with archivedAt := some now }

def archiveAlpha (now : UnixMillis) : Task where
  command := .archive ⟨aliceInstance, aliceToken⟩ alpha
  now := now
  generated := none

/-- What Alice is sent when she archives `alpha`. -/
theorem archiveAlpha_emits (now : UnixMillis) (summary : SquadSummary)
    (hrun : (Tx.commit (authenticatedArchiveByName (session ⟨aliceInstance, aliceToken⟩ now) alpha)
      (Store.empty.perform (archiving.take 1))).1 = .ok (archivedBy now))
    (hsummary : squadDto (archivedBy now) = .ok summary) :
    (Store.empty.perform (archiving.take 1)).Emits (archiveAlpha now).command now none
      (.archived ⟨summary⟩) := by
  refine ⟨.squad (archivedBy now), ?_, ?_⟩
  · show (Except.map Reply.squad _) = _
    rw [hrun]
    rfl
  · show (ResponseBody.archived ⟨·⟩) <$> _ = _
    rw [hsummary]
    rfl

end Sample

open Sample in
/-- Alice archives at 120 what was created at 100. -/
theorem responses_validate_alpha :
    ∃ body, (Store.empty.perform (archiving.take 1)).Emits (archiveAlpha ⟨120, by decide⟩).command
        ⟨120, by decide⟩ none body
      ∧ body.validate = true := by
  have hreach : commandLts.Reach Store.OnTime (Store.empty.perform (archiving.take 1)) :=
    ⟨_, rfl, (Lts.Steps.refl _).tail (l := archiving.get ⟨0, by decide⟩) trivial rfl⟩
  have htime : (Store.empty.perform (archiving.take 1)).OnTime (archiveAlpha ⟨120, by decide⟩) := by
    have hcreated : ∀ q ∈ (Store.empty.perform (archiving.take 1)).squads,
        q.createdAt ≤ (⟨120, by decide⟩ : UnixMillis) := by decide
    exact fun _ _ _ q hq _ _ => hcreated q hq
  have hemits := archiveAlpha_emits ⟨120, by decide⟩
    ⟨alphaId, alpha, archivedAlpha.mission, .archived, ⟨⟨100, by decide⟩, by decide⟩,
      some ⟨⟨120, by decide⟩, by decide⟩⟩ (by decide) rfl
  have hadmissible : (archiveAlpha ⟨120, by decide⟩).command.Admissible :=
    fun _ hpolicy => by cases hpolicy
  exact ⟨_, hemits, responses_validate hreach hadmissible htime hemits⟩

open Sample in
/-- Alice archives at 50 what was created at 100. -/
theorem not_responses_validate :
    commandLts.Reach Lts.always (Store.empty.perform (archiving.take 1))
      ∧ (archiveAlpha ⟨50, by decide⟩).command.Admissible
      ∧ ∃ body, (Store.empty.perform (archiving.take 1)).Emits
          (archiveAlpha ⟨50, by decide⟩).command ⟨50, by decide⟩ none body
        ∧ body.validate = false := by
  have hemits := archiveAlpha_emits ⟨50, by decide⟩
    ⟨alphaId, alpha, archivedAlpha.mission, .archived, ⟨⟨100, by decide⟩, by decide⟩,
      some ⟨⟨50, by decide⟩, by decide⟩⟩ (by decide) rfl
  have hadmissible : (archiveAlpha ⟨50, by decide⟩).command.Admissible :=
    fun _ hpolicy => by cases hpolicy
  exact ⟨⟨_, rfl, steps_perform _ _⟩, hadmissible, _, hemits, by decide⟩

end Psst
