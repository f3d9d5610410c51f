import Psst.Client.Client
import Psst.Relay.History
import Psst.Store.Issue

/-!
# Responses within the calendar

A handler builds its response after the commit, and a timestamp past the year 9999 turns the
response into an internal error. As long as every clock reading leaves room for a lease, every
stored squad has writable timestamps and every committed session command is answered with the
session it made.
-/

namespace Psst

/-- A clock reading with a default lease to go before the calendar ends. -/
def UnixMillis.InCalendar (now : UnixMillis) : Prop :=
  now.asI64 + LeasePolicy.default.leaseDuration.asMillis ≤ maxTimestampMillis

instance (now : UnixMillis) : Decidable now.InCalendar := inferInstanceAs (Decidable (_ ≤ _))

/-- A squad whose timestamps the calendar can write. -/
structure SquadRecord.InCalendar (q : SquadRecord) : Prop where
  createdAt : q.createdAt.asI64 ≤ maxTimestampMillis
  archivedAt : ∀ t ∈ q.archivedAt, t.asI64 ≤ maxTimestampMillis

def Store.InCalendar (s : Store) : Prop := ∀ q ∈ s.squads, q.InCalendar

theorem UnixMillis.InCalendar.le {now : UnixMillis} (h : now.InCalendar) :
    now.asI64 ≤ maxTimestampMillis := by
  unfold UnixMillis.InCalendar at h
  omega

theorem UnixMillis.InCalendar.expiry {now expiry : UnixMillis} (h : now.InCalendar)
    (hexpiry : now.checkedAdd LeasePolicy.default.leaseDuration = some expiry) :
    expiry.asI64 ≤ maxTimestampMillis := by
  rw [UnixMillis.checkedAdd_eq_some hexpiry]
  exact h

/-! ## The store stays in the calendar -/

section Store

variable [Sha256] {c : Context} {s s' : Store}

/-- A change made inside the calendar writes no squad outside it. -/
theorem Change.inCalendar (h : Change c s s') (hclock : ∀ now ∈ c.clock, now.InCalendar)
    (hs : s.InCalendar) : s'.InCalendar := by
  have hsame : s'.squads = s.squads → s'.InCalendar := fun heq q hq => hs q (heq ▸ hq)
  cases h with
  | squad row hnow hactive heq =>
      intro q hq
      rw [heq] at hq
      rcases List.mem_append.mp hq with hq | hq
      · exact hs q hq
      · rw [List.mem_singleton.mp hq]
        have hcheck : s'.squads = s.squads ++ [row] := by rw [heq]
        have hrow : row ∈ s'.squads := by rw [hcheck]; simp
        refine ⟨(hclock _ hnow).le, fun t ht => ?_⟩
        rw [((s'.constraints.squadCheck row hrow).2.mp hactive)] at ht
        cases ht
  | archive q now hnow hq hactive heq =>
      intro p hp
      rw [heq] at hp
      obtain ⟨p₀, hp₀, rfl⟩ := List.mem_map.mp hp
      have hold := hs p₀ hp₀
      split
      · refine ⟨hold.createdAt, fun t ht => ?_⟩
        cases ht
        exact (hclock _ hnow).le
      · exact hold
  | agent _ heq => exact hsame (by rw [heq])
  | membership _ _ _ heq => exact hsame (by rw [heq])
  | claim _ _ _ _ _ _ _ heq => exact hsame (by rw [heq]; rfl)
  | renew _ _ _ _ _ _ _ _ _ _ heq => exact hsame (by rw [heq]; rfl)
  | replace _ _ _ _ _ _ _ heq => exact hsame (by rw [heq]; rfl)
  | leave _ _ _ _ heq => exact hsame (by rw [heq]; rfl)
  | send _ _ _ heq => exact hsame (by rw [heq]; rfl)
  | acknowledge _ _ _ _ _ _ heq => exact hsame (by rw [heq]; rfl)

theorem Store.InCalendar.exec (hs : s.InCalendar) {op : Op}
    (hclock : ∀ now ∈ op.now, now.InCalendar) : (s.exec op).InCalendar :=
  Changes.keeps (fun _ _ hchange => hchange.inCalendar hclock)
    (s.exec_changes (P := fun _ => True) op fun _ _ => trivial) hs

end Store

/-! ## Every committed session command is answered with its session -/

theorem timestamp_eq_ok {value : UnixMillis} (h : value.asI64 ≤ maxTimestampMillis) :
    timestamp value = .ok ⟨value, h⟩ := by
  simp only [timestamp, ApiTimestamp.ofMillis?_eq_some h]

theorem squadDto_eq_ok {q : SquadRecord} (h : q.InCalendar) (hactive : q.archivedAt = none) :
    squadDto q = .ok ⟨q.id, q.name, q.mission, q.state, ⟨q.createdAt, h.createdAt⟩, none⟩ := by
  simp only [squadDto, timestamp_eq_ok h.createdAt, hactive]
  rfl

/-- The client takes the response for a session of this membership and credential. -/
def HttpResponse.Issues (response : HttpResponse) (membership : MembershipRecord)
    (q : SquadRecord) (credential : Credential) : Prop :=
  ∃ body, Client.issued (.response response) = .ok ⟨body, credential⟩
    ∧ body.membershipId = membership.id ∧ body.memberName = membership.name
    ∧ body.squad.id = q.id ∧ body.squad.name = q.name

/-- A session of the default policy in an active squad, inside the calendar, has a body, and
the client accepts it. -/
theorem sessionResponse_issues (membership : MembershipRecord) (q : SquadRecord)
    (record : InstanceRecord) (token : ResumeToken) (hq : q.InCalendar)
    (hactive : q.state = .active) (harchived : q.archivedAt = none)
    (hheartbeat : record.heartbeatInterval = LeasePolicy.default.heartbeatInterval)
    (hduration : record.leaseDuration = LeasePolicy.default.leaseDuration)
    (hlease : record.leaseExpiresAt.asI64 ≤ maxTimestampMillis) :
    ∃ body, sessionResponse membership q record = .ok body
      ∧ (okResponse (some ⟨record.id, token⟩) (.session body)).Issues membership q
          ⟨record.id, token⟩ := by
  have hheartbeat' : seconds record.heartbeatInterval = .ok 10 := by rw [hheartbeat]; rfl
  have hduration' : seconds record.leaseDuration = .ok 30 := by rw [hduration]; rfl
  refine ⟨?body, ?_, ?body, ?_, ?_⟩
  case body =>
    exact
      { agentId := membership.agentId
        membershipId := membership.id
        instanceId := record.id
        squad := ⟨q.id, q.name, q.mission, q.state, ⟨q.createdAt, hq.createdAt⟩, none⟩
        memberName := membership.name
        role := membership.role
        heartbeatIntervalSeconds := 10
        leaseSeconds := 30
        leaseExpiresAt := ⟨record.leaseExpiresAt, hlease⟩ }
  · simp only [sessionResponse, squadDto_eq_ok hq harchived, hheartbeat', hduration',
      timestamp_eq_ok hlease]
    rfl
  · refine Client.issued_okResponse rfl ?_
    simp [SessionResponse.validate, SquadSummary.validate, hactive]
  · exact ⟨rfl, rfl, rfl, rfl⟩

/-- An active squad has no archive time. -/
theorem Store.archivedAt_of_active {s : Store} {q : SquadRecord} (hq : q ∈ s.squads)
    (hactive : q.state = .active) : q.archivedAt = none :=
  (s.constraints.squadCheck q hq).2.mp hactive

variable [Sha256]

/-- **A committed join is answered with its session**, and the client accepts the answer. -/
theorem joinSquad_issues {request : WorkerJoin} {now : UnixMillis}
    {generated : Option ResumeToken} {outcome : JoinAndClaimOutcome} {s s' : Store}
    (hnow : now.InCalendar) (hpolicy : request.leasePolicy = .default) (hs' : s'.InCalendar)
    (h : (joinAndClaim (request.atNow now) generated).run s = .ok (outcome, s')) :
    ∃ response, joinSquad outcome = .ok response
      ∧ response.Issues outcome.membership outcome.squad
          ⟨outcome.claim.record.id, outcome.claim.resumeToken⟩ := by
  obtain ⟨token, expiry, -, hexpiry, hsquad, hactive, -, hclaim, -, -⟩ := joinAndClaim_eq_ok h
  have hpolicy' : (request.atNow now).leasePolicy = .default := hpolicy
  rw [hpolicy'] at hexpiry hclaim
  obtain ⟨body, hbody, hissues⟩ := sessionResponse_issues outcome.membership outcome.squad
    outcome.claim.record outcome.claim.resumeToken (hs' _ hsquad) hactive
    (Store.archivedAt_of_active hsquad hactive) (by rw [hclaim]; rfl) (by rw [hclaim]; rfl)
    (by rw [hclaim]; exact hnow.expiry hexpiry)
  refine ⟨_, ?_, hissues⟩
  simp only [joinSquad, hbody]
  rfl

/-- **A committed resume is answered with its session**, and the client accepts the answer. -/
theorem resumeSquad_issues {request : WorkerResume} {now : UnixMillis}
    {context : SessionContext} {s s' : Store} (hnow : now.InCalendar)
    (hpolicy : request.leasePolicy = .default) (hs' : s'.InCalendar)
    (h : (authenticatedResume (request.atNow now)).run s = .ok (context, s')) :
    ∃ response, resumeSquad request context = .ok response
      ∧ response.Issues context.membership context.squad
          ⟨context.record.id, request.prior.resumeToken⟩ := by
  obtain ⟨expiry, hexpiry, hsquad, hactive, hrecord, -⟩ := authenticatedResume_issues h
  have hpolicy' : (request.atNow now).policy = .default := hpolicy
  rw [hpolicy'] at hexpiry hrecord
  obtain ⟨body, hbody, hissues⟩ := sessionResponse_issues context.membership context.squad
    context.record request.prior.resumeToken (hs' _ hsquad) hactive
    (Store.archivedAt_of_active hsquad hactive) (by rw [hrecord]; rfl) (by rw [hrecord]; rfl)
    (by rw [hrecord]; exact hnow.expiry hexpiry)
  refine ⟨_, ?_, hissues⟩
  simp only [resumeSquad, hbody]
  rfl

/-! ## Relays inside the calendar -/

/-- The commands that issue a session. -/
def StoreCommand.issues : StoreCommand → Bool
  | .join _ | .resume _ => true
  | _ => false

/-- An entry whose session, if it issued one, was answered to the client's satisfaction. -/
def Execution.Acknowledged (e : Execution) : Prop :=
  ∀ reply, e.result = .ok reply → e.command.issues = true →
    ∃ response session, e.command.respond reply = some (.ok response)
      ∧ Client.issued (.response response) = .ok session

/-- What a command of the default policy, run inside the calendar, is answered. -/
theorem Store.execute_acknowledged {s : Store} (command : StoreCommand) {now : UnixMillis}
    (generated : Option ResumeToken) (call : Nat) (hs : s.InCalendar) (hnow : now.InCalendar)
    (hpolicy : ∀ policy ∈ command.policy, policy = .default) :
    Execution.Acknowledged
      ⟨call, command, now, generated, (s.execute command now generated).1⟩ := by
  intro reply hreply hissues
  have hs' : (s.execute command now generated).2.InCalendar := by
    rw [Store.execute_snd]
    refine hs.exec fun t ht => ?_
    cases command <;> first | cases ht; exact hnow | cases ht
  cases command with
  | join request =>
      rcases Tx.commit_cases (joinAndClaim (request.atNow now) generated) s with
        ⟨e, -, hc⟩ | ⟨outcome, t, hrun, hc⟩
      · simp [Store.execute, Store.answer, hc] at hreply
        cases hreply
      · simp only [Store.execute, Store.answer, hc] at hreply hs'
        cases hreply
        obtain ⟨response, hresponse, body, hclient, -⟩ :=
          joinSquad_issues hnow (hpolicy _ rfl) hs' hrun
        exact ⟨response, _, congrArg some hresponse, hclient⟩
  | resume request =>
      rcases Tx.commit_cases (authenticatedResume (request.atNow now)) s with
        ⟨e, -, hc⟩ | ⟨context, t, hrun, hc⟩
      · simp [Store.execute, Store.answer, hc] at hreply
        cases hreply
      · simp only [Store.execute, Store.answer, hc] at hreply hs'
        cases hreply
        obtain ⟨response, hresponse, body, hclient, -⟩ :=
          resumeSquad_issues hnow (hpolicy _ rfl) hs' hrun
        exact ⟨response, _, congrArg some hresponse, hclient⟩
  | _ => cases hissues

/-- The clock reading of an executed command. -/
def RelayStep.clock : RelayStep → Option UnixMillis
  | .execute now _ => some now
  | _ => none

structure Relay.Timely (r : Relay) : Prop where
  store : r.store.InCalendar
  log : ∀ e ∈ r.log, e.Acknowledged

theorem Relay.Timely.step {r r' : Relay} (ht : r.Timely) (hr : r.Sound) {l : RelayStep}
    (hl : ∀ now ∈ l.clock, now.InCalendar) (h : r.step l = some r') : r'.Timely := by
  rcases Relay.step_log h with ⟨hlog, hstore⟩ | ⟨i, c, now, generated, rfl, -, hc, hlog, hstore⟩
    | ⟨i, c, now, error, -, -, -, -, hlog, hstore⟩
  · exact ⟨hstore ▸ ht.store, hlog ▸ ht.log⟩
  · refine ⟨?_, fun e he => ?_⟩
    · rw [hstore, Store.execute_snd]
      refine ht.store.exec fun t htime => ?_
      cases hcommand : c.command <;> rw [hcommand] at htime <;>
        first | cases htime; exact hl _ rfl | cases htime
    · rw [hlog] at he
      rcases List.mem_append.mp he with he | he
      · exact ht.log e he
      · rw [List.mem_singleton.mp he]
        exact Store.execute_acknowledged c.command generated i ht.store (hl _ rfl)
          (hr.policy c (List.mem_of_getElem? hc))
  · refine ⟨hstore ▸ ht.store, fun e he reply hreply => ?_⟩
    rw [hlog] at he
    rcases List.mem_append.mp he with he | he
    · exact ht.log e he reply hreply
    · rw [List.mem_singleton.mp he] at hreply
      cases hreply

end Psst
