import Psst.Relay.Refusal
import Psst.Session.Supervisor
import Psst.Session.Wedge

/-!
# Restarting after a leave

A process comes up again on the files that an interrupted leave has left behind, next to a relay
that answers every request. A confirmed leave is cleaned up from the files alone. A leave that is
only intended is completed if the relay answers the first heartbeat with the end of the membership;
past its lease the relay reports the lease instead, and then nothing completes the leave.
-/

namespace Psst

/-! ## What a finished membership is told -/

/-- The lease of the credential's instance is over. -/
def Store.LeaseOver (s : Store) (credential : Credential) (now : UnixMillis) : Prop :=
  ∃ i ∈ s.instances, i.id = credential.instanceId ∧ i.leaseExpiresAt ≤ now

instance (s : Store) (credential : Credential) (now : UnixMillis) :
    Decidable (s.LeaseOver credential now) :=
  inferInstanceAs (Decidable (∃ i ∈ s.instances, _))

section Relay

variable [Sha256] {s : Store} {credential : Credential} {member : MembershipId}
  {now : UnixMillis} {generated : Option ResumeToken} {e : RepositoryError}

/-- Past its lease a session is told so, and before that that its membership is over. -/
theorem Store.Issued.dismissed (hissued : s.Issued credential member)
    (hfinished : s.Finished member) (now : UnixMillis) :
    ∃ e, (authorizeCurrent (session credential now)).run s = .error e
      ∧ ((s.LeaseOver credential now ∧ e = .leaseExpired)
        ∨ (¬ s.LeaseOver credential now ∧ (e = .notMember ∨ e = .squadArchived))) := by
  obtain ⟨i, m, rfl, hauth⟩ := hissued.authenticates now
  obtain ⟨q, hq, hqid⟩ := s.constraints.membershipSquad m hauth.member
  have hover : s.LeaseOver credential now ↔ i.leaseExpiresAt ≤ now := by
    constructor
    · rintro ⟨j, hj, hjid, hlease⟩
      rwa [s.constraints.instanceId.eq hauth.mem hj (hauth.id.trans hjid.symm)]
    · exact fun hlease => ⟨i, hauth.mem, hauth.id, hlease⟩
  rw [authorizeCurrent_run hauth hq hqid, hover]
  by_cases hlease : i.leaseExpiresAt ≤ now
  · exact ⟨.leaseExpired, if_pos hlease, Or.inl ⟨hlease, rfl⟩⟩
  rw [if_neg (show ¬ i.leaseExpiresAt ≤ (session credential now).now from hlease)]
  by_cases harchived : q.state = .archived
  · exact ⟨.squadArchived, if_pos harchived, Or.inr ⟨hlease, Or.inr rfl⟩⟩
  rw [if_neg harchived]
  obtain ⟨m', hm', hid, hleft | ⟨q', hq', hqid', harchived'⟩⟩ := hfinished
  · rw [s.constraints.membershipId.eq hm' hauth.member hid] at hleft
    exact ⟨.notMember, if_pos (Or.inr hleft), Or.inr ⟨hlease, Or.inl rfl⟩⟩
  · rw [s.constraints.membershipId.eq hm' hauth.member hid] at hqid'
    rw [s.constraints.squadId.eq hq' hq (hqid'.trans hqid.symm)] at harchived'
    exact absurd harchived' harchived

omit [Sha256] in
theorem Store.answer_error {α : Type} {x : StoreTx α} {reply : α → Reply}
    (h : x.run s = .error e) : s.answer x reply = (.error e, s) := by
  have herror : (s.answer x reply).1 = .error e := Store.answer_eq_error.mpr h
  exact Prod.ext herror (Store.answer_of_error herror)

theorem Store.execute_heartbeat_error
    (h : (authorizeCurrent (session credential now)).run s = .error e) (policy : LeasePolicy)
    (generated : Option ResumeToken) :
    s.execute (.heartbeat credential .unknown .unknown policy) now generated = (.error e, s) := by
  refine Store.answer_error ?_
  rw [authenticatedHeartbeat, validateObservation_eq_require, Tx.run_require_bind,
    if_pos (iff_of_true rfl rfl), Tx.run_bind_of_error _ h]

theorem Store.execute_leave_error
    (h : (authorizeCurrent (session credential now)).run s = .error e) (squad : SquadName)
    (generated : Option ResumeToken) :
    s.execute (.leave credential squad) now generated = (.error e, s) := by
  refine Store.answer_error ?_
  rw [authenticatedLeave, Tx.run_bind_of_error _ h]

/-- Nobody resumes a finished membership. -/
theorem Store.Issued.execute_resume {request : WorkerResume}
    (hissued : s.Issued request.prior member) (hfinished : s.Finished member) :
    ∃ e, s.execute (.resume request) now generated = (.error e, s) := by
  cases hresult : (s.execute (.resume request) now generated).1 with
  | error e => exact ⟨e, Prod.ext hresult (Store.execute_of_error hresult)⟩
  | ok reply =>
      exfalso
      obtain ⟨m, hm, rfl, hleft | ⟨q, hq, hqid, harchived⟩⟩ := hfinished
      · exact hissued.not_left rfl hresult ⟨m, hm, rfl, hleft⟩
      · obtain ⟨context, hrun, -⟩ := Store.answer_eq_ok.mp hresult
        simp [authenticatedResume] at hrun
        obtain ⟨-, -, prior, n, p, ⟨hjoin, -⟩, htoken, -, hactive, -⟩ := hrun
        obtain ⟨⟨⟨hprior, hpid⟩, hn, hnid⟩, hp, hpid'⟩ := Store.instanceJoinSquad_eq_some.mp hjoin
        obtain ⟨i, n', hnid', hauth⟩ := hissued.authenticates now
        have hcurrent : s.Authenticates (session request.prior now) prior n :=
          ⟨hprior, hpid, hn, hnid, htoken⟩
        obtain ⟨-, rfl⟩ := hauth.unique hcurrent
        rw [s.constraints.membershipId.eq hn hm hnid'] at hpid'
        rw [s.constraints.squadId.eq hp hq (hpid'.trans hqid.symm)] at hactive
        rw [hactive] at harchived
        cases harchived

end Relay

/-! ## A process and its relay, undisturbed -/

/-- The files and the session of a process, the relay's store, and what the relay has answered. -/
structure Home where
  disk : Disk
  relay : Store
  answers : List Arrival
  session : Option LiveSession

/-- What the surroundings give: the process's clock and its random bytes, the relay's clock at each
request, and what the relay draws. -/
structure Surroundings where
  now : ApiTimestamp
  random : Fin 16 → UInt8
  clock : Nat → UnixMillis
  drawn : Drawn
  generated : Option ResumeToken

section Restarts

variable [Sha256]

namespace Home

def setLifecycle (h : Home) (live : LiveSession) (state : LifecycleState) : Home :=
  { h with session := some { live with lifecycle := state } }

/-- Every action is answered without a fault: a request is executed when it is sent, and nothing
that is waited for takes too long. -/
def perform (e : Surroundings) : (a : Action) → Home → Option (Answer a × Home)
  | .now, h => some (some e.now, h)
  | .random, h => some (some e.random, h)
  | .send request, h =>
    let command := request.command e.drawn
    let executed := h.relay.execute command (e.clock h.answers.length) e.generated
    (Call.response ⟨command, .returned (executed.1.mapError .store), .unsent⟩).map fun response =>
      (.ok h.answers.length,
        { h with relay := executed.2, answers := h.answers ++ [.response response] })
  | .await i, h => (h.answers[i]?).map (·, h)
  | .awaitUnlessCancelled i, h => (h.answers[i]?).map (some ·, h)
  | .lifecycle, h => h.session.map (LiveSession.lifecycle · , h)
  | .setLifecycle state, h => h.session.map fun live => ((), h.setLifecycle live state)
  | .exchangeLifecycle expected next, h =>
    h.session.map fun live =>
      (live.lifecycle, if live.lifecycle = expected then h.setLifecycle live next else h)
  | .credential, h => h.session.map (LiveSession.credential · , h)
  | .publish credential, h =>
    h.session.map fun live =>
      ((), { h with session := some { live with credential := credential } })
  | .lockHeartbeat, h => some ((), h)
  | .drain _, h => some (some (), h)
  | .shutdownRequested, h => some (false, h)
  | a, h => (Disk.perform a h.disk).map fun (r, disk) => (r, { h with disk := disk })

/-- The relay has answered with an error. -/
def refused (h : Home) (e : RepositoryError) : Home :=
  { h with answers := h.answers ++ [.response e.code.intoResponse] }

end Home

/-- The start-up of a process: a profile without metadata may be the rest of a leave. -/
def startUp (key : ProfileKey) (mode : AgentMode) (client : ClientMetadata) :
    Run (Except SessionError (Option Runtime)) := do
  let some found ← perform .loadProfile | return .error (.local .os)
  match found with
  | none => (·.map fun _ => none) <$> recoverOrphanedLeave key
  | some profile => (·.map some) <$> start ⟨profile, mode, client⟩

/-- What is left when the start-up has come to its end. -/
def Home.restart (h : Home) (e : Surroundings) (key : ProfileKey) (mode : AgentMode)
    (client : ClientMetadata) : Home :=
  ((startUp key mode client).exec (Home.perform e) h).1

/-! ## Running on the home -/

namespace Home

variable {e : Surroundings} {h : Home}

/-- What the files alone answer, the home answers alike. -/
theorem perform_files {a : Action} {r : Answer a} {d : Disk}
    (hfiles : Disk.perform a h.disk = some (r, d)) :
    Home.perform e a h = some (r, { h with disk := d }) := by
  cases a <;> first | (cases hfiles; done) | (simp only [Home.perform, hfiles, Option.map_some])

/-- A program that the files alone bring to its end. -/
theorem exec_files {α : Type} {p : Run α} {d : Disk} {a : α} :
    ∀ {h : Home}, h.disk.run p = (d, .inr a) →
      p.exec (Home.perform e) h = ({ h with disk := d }, .inr a) := by
  induction p with
  | ret b =>
      intro h hrun
      cases hrun
      rfl
  | act b k ih =>
      intro h hrun
      cases hfiles : Disk.perform b h.disk with
      | none =>
          rw [Disk.run, Prog.exec_act_none hfiles] at hrun
          cases hrun
      | some answer =>
          obtain ⟨r, d₁⟩ := answer
          rw [Disk.run, Prog.exec_act_some hfiles] at hrun
          rw [Prog.exec_act_some (perform_files hfiles)]
          exact ih r (h := { h with disk := d₁ }) hrun

/-- A request that the relay refuses. -/
theorem exec_transport {request : Request} {err : RepositoryError}
    (hrefused : h.relay.execute (request.command e.drawn) (e.clock h.answers.length) e.generated
      = (.error err, h.relay)) :
    (transport request).exec (Home.perform e) h
      = (h.refused err, .inr (.ok (.response err.code.intoResponse))) := by
  have hsend : Home.perform e (.send request) h = some (.ok h.answers.length, h.refused err) := by
    simp only [Home.perform, hrefused]
    rfl
  have hawait : Home.perform e (.await h.answers.length) (h.refused err)
      = some (.response err.code.intoResponse, h.refused err) := by
    simp [Home.perform, refused]
  unfold transport
  simp only [Prog.perform_bind]
  rw [Prog.exec_act_some hsend]
  dsimp only
  rw [Prog.exec_act_some hawait]
  rfl

/-- A heartbeat that the relay refuses. -/
theorem exec_heartbeat {credential : Credential} {err : RepositoryError}
    (hrefused : ∀ generated, h.relay.execute (.heartbeat credential .unknown .unknown .default)
      (e.clock h.answers.length) generated = (.error err, h.relay)) :
    (Transport.heartbeat ⟨.unknown, .unknown⟩ credential).exec (Home.perform e) h
      = (h.refused err, .inr (.error (.api err.code.httpStatus err.code err.code.retryable))) := by
  unfold Transport.heartbeat
  rw [Prog.exec_bind_of_done (exec_transport (hrefused e.generated))]
  simp only [Prog.pure_eq, Prog.exec_ret, Except.bind, Client.heartbeat_intoResponse]

/-- A leave that the relay refuses. -/
theorem exec_leave {squad : SquadName} {credential : Credential} {err : RepositoryError}
    (hrefused : ∀ generated, h.relay.execute (.leave credential squad) (e.clock h.answers.length)
      generated = (.error err, h.relay)) :
    (Transport.leave squad credential).exec (Home.perform e) h
      = (h.refused err, .inr (.error (.api err.code.httpStatus err.code err.code.retryable))) := by
  unfold Transport.leave
  rw [Prog.exec_bind_of_done (exec_transport (hrefused e.generated))]
  simp only [Prog.pure_eq, Prog.exec_ret, Except.bind, Client.leave_intoResponse]

/-- A resume that the relay refuses changes nothing here. -/
theorem exec_resumeTransaction {profile : ProfileBinding} {request : ResumeSquadRequest}
    {credential : Credential} {err : RepositoryError}
    (hrefused : h.relay.execute ((Request.resume profile.squadName request credential).command
      e.drawn) (e.clock h.answers.length) e.generated = (.error err, h.relay)) :
    (resumeTransaction profile request credential).exec (Home.perform e) h
      = (h.refused err,
        .inr (.error (.relay (.api err.code.httpStatus err.code err.code.retryable)))) := by
  have hresume : (Transport.resume profile.squadName request credential).exec (Home.perform e) h
      = (h.refused err, .inr (.error (.api err.code.httpStatus err.code err.code.retryable))) := by
    unfold Transport.resume
    rw [Prog.exec_bind_of_done (exec_transport hrefused)]
    simp only [Prog.pure_eq, Prog.exec_ret, Except.bind, Client.issued_intoResponse]
  unfold resumeTransaction
  rw [Prog.exec_bind_of_done hresume]
  rfl

end Home

/-! ## Starting up beside a finished membership -/

/-- The files of a profile with a session to go on with. -/
structure Disk.Whole (d : Disk) (profile : ProfileBinding) (credential : Credential) : Prop where
  metadata : d.metadata = some profile
  credential : d.credential = some ⟨profile.credentialBinding, credential⟩

omit [Sha256] in
theorem Disk.Whole.bound {d : Disk} {profile : ProfileBinding} {credential : Credential}
    (h : d.Whole profile credential) : d ≠ Disk.unbound := by
  rintro rfl
  cases h.metadata

/-- The relay knows the credential, and the membership is over. -/
structure Store.Over (s : Store) (credential : Credential) (member : MembershipId) : Prop where
  issued : s.Issued credential member
  finished : s.Finished member

namespace Home

variable {e : Surroundings} {h : Home} {profile : ProfileBinding} {credential : Credential}
  (mode : AgentMode) (client : ClientMetadata)

/-- What the start-up leaves of the files: it completes an intended leave before the lease is
over. -/
def afterStart (h : Home) (e : Surroundings) (credential : Credential) : Disk :=
  if h.disk.journal.isSome ∧ ¬ h.relay.LeaseOver credential (e.clock h.answers.length) then
    Disk.unbound
  else h.disk

/-- The relay takes the leave for done: it is confirmed and cleaned up. -/
theorem exec_completePending {intent : LeaveJournal} (hloads : intent.Loads profile)
    (hphase : intent.phase = .intent) (htime : intent.createdAt.value ≤ e.now.value) :
    (completePending intent).exec (Home.perform e) h
      = ({ h with disk := Disk.unbound }, .inr (.error .unbound)) := by
  have hconfirmed : intent.confirmed e.now
      = .ok { intent with phase := .confirmed, confirmedAt := some e.now } := by
    simp [LeaveJournal.confirmed, hphase]
  have hrecord := (hloads.confirmed htime).record
  have hstored : (journalConfirmation intent).exec (Home.perform e) h
      = ({ h with
          disk :=
            { h.disk with
              journal := some { intent with phase := .confirmed, confirmedAt := some e.now } } },
        .inr (.ok ())) := by
    unfold journalConfirmation
    simp only [Prog.perform_bind]
    rw [Prog.exec_act_some (rfl : Home.perform e .now h = some (some e.now, h))]
    simp only [hconfirmed, storeJournal, hrecord, Prog.perform_bind]
    rfl
  unfold completePending
  rw [Prog.exec_bind_of_done hstored]
  dsimp only
  rw [Prog.exec_bind_of_done (exec_files (Disk.run_cleanup _))]
  rfl

/-- **What the first heartbeat of a finished membership comes to.** -/
theorem exec_classifyHeartbeat (hover : h.relay.Over credential profile.memberId)
    {pending : Option LeaveJournal}
    (hpending : ∀ j ∈ pending, j.Loads profile ∧ j.phase = .intent
      ∧ j.createdAt.value ≤ e.now.value) {now : UnixMillis} {err : RepositoryError}
    (hanswer : (h.relay.LeaseOver credential now ∧ err = .leaseExpired)
      ∨ (¬ h.relay.LeaseOver credential now ∧ (err = .notMember ∨ err = .squadArchived))) :
    ∃ answers result,
      (classifyHeartbeat ⟨profile, mode, client⟩ pending credential
          (.error (.api err.code.httpStatus err.code err.code.retryable))).exec (Home.perform e) h
        = ({ h with
            answers := h.answers ++ answers
            disk := if pending.isSome ∧ ¬ h.relay.LeaseOver credential now then Disk.unbound
              else h.disk },
          .inr (.error result)) := by
  rcases hanswer with ⟨hlease, rfl⟩ | ⟨hlease, hdenied⟩
  · obtain ⟨err, hrefused⟩ : ∃ err, h.relay.execute
        ((Request.resume profile.squadName ⟨mode, client⟩ credential).command e.drawn)
        (e.clock h.answers.length) e.generated = (.error err, h.relay) :=
      Store.Issued.execute_resume hover.issued hover.finished
    have hresume := exec_resumeTransaction hrefused
    refine ⟨[.response err.code.intoResponse],
      .relay (.api err.code.httpStatus err.code err.code.retryable), ?_⟩
    -- the answer is about the lease, so `start` resumes, and the journal stays
    rw [if_neg fun hboth => hboth.2 hlease]
    show Prog.exec _ (resumeTransaction profile ⟨mode, client⟩ credential >>= _) h = _
    rw [Prog.exec_bind_of_done hresume]
    rfl
  · have hcode : err.code ≠ .leaseExpired
        ∧ (err.code = .notMember ∨ err.code = .squadArchived) := by
      rcases hdenied with rfl | rfl
      · exact ⟨by decide, Or.inl rfl⟩
      · exact ⟨by decide, Or.inr rfl⟩
    simp only [classifyHeartbeat, if_neg hcode.1, if_pos hcode.2]
    cases pending with
    | none => exact ⟨[], _, by simp; rfl⟩
    | some intent =>
        obtain ⟨hloads, hphase, htime⟩ := hpending intent rfl
        refine ⟨[], .unbound, ?_⟩
        rw [if_pos ⟨rfl, hlease⟩, List.append_nil]
        exact exec_completePending hloads hphase htime

theorem exec_startLocked (hover : h.relay.Over credential profile.memberId)
    (hwhole : h.disk.Whole profile credential)
    (hpending : ∀ j ∈ h.disk.journal, j.Loads profile ∧ j.phase = .intent
      ∧ j.createdAt.value ≤ e.now.value) :
    ∃ answers result,
      (startLocked ⟨profile, mode, client⟩).exec (Home.perform e) h
        = ({ h with answers := h.answers ++ answers, disk := h.afterStart e credential },
          .inr (.error result)) := by
  obtain ⟨err, hrefused, hanswer⟩ := hover.issued.dismissed hover.finished
    (e.clock h.answers.length)
  have hload : LeaveJournal.load h.disk.journal profile = .ok h.disk.journal :=
    LeaveJournal.load_eq_ok.mpr ⟨rfl, fun j hj => (hpending j hj).1⟩
  have hintent : (h.disk.journal.any fun j => decide (j.phase = .confirmed)) = false := by
    cases hj : h.disk.journal with
    | none => rfl
    | some j => simp [(hpending j hj).2.1]
  have hheartbeat : (Transport.heartbeat ⟨.unknown, .unknown⟩ credential).exec (Home.perform e) h
      = _ := exec_heartbeat (Store.execute_heartbeat_error hrefused .default)
  obtain ⟨answers, result, hclassify⟩ := exec_classifyHeartbeat mode client (h := h.refused err)
    (e := e) hover hpending hanswer
  refine ⟨.response err.code.intoResponse :: answers, result, ?_⟩
  unfold startLocked
  simp only [Prog.perform_bind]
  rw [Prog.exec_act_some (rfl : Home.perform e .loadJournal h = some (some h.disk.journal, h))]
  simp only [hload, hintent, Bool.false_eq_true, if_false]
  rw [Prog.exec_act_some
    (rfl : Home.perform e .loadCredential h = some (some h.disk.credential, h))]
  simp only [CredentialRecord.load_eq_ok.mpr hwhole.credential]
  rw [Prog.exec_bind_of_done hheartbeat, hclassify]
  simp only [refused, afterStart, List.append_assoc, List.singleton_append]
  rfl

/-- A profile with metadata is started. -/
theorem exec_startUp_bound (hmetadata : h.disk.metadata = some profile) (key : ProfileKey) :
    (startUp key mode client).exec (Home.perform e) h
      = ((·.map some) <$> start ⟨profile, mode, client⟩).exec (Home.perform e) h := by
  have hprofile : Home.perform e .loadProfile h = some (some (some profile), h) := by
    rw [← hmetadata]
    rfl
  unfold startUp
  simp only [Prog.perform_bind]
  rw [Prog.exec_act_some hprofile]

/-- One without may have a leave to recover. -/
theorem exec_startUp_orphaned (hmetadata : h.disk.metadata = none) (key : ProfileKey) :
    (startUp key mode client).exec (Home.perform e) h
      = ((·.map fun _ => none) <$> recoverOrphanedLeave key).exec (Home.perform e) h := by
  have hprofile : Home.perform e .loadProfile h = some (some none, h) := by
    rw [← hmetadata]
    rfl
  unfold startUp
  simp only [Prog.perform_bind]
  rw [Prog.exec_act_some hprofile]

/-- **The start-up beside a finished membership** ends in an error. -/
theorem exec_startUp (hover : h.relay.Over credential profile.memberId)
    (hwhole : h.disk.Whole profile credential)
    (hpending : ∀ j ∈ h.disk.journal, j.Loads profile ∧ j.phase = .intent
      ∧ j.createdAt.value ≤ e.now.value) (key : ProfileKey) :
    ∃ answers result,
      (startUp key mode client).exec (Home.perform e) h
        = ({ h with answers := h.answers ++ answers, disk := h.afterStart e credential },
          .inr (.error result)) := by
  obtain ⟨answers, result, hlocked⟩ := exec_startLocked mode client hover hwhole
    hpending
  have hprofile : Home.perform e .loadProfile h = some (some (some profile), h) := by
    rw [← hwhole.metadata]
    rfl
  have hstart : (start ⟨profile, mode, client⟩).exec (Home.perform e) h
      = (startLocked ⟨profile, mode, client⟩).exec (Home.perform e) h := by
    unfold start
    simp only [Prog.perform_bind]
    rw [Prog.exec_act_some hprofile]
    dsimp only
    rw [if_neg (not_not.mpr rfl)]
  refine ⟨answers, result, ?_⟩
  rw [exec_startUp_bound mode client hwhole.metadata, Prog.exec_map, hstart, hlocked]
  rfl

theorem restart_disk (hover : h.relay.Over credential profile.memberId)
    (hwhole : h.disk.Whole profile credential)
    (hpending : ∀ j ∈ h.disk.journal, j.Loads profile ∧ j.phase = .intent
      ∧ j.createdAt.value ≤ e.now.value) (key : ProfileKey) :
    (h.restart e key mode client).disk = h.afterStart e credential := by
  obtain ⟨answers, result, hrun⟩ := exec_startUp mode client hover hwhole hpending key
  rw [restart, hrun]

/-- A confirmed leave needs no answer. -/
theorem restart_confirmed (hmetadata : h.disk.metadata = some profile) {j : LeaveJournal}
    (hjournal : h.disk.journal = some j) (hloads : j.Loads profile)
    (hphase : j.phase = .confirmed) (key : ProfileKey) :
    (h.restart e key mode client).disk = Disk.unbound := by
  have hrun : h.disk.run (start ⟨profile, mode, client⟩)
      = (Disk.unbound, .inr (.error .unbound)) := by
    rw [Disk.run_start hmetadata, Disk.run_startLocked_confirmed hjournal hloads hphase]
  rw [restart, exec_startUp_bound mode client hmetadata, Prog.exec_map, exec_files hrun]

/-- And neither does one whose metadata is gone already. -/
theorem restart_orphaned (hmetadata : h.disk.metadata = none)
    (hcredential : h.disk.credential = none) {key : ProfileKey}
    (hjournal : ∀ j ∈ h.disk.journal, j.Loads j.binding ∧ j.binding.toProfileKey = key
      ∧ j.phase = .confirmed) :
    (h.restart e key mode client).disk = Disk.unbound := by
  obtain ⟨found, hrun⟩ := Disk.run_recover hmetadata hcredential hjournal
  rw [restart, exec_startUp_orphaned mode client hmetadata, Prog.exec_map, exec_files hrun]

end Home

/-! ## Where a leave can stop -/

/-- The files of a process that stops while it leaves, once its request is on its way: the journal
at its intent or confirmed, the cleanup in any state, or the journal taken back. -/
inductive Disk.LeaveStop (profile : ProfileBinding) (credential : Credential)
    (since : ApiTimestamp) : Disk → Prop where
  | intended {d : Disk} {j : LeaveJournal} (hwhole : d.Whole profile credential)
      (hjournal : d.journal = some j) (hloads : j.Loads profile) (hphase : j.phase = .intent)
      (hsince : j.createdAt = since) : LeaveStop profile credential since d
  | confirmed {d : Disk} {j : LeaveJournal} (hmetadata : d.metadata = some profile)
      (hjournal : d.journal = some j) (hloads : j.Loads profile)
      (hphase : j.phase = .confirmed) : LeaveStop profile credential since d
  | orphaned {d : Disk} (hmetadata : d.metadata = none) (hcredential : d.credential = none)
      (hjournal : ∀ j ∈ d.journal, j.Loads profile ∧ j.phase = .confirmed) :
      LeaveStop profile credential since d
  | takenBack {d : Disk} (hwhole : d.Whole profile credential) (hjournal : d.journal = none) :
      LeaveStop profile credential since d

namespace Home

variable {e : Surroundings} {h : Home} {profile : ProfileBinding} {credential : Credential}
  {α : Type}

/-- Wherever the program stops, the files are such and the relay has not moved. -/
def Stops (e : Surroundings) (profile : ProfileBinding) (credential : Credential) (p : Run α)
    (h : Home) : Prop :=
  ∀ t ∈ p.trace (Home.perform e) h,
    t.relay = h.relay ∧ Disk.LeaveStop profile credential e.now t.disk

theorem Stops.ret {a : α} (hstop : Disk.LeaveStop profile credential e.now h.disk) :
    Stops e profile credential (.ret a) h := by
  intro t ht
  rw [List.mem_singleton.mp ht]
  exact ⟨rfl, hstop⟩

theorem Stops.act {a : Action} {k : Answer a → Run α}
    (hstop : Disk.LeaveStop profile credential e.now h.disk)
    (hrest : ∀ r t, Home.perform e a h = some (r, t) →
      t.relay = h.relay ∧ Stops e profile credential (k r) t) :
    Stops e profile credential (.act a k) h := by
  intro t ht
  rcases Prog.mem_trace_act.mp ht with rfl | ⟨r, u, hanswer, ht⟩
  · exact ⟨rfl, hstop⟩
  · obtain ⟨hrelay, hrest⟩ := hrest r u hanswer
    obtain ⟨hsame, hdisk⟩ := hrest t ht
    exact ⟨hsame.trans hrelay, hdisk⟩

theorem stops_setLifecycle {state : LifecycleState} {k : Unit → Run α} {a : α}
    (hk : k () = .ret a) (hstop : Disk.LeaveStop profile credential e.now h.disk) :
    Stops e profile credential (.act (.setLifecycle state) k) h := by
  refine .act hstop fun r t hanswer => ?_
  obtain ⟨live, -, hlive⟩ := Option.map_eq_some_iff.mp hanswer
  cases hlive
  rw [hk]
  exact ⟨rfl, .ret hstop⟩

theorem stops_rollbackLeave {k : Unit → Run α} {a : α} (hk : k () = .ret a)
    (hstop : Disk.LeaveStop profile credential e.now h.disk) :
    Stops e profile credential (rollbackLeave >>= k) h := by
  unfold rollbackLeave
  simp only [Prog.perform_bind, Prog.act_bind]
  refine .act hstop fun r t hanswer => ?_
  cases hanswer
  refine ⟨rfl, ?_⟩
  simp only [Bool.false_eq_true, if_false, Prog.act_bind]
  refine .act hstop fun r t hanswer => ?_
  cases hanswer
  refine ⟨rfl, ?_⟩
  simp only [Bool.false_eq_true, if_false]
  exact stops_setLifecycle hk hstop

theorem stops_giveUpLeave {error : SessionError}
    (hstop : Disk.LeaveStop profile credential e.now h.disk) :
    Stops e profile credential (giveUpLeave (α := α) error) h :=
  stops_setLifecycle rfl hstop

/-- A confirmed leave is cleaned up step by step. -/
theorem stops_cleanupConfirmedLeave {k : Except IoError Unit → Run α}
    (hk : ∀ r t, Disk.LeaveStop profile credential e.now t.disk →
      Stops e profile credential (k r) t)
    {j : LeaveJournal} (hmetadata : h.disk.metadata = some profile)
    (hjournal : h.disk.journal = some j) (hloads : j.Loads profile)
    (hphase : j.phase = .confirmed) :
    Stops e profile credential (cleanupConfirmedLeave >>= k) h := by
  have hconfirmed : ∀ i ∈ h.disk.journal, i.Loads profile ∧ i.phase = .confirmed := by
    rw [hjournal]
    rintro _ ⟨⟩
    exact ⟨hloads, hphase⟩
  unfold cleanupConfirmedLeave
  simp only [Prog.perform_bind, Prog.act_bind]
  refine .act (.confirmed hmetadata hjournal hloads hphase) fun r t hanswer => ?_
  cases hanswer
  refine ⟨rfl, .act (.confirmed hmetadata hjournal hloads hphase) fun r t hanswer => ?_⟩
  cases hanswer
  refine ⟨rfl, .act (.orphaned rfl rfl hconfirmed) fun r t hanswer => ?_⟩
  cases hanswer
  exact ⟨rfl, hk _ _ (.orphaned rfl rfl (by simp))⟩

theorem stops_finishLeave {intent : LeaveJournal} {response : Except ClientError LeaveSquadResponse}
    (hwhole : h.disk.Whole profile credential) (hjournal : h.disk.journal = some intent)
    (hloads : intent.Loads profile) (hphase : intent.phase = .intent)
    (hsince : intent.createdAt = e.now) :
    Stops e profile credential (finishLeave intent response) h := by
  have hstop : Disk.LeaveStop profile credential e.now h.disk :=
    .intended hwhole hjournal hloads hphase hsince
  have hconfirmed : intent.confirmed e.now
      = .ok { intent with phase := .confirmed, confirmedAt := some e.now } := by
    simp [LeaveJournal.confirmed, hphase]
  have hlater : LeaveJournal.Loads
      { intent with phase := .confirmed, confirmedAt := some e.now } profile :=
    hloads.confirmed (by rw [hsince])
  unfold finishLeave journalConfirmation
  simp only [Prog.perform_bind, Prog.act_bind]
  refine .act hstop fun r t hanswer => ?_
  cases hanswer
  refine ⟨rfl, ?_⟩
  simp only [hconfirmed, storeJournal, hlater.record, Prog.perform_bind, Prog.act_bind]
  refine .act hstop fun r t hanswer => ?_
  cases hanswer
  refine ⟨rfl, ?_⟩
  refine stops_cleanupConfirmedLeave (fun cleanup t hstop => ?_) hwhole.metadata rfl hlater rfl
  refine .act hstop fun r u hanswer => ?_
  obtain ⟨live, -, hlive⟩ := Option.map_eq_some_iff.mp hanswer
  cases hlive
  refine ⟨rfl, .act hstop fun r v hanswer => ?_⟩
  cases hanswer
  refine ⟨rfl, ?_⟩
  cases cleanup with
  | ok _ => exact .ret hstop
  | error _ => exact .ret hstop

/-- **Whatever the relay answers to a leave**, the files are such at every later step. -/
theorem stops_classifyLeave {intent : LeaveJournal}
    {result : Except ClientError LeaveSquadResponse}
    (hwhole : h.disk.Whole profile credential) (hjournal : h.disk.journal = some intent)
    (hloads : intent.Loads profile) (hphase : intent.phase = .intent)
    (hsince : intent.createdAt = e.now) :
    Stops e profile credential (classifyLeave profile intent result) h := by
  have hstop : Disk.LeaveStop profile credential e.now h.disk :=
    .intended hwhole hjournal hloads hphase hsince
  have hfinish : ∀ response, Stops e profile credential (finishLeave intent response) h :=
    fun _ => stops_finishLeave hwhole hjournal hloads hphase hsince
  unfold classifyLeave
  split
  · split
    · exact hfinish _
    · exact stops_giveUpLeave hstop
  · split
    · exact hfinish _
    · simp only [Prog.perform_bind]
      refine .act hstop fun r t hanswer => ?_
      cases hanswer
      exact ⟨rfl, stops_rollbackLeave rfl (.takenBack ⟨hwhole.metadata, hwhole.credential⟩ rfl)⟩
  · exact stops_giveUpLeave hstop

/-- **Where a leave can stop**: before the relay has moved, or with the leave on record. -/
theorem trace_leaveSession {t : Home} (hsession : h.session = some ⟨profile, credential, .ready⟩)
    (hwhole : h.disk.Whole profile credential)
    (ht : t ∈ (leaveSession profile).trace (Home.perform e) h) :
    t.relay = h.relay ∨ (h.relay.Grows t.relay
      ∧ Disk.LeaveStop profile credential e.now t.disk) := by
  obtain ⟨intent, hintent, hphase, hsince, hloads⟩ :=
    LeaveJournal.intent_eq_ok profile e.random e.now
  have hstops : ∀ {sent u : Home} {result}, u ∈ (classifyLeave profile intent result).trace
      (Home.perform e) sent → sent.disk = { h.disk with journal := some intent } →
        u.relay = sent.relay ∧ Disk.LeaveStop profile credential e.now u.disk := by
    intro sent u result hu hdisk
    refine stops_classifyLeave ⟨?_, ?_⟩ ?_ hloads hphase hsince u hu
    · rw [hdisk, ← hwhole.metadata]
    · rw [hdisk, ← hwhole.credential]
    · rw [hdisk]
  unfold leaveSession beginLeave at ht
  simp only [journalIntent, storeJournal, Transport.leave, transport, Prog.pure_eq,
    Prog.perform_bind, Prog.act_bind, Prog.ret_bind, Prog.trace, Home.perform, Disk.perform,
    setLifecycle, hsession, hintent, hloads.record, Option.map_some, if_true, List.mem_cons,
    or_self_left] at ht
  -- up to the journal only the session has changed, and up to the request the files as well
  rcases ht with rfl | rfl | rfl | ht
  · exact Or.inl rfl
  · exact Or.inl rfl
  · exact Or.inl rfl
  generalize Call.response _ = found at ht
  cases found with
  | none => cases ht
  | some response =>
      have hgrows : h.relay.Grows (h.relay.execute
          (Request.command e.drawn (Request.leave profile.squadName credential))
          (e.clock h.answers.length) e.generated).2 := by
        rw [Store.execute_snd]
        exact h.relay.exec_grows _
      simp only [Option.map_some, Prog.act_bind, Prog.ret_bind, Prog.trace, Home.perform,
        List.getElem?_concat_length, List.mem_cons] at ht
      rcases ht with rfl | ht
      · exact Or.inr
          ⟨hgrows, .intended ⟨hwhole.metadata, hwhole.credential⟩ rfl hloads hphase hsince⟩
      · obtain ⟨hrelay, hstop⟩ := hstops ht rfl
        rw [hrelay]
        exact Or.inr ⟨hgrows, hstop⟩

end Home

/-! ## Pending leaves -/

/-- A ready session, its files, and a relay that has it among its members. -/
structure Home.Ready (h : Home) (profile : ProfileBinding) (credential : Credential) : Prop where
  session : h.session = some ⟨profile, credential, .ready⟩
  files : h.disk.Whole profile credential
  issued : h.relay.Issued credential profile.memberId
  joined : ¬ h.relay.Left profile.memberId

/-- **Which pending leaves a restart completes.** A process stops anywhere in a leave that the
relay has committed, and comes up later, on its files and next to whatever has become of the
relay. It ends unbound exactly if it stopped with the cleanup done or with its journal confirmed,
or comes up with an intent before the lease is over. -/
theorem pending_leave_recovers_iff {h stopped : Home} {e later : Surroundings}
    {profile : ProfileBinding} {credential : Credential} (hready : h.Ready profile credential)
    (hstop : stopped ∈ (leaveSession profile).trace (Home.perform e) h)
    (hcommitted : stopped.relay.Left profile.memberId) {relay : Store}
    (hrelay : storeLts.Steps Lts.always stopped.relay relay)
    (htime : e.now.value ≤ later.now.value) (mode : AgentMode) (client : ClientMetadata) :
    (Home.restart ⟨stopped.disk, relay, [], none⟩ later profile.toProfileKey mode client).disk
        = Disk.unbound
      ↔ stopped.disk = Disk.unbound ∨ ∃ j ∈ stopped.disk.journal,
          j.phase = .confirmed ∨ ¬ relay.LeaseOver credential (later.clock 0) := by
  have hgrows := steps_grows hrelay
  -- before its request a leave has not been committed
  rcases Home.trace_leaveSession hready.session hready.files hstop with hsame | ⟨hmoved, hfiles⟩
  · rw [hsame] at hcommitted
    exact absurd hcommitted hready.joined
  have hover : relay.Over credential profile.memberId :=
    ⟨(hready.issued.grows hmoved).grows hgrows, (hcommitted.grows hgrows).finished⟩
  let up : Home := ⟨stopped.disk, relay, [], none⟩
  cases hfiles with
  | @intended j hwhole hjournal hloads hphase hsince =>
      have hpending : ∀ i ∈ stopped.disk.journal, i.Loads profile ∧ i.phase = .intent
          ∧ i.createdAt.value ≤ later.now.value := by
        rw [hjournal]
        rintro _ ⟨⟩
        exact ⟨hloads, hphase, hsince ▸ htime⟩
      rw [Home.restart_disk mode client (h := up) hover hwhole hpending]
      simp [up, Home.afterStart, hjournal, hphase, hwhole.bound]
  | @confirmed j hmetadata hjournal hloads hphase =>
      rw [Home.restart_confirmed mode client (h := up) hmetadata hjournal hloads
        hphase]
      exact iff_of_true rfl (Or.inr ⟨j, hjournal, Or.inl hphase⟩)
  | orphaned hmetadata hcredential hjournal =>
      rw [Home.restart_orphaned mode client (h := up) hmetadata hcredential
        fun j hj => ⟨(hjournal j hj).1.binding ▸ (hjournal j hj).1,
          by rw [(hjournal j hj).1.binding], (hjournal j hj).2⟩]
      refine iff_of_true rfl ?_
      cases hj : stopped.disk.journal with
      | none => exact Or.inl (by rw [Disk.unbound, ← hmetadata, ← hcredential, ← hj])
      | some j => exact Or.inr ⟨j, rfl, Or.inl (hjournal j hj).2⟩
  | takenBack hwhole hjournal =>
      rw [Home.restart_disk mode client (h := up) hover hwhole
        (by simp [up, hjournal])]
      simp [up, Home.afterStart, hjournal, hwhole.bound]

end Restarts

namespace Sample

/-- Surroundings in which it is `n` for the relay. -/
def itIs (n : Nat) : Surroundings where
  now := ⟨⟨1021, by decide⟩, by decide⟩
  random := fun _ => 0
  clock := fun _ => instant n
  drawn := aliceDrawn
  generated := none

/-- Alice has joined, and her session is ready. -/
def aliceHome : Home where
  disk :=
    { credential := some ⟨aliceProfile.credentialBinding, ⟨aliceInstance, aliceToken⟩⟩
      metadata := some aliceProfile
      journal := none }
  relay := (Store.empty.execute ((Request.join alpha aliceRequest).command aliceDrawn)
    (instant 100) (some aliceToken)).2
  answers := []
  session := some ⟨aliceProfile, ⟨aliceInstance, aliceToken⟩, .ready⟩

theorem aliceHome_ready : aliceHome.Ready aliceProfile ⟨aliceInstance, aliceToken⟩ := by
  refine ⟨rfl, ⟨rfl, rfl⟩, ?_, ?_⟩
  · have hmem : ∃ i ∈ aliceHome.relay.instances, i.id = aliceInstance ∧ i.membershipId = alice
        ∧ authenticates i.resumeTokenHash aliceToken := by decide
    exact hmem
  · have hjoined : ∀ m ∈ aliceHome.relay.memberships, m.leftAt = none := by decide
    exact fun ⟨m, hm, _, hleft⟩ => hleft (hjoined m hm)

/-- Where Alice's leave can stop with its journal at the intent and the relay past it. -/
theorem aliceHome_stops {P : Home → Prop} [DecidablePred P]
    (h : ((leaveSession aliceProfile).trace (Home.perform (itIs 101)) aliceHome).any (fun t =>
      decide (∃ m ∈ t.relay.memberships, m.id = alice ∧ m.leftAt ≠ none)
        && decide (P t)) = true) :
    ∃ t ∈ (leaveSession aliceProfile).trace (Home.perform (itIs 101)) aliceHome,
      t.relay.Left alice ∧ P t := by
  obtain ⟨t, ht, hboth⟩ := List.any_eq_true.mp h
  rw [Bool.and_eq_true, decide_eq_true_eq, decide_eq_true_eq] at hboth
  exact ⟨t, ht, hboth⟩

end Sample

open Sample in
/-- Alice's process stops with her leave committed and unconfirmed, and comes up at once. -/
theorem pending_leave_recovers_iff_alice :
    ∃ t ∈ (leaveSession aliceProfile).trace (Home.perform (itIs 101)) aliceHome,
      t.relay.Left alice ∧ (∃ j ∈ t.disk.journal, j.phase = .intent)
        ∧ (Home.restart ⟨t.disk, t.relay, [], none⟩ (itIs 102) aliceProfile.toProfileKey
          .cooperative client).disk = Disk.unbound := by
  obtain ⟨t, ht, hleft, hjournal, hlease⟩ := aliceHome_stops
    (P := fun t => (∃ j ∈ t.disk.journal, j.phase = .intent)
      ∧ ¬ t.relay.LeaseOver ⟨aliceInstance, aliceToken⟩ (instant 102)) (by decide)
  obtain ⟨j, hj, hphase⟩ := hjournal
  exact ⟨t, ht, hleft, ⟨j, hj, hphase⟩,
    (pending_leave_recovers_iff aliceHome_ready ht hleft (.refl _)
      (show (itIs 101).now.value ≤ (itIs 102).now.value from le_rfl) .cooperative client).mpr
      (Or.inr ⟨j, hj, Or.inr hlease⟩)⟩

open Sample in
/-- **A leave that is never completed.** Alice's process stops with her leave committed and its
journal at the intent, and comes up when her lease is over: the relay reports the lease, nobody
can resume the membership, and `start` gives up with everything still on disk. -/
theorem expired_restart_keeps_profile :
    ¬ ∀ (h stopped : Home) (e later : Surroundings) (profile : ProfileBinding)
        (credential : Credential) (relay : Store), h.Ready profile credential →
      stopped ∈ (leaveSession profile).trace (Home.perform e) h →
      stopped.relay.Left profile.memberId →
      (stopped.disk.journal ≠ none ∨ stopped.disk = Disk.unbound) →
      storeLts.Steps Lts.always stopped.relay relay →
      e.now.value ≤ later.now.value → (∀ i j, e.clock i ≤ later.clock j) →
      (Home.restart ⟨stopped.disk, relay, [], none⟩ later profile.toProfileKey .cooperative
        client).disk = Disk.unbound := by
  intro hclaim
  obtain ⟨t, ht, hleft, hjournal, hrestart⟩ := aliceHome_stops
    (P := fun t => t.disk.journal ≠ none
      ∧ (Home.restart ⟨t.disk, t.relay, [], none⟩ (itIs 200000) aliceProfile.toProfileKey
          .cooperative client).disk ≠ Disk.unbound) (by decide)
  exact hrestart (hclaim aliceHome t (itIs 101) (itIs 200000) aliceProfile
    ⟨aliceInstance, aliceToken⟩ t.relay aliceHome_ready ht hleft (Or.inl hjournal) (.refl _)
    le_rfl fun _ _ => show instant 101 ≤ instant 200000 from by decide)

end Psst
