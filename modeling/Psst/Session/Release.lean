import Psst.Session.Restart

/-!
# Releasing a finished membership

A membership that has left, or whose squad is archived, still has a profile on disk. Only a
session that runs can get rid of it, and only while the relay looks past its lease: `start` takes
the end of the membership for an error unless a journal says that somebody wanted to leave.
-/

namespace Psst

/-! ## Finished memberships -/

/-- The two public operations of a bound profile. -/
inductive PublicOp where
  | start (mode : AgentMode) (client : ClientMetadata)
  | leave

/-- A lifecycle that no operation in progress is about to change. -/
def LifecycleState.atRest : LifecycleState → Bool
  | .starting | .leaving | .recovering => false
  | .ready | .left | .rotationFailed | .outcomeUnknown => true

section Releases

variable [Sha256]

namespace Home

/-- One operation, to its end. A running session keeps `start` out with its profile lock, and
without a session there is none to leave. -/
def attempt (e : Surroundings) (key : ProfileKey) : PublicOp → Home → Home
  | .start mode client, h =>
    if h.session.isSome then h
    else
      let ended := (startUp key mode client).exec (Home.perform e) h
      match ended.2 with
      | .inr (.ok (some runtime)) =>
        { ended.1 with session := some ⟨runtime.profile, runtime.credential, .ready⟩ }
      | _ => ended.1
  | .leave, h =>
    match h.session with
    | some live => ((leaveSession live.profile).exec (Home.perform e) h).1
    | none => h

def attempts (e : Surroundings) (key : ProfileKey) (ops : List PublicOp) (h : Home) : Home :=
  ops.foldl (fun h op => h.attempt e key op) h

variable {e : Surroundings} {h : Home} {profile : ProfileBinding} {credential : Credential}
  (key : ProfileKey)

/-- What a leave of a finished membership comes to when the session is ready. -/
theorem attempt_leave_ready (hover : h.relay.Over credential profile.memberId)
    (hsession : h.session = some ⟨profile, credential, .ready⟩) :
    (h.relay.LeaseOver credential (e.clock h.answers.length)
        ∧ ∃ a, h.attempt e key .leave
          = { h with disk := { h.disk with journal := none }, answers := h.answers ++ [a] })
      ∨ (¬ h.relay.LeaseOver credential (e.clock h.answers.length)
        ∧ (h.attempt e key .leave).disk = Disk.unbound) := by
  obtain ⟨err, hrefused, hanswer⟩ := hover.issued.dismissed hover.finished
    (e.clock h.answers.length)
  obtain ⟨intent, hintent, hphase, hsince, hloads⟩ :=
    LeaveJournal.intent_eq_ok profile e.random e.now
  have hsent := exec_leave (e := e) (h := { h with
    disk := { h.disk with journal := some intent }
    session := some ⟨profile, credential, .leaving⟩ })
    (Store.execute_leave_error hrefused profile.squadName)
  have hattempt : h.attempt e key .leave
      = ((Transport.leave profile.squadName credential >>= classifyLeave profile intent).exec
        (Home.perform e)
        { h with
          disk := { h.disk with journal := some intent }
          session := some ⟨profile, credential, .leaving⟩ }).1 := by
    simp [attempt, leaveSession, beginLeave, journalIntent, storeJournal, Prog.exec, Home.perform,
      Disk.perform, setLifecycle, hsession, hintent, hloads.record]
  rw [hattempt, Prog.exec_bind_of_done hsent]
  rcases hanswer with ⟨hlease, rfl⟩ | ⟨hlease, hdenied⟩
  · refine Or.inl ⟨hlease, .response ApiErrorCode.leaseExpired.intoResponse, ?_⟩
    rw [hsession]
    rfl
  · refine Or.inr ⟨hlease, ?_⟩
    have hcode : err.code = .notMember ∨ err.code = .squadArchived := by
      rcases hdenied with rfl | rfl
      · exact Or.inl rfl
      · exact Or.inr rfl
    have hconfirmed : intent.confirmed e.now
        = .ok { intent with phase := .confirmed, confirmedAt := some e.now } := by
      simp [LeaveJournal.confirmed, hphase]
    have hrecord := (hloads.confirmed (t := e.now) (by rw [hsince])).record
    simp [classifyLeave, if_pos hcode, finishLeave, journalConfirmation, storeJournal,
      cleanupConfirmedLeave, hconfirmed, hrecord, Prog.exec, Home.perform, Disk.perform, refused,
      setLifecycle, Disk.unbound]

/-- A session that is not ready does not ask the relay. -/
theorem attempt_leave_other {lifecycle : LifecycleState}
    (hsession : h.session = some ⟨profile, credential, lifecycle⟩) (hready : lifecycle ≠ .ready) :
    (lifecycle = .left ∧ (h.attempt e key .leave).disk = Disk.unbound)
      ∨ (lifecycle ≠ .left ∧ h.attempt e key .leave = h) := by
  cases lifecycle with
  | ready => exact absurd rfl hready
  | left =>
      refine Or.inl ⟨rfl, ?_⟩
      simp [attempt, leaveSession, beginLeave, cleanupConfirmedLeave, Prog.exec, Home.perform,
        Disk.perform, hsession, Disk.unbound]
  | _ =>
      refine Or.inr ⟨by decide, ?_⟩
      simp [attempt, leaveSession, beginLeave, Prog.exec, Home.perform, hsession]

/-- Without a journal, `start` gives up and leaves everything as it is. -/
theorem attempt_start_stopped (hover : h.relay.Over credential profile.memberId)
    (hwhole : h.disk.Whole profile credential) (hsession : h.session = none)
    (hjournal : h.disk.journal = none) (mode : AgentMode) (client : ClientMetadata) :
    ∃ answers,
      h.attempt e key (.start mode client) = { h with answers := h.answers ++ answers } := by
  obtain ⟨answers, result, hrun⟩ := exec_startUp mode client (e := e) hover hwhole
    (by simp [hjournal]) key
  refine ⟨answers, ?_⟩
  have hsame : h.afterStart e credential = h.disk := by
    rw [afterStart, if_neg (by rw [hjournal]; simp)]
  rw [hsame] at hrun
  simp [attempt, hsession, hrun]

/-- A process that has come up with no journal never gets rid of its profile. -/
theorem attempts_stopped (ops : List PublicOp) :
    ∀ {h : Home}, h.relay.Over credential profile.memberId → h.disk.Whole profile credential →
      h.session = none → h.disk.journal = none → (h.attempts e key ops).disk ≠ Disk.unbound := by
  induction ops with
  | nil =>
      intro h _ hwhole _ _ heq
      exact hwhole.bound heq
  | cons op ops ih =>
      intro h hover hwhole hsession hjournal
      cases op with
      | start mode client =>
          obtain ⟨answers, hattempt⟩ := attempt_start_stopped key (e := e) hover hwhole
            hsession hjournal mode client
          rw [attempts, List.foldl_cons, hattempt]
          exact ih hover hwhole hsession hjournal
      | leave =>
          have hattempt : h.attempt e key .leave = h := by simp [attempt, hsession]
          rw [attempts, List.foldl_cons, hattempt]
          exact ih hover hwhole hsession hjournal

/-- A running session that gets rid of its profile has asked in time, or was through already. -/
theorem released_in_time (ops : List PublicOp) {lifecycle : LifecycleState} :
    ∀ {h : Home}, h.relay.Over credential profile.memberId → h.disk.Whole profile credential →
      h.session = some ⟨profile, credential, lifecycle⟩ →
      (h.attempts e key ops).disk = Disk.unbound →
      lifecycle = .left ∨ (lifecycle = .ready
        ∧ ∃ k, ¬ h.relay.LeaseOver credential (e.clock (h.answers.length + k))) := by
  induction ops with
  | nil =>
      intro h _ hwhole _ heq
      exact absurd heq hwhole.bound
  | cons op ops ih =>
      intro h hover hwhole hsession hreleased
      rw [attempts, List.foldl_cons] at hreleased
      cases op with
      | start mode client =>
          have hattempt : h.attempt e key (.start mode client) = h := by simp [attempt, hsession]
          rw [hattempt] at hreleased
          exact ih hover hwhole hsession hreleased
      | leave =>
          by_cases hready : lifecycle = .ready
          · subst hready
            rcases attempt_leave_ready key (e := e) hover hsession with
              ⟨-, a, hattempt⟩ | ⟨hlease, -⟩
            · rw [hattempt] at hreleased
              refine (ih (h := { h with
                disk := { h.disk with journal := none }
                answers := h.answers ++ [a] }) hover ⟨hwhole.metadata, hwhole.credential⟩ hsession
                hreleased).imp_right fun ⟨hready, k, hlease⟩ => ⟨hready, k + 1, ?_⟩
              rw [List.length_append, List.length_singleton] at hlease
              rwa [Nat.add_comm k, ← Nat.add_assoc]
            · exact Or.inr ⟨rfl, 0, hlease⟩
          · rcases attempt_leave_other key (e := e) hsession hready with
              ⟨hleft, -⟩ | ⟨-, hattempt⟩
            · exact Or.inl hleft
            · rw [hattempt] at hreleased
              exact ih hover hwhole hsession hreleased

/-- A ready session that keeps asking is released when it asks in time. -/
theorem releases_in_time (k : Nat) :
    ∀ {h : Home}, h.relay.Over credential profile.memberId →
      h.session = some ⟨profile, credential, .ready⟩ →
      ¬ h.relay.LeaseOver credential (e.clock (h.answers.length + k)) →
      ∃ ops, (h.attempts e key ops).disk = Disk.unbound := by
  induction k with
  | zero =>
      intro h hover hsession hlease
      rcases attempt_leave_ready key (e := e) hover hsession with ⟨hpast, -⟩ | ⟨-, hdone⟩
      · exact absurd hpast hlease
      · exact ⟨[.leave], hdone⟩
  | succ k ih =>
      intro h hover hsession hlease
      rcases attempt_leave_ready key (e := e) hover hsession with
        ⟨-, a, hattempt⟩ | ⟨-, hdone⟩
      · obtain ⟨ops, hops⟩ := ih (h := { h with
            disk := { h.disk with journal := none }
            answers := h.answers ++ [a] }) hover hsession (by
          rw [List.length_append, List.length_singleton]
          rwa [Nat.add_comm k, ← Nat.add_assoc] at hlease)
        refine ⟨.leave :: ops, ?_⟩
        rw [attempts, List.foldl_cons, hattempt]
        exact hops
      · exact ⟨[.leave], hdone⟩

end Home

/-- **Which finished memberships can be released.** A session still runs, or the process has come
up again with no journal of a leave. Some sequence of starts and leaves ends unbound exactly if a
session is running that has left already, or that is ready and once asks before its lease is
over. -/
theorem finished_membership_releasable_iff {h : Home} {e : Surroundings} {profile : ProfileBinding}
    {credential : Credential} (hover : h.relay.Over credential profile.memberId)
    (hwhole : h.disk.Whole profile credential)
    (hlocal : (h.session = none ∧ h.disk.journal = none)
      ∨ ∃ lifecycle, h.session = some ⟨profile, credential, lifecycle⟩
        ∧ lifecycle.atRest = true) :
    (∃ ops, (h.attempts e profile.toProfileKey ops).disk = Disk.unbound)
      ↔ ∃ live ∈ h.session, live.lifecycle = .left ∨ (live.lifecycle = .ready
          ∧ ∃ k, ¬ h.relay.LeaseOver credential (e.clock (h.answers.length + k))) := by
  rcases hlocal with ⟨hsession, hjournal⟩ | ⟨lifecycle, hsession, -⟩
  · constructor
    · rintro ⟨ops, hreleased⟩
      exact absurd hreleased (Home.attempts_stopped _ ops hover hwhole hsession hjournal)
    · rintro ⟨live, hlive, -⟩
      rw [hsession] at hlive
      cases hlive
  · rw [hsession]
    constructor
    · rintro ⟨ops, hreleased⟩
      exact ⟨_, rfl, Home.released_in_time _ ops hover hwhole hsession hreleased⟩
    · rintro ⟨live, hlive, hleft | ⟨hready, k, hlease⟩⟩
      · cases hlive
        subst hleft
        rcases Home.attempt_leave_other profile.toProfileKey (e := e) hsession
          (by decide) with ⟨-, hdone⟩ | ⟨hother, -⟩
        · exact ⟨[.leave], hdone⟩
        · exact absurd rfl hother
      · cases hlive
        subst hready
        exact Home.releases_in_time _ k hover hsession hlease

end Releases

namespace Sample

/-- What the relay has executed by the time Alice has left. -/
def leavingOps : List Op :=
  [((Request.join alpha aliceRequest).command aliceDrawn).op (instant 100) (some aliceToken),
    (StoreCommand.leave ⟨aliceInstance, aliceToken⟩ alpha).op (instant 101) none]

/-- Alice's session is ready, and her membership is over. -/
def aliceLeft : Home := { aliceHome with relay := Store.empty.run leavingOps }

theorem aliceLeft_over :
    aliceLeft.relay.Over ⟨aliceInstance, aliceToken⟩ aliceProfile.memberId := by
  have hissued : ∃ i ∈ aliceLeft.relay.instances, i.id = aliceInstance ∧ i.membershipId = alice
      ∧ authenticates i.resumeTokenHash aliceToken := by decide
  have hleft : ∃ m ∈ aliceLeft.relay.memberships, m.id = alice ∧ m.leftAt ≠ none := by
    decide
  exact ⟨hissued, Store.Left.finished hleft⟩

end Sample

open Sample in
/-- Alice's running session leaves before its lease is over. -/
theorem finished_membership_releasable_iff_alice :
    ∃ ops, (aliceLeft.attempts (itIs 102) aliceProfile.toProfileKey ops).disk = Disk.unbound := by
  have hlease : ¬ aliceLeft.relay.LeaseOver ⟨aliceInstance, aliceToken⟩ (instant 102) := by
    decide
  exact (finished_membership_releasable_iff aliceLeft_over ⟨rfl, rfl⟩
    (Or.inr ⟨.ready, rfl, rfl⟩)).mpr ⟨_, rfl, Or.inr ⟨rfl, 0, hlease⟩⟩

open Sample in
/-- **A profile that stays bound for good.** Alice has left and her process has come up again
without a journal: `start` is refused, so there is never a session that could leave. -/
theorem restarted_never_released :
    ¬ ∀ (h : Home) (e : Surroundings) (profile : ProfileBinding) (credential : Credential),
      storeLts.Reach Lts.always h.relay → h.relay.Over credential profile.memberId →
      h.disk.Whole profile credential → h.session = none → h.disk.journal = none →
      ∃ ops, (h.attempts e profile.toProfileKey ops).disk = Disk.unbound := by
  intro hclaim
  obtain ⟨ops, hreleased⟩ := hclaim { aliceLeft with session := none } (itIs 102) aliceProfile
    ⟨aliceInstance, aliceToken⟩ (reach_run leavingOps fun _ _ _ => trivial) aliceLeft_over
    ⟨rfl, rfl⟩ rfl rfl
  exact Home.attempts_stopped _ ops (h := { aliceLeft with session := none }) aliceLeft_over
    ⟨rfl, rfl⟩ rfl rfl hreleased

end Psst
