import Psst.Relay.Schedule
import Psst.Store.Issue
import Psst.Store.Standing

/-!
# What an answer proves

What a caller may conclude from the answer to its command about the store the relay has now:
a leave that succeeded left its membership, a denial names a finished membership, a heartbeat
or a resume that succeeded ran before any leave of the same membership, and an issued
credential is in the store.
-/

namespace Psst

variable [Sha256] {s t : Store}

/-- The credential was issued for this membership. -/
def Store.Issued (s : Store) (credential : Credential) (member : MembershipId) : Prop :=
  ∃ i ∈ s.instances, i.id = credential.instanceId ∧ i.membershipId = member
    ∧ authenticates i.resumeTokenHash credential.resumeToken

theorem Store.Issued.grows {credential : Credential} {member : MembershipId}
    (h : s.Issued credential member) (hgrows : s.Grows t) : t.Issued credential member := by
  obtain ⟨i, hi, hid, hmember, htoken⟩ := h
  obtain ⟨i', hi', hev⟩ := hgrows.instances i hi
  refine ⟨i', hi', hev.id.trans hid, hev.membershipId.trans hmember, ?_⟩
  unfold Psst.authenticates at htoken ⊢
  rw [hev.token, htoken]

/-- An issued credential authenticates as an instance of its membership. -/
theorem Store.Issued.authenticates {credential : Credential} {member : MembershipId}
    (h : s.Issued credential member) (now : UnixMillis) :
    ∃ i m, m.id = member ∧ s.Authenticates (session credential now) i m := by
  obtain ⟨i, hi, hid, hmember, htoken⟩ := h
  obtain ⟨m, hm, hmid⟩ := s.constraints.instanceMembership i hi
  exact ⟨i, m, hmid.trans hmember, hi, hid, hm, hmid, htoken⟩

theorem Store.Issued.enrols {credential : Credential} {member : MembershipId}
    (h : s.Issued credential member) : ∃ squad, s.Enrols member squad := by
  obtain ⟨i, hi, -, hmember, -⟩ := h
  obtain ⟨m, hm, hid⟩ := s.constraints.instanceMembership i hi
  exact ⟨m.squadId, m, hm, hid.trans hmember, rfl⟩

/-! ## Results of commands -/

omit [Sha256] in
theorem Store.answer_eq_ok {α : Type} {x : StoreTx α} {reply : α → Reply} {r : Reply} :
    (s.answer x reply).1 = .ok r
      ↔ ∃ a, x.run s = .ok (a, (s.answer x reply).2) ∧ r = reply a := by
  rcases Tx.commit_cases x s with ⟨e, hrun, hc⟩ | ⟨a, t, hrun, hc⟩
  · simp [Store.answer, hc, hrun, Except.map]
  · simp [Store.answer, hc, hrun, Except.map, eq_comm]

omit [Sha256] in
theorem Store.answer_eq_error {α : Type} {x : StoreTx α} {reply : α → Reply}
    {e : RepositoryError} : (s.answer x reply).1 = .error e ↔ x.run s = .error e := by
  rcases Tx.commit_cases x s with ⟨e', hrun, hc⟩ | ⟨a, t, hrun, hc⟩
  · simp [Store.answer, hc, hrun, Except.map]
  · simp [Store.answer, hc, hrun, Except.map]

/-- The credential of the two commands a session may be denied. -/
def StoreCommand.bearer : StoreCommand → Option Credential
  | .heartbeat credential _ _ _ => some credential
  | .leave credential _ => some credential
  | _ => none

variable {command : StoreCommand} {now : UnixMillis} {generated : Option ResumeToken}

omit [Sha256] in
theorem validateObservation_eq_error {availability : Availability} {source : AvailabilitySource}
    {observedAt : UnixMillis} {e : RepositoryError}
    (h : (validateObservation availability source observedAt).run s = .error e) :
    e = .invalidRequest := by
  unfold validateObservation at h
  split at h
  · cases h
  · cases h
    rfl

/-- Only the authority check answers `NotMember` or `SquadArchived` there. -/
theorem Store.execute_denied {credential : Credential} (hbearer : command.bearer = some credential)
    {e : RepositoryError} (he : e = .notMember ∨ e = .squadArchived)
    (h : (s.execute command now generated).1 = .error e) :
    (authorizeCurrent (session credential now)).run s = .error e := by
  cases command with
  | heartbeat cred availability source policy =>
      cases hbearer
      have hrun := Store.answer_eq_error.mp h
      simp only [authenticatedHeartbeat, Tx.bind_eq_error, Tx.ofExcept_eq_error, StoreTx.write,
        Tx.update_eq_error] at hrun
      rcases hrun with hobservation | ⟨_, _, hobservation, hauth | ⟨identity, _, -, hrenew
        | ⟨_, _, -, ⟨-, hwrite⟩ | ⟨_, _, -, hpure⟩⟩⟩⟩
      · rw [validateObservation_eq_error hobservation] at he
        rcases he with he | he <;> cases he
      · obtain ⟨-, rfl⟩ := validateObservation_eq_ok.mp hobservation
        exact hauth
      · cases hexcept : renewLease (InstanceState.atNow none identity.expiry
            (max (session credential now).now identity.lastSeen)) identity.expiry
            (max (session credential now).now identity.lastSeen) policy.leaseDuration with
        | ok expiry => simp [hexcept, Except.mapError] at hrenew
        | error e' =>
            simp only [hexcept, Except.mapError, Except.error.injEq] at hrenew
            subst hrenew
            rcases he with he | he <;> cases he
      · subst hwrite
        rcases he with he | he <;> cases he
      · cases hpure
  | leave cred squad =>
      cases hbearer
      have hrun := Store.answer_eq_error.mp h
      simp only [authenticatedLeave, squadByIdTx, Tx.bind_eq_error, Tx.expect_eq_error,
        Tx.require_eq_error, StoreTx.write, Tx.update_eq_error] at hrun
      rcases hrun with hauth | ⟨_, _, -, (hquery | ⟨_, _, -, -, hfound⟩) | ⟨_, _, -, ⟨-, hname⟩
        | ⟨_, _, -, ⟨-, hclose⟩ | ⟨_, _, -, ⟨-, hleft⟩ | ⟨_, _, -, hpure⟩⟩⟩⟩⟩
      · exact hauth
      · cases hquery
      · subst hfound
        rcases he with he | he <;> cases he
      · subst hname
        rcases he with he | he <;> cases he
      · subst hclose
        rcases he with he | he <;> cases he
      · subst hleft
        rcases he with he | he <;> cases he
      · cases hpure
  | _ => cases hbearer

/-- A committed leave found a current session and left its membership. -/
theorem authenticatedLeave_eq_ok {session : AuthenticatedSession} {squad : SquadName}
    {outcome : LeaveOutcome} (h : (authenticatedLeave session squad).run s = .ok (outcome, t)) :
    ∃ i m, s.Authorizes session i m ∧ outcome = ⟨m.id, session.now⟩ ∧ t.Left m.id := by
  simp only [authenticatedLeave, squadByIdTx, Tx.bind_eq_ok, authorizeCurrent_eq_ok,
    Tx.query_eq_ok, Tx.expect_eq_ok, Tx.require_eq_ok, StoreTx.write_eq_ok, Tx.pure_eq_ok] at h
  obtain ⟨_, _, ⟨i, m, hauth, rfl, rfl⟩, q, _, ⟨_, _, ⟨rfl, rfl⟩, -, rfl⟩, _, _, ⟨-, rfl⟩, _, u,
    hclose, _, _, hleft, rfl, rfl⟩ := h
  refine ⟨i, m, hauth, rfl, { m with leftAt := some session.now }, ?_, rfl, by simp⟩
  rw [hleft, hclose]
  exact Table.mem_updateWhere.mpr ⟨m, hauth.member, by simp [identityOf, hauth.joined]⟩

theorem Store.execute_left {outcome : LeaveOutcome}
    (h : (s.execute command now generated).1 = .ok (.left outcome)) :
    ∃ credential squad, command = .leave credential squad
      ∧ (authenticatedLeave (session credential now) squad).run s
          = .ok (outcome, (s.execute command now generated).2) := by
  cases command <;> obtain ⟨a, hrun, hreply⟩ := Store.answer_eq_ok.mp h <;> cases hreply
  exact ⟨_, _, rfl, hrun⟩

theorem Store.execute_joined {outcome : JoinAndClaimOutcome}
    (h : (s.execute command now generated).1 = .ok (.joined outcome)) :
    ∃ request, command = .join request
      ∧ (joinAndClaim (request.atNow now) generated).run s
          = .ok (outcome, (s.execute command now generated).2) := by
  cases command <;> obtain ⟨a, hrun, hreply⟩ := Store.answer_eq_ok.mp h <;> cases hreply
  exact ⟨_, rfl, hrun⟩

theorem Store.execute_resumed {context : SessionContext}
    (h : (s.execute command now generated).1 = .ok (.resumed context)) :
    ∃ request, command = .resume request
      ∧ (authenticatedResume (request.atNow now)).run s
          = .ok (context, (s.execute command now generated).2) := by
  cases command <;> obtain ⟨a, hrun, hreply⟩ := Store.answer_eq_ok.mp h <;> cases hreply
  exact ⟨_, rfl, hrun⟩

/-- The credential that must belong to a joined membership for the command to succeed. -/
def StoreCommand.requiresJoined : StoreCommand → Option Credential
  | .heartbeat credential _ _ _ => some credential
  | .resume request => some request.prior
  | _ => none

/-- A heartbeat or a resume succeeds only for a membership that has not left. -/
theorem Store.Issued.not_left {credential : Credential} {member : MembershipId}
    (hissued : s.Issued credential member) (hcommand : command.requiresJoined = some credential)
    {reply : Reply} (h : (s.execute command now generated).1 = .ok reply) : ¬ s.Left member := by
  obtain ⟨i, m, rfl, hauth⟩ := hissued.authenticates now
  cases command with
  | heartbeat cred availability source policy =>
      cases hcommand
      obtain ⟨record, hrun, -⟩ := Store.answer_eq_ok.mp h
      simp only [authenticatedHeartbeat, Tx.bind_eq_ok, validateObservation_eq_ok,
        authorizeCurrent_eq_ok] at hrun
      obtain ⟨_, _, ⟨-, rfl⟩, _, _, ⟨j, n, hcurrent, -⟩, -⟩ := hrun
      obtain ⟨-, rfl⟩ := hauth.unique hcurrent.toAuthenticates
      exact Store.not_left_of_joined hcurrent.member hcurrent.joined
  | resume request =>
      cases hcommand
      obtain ⟨context, hrun, -⟩ := Store.answer_eq_ok.mp h
      simp [authenticatedResume] at hrun
      obtain ⟨-, -, prior, n, q, ⟨hjoin, hjoined⟩, htoken, -⟩ := hrun
      obtain ⟨⟨⟨hprior, hpid⟩, hn, hnid⟩, -⟩ := Store.instanceJoinSquad_eq_some.mp hjoin
      have hcurrent : s.Authenticates (session request.prior now) prior n :=
        ⟨hprior, hpid, hn, hnid, htoken⟩
      obtain ⟨-, rfl⟩ := hauth.unique hcurrent
      exact Store.not_left_of_joined hn hjoined
  | _ => cases hcommand

/-- A join makes a membership the store did not have. -/
theorem joinAndClaim_fresh {request : JoinAndClaim} {outcome : JoinAndClaimOutcome}
    (h : (joinAndClaim request generated).run s = .ok (outcome, t)) :
    ∀ m ∈ s.memberships, m.id ≠ outcome.membership.id := by
  simp only [joinAndClaim, squadByIdTx, Tx.bind_eq_ok, validateClient_eq_ok,
    validateObservation_eq_ok, Tx.expect_eq_ok, Tx.query_eq_ok, Tx.pure_eq_ok] at h
  obtain ⟨_, _, ⟨-, rfl⟩, _, _, ⟨-, rfl⟩, token, _, ⟨-, rfl⟩, id, t₁, h₁, u, t₂, h₂, v, t₃, h₃, _,
    t₄, -, q', _, -, rfl, rfl⟩ := h
  obtain ⟨-, hmem, -⟩ :=
    findOrCreateSquad_changes (c := ⟨fun _ => True, _, fun _ _ => True⟩) rfl h₁
  simp [insertAgent] at h₂
  simp [insertMembership] at h₃
  obtain ⟨-, -, hwrite⟩ := h₃
  have hrows : t₃.memberships = s.memberships ++ [request.membership.row id] := by
    rw [hwrite, ← hmem, h₂]
  intro m hm
  have hunique := t₃.constraints.membershipId
  rw [hrows] at hunique
  exact hunique.fresh hm

/-! ## The relay's clock -/

omit [Sha256] in
/-- A command reads the clock once, if at all. -/
theorem StoreCommand.op_now (command : StoreCommand) (now : UnixMillis)
    (generated : Option ResumeToken) : ∀ t ∈ (command.op now generated).now, t = now := by
  cases command <;> rintro t ⟨⟩ <;> rfl

/-- The readings of a log never go back. -/
def Relay.Orderly (r : Relay) : Prop := r.log.Pairwise fun e e' => e.now ≤ e'.now

/-- A reading no earlier than the others keeps them in order. -/
theorem Relay.Orderly.step {r r' : Relay} (h : r.Orderly) {l : RelayStep}
    (hl : ∀ now ∈ l.reading, ∀ e ∈ r.log, e.now ≤ now) (hstep : r.step l = some r') :
    r'.Orderly := by
  have happend : ∀ {e : Execution}, l.reading = some e.now → r'.log = r.log ++ [e] →
      r'.Orderly := by
    intro e hreading hlog
    rw [Relay.Orderly, hlog, List.pairwise_append]
    refine ⟨h, List.pairwise_singleton _ _, fun f hf g hg => ?_⟩
    rw [List.mem_singleton.mp hg]
    exact hl e.now hreading f hf
  rcases Relay.step_log hstep with ⟨hlog, -⟩ | ⟨_, _, _, _, rfl, _, _, hlog, -⟩
    | ⟨_, _, _, _, rfl, _, _, _, hlog, -⟩
  · rw [Relay.Orderly, hlog]
    exact h
  · exact happend rfl hlog
  · exact happend rfl hlog

/-- In an orderly history a closed instance left or lapsed by the last reading. -/
theorem History.lapsed {log : List Execution} (h : History log s)
    (hpolicy : ∀ e ∈ log, ∀ policy ∈ e.op.policy, policy = .default)
    (horder : log.Pairwise fun e e' => e.now ≤ e'.now) {latest : UnixMillis}
    (hlatest : ∀ e ∈ log, e.now ≤ latest) : s.Lapsed latest := by
  induction h generalizing latest with
  | start => exact fun i hi => absurd hi List.not_mem_nil
  | @execute log s h call command now generated ih =>
      obtain ⟨hsorted, -, hlast⟩ := List.pairwise_append.mp horder
      have hwhole : ∀ e ∈ log, ∀ u, WholeMillis u e.op := by
        intro e he _ policy hp
        rw [hpolicy e (List.mem_append_left _ he) policy hp]
        exact LeasePolicy.default_atLeastOneMilli
      have hlapsed : s.Lapsed now :=
        ih (fun e he => hpolicy e (List.mem_append_left _ he)) hsorted
          fun e he => hlast e he _ (List.mem_singleton_self _)
      have hnew : WholeMillis s (command.op now generated) := by
        intro policy hp
        rw [hpolicy _ (List.mem_append_right _ (List.mem_singleton_self _)) policy hp]
        exact LeasePolicy.default_atLeastOneMilli
      rw [Store.execute_snd]
      exact (hlapsed.exec (reach_owned (h.reach hwhole)) hnew (command.op_now now generated)).mono
        (hlatest _ (List.mem_append_right _ (List.mem_singleton_self _)))
  | fault _ _ _ _ _ ih =>
      exact ih (fun e he => hpolicy e (List.mem_append_left _ he))
        (List.pairwise_append.mp horder).1 fun e he => hlatest e (List.mem_append_left _ he)

/-! ## Answers -/

namespace Relay

variable {r r' : Relay} {i : Nat} {member : MembershipId} {credential : Credential}

/-- Call `i` carries this command. -/
def Asked (r : Relay) (i : Nat) (command : StoreCommand) : Prop :=
  ∃ c, r.calls[i]? = some c ∧ c.command = command

theorem Asked.step (h : r.Asked i command) {l : RelayStep} (hstep : r.step l = some r') :
    r'.Asked i command := by
  obtain ⟨c, hc, rfl⟩ := h
  obtain ⟨c', hc', hmoves⟩ := step_call hstep hc
  exact ⟨c', hc', hmoves.command⟩

omit [Sha256] in
theorem Coherent.command_eq (hr : r.Coherent) {e : Execution} (he : e ∈ r.log)
    (h : r.Asked e.call command) : e.command = command := by
  obtain ⟨c, hc, hcommand⟩ := hr.ranCall e he
  obtain ⟨d, hd, rfl⟩ := h
  rw [← hcommand, Option.some.inj (hc.symm.trans hd)]

/-- **A denied session is finished.** -/
theorem Sound.denied (hr : r.Sound) (horder : r.Orderly) {e : RepositoryError}
    (he : e = .notMember ∨ e = .squadArchived) (hanswer : r.Answered i (.error e))
    (hasked : r.Asked i command) (hbearer : command.bearer = some credential)
    (hran : r.RanOn i fun s => s.Issued credential member) : r.store.Finished member := by
  obtain ⟨f, before, after, t, t', hf, rfl, hresult, hlog, ht, hreplay, hrun, hlater⟩ :=
    hr.answered_run hanswer
  have hcommand := hr.command_eq hf hasked
  have hexecuted : (t.execute command f.now f.generated).1 = .error e
      ∧ t' = (t.execute command f.now f.generated).2 := by
    rcases hrun with ⟨hresult, ht'⟩ | ⟨hfault, -⟩
    · rw [← hcommand]
      exact ⟨hresult.symm, ht'⟩
    · rcases he with rfl | rfl <;> rcases hfault with hfault | hfault <;> cases hfault
  have hissued : t.Issued credential member := hreplay ▸ hran before f after hlog rfl
  obtain ⟨j, m, rfl, hauth⟩ := hissued.authenticates f.now
  have hbefore : before.Sublist r.log := by rw [hlog]; exact List.sublist_append_left _ _
  have hlapsed : t.Lapsed f.now := by
    refine ht.lapsed (fun g hg => hr.log_policy (hbefore.subset hg)) (horder.sublist hbefore) ?_
    intro g hg
    unfold Orderly at horder
    rw [hlog] at horder
    exact (List.pairwise_append.mp horder).2.2 g hg f (List.mem_cons_self ..)
  have hfinished : t.Finished m.id :=
    @Store.Lapsed.denied _ _ (session credential f.now) _ _ hlapsed hauth _ he
      (Store.execute_denied hbearer he hexecuted.1)
  have hsame : t' = t := hexecuted.2.trans (Store.execute_of_error hexecuted.1)
  exact hfinished.grows (hsame ▸ steps_grows hlater)

/-- **A leave that succeeded left.** -/
theorem Sound.left_of_answered (hr : r.Sound) {outcome : LeaveOutcome}
    (hanswer : r.Answered i (.ok (.left outcome))) : r.store.Left outcome.membershipId := by
  obtain ⟨f, before, after, t, t', hf, rfl, hresult, hlog, ht, hreplay, hrun, hlater⟩ :=
    hr.answered_run hanswer
  rcases hrun with ⟨hok, rfl⟩ | ⟨hfault, -⟩
  · obtain ⟨cred, squad, -, hleave⟩ := Store.execute_left hok.symm
    obtain ⟨j, m, -, rfl, hleft⟩ := authenticatedLeave_eq_ok hleave
    exact hleft.grows (steps_grows hlater)
  · rcases hfault with hfault | hfault <;> cases hfault

/-- **A join that succeeded issued its credential**, for a membership that was not there. -/
theorem Sound.joined_of_answered (hr : r.Sound) {outcome : JoinAndClaimOutcome}
    (hanswer : r.Answered i (.ok (.joined outcome))) :
    r.store.Issued ⟨outcome.claim.record.id, outcome.claim.resumeToken⟩ outcome.membership.id
      ∧ r.store.Enrols outcome.membership.id outcome.squad.id
      ∧ ∀ member, (r.RanOn i fun s => ∃ squad, s.Enrols member squad) →
          member ≠ outcome.membership.id := by
  obtain ⟨f, before, after, t, t', hf, rfl, hresult, hlog, ht, hreplay, hrun, hlater⟩ :=
    hr.answered_run hanswer
  rcases hrun with ⟨hok, rfl⟩ | ⟨hfault, -⟩
  · obtain ⟨request, -, hjoin⟩ := Store.execute_joined hok.symm
    obtain ⟨token, expiry, -, -, -, -, hmembership, hclaim, hrow, hinstance⟩ :=
      joinAndClaim_eq_ok hjoin
    refine ⟨?_, ?_, fun member hran => ?_⟩
    · refine Store.Issued.grows (t := r.store) ?_ (steps_grows hlater)
      rw [hclaim, hmembership]
      exact ⟨_, hinstance, rfl, rfl, rfl⟩
    · refine Store.Enrols.grows (t := r.store) ?_ (steps_grows hlater)
      exact ⟨_, hrow, by rw [hmembership]; rfl, rfl⟩
    · obtain ⟨-, m, hm, hid, -⟩ := hran before f after hlog rfl
      rw [← hreplay] at hm
      rw [← hid]
      exact joinAndClaim_fresh hjoin m hm
  · rcases hfault with hfault | hfault <;> cases hfault

/-- **A resume that succeeded issued its credential.** -/
theorem Sound.resumed_of_answered (hr : r.Sound) {context : SessionContext}
    (hanswer : r.Answered i (.ok (.resumed context))) {request : WorkerResume}
    (hasked : r.Asked i (.resume request)) :
    r.store.Issued ⟨context.record.id, request.prior.resumeToken⟩ context.membership.id := by
  obtain ⟨f, before, after, t, t', hf, rfl, hresult, hlog, ht, hreplay, hrun, hlater⟩ :=
    hr.answered_run hanswer
  rcases hrun with ⟨hok, rfl⟩ | ⟨hfault, -⟩
  · obtain ⟨request', hcommand, hresume⟩ := Store.execute_resumed hok.symm
    cases hcommand.symm.trans (hr.command_eq hf hasked)
    obtain ⟨expiry, -, -, -, hrecord, hinstance⟩ := authenticatedResume_issues hresume
    refine Store.Issued.grows (t := r.store) ?_ (steps_grows hlater)
    rw [hrecord]
    exact ⟨_, hinstance, rfl, rfl, rfl⟩
  · rcases hfault with hfault | hfault <;> cases hfault

/-! ## Leaves and what ran before them -/

/-- Call `i` is a leave of this membership. -/
def LeaveOf (r : Relay) (i : Nat) (member : MembershipId) : Prop :=
  ∃ credential squad, r.Asked i (.leave credential squad) ∧ r.store.Issued credential member
    ∧ r.RanOn i fun s => s.Issued credential member

theorem LeaveOf.step (hr : r.Sound) (h : r.LeaveOf i member) {l : RelayStep}
    (hstep : r.step l = some r') : r'.LeaveOf i member := by
  obtain ⟨cred, squad, hasked, hissued, hran⟩ := h
  exact ⟨cred, squad, hasked.step hstep, hissued.grows (step_grows hstep),
    hran.step hr hissued hstep⟩

/-- **A membership that a session was found in had not been left.** If the leave took effect,
it ran after that session's command. -/
theorem Sound.precedes_leave (hr : r.Sound) {j : Nat} (hleave : r.LeaveOf j member)
    (heffective : r.Effective j) {reply : Reply} (hanswer : r.Answered i (.ok reply))
    (hasked : r.Asked i command) (hcommand : command.requiresJoined = some credential)
    (hran : r.RanOn i fun s => s.Issued credential member) : [i, j].Sublist r.schedule := by
  obtain ⟨f, before, after, t, t', hf, rfl, hresult, hlog, ht, hreplay, hrun, hlater⟩ :=
    hr.answered_run hanswer
  have hjoined : ¬ t.Left member := by
    have hissued : t.Issued credential member := hreplay ▸ hran before f after hlog rfl
    rcases hrun with ⟨hok, -⟩ | ⟨hfault, -⟩
    · rw [hr.command_eq hf hasked] at hok
      exact hissued.not_left hcommand hok.symm
    · rcases hfault with hfault | hfault <;> cases hfault
  obtain ⟨g, hg, rfl, hgok⟩ := heffective
  obtain ⟨cred, squad, hgasked, -, hgran⟩ := hleave
  have hgcommand := hr.command_eq hg hgasked
  have hne : g ≠ f := by
    rintro rfl
    rw [hr.command_eq hf hasked] at hgcommand
    rw [hgcommand] at hcommand
    cases hcommand
  -- a leave before the session's command would have been seen by it
  have hafter : g ∈ after := by
    rw [hlog] at hg
    rcases List.mem_append.mp hg with hg | hg
    · exfalso
      obtain ⟨before', between, rfl⟩ := List.append_of_mem hg
      obtain ⟨u, hu, hut⟩ := @History.split _ (before' ++ [g]) between _ (by simpa using ht)
      obtain ⟨v, hv, hvresult⟩ := hu.last
      have hgissued : v.Issued cred member := by
        rw [hv.store_eq]
        exact hgran before' g (between ++ f :: after) (by rw [hlog]; simp) rfl
      have hgrows : u.Grows t := by
        rw [hut]
        exact steps_grows (@steps_run _ Lts.always _ u fun _ _ _ => trivial)
      rcases hvresult with ⟨hok, rfl⟩ | ⟨hfault, -⟩
      · cases hgresult : g.result with
        | error e => rw [hgresult] at hgok; cases hgok
        | ok answer =>
            rw [hgcommand, hgresult] at hok
            rw [hgcommand] at hgrows
            obtain ⟨outcome, hleave, -⟩ := Store.answer_eq_ok.mp hok.symm
            obtain ⟨k, n, hauth, -, hleft⟩ := authenticatedLeave_eq_ok hleave
            obtain ⟨k', n', rfl, hauth'⟩ := hgissued.authenticates g.now
            obtain ⟨-, rfl⟩ := hauth'.unique hauth.toAuthenticates
            exact hjoined (hleft.grows hgrows)
      · rcases hfault with hfault | hfault <;> rw [hfault] at hgok <;> cases hgok
    · rcases List.mem_cons.mp hg with hg | hg
      · exact absurd hg hne
      · exact hg
  have hpair : [f, g].Sublist (before ++ f :: after) :=
    (List.Sublist.cons_cons f (List.singleton_sublist.mpr hafter)).trans
      (List.sublist_append_right _ _)
  have hcalls := hpair.map Execution.call
  rw [← hlog] at hcalls
  exact hcalls.trans (List.sublist_append_left _ _)

end Relay

end Psst
