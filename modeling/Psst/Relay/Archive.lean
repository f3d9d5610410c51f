import Psst.Relay.Evidence
import Psst.Relay.Refusal
import Psst.Store.Confinement
import Psst.Store.Idempotency

/-!
# Archived squads

Every command that writes does so on behalf of one squad that is not archived, so nothing that
belongs to an archived squad ever changes again. What its members can still do is read the
roster, and repeat a send that was stored before.
-/

namespace Psst

open Table

/-- One command as the worker runs it: its clock reading and the token a join draws. -/
structure Task where
  command : StoreCommand
  now : UnixMillis
  generated : Option ResumeToken

section Archive

variable [Sha256]

/-- The store under the commands of the relay, one transaction per step. -/
def commandLts : Lts Store Task where
  init s := s = Store.empty
  step s task t := t = (s.execute task.command task.now task.generated).2

variable {s t : Store}

/-- The store after a list of commands. -/
def Store.perform (s : Store) (tasks : List Task) : Store :=
  tasks.foldl (fun s task => (s.execute task.command task.now task.generated).2) s

theorem steps_perform (tasks : List Task) :
    ∀ s : Store, commandLts.Steps Lts.always s (s.perform tasks) := by
  induction tasks with
  | nil => exact fun s => .refl s
  | cons task tasks ih =>
      intro s
      have hfirst : commandLts.Steps Lts.always s
          (s.execute task.command task.now task.generated).2 :=
        (Lts.Steps.refl s).tail trivial rfl
      exact hfirst.trans (ih _)

theorem commandLts_steps {ok : Store → Task → Prop} (h : commandLts.Steps ok s t) :
    storeLts.Steps Lts.always s t := by
  induction h with
  | refl => exact .refl s
  | @tail u v task _ _ step ih =>
      refine ih.tail (l := task.command.op task.now task.generated) trivial ?_
      show v = u.exec _
      rw [← Store.execute_snd]
      exact step

theorem commandLts_reach {ok : Store → Task → Prop} (h : commandLts.Reach ok s) :
    storeLts.Reach Lts.always s :=
  let ⟨s₀, hinit, hrun⟩ := h
  ⟨s₀, hinit, commandLts_steps hrun⟩

/-! ## Confinement -/

variable {command : StoreCommand} {now : UnixMillis} {generated : Option ResumeToken}

omit [Sha256] in
theorem Store.answer_cases {α : Type} (s : Store) (x : StoreTx α) (reply : α → Reply) :
    (s.answer x reply).2 = s ∨ ∃ a, x.run s = .ok (a, (s.answer x reply).2) := by
  rcases Tx.commit_cases x s with ⟨e, -, hc⟩ | ⟨a, t, hrun, hc⟩
  · exact Or.inl (by simp only [Store.answer, hc])
  · refine Or.inr ⟨a, ?_⟩
    rw [hrun]
    simp only [Store.answer, hc]

/-- The squad a command works for is open, and the squad of its credential. -/
structure Store.WorksFor (s : Store) (command : StoreCommand) (squad : SquadId) : Prop where
  isOpen : s.Open squad
  member : ∀ credential ∈ command.credential, ∃ i ∈ s.instances, i.id = credential.instanceId
    ∧ ∃ m ∈ s.memberships, m.id = i.membershipId ∧ m.squadId = squad

theorem Store.Authorizes.worksFor {credential : Credential} {i : InstanceRow}
    {m : MembershipRow} (h : s.Authorizes (session credential now) i m)
    (hcredential : command.credential = some credential) : s.WorksFor command m.squadId where
  isOpen := h.isOpen
  member c hc := by
    rw [hcredential] at hc
    cases hc
    exact ⟨i, h.mem, h.id, m, h.member, h.memberId, rfl⟩

/-- **A command changes rows of one squad only**, and never of an archived one. -/
theorem Store.execute_confined (s : Store) (command : StoreCommand) (now : UnixMillis)
    (generated : Option ResumeToken) :
    (s.execute command now generated).2 = s
      ∨ ∃ squad, s.WorksFor command squad
          ∧ s.Confined (s.execute command now generated).2 squad := by
  have hread : ∀ {α : Type} {x : StoreTx α} (reply : α → Reply), x.ReadOnly →
      (s.answer x reply).2 = s := fun _ hx => hx.commit_snd s
  have hwrite : ∀ {α : Type} {x : StoreTx α} (reply : α → Reply),
      (∀ a s', x.run s = .ok (a, s') →
        s' = s ∨ ∃ squad, s.WorksFor command squad ∧ s.Confined s' squad) →
      (s.answer x reply).2 = s
        ∨ ∃ squad, s.WorksFor command squad ∧ s.Confined (s.answer x reply).2 squad := by
    intro α x reply hx
    rcases s.answer_cases x reply with h | ⟨a, h⟩
    · exact Or.inl h
    · exact hx a _ h
  cases command with
  | listSquads => exact Or.inl (hread .squads (Tx.readOnly_query _))
  | describeSquad name => exact Or.inl (hread .squad (describeSquad_readOnly name))
  | roster credential name => exact Or.inl (hread .roster (authenticatedRoster_readOnly _ _))
  | pending credential limit => exact Or.inl (hread .page (authenticatedPendingPage_readOnly _ _))
  | transcript credential query =>
      exact Or.inl (hread .transcript (authenticatedTranscriptViews_readOnly _ _))
  | join request =>
      refine hwrite .joined fun outcome s' h => Or.inr ?_
      obtain ⟨squad, hopen, hconfined⟩ := joinAndClaim_confined h
      exact ⟨squad, ⟨hopen, fun _ hc => by cases hc⟩, hconfined⟩
  | createSquad request =>
      refine hwrite .squad fun record s' h => Or.inr ?_
      obtain ⟨hopen, hconfined⟩ := createSquad_confined h
      exact ⟨_, ⟨hopen, fun _ hc => by cases hc⟩, hconfined⟩
  | heartbeat credential availability source policy =>
      refine hwrite .heartbeat fun record s' h => Or.inr ?_
      obtain ⟨i, m, hauth, hconfined⟩ := authenticatedHeartbeat_confined h
      exact ⟨_, hauth.worksFor rfl, hconfined⟩
  | send credential request =>
      refine hwrite .sent fun outcome s' h => ?_
      rcases authenticatedSendByName_cases h with ⟨_, _, _, -, -, -, -, hsame⟩
        | ⟨i, m, hauth, hconfined⟩
      · exact Or.inl hsame
      · exact Or.inr ⟨_, hauth.worksFor rfl, hconfined⟩
  | acknowledge credential ids =>
      refine hwrite (fun _ => .acknowledged) fun u s' h => Or.inr ?_
      obtain ⟨i, m, hauth, hconfined⟩ := authenticatedAcknowledge_confined h
      exact ⟨_, hauth.worksFor rfl, hconfined⟩
  | leave credential squad =>
      refine hwrite .left fun outcome s' h => Or.inr ?_
      obtain ⟨i, m, hauth, hconfined⟩ := authenticatedLeave_confined h
      exact ⟨_, hauth.worksFor rfl, hconfined⟩
  | archive credential squad =>
      refine hwrite .squad fun record s' h => Or.inr ?_
      obtain ⟨i, m, hauth, hconfined⟩ := authenticatedArchiveByName_confined h
      exact ⟨_, hauth.worksFor rfl, hconfined⟩
  | resume request =>
      refine hwrite .resumed fun context s' h => Or.inr ?_
      obtain ⟨i, hi, hid, m, hm, hmid, hopen, hconfined⟩ := authenticatedResume_confined h
      refine ⟨_, ⟨hopen, fun c hc => ?_⟩, hconfined⟩
      cases hc
      exact ⟨i, hi, hid, m, hm, hmid, rfl⟩

/-- A command leaves the rows of an archived squad alone. -/
theorem Store.execute_archived {q : SquadRecord} (hq : q ∈ s.squads)
    (harchived : q.state = .archived) (command : StoreCommand) (now : UnixMillis)
    (generated : Option ResumeToken) :
    (s.execute command now generated).2.rowsOf q.id = s.rowsOf q.id := by
  rcases s.execute_confined command now generated with hsame | ⟨squad, hworks, hconfined⟩
  · rw [hsame]
  · refine hconfined q.id fun hid => ?_
    have hactive := hworks.isOpen q hq hid
    rw [harchived] at hactive
    cases hactive

omit [Sha256] in
theorem Store.mem_squads_of_rowsOf {q : SquadRecord} (hrows : t.rowsOf q.id = s.rowsOf q.id)
    (hq : q ∈ s.squads) : q ∈ t.squads := by
  have hmem : q ∈ (s.rowsOf q.id).squads := List.mem_filter.mpr ⟨hq, by simp⟩
  rw [← hrows] at hmem
  exact (List.mem_filter.mp hmem).1

/-- **Nothing of an archived squad changes**, along any run. -/
theorem steps_archived {ok : Store → Task → Prop} {q : SquadRecord} (hq : q ∈ s.squads)
    (harchived : q.state = .archived) (h : commandLts.Steps ok s t) :
    t.rowsOf q.id = s.rowsOf q.id := by
  refine h.keeps (P := fun t => t.rowsOf q.id = s.rowsOf q.id) ?_ rfl
  rintro u task v hu - rfl
  rw [Store.execute_archived (Store.mem_squads_of_rowsOf hu hq) harchived]
  exact hu

/-! ## Reads of the roster

A roster line is refused only for a stored observation that contradicts itself, and every
command that stores one has validated it. -/

/-- Availability and source are unknown together. -/
def InstanceRow.Consistent (i : InstanceRow) : Prop :=
  i.availability = .unknown ↔ i.availabilitySource = .unknown

def Store.Consistent (s : Store) : Prop := ∀ i ∈ s.instances, i.Consistent

omit [Sha256] in
theorem Store.Consistent.of_instances (h : s.Consistent) (heq : t.instances = s.instances) :
    t.Consistent := fun i hi => h i (heq ▸ hi)

omit [Sha256] in
theorem Store.Consistent.renew (h : s.Consistent) {p : InstanceRow → Bool}
    {f : InstanceRow → InstanceRow} (heq : t.toTables = s.toTables.renewInstances p f)
    (hf : ∀ i, i.Consistent → (f i).Consistent) : t.Consistent := by
  intro i hi
  rw [heq] at hi
  obtain ⟨j, hj, rfl⟩ := mem_updateWhere.mp hi
  split
  · exact hf j (h j hj)
  · exact h j hj

omit [Sha256] in
theorem Store.Consistent.close (h : s.Consistent) {p : InstanceRow → Bool}
    (heq : t.toTables = s.toTables.closeInstances p now) : t.Consistent :=
  h.renew (p := fun i => p i && i.unclosed) (f := fun i => { i with closedAt := some now }) heq
    fun _ hi => hi

omit [Sha256] in
theorem Store.Consistent.append (h : s.Consistent) {row : InstanceRow} (hrow : row.Consistent)
    (heq : t.instances = s.instances ++ [row]) : t.Consistent := by
  intro i hi
  rw [heq] at hi
  rcases List.mem_append.mp hi with hi | hi
  · exact h i hi
  · cases List.mem_singleton.mp hi
    exact hrow

theorem joinAndClaim_consistent {request : JoinAndClaim} {outcome : JoinAndClaimOutcome}
    (h : (joinAndClaim request generated).run s = .ok (outcome, t)) (hs : s.Consistent) :
    t.Consistent := by
  simp only [joinAndClaim, squadByIdTx, Tx.bind_eq_ok, validateClient_eq_ok,
    validateObservation_eq_ok, Tx.expect_eq_ok, Tx.query_eq_ok, insertInstance_eq_ok,
    Tx.pure_eq_ok] at h
  obtain ⟨_, _, ⟨-, rfl⟩, _, _, ⟨hvalid, rfl⟩, token, _, ⟨-, rfl⟩, squad, t₁, hfind, _, t₂, hagent,
    _, t₃, hinsert, _, _, ⟨expiry, -, hclaim, -⟩, _, _, ⟨_, _, ⟨-, rfl⟩, -, rfl⟩, -, rfl⟩ := h
  obtain ⟨-, -, hinstances, -⟩ :=
    findOrCreateSquad_changes (c := ⟨fun _ => True, _, fun _ _ => True⟩) rfl hfind
  simp [insertAgent] at hagent
  simp [insertMembership] at hinsert
  have hrow : ((request.instance token).row expiry).Consistent := hvalid
  refine (hs.of_instances (t := t₃) ?_).append hrow (by rw [hclaim]; rfl)
  rw [hinsert.2.2, hagent, hinstances]

theorem authenticatedHeartbeat_consistent {session : AuthenticatedSession}
    {availability : Availability} {source : AvailabilitySource} {policy : LeasePolicy}
    {record : InstanceRecord}
    (h : (authenticatedHeartbeat session availability source policy).run s = .ok (record, t))
    (hs : s.Consistent) : t.Consistent := by
  simp only [authenticatedHeartbeat, Tx.bind_eq_ok, validateObservation_eq_ok,
    authorizeCurrent_eq_ok, Tx.ofExcept_eq_ok, StoreTx.write_eq_ok, Tx.pure_eq_ok] at h
  obtain ⟨_, _, ⟨hvalid, rfl⟩, _, _, ⟨_, _, -, -, rfl⟩, expiry, _, ⟨-, rfl⟩, _, _, hwrite, -,
    rfl⟩ := h
  exact hs.renew hwrite fun _ _ => hvalid

theorem authenticatedResume_consistent {request : AuthenticatedResume} {context : SessionContext}
    (h : (authenticatedResume request).run s = .ok (context, t)) (hs : s.Consistent) :
    t.Consistent := by
  simp [authenticatedResume, membershipByIdTx, squadByIdTx] at h
  obtain ⟨-, hvalid, prior, m, q, -, -, -, -, -, -, u, hclose, row, -, -, -, expiry, ⟨-, hwrite⟩,
    -⟩ := h
  have hrow : ((request.instance m.id).row expiry).Consistent := hvalid
  exact (hs.close hclose).append hrow (by rw [hwrite]; rfl)

theorem authenticatedSendByName_instances {session : AuthenticatedSession} {request : SendByName}
    {outcome : SendOutcome}
    (h : (authenticatedSendByName session request).run s = .ok (outcome, t)) :
    t.instances = s.instances := by
  have hchanges : Changes ⟨fun _ => False, none, fun _ _ => False⟩ s t :=
    authenticatedSendByName_changes h
  refine hchanges.keeps (Q := fun t => t.instances = s.instances) ?_ rfl
  intro u v hstep hu
  rw [hstep.instances_of_no_clock rfl, hu]

theorem Store.Consistent.execute (hs : s.Consistent) (command : StoreCommand) (now : UnixMillis)
    (generated : Option ResumeToken) : (s.execute command now generated).2.Consistent := by
  have hwrite : ∀ {α : Type} {x : StoreTx α} (reply : α → Reply),
      (∀ a s', x.run s = .ok (a, s') → s'.Consistent) → (s.answer x reply).2.Consistent := by
    intro α x reply hx
    rcases s.answer_cases x reply with h | ⟨a, h⟩
    · rw [h]
      exact hs
    · exact hx a _ h
  have hread : ∀ {α : Type} {x : StoreTx α} (reply : α → Reply), x.ReadOnly →
      (s.answer x reply).2.Consistent := by
    intro α x reply hx
    exact hwrite reply fun a s' h => by rw [hx s a s' h]; exact hs
  cases command with
  | listSquads => exact hread .squads (Tx.readOnly_query _)
  | describeSquad name => exact hread .squad (describeSquad_readOnly name)
  | roster credential name => exact hread .roster (authenticatedRoster_readOnly _ _)
  | pending credential limit => exact hread .page (authenticatedPendingPage_readOnly _ _)
  | transcript credential query =>
      exact hread .transcript (authenticatedTranscriptViews_readOnly _ _)
  | join request => exact hwrite .joined fun _ _ h => joinAndClaim_consistent h hs
  | createSquad request =>
      refine hwrite .squad fun _ s' h => hs.of_instances ?_
      simp [createSquad, insertSquad] at h
      rw [h.2.2.1]
  | heartbeat credential availability source policy =>
      exact hwrite .heartbeat fun _ _ h => authenticatedHeartbeat_consistent h hs
  | send credential request =>
      exact hwrite .sent fun _ _ h => hs.of_instances (authenticatedSendByName_instances h)
  | acknowledge credential ids =>
      refine hwrite (fun _ => .acknowledged) fun _ s' h => hs.of_instances ?_
      simp only [authenticatedAcknowledge, Tx.bind_eq_ok, authorizeCurrent_eq_ok] at h
      obtain ⟨_, _, ⟨_, _, -, -, rfl⟩, h⟩ := h
      rw [(acknowledgeOn_eq_ok h).2]
      rfl
  | leave credential squad =>
      refine hwrite .left fun _ s' h => ?_
      simp only [authenticatedLeave, squadByIdTx, Tx.bind_eq_ok, authorizeCurrent_eq_ok,
        Tx.query_eq_ok, Tx.expect_eq_ok, Tx.require_eq_ok, StoreTx.write_eq_ok,
        Tx.pure_eq_ok] at h
      obtain ⟨_, _, ⟨_, _, -, -, rfl⟩, _, _, ⟨_, _, ⟨rfl, rfl⟩, -, rfl⟩, _, _, ⟨-, rfl⟩, _, u,
        hclose, _, _, hleft, -, rfl⟩ := h
      exact (hs.close hclose).of_instances (by rw [hleft]; rfl)
  | archive credential squad =>
      refine hwrite .squad fun _ s' h => hs.of_instances ?_
      simp only [authenticatedArchiveByName, squadByNameTx, Tx.bind_eq_ok, authorizeCurrent_eq_ok,
        Tx.query_eq_ok, Tx.expect_eq_ok, Tx.require_eq_ok, StoreTx.write_eq_ok,
        Tx.pure_eq_ok] at h
      obtain ⟨_, _, ⟨_, _, -, -, rfl⟩, _, _, ⟨_, _, ⟨rfl, rfl⟩, -, rfl⟩, _, _, ⟨-, rfl⟩, _, _,
        ⟨-, rfl⟩, _, u, hwrite, -, rfl⟩ := h
      rw [hwrite]
      rfl
  | resume request => exact hwrite .resumed fun _ _ h => authenticatedResume_consistent h hs

theorem reach_consistent {ok : Store → Task → Prop} (h : commandLts.Reach ok s) :
    s.Consistent := by
  refine h.invariant (P := Store.Consistent) ?_ ?_
  · rintro s rfl i hi
    cases hi
  · rintro s task t hs - rfl
    exact hs.execute task.command task.now task.generated

omit [Sha256] in
theorem rosterMember_eq_ok (hs : s.Consistent) (now : UnixMillis) (m : MembershipRow) :
    ∃ line, rosterMember s.toTables now m = .ok line := by
  unfold rosterMember
  cases hnewest : s.newestInstance m.id with
  | none => exact ⟨_, rfl⟩
  | some i =>
      have hi : i ∈ s.instances :=
        (List.mem_filter.mp (head?_insertionSort_mem hnewest)).1
      by_cases honline : (m.joined && i.unclosed && decide (now < i.leaseExpiresAt)) = true
      · simp only [honline, if_true, AvailabilityObservation.new]
        rw [dif_pos (show i.availability = .unknown ↔ i.availabilitySource = .unknown from
          hs i hi)]
        exact ⟨_, rfl⟩
      · simp only [honline]
        exact ⟨_, rfl⟩

omit [Sha256] in
theorem mapM_eq_ok {α β ε : Type} {f : α → Except ε β} (as : List α)
    (h : ∀ a ∈ as, ∃ b, f a = .ok b) : ∃ bs, as.mapM f = .ok bs := by
  induction as with
  | nil => exact ⟨[], rfl⟩
  | cons a as ih =>
      obtain ⟨b, hb⟩ := h a (List.mem_cons_self ..)
      obtain ⟨bs, hbs⟩ := ih fun a' ha' => h a' (List.mem_cons_of_mem _ ha')
      refine ⟨b :: bs, ?_⟩
      rw [List.mapM_cons, hb, hbs]
      rfl

omit [Sha256] in
theorem roster_eq_ok (hs : s.Consistent) {q : SquadRecord} (hq : q ∈ s.squads)
    (now : UnixMillis) : ∃ members, (roster q.name now).run s = .ok (members, s) := by
  have hsquad : (describeSquad q.name).run s = .ok (q, s) := by
    rw [describeSquad, Tx.run_query_bind, s.squadByName_eq_some.mpr ⟨hq, rfl⟩]
    rfl
  obtain ⟨lines, hlines⟩ := mapM_eq_ok ((s.memberships.filter fun m =>
    decide (m.squadId = q.id)).insertionSort MembershipRow.RosterLe)
    fun m _ => rosterMember_eq_ok hs now m
  refine ⟨lines, ?_⟩
  rw [roster, Tx.run_bind_of_ok s hsquad, Tx.run_query_bind, hlines]
  rfl

/-- **The roster of an own squad is always readable.** -/
theorem authenticatedRoster_eq_ok (hs : s.Consistent) {session : AuthenticatedSession}
    {i : InstanceRow} {m : MembershipRow} (hauth : s.Authenticates session i m)
    {q : SquadRecord} (hq : q ∈ s.squads) (hid : q.id = m.squadId) :
    ∃ members, (authenticatedRoster session q.name).run s = .ok (members, s) := by
  have hhistorical : (authenticateHistorical session).run s = .ok (identityOf i m, s) :=
    authenticateHistorical_eq_ok.mpr ⟨i, m, hauth, rfl, rfl⟩
  have hsquad : (squadByIdTx (identityOf i m).squad).run s = .ok (q, s) := by
    rw [squadByIdTx, Tx.run_query_bind,
      show s.squadById (identityOf i m).squad = some q from
        s.squadById_eq_some.mpr ⟨hq, hid⟩]
    rfl
  obtain ⟨members, hmembers⟩ := roster_eq_ok hs hq session.now
  refine ⟨members, ?_⟩
  rw [authenticatedRoster, Tx.run_bind_of_ok s hhistorical, Tx.run_bind_of_ok s hsquad,
    Tx.run_require_bind, if_pos rfl, hmembers]

/-! ## What still succeeds -/

omit [Sha256] in
theorem Store.answer_isOk {α : Type} {x : StoreTx α} {reply : α → Reply} {a : α}
    (h : x.run s = .ok (a, t)) : (s.answer x reply).1 = .ok (reply a) := by
  simp only [Store.answer, Tx.commit_of_ok h]
  rfl

/-- The archived squad has no current session. -/
theorem Store.not_authorizes_archived {q : SquadRecord} (hq : q ∈ s.squads)
    (harchived : q.state = .archived) {credential : Credential} {i j : InstanceRow}
    {m n : MembershipRow} (hauth : s.Authenticates (session credential now) i m)
    (hsquad : m.squadId = q.id) (hcurrent : s.Authorizes (session credential now) j n) :
    False := by
  obtain ⟨rfl, rfl⟩ := hauth.unique hcurrent.toAuthenticates
  have hactive := hcurrent.isOpen q hq hsquad.symm
  rw [harchived] at hactive
  cases hactive

/-- **What the members of an archived squad can still do**: read its roster, and repeat a
stored send. -/
theorem Store.execute_archived_iff (hs : s.Consistent) (hdigests : s.DigestsMatch)
    {q : SquadRecord} (hq : q ∈ s.squads) (harchived : q.state = .archived)
    {credential : Credential} (hcredential : command.credential = some credential)
    {i : InstanceRow} {m : MembershipRow} (hauth : s.Authenticates (session credential now) i m)
    (hsquad : m.squadId = q.id) :
    (∃ reply, (s.execute command now generated).1 = .ok reply)
      ↔ command = .roster credential q.name
        ∨ ∃ request row, command = .send credential request ∧ s.Repeats m request row := by
  have hnone : ∀ {j : InstanceRow} {n : MembershipRow},
      ¬ s.Authorizes (session credential now) j n :=
    fun hcurrent => Store.not_authorizes_archived hq harchived hauth hsquad hcurrent
  constructor
  · rintro ⟨reply, hreply⟩
    cases command with
    | join _ | listSquads | createSquad _ | describeSquad _ => cases hcredential
    | roster _ name =>
        cases hcredential
        obtain ⟨members, hrun, -⟩ := Store.answer_eq_ok.mp hreply
        simp only [authenticatedRoster, squadByIdTx, Tx.bind_eq_ok, authenticateHistorical_eq_ok,
          Tx.query_eq_ok, Tx.expect_eq_ok, Tx.require_eq_ok] at hrun
        obtain ⟨_, _, ⟨j, n, hauth', rfl, rfl⟩, p, _, ⟨_, _, ⟨rfl, rfl⟩, hp, rfl⟩, _, _,
          ⟨hname, rfl⟩, -⟩ := hrun
        obtain ⟨rfl, rfl⟩ := hauth.unique hauth'
        obtain ⟨hpmem, hpid⟩ := s.squadById_eq_some.mp hp
        have hpq : p = q := s.constraints.squadId.eq hpmem hq (hpid.trans hsquad)
        rw [← hname, hpq]
        exact Or.inl rfl
    | heartbeat _ availability source policy =>
        cases hcredential
        obtain ⟨_, hrun, -⟩ := Store.answer_eq_ok.mp hreply
        obtain ⟨j, n, hcurrent, -⟩ := authenticatedHeartbeat_confined hrun
        exact absurd hcurrent hnone
    | send _ request =>
        cases hcredential
        obtain ⟨_, hrun, -⟩ := Store.answer_eq_ok.mp hreply
        rcases authenticatedSendByName_cases hrun with ⟨j, n, row, hauth', hrepeats, -⟩
          | ⟨j, n, hcurrent, -⟩
        · obtain ⟨rfl, rfl⟩ := hauth.unique hauth'
          exact Or.inr ⟨request, row, rfl, hrepeats⟩
        · exact absurd hcurrent hnone
    | pending _ limit =>
        cases hcredential
        obtain ⟨_, hrun, -⟩ := Store.answer_eq_ok.mp hreply
        simp only [authenticatedPendingPage, Tx.bind_eq_ok, authorizeCurrent_eq_ok] at hrun
        obtain ⟨_, _, ⟨j, n, hcurrent, -, -⟩, -⟩ := hrun
        exact absurd hcurrent hnone
    | acknowledge _ ids =>
        cases hcredential
        obtain ⟨_, hrun, -⟩ := Store.answer_eq_ok.mp hreply
        obtain ⟨j, n, hcurrent, -⟩ := authenticatedAcknowledge_confined hrun
        exact absurd hcurrent hnone
    | transcript _ query =>
        cases hcredential
        obtain ⟨_, hrun, -⟩ := Store.answer_eq_ok.mp hreply
        simp only [authenticatedTranscriptViews, Tx.bind_eq_ok, Tx.require_eq_ok,
          authorizeCurrent_eq_ok] at hrun
        obtain ⟨_, _, ⟨-, rfl⟩, _, _, ⟨j, n, hcurrent, -, -⟩, -⟩ := hrun
        exact absurd hcurrent hnone
    | leave _ squad =>
        cases hcredential
        obtain ⟨_, hrun, -⟩ := Store.answer_eq_ok.mp hreply
        obtain ⟨j, n, hcurrent, -⟩ := authenticatedLeave_confined hrun
        exact absurd hcurrent hnone
    | archive _ squad =>
        cases hcredential
        obtain ⟨_, hrun, -⟩ := Store.answer_eq_ok.mp hreply
        obtain ⟨j, n, hcurrent, -⟩ := authenticatedArchiveByName_confined hrun
        exact absurd hcurrent hnone
    | resume request =>
        cases hcredential
        obtain ⟨_, hrun, -⟩ := Store.answer_eq_ok.mp hreply
        obtain ⟨j, hj, hjid, n, hn, hnid, hopen, -⟩ := authenticatedResume_confined hrun
        have hji : j = i := s.constraints.instanceId.eq hj hauth.mem (hjid.trans hauth.id.symm)
        subst hji
        have hnm : n = m :=
          s.constraints.membershipId.eq hn hauth.member (hnid.trans hauth.memberId.symm)
        subst hnm
        have hactive := hopen q hq hsquad.symm
        rw [harchived] at hactive
        cases hactive
  · rintro (rfl | ⟨request, row, rfl, hrepeats⟩)
    · obtain ⟨members, hrun⟩ := authenticatedRoster_eq_ok hs hauth hq hsquad.symm
      exact ⟨_, Store.answer_isOk hrun⟩
    · obtain ⟨outcome, hrun⟩ :=
        authenticatedSendByName_of_repeats hauth hrepeats (hdigests row hrepeats.mem)
      exact ⟨_, Store.answer_isOk hrun⟩

omit [Sha256] in
theorem createSquad_of_taken {q : SquadRecord} (hq : q ∈ s.squads) (request : CreateSquad)
    (hname : request.name = q.name) : ∃ e, (createSquad request).run s = .error e := by
  cases hrun : (createSquad request).run s with
  | error e => exact ⟨e, rfl⟩
  | ok r =>
      obtain ⟨record, s'⟩ := r
      simp only [createSquad, Tx.bind_eq_ok, Tx.require_eq_ok, Tx.query_eq_ok] at hrun
      obtain ⟨_, _, ⟨-, rfl⟩, _, _, ⟨rfl, rfl⟩, _, _, ⟨hconflict, rfl⟩, -⟩ := hrun
      rw [s.squadByName_eq_some.mpr ⟨hq, hname.symm⟩] at hconflict
      cases hconflict

theorem joinAndClaim_of_archived {q : SquadRecord} (hq : q ∈ s.squads)
    (harchived : q.state = .archived) (request : JoinAndClaim)
    (hname : request.membership.squadName = q.name) :
    ∃ e, (joinAndClaim request generated).run s = .error e := by
  cases hrun : (joinAndClaim request generated).run s with
  | error e => exact ⟨e, rfl⟩
  | ok r =>
      obtain ⟨outcome, s'⟩ := r
      simp only [joinAndClaim, Tx.bind_eq_ok, validateClient_eq_ok, validateObservation_eq_ok,
        Tx.expect_eq_ok] at hrun
      obtain ⟨_, _, ⟨-, rfl⟩, _, _, ⟨-, rfl⟩, _, _, ⟨-, rfl⟩, _, _, hfind, -⟩ := hrun
      rw [findOrCreateSquad, Tx.run_query_bind,
        s.squadByName_eq_some.mpr ⟨hq, hname.symm⟩] at hfind
      simp [harchived] at hfind

/-- **Archive freezes a squad.** In every later state of any run of commands the rows of an
archived squad are the same, its name is taken for good, and of its members' commands exactly
the roster and repeated sends succeed. -/
theorem archive_freezes (hreach : commandLts.Reach Lts.always s) {q : SquadRecord}
    (hq : q ∈ s.squads) (harchived : q.state = .archived)
    (hlater : commandLts.Steps Lts.always s t) :
    t.rowsOf q.id = s.rowsOf q.id
      ∧ (∀ (request : WorkerCreateSquad) (now : UnixMillis) (generated : Option ResumeToken),
          request.name = q.name →
            ∃ e, (t.execute (.createSquad request) now generated).1 = .error e)
      ∧ (∀ (request : WorkerJoin) (now : UnixMillis) (generated : Option ResumeToken),
          request.membership.squadName = q.name →
            ∃ e, (t.execute (.join request) now generated).1 = .error e)
      ∧ ∀ (command : StoreCommand) (credential : Credential) (now : UnixMillis)
          (generated : Option ResumeToken) (i : InstanceRow) (m : MembershipRow),
          command.credential = some credential → t.Authenticates (session credential now) i m →
          m.squadId = q.id →
            ((∃ reply, (t.execute command now generated).1 = .ok reply)
              ↔ command = .roster credential q.name
                ∨ ∃ request row, command = .send credential request
                    ∧ t.Repeats m request row) := by
  have hrows := steps_archived hq harchived hlater
  have hqt : q ∈ t.squads := Store.mem_squads_of_rowsOf hrows hq
  have hreacht : commandLts.Reach Lts.always t := hreach.steps hlater
  refine ⟨hrows, fun request now generated hname => ?_, fun request now generated hname => ?_,
    fun command credential now generated i m hcredential hauth hsquad => ?_⟩
  · obtain ⟨e, he⟩ := createSquad_of_taken hqt (request.atNow now) hname
    exact ⟨e, Store.answer_eq_error.mpr he⟩
  · obtain ⟨e, he⟩ := joinAndClaim_of_archived hqt harchived (request.atNow now)
      hname
    exact ⟨e, Store.answer_eq_error.mpr he⟩
  · exact Store.execute_archived_iff (reach_consistent hreacht)
      (reach_digestsMatch (commandLts_reach hreacht)) hqt harchived hcredential hauth hsquad

end Archive

namespace Sample

/-- Alice joins `alpha`, archives it, and then tries to leave. -/
def archiving : List Task :=
  let credential : Credential := ⟨aliceInstance, aliceToken⟩
  let request := joinAlpha aliceName aliceAgent alice aliceInstance
    (instant 100)
  [⟨.join
      { membership := request.membership, instanceId := request.instanceId, mode := request.mode,
        clientKind := request.clientKind, hostname := request.hostname,
        availability := request.availability, availabilitySource := request.availabilitySource,
        leasePolicy := request.leasePolicy }, instant 100, some aliceToken⟩,
    ⟨.archive credential alpha, instant 120, none⟩,
    ⟨.leave credential alpha, instant 130, none⟩]

def archivedAlpha : SquadRecord where
  id := alphaId
  name := alpha
  mission := collaboration
  state := .archived
  createdAt := instant 100
  archivedAt := some (instant 120)

end Sample

open Sample in
/-- The leave finds the squad archived and changes none of its rows. -/
theorem archive_freezes_alpha :
    archivedAlpha ∈ (Store.empty.perform (archiving.take 2)).squads
      ∧ (Store.empty.perform archiving).rowsOf alphaId
        = (Store.empty.perform (archiving.take 2)).rowsOf alphaId := by
  have hq : archivedAlpha ∈ (Store.empty.perform (archiving.take 2)).squads := by decide
  exact ⟨hq, (archive_freezes ⟨_, rfl, steps_perform _ _⟩ hq rfl
    (steps_perform (archiving.drop 2) _)).1⟩

end Psst
