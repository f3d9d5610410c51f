import Mathlib.Logic.Relation
import Psst.Store.Run

/-!
# What an operation can change

One constructor of `Change` for each kind of committed change, with the guards the
operation checked on the way. Every operation is a sequence of such changes
(`exec_changes`), so an invariant is proved once per kind of change and never again per
operation. The rows of a table are only ever appended or updated in place; no operation
deletes a row.
-/

namespace Psst

open Table Relation

/-! ## Reads that authenticate nobody -/

theorem describeSquad_readOnly (name : SquadName) : (describeSquad name).ReadOnly :=
  (Tx.readOnly_query _).bind fun _ => Tx.readOnly_expect _ _

theorem roster_readOnly (name : SquadName) (now : UnixMillis) : (roster name now).ReadOnly :=
  (describeSquad_readOnly name).bind fun _ =>
    (Tx.readOnly_query _).bind fun _ => Tx.readOnly_ofExcept _

theorem squadByIdTx_readOnly (id : SquadId) : (squadByIdTx id).ReadOnly :=
  (Tx.readOnly_query _).bind fun _ => Tx.readOnly_expect _ _

theorem messageViewsOn_readOnly (records : List MessageRecord) :
    (messageViewsOn records).ReadOnly :=
  (Tx.readOnly_query _).bind fun _ => Tx.readOnly_expect _ _

variable [Sha256]

/-! ## The kinds of change -/

/-- The state a resume may start from: the newest instance is not online (`resume_instance`),
or no instance is (`authenticated_resume`). -/
def Store.ResumeGuard (s : Store) (member : MembershipId) (now : UnixMillis) : Prop :=
  (∃ i, s.newestInstance member = some i
      ∧ InstanceState.atNow i.closedAt i.leaseExpiresAt now ≠ .online)
    ∨ ((∃ i ∈ s.instances, i.membershipId = member)
      ∧ ∀ i ∈ s.instances, i.membershipId = member →
          InstanceState.atNow i.closedAt i.leaseExpiresAt now ≠ .online)

/-- Close the owner of a membership, then insert its replacement. -/
def Tables.replaceOwner (member : MembershipId) (now : UnixMillis) (row : InstanceRow)
    (t : Tables) : Tables :=
  (t.closeInstances (fun i => decide (i.membershipId = member)) now).addInstance row

/-- Close every unclosed instance of a membership and mark it left. -/
def Tables.leaveMembership (member : MembershipId) (leftAt : UnixMillis) (t : Tables) : Tables :=
  (t.closeInstances (fun i => decide (i.membershipId = member)) leftAt).setLeft member leftAt

/-- What the operation making a change brings to it: the lease policies it may use, its clock
reading, and the batches it may acknowledge. -/
structure Context where
  policy : LeasePolicy → Prop
  clock : Option UnixMillis
  acknowledges : MembershipId → List MessageId → Prop

/-- One committed change of the store. -/
inductive Change (c : Context) : Store → Store → Prop where
  | squad {s s' : Store} (row : SquadRecord) (hclock : c.clock = some row.createdAt)
      (hactive : row.state = .active)
      (heq : s'.toTables = { s.toTables with squads := s.squads ++ [row] }) :
      Change c s s'
  | agent {s s' : Store} (row : AgentRow)
      (heq : s'.toTables = { s.toTables with agents := s.agents ++ [row] }) :
      Change c s s'
  | membership {s s' : Store} (row : MembershipRow) (hjoined : row.leftAt = none)
      (hname : row.normalizedName = row.name)
      (heq : s'.toTables = { s.toTables with memberships := s.memberships ++ [row] }) :
      Change c s s'
  | claim {s s' : Store} (n : NewInstance) (expiry : UnixMillis) (hclock : c.clock = some n.now)
      (hpolicy : c.policy n.leasePolicy)
      (hactive : s.ActiveMembership n.membershipId)
      (hfirst : ∀ i ∈ s.instances, i.membershipId ≠ n.membershipId)
      (hexpiry : n.now.checkedAdd n.leasePolicy.leaseDuration = some expiry)
      (heq : s'.toTables = s.toTables.addInstance (n.row expiry)) :
      Change c s s'
  | renew {s s' : Store} (i : InstanceRow) (now expiry : UnixMillis)
      (availability : Availability) (source : AvailabilitySource)
      (hclock : c.clock = some now) (hi : i ∈ s.instances) (hunclosed : i.closedAt = none)
      (hlive : max now i.lastSeenAt < i.leaseExpiresAt) (hexpiry : i.leaseExpiresAt ≤ expiry)
      (heq : s'.toTables = s.toTables.renewInstances (fun j => decide (j.id = i.id))
        (InstanceRow.renewed availability source (max now i.lastSeenAt) expiry)) :
      Change c s s'
  | replace {s s' : Store} (n : NewInstance) (expiry : UnixMillis) (hclock : c.clock = some n.now)
      (hpolicy : c.policy n.leasePolicy)
      (hactive : s.ActiveMembership n.membershipId)
      (hguard : s.ResumeGuard n.membershipId n.now)
      (hexpiry : n.now.checkedAdd n.leasePolicy.leaseDuration = some expiry)
      (heq : s'.toTables = s.toTables.replaceOwner n.membershipId n.now (n.row expiry)) :
      Change c s s'
  | leave {s s' : Store} (member : MembershipId) (now : UnixMillis) (hclock : c.clock = some now)
      (hjoined : ∃ m ∈ s.memberships, m.id = member ∧ m.leftAt = none)
      (heq : s'.toTables = s.toTables.leaveMembership member now) :
      Change c s s'
  | archive {s s' : Store} (q : SquadRecord) (now : UnixMillis) (hclock : c.clock = some now)
      (hq : q ∈ s.squads) (hactive : q.state = .active)
      (heq : s'.toTables = s.toTables.archiveSquads (fun r => decide (r.id = q.id)) now) :
      Change c s s'
  | send {s s' : Store} (request : SendMessage)
      (hsender : ∃ m ∈ s.memberships, m.id = request.semantics.sender
        ∧ m.squadId = request.semantics.squad ∧ m.leftAt = none)
      (hrecipient : ∃ m ∈ s.memberships, m.id = request.semantics.recipient
        ∧ m.squadId = request.semantics.squad ∧ m.leftAt = none)
      (heq : s'.toTables = s.toTables.insertMessage request) :
      Change c s s'
  | acknowledge {s s' : Store} (recipient : MembershipId) (now : UnixMillis)
      (ids : List MessageId) (hbatch : c.acknowledges recipient ids) (hclock : c.clock = some now)
      (howned : ∀ id ∈ ids, ∃ m ∈ s.messages, m.id = id ∧ m.recipientMembershipId = recipient)
      (heq : s'.toTables = s.toTables.acknowledgeAll recipient now ids) :
      Change c s s'

/-- Finitely many changes. -/
abbrev Changes (c : Context) : Store → Store → Prop := ReflTransGen (Change c)

variable {c : Context} {s s' : Store}

/-! ## Squads and memberships -/

theorem createSquad_changes {request : CreateSquad} {record : SquadRecord}
    (hclock : c.clock = some request.createdAt)
    (h : (createSquad request).run s = .ok (record, s')) : Changes c s s' := by
  simp [createSquad, insertSquad] at h
  obtain ⟨-, -, hwrite, -⟩ := h
  exact .single (.squad _ hclock rfl hwrite)

theorem archiveSquad_changes {name : SquadName} {now : UnixMillis} {u : Unit}
    (hclock : c.clock = some now)
    (h : (archiveSquad name now).run s = .ok (u, s')) : Changes c s s' := by
  simp only [archiveSquad, Tx.bind_eq_ok, Tx.query_eq_ok, StoreTx.write_eq_ok, Tx.run_ite] at h
  obtain ⟨_, _, ⟨rfl, rfl⟩, _, t, hwrite, hrest⟩ := h
  split at hrest
  · rename_i hchanged
    cases hrest
    simp at hchanged
    obtain ⟨q, hq, hname, hactive⟩ := hchanged
    refine .single (.archive q now hclock hq hactive ?_)
    rw [hwrite]
    -- the name picks out the same rows as the id it belongs to
    have hsame : ∀ r ∈ s.squads, (decide (r.name = name) && decide (r.state = .active))
        = (decide (r.id = q.id) && decide (r.state = .active)) := by
      intro r hr
      have : r.name = name ↔ r.id = q.id := by
        constructor
        · intro hrn
          rw [s.constraints.squadName.eq hr hq (hrn.trans hname.symm)]
        · intro hrid
          rw [s.constraints.squadId.eq hr hq hrid, hname]
      simp [this]
    simp only [Tables.archiveSquads]
    rw [updateWhere_congr hsame]
  · simp at hrest

theorem findOrCreateSquad_changes {request : JoinMembership} {id : SquadId}
    (hclock : c.clock = some request.joinedAt)
    (h : (findOrCreateSquad request).run s = .ok (id, s')) :
    Changes c s s' ∧ s'.memberships = s.memberships ∧ s'.instances = s.instances
      ∧ ∃ q ∈ s'.squads, q.id = id ∧ q.state = .active := by
  simp only [findOrCreateSquad, Tx.bind_eq_ok, Tx.query_eq_ok] at h
  obtain ⟨found, _, ⟨rfl, rfl⟩, h⟩ := h
  split at h
  · rename_i q hfound
    simp at h
    obtain ⟨⟨hactive, rfl⟩, rfl⟩ := h
    exact ⟨.refl, rfl, rfl, q, (s.squadByName_eq_some.mp hfound).1, rfl, hactive⟩
  · simp [insertSquad] at h
    obtain ⟨mission, -, hwrite, rfl⟩ := h
    refine ⟨.single (.squad _ hclock rfl hwrite), by rw [hwrite], by rw [hwrite],
      activeSquad request.squadIdIfMissing request.squadName mission request.joinedAt, ?_, rfl,
      rfl⟩
    rw [hwrite]
    exact List.mem_append_right _ (List.mem_singleton_self _)

/-- The part both joins share: the squad, the agent and the membership. -/
theorem joinRows_changes {request : JoinMembership} {id : SquadId} {t₁ t₂ : Store}
    {u v : Unit} (hclock : c.clock = some request.joinedAt)
    (h₁ : (findOrCreateSquad request).run s = .ok (id, t₁))
    (h₂ : (insertAgent request.agentId request.joinedAt).run t₁ = .ok (u, t₂))
    (h₃ : (insertMembership (request.row id)).run t₂ = .ok (v, s')) :
    Changes c s s' ∧ s'.ActiveMembership request.membershipId
      ∧ ∀ i ∈ s'.instances, i.membershipId ≠ request.membershipId := by
  obtain ⟨hsquad, hmem, hins, q, hq, hqid, hactive⟩ := findOrCreateSquad_changes hclock h₁
  simp [insertAgent] at h₂
  simp [insertMembership] at h₃
  obtain ⟨-, -, hwrite⟩ := h₃
  have hchanges : Changes c s s' :=
    (hsquad.tail (.agent _ h₂)).tail (.membership (request.row id) rfl rfl hwrite)
  have hsquads : s'.squads = t₁.squads := by rw [hwrite, h₂]
  have hmemberships : s'.memberships = s.memberships ++ [request.row id] := by
    rw [hwrite, ← hmem, h₂]
  have hinstances : s'.instances = s.instances := by rw [hwrite, h₂, ← hins]
  refine ⟨hchanges, ⟨request.row id, ?_, rfl, rfl, q, ?_, hqid, hactive⟩, ?_⟩
  · rw [hmemberships]
    exact List.mem_append_right _ (List.mem_singleton_self _)
  · rw [hsquads]
    exact hq
  · -- every instance belongs to a membership that was there before the fresh one
    intro i hi heq
    rw [hinstances] at hi
    obtain ⟨m, hm, hmid⟩ := s.constraints.instanceMembership i hi
    have hunique := s'.constraints.membershipId
    rw [hmemberships] at hunique
    exact hunique.fresh hm (hmid.trans heq)

theorem join_changes {request : JoinMembership} {record : MembershipRecord}
    (hclock : c.clock = some request.joinedAt)
    (h : (join request).run s = .ok (record, s')) : Changes c s s' := by
  simp only [join, Tx.bind_eq_ok, Tx.pure_eq_ok] at h
  obtain ⟨id, t₁, h₁, u, t₂, h₂, v, t₃, h₃, -, rfl⟩ := h
  exact (joinRows_changes hclock h₁ h₂ h₃).1

theorem leave_changes {squad : SquadId} {member : MembershipId} {now : UnixMillis} {u : Unit}
    (hclock : c.clock = some now)
    (h : (leave squad member now).run s = .ok (u, s')) : Changes c s s' := by
  simp only [leave, Tx.bind_eq_ok, Tx.query_eq_ok, Tx.require_eq_ok, StoreTx.write_eq_ok] at h
  obtain ⟨_, _, ⟨rfl, rfl⟩, _, _, ⟨hactive, rfl⟩, _, t, hclose, hleft⟩ := h
  obtain ⟨m, hm, hid, -, hjoined⟩ := s.activeMember_eq_true.mp hactive
  refine .single (.leave member now hclock ⟨m, hm, hid, hjoined⟩ ?_)
  rw [hleft, hclose]
  rfl

/-! ## Instances -/

theorem claimInstance_changes {request : ClaimInstance} {generated : Option ResumeToken}
    {outcome : ClaimOutcome} (hP : c.policy request.leasePolicy)
    (hclock : c.clock = some request.now)
    (h : (claimInstance request generated).run s = .ok (outcome, s')) :
    Changes c s s' := by
  simp [claimInstance] at h
  obtain ⟨-, -, token, -, hactive, hfirst, expiry, ⟨hexpiry, hwrite⟩, -⟩ := h
  exact .single (.claim (request.instance token) expiry hclock hP hactive hfirst hexpiry hwrite)

/-- A renewal by id alone: the guard on `closed_at` holds of the row that has the id. -/
theorem heartbeatInstance_changes {request : HeartbeatInstance} {record : InstanceRecord}
    (hclock : c.clock = some request.now)
    (h : (heartbeatInstance request).run s = .ok (record, s')) :
    Changes c s s' := by
  simp only [heartbeatInstance, Tx.bind_eq_ok, validateObservation_eq_ok, Tx.query_eq_ok,
    Tx.expect_eq_ok, Tx.require_eq_ok, Tx.ofExcept_eq_ok, StoreTx.write_eq_ok,
    Tx.pure_eq_ok] at h
  obtain ⟨_, _, ⟨-, rfl⟩, _, _, ⟨rfl, rfl⟩, i, _, ⟨hcurrent, rfl⟩, _, _, ⟨-, rfl⟩, renewed, _,
    ⟨hrenew, rfl⟩, _, _, hwrite, -, rfl⟩ := h
  obtain ⟨hfind, hguard⟩ := Option.filter_eq_some_iff.mp hcurrent
  obtain ⟨hi, hid⟩ := s.instanceById_eq_some.mp hfind
  have hunclosed : i.closedAt = none := by
    simp at hguard
    exact hguard.1
  obtain ⟨hlive, hexpiry⟩ : max request.now i.lastSeenAt < i.leaseExpiresAt
      ∧ i.leaseExpiresAt ≤ renewed :=
    renewLease_eq_ok (Tx.mapError_eq_ok.mp hrenew)
  refine .single (.renew i request.now renewed request.availability request.availabilitySource
    hclock hi hunclosed hlive hexpiry ?_)
  rw [hwrite]
  have hsame : ∀ j ∈ s.instances, (decide (j.id = request.id) && j.unclosed)
      = decide (j.id = i.id) := by
    intro j hj
    by_cases hjid : j.id = request.id
    · have hji : j = i := s.constraints.instanceId.eq hj hi (hjid.trans hid.symm)
      simp [hji, hid, InstanceRow.unclosed, hunclosed]
    · simp [hjid, hid]
  simp only [Tables.renewInstances]
  rw [updateWhere_congr hsame]

/-- What a committed `resume_instance` found and did. -/
theorem resumeInstance_eq_ok {request : ResumeInstance} {record : InstanceRecord}
    (h : (resumeInstance request).run s = .ok (record, s')) :
    s.ActiveMembership request.membershipId
      ∧ s.ResumeGuard request.membershipId request.now
      ∧ ∃ expiry, request.now.checkedAdd request.leasePolicy.leaseDuration = some expiry
          ∧ s'.toTables = s.toTables.replaceOwner request.membershipId request.now
              (request.row expiry) := by
  simp [resumeInstance] at h
  obtain ⟨-, -, hactive, i, hnewest, -, hgone, t, hclose, expiry, hexpiry, hwrite, -⟩ := h
  refine ⟨hactive, Or.inl ⟨i, hnewest, fun honline => ?_⟩, expiry, hexpiry, ?_⟩
  · obtain ⟨hclosed, hlive⟩ := InstanceState.atNow_eq_online.mp honline
    exact absurd hlive (not_lt.mpr (hgone hclosed))
  · rw [hwrite, hclose]
    rfl

theorem resumeInstance_changes {request : ResumeInstance} {record : InstanceRecord}
    (hP : c.policy request.leasePolicy) (hclock : c.clock = some request.now)
    (h : (resumeInstance request).run s = .ok (record, s')) : Changes c s s' := by
  obtain ⟨hactive, hguard, expiry, hexpiry, hwrite⟩ := resumeInstance_eq_ok h
  exact .single (.replace request expiry hclock hP hactive hguard hexpiry hwrite)

/-! ## Messages -/

theorem findByDedupe_readOnly (request : SendMessage) : (findByDedupe request).ReadOnly := by
  refine (Tx.readOnly_query _).bind fun row => ?_
  cases row with
  | none => exact Tx.readOnly_pure _
  | some m => exact (Tx.readOnly_ofExcept _).bind fun _ => Tx.readOnly_pure _

theorem sendInTransaction_changes {request : SendMessage} {record : MessageRecord}
    (h : (sendInTransaction request).run s = .ok (record, s')) : Changes c s s' := by
  rcases sendInTransaction_eq_ok h with ⟨-, rfl⟩ | ⟨-, hauth, hwrite, -⟩
  · exact .refl
  · obtain ⟨-, hsender, hrecipient, -⟩ := authorizeSquadAndMembers_eq_ok.mp hauth
    exact .single (.send request hsender hrecipient hwrite)

theorem acknowledgeOn_changes {request : AcknowledgeMessages} {u : Unit}
    (hbatch : c.acknowledges request.recipient request.messageIds)
    (hclock : c.clock = some request.acknowledgedAt)
    (h : (acknowledgeOn request).run s = .ok (u, s')) :
    Changes c s s' := by
  obtain ⟨howned, hwrite⟩ := acknowledgeOn_eq_ok h
  exact .single (.acknowledge request.recipient request.acknowledgedAt request.messageIds hbatch
    hclock (fun id hid => Tables.ownsMessage_eq_true.mp (howned id hid)) hwrite)

theorem acknowledgeMessages_changes {request : AcknowledgeMessages} {u : Unit}
    (hbatch : c.acknowledges request.recipient request.messageIds)
    (hclock : c.clock = some request.acknowledgedAt)
    (h : (acknowledgeMessages request).run s = .ok (u, s')) :
    Changes c s s' := by
  simp only [acknowledgeMessages, Tx.bind_eq_ok, Tx.require_eq_ok] at h
  obtain ⟨_, _, ⟨-, rfl⟩, h⟩ := h
  exact acknowledgeOn_changes hbatch hclock h

/-! ## Authenticated commands -/

theorem joinAndClaim_changes {request : JoinAndClaim} {generated : Option ResumeToken}
    {outcome : JoinAndClaimOutcome} (hP : c.policy request.leasePolicy)
    (hclock : c.clock = some request.membership.joinedAt)
    (h : (joinAndClaim request generated).run s = .ok (outcome, s')) :
    Changes c s s' := by
  simp only [joinAndClaim, squadByIdTx, Tx.bind_eq_ok, validateClient_eq_ok,
    validateObservation_eq_ok, Tx.expect_eq_ok, Tx.query_eq_ok, insertInstance_eq_ok,
    Tx.pure_eq_ok] at h
  obtain ⟨_, _, ⟨-, rfl⟩, _, _, ⟨-, rfl⟩, token, _, ⟨-, rfl⟩, id, t₁, h₁, u, t₂, h₂, v, t₃, h₃,
    _, t₄, ⟨expiry, hexpiry, hwrite, -⟩, _, _, ⟨_, _, ⟨-, rfl⟩, -, rfl⟩, -, rfl⟩ := h
  obtain ⟨hjoin, hactive, hfirst⟩ := joinRows_changes hclock h₁ h₂ h₃
  exact hjoin.tail (.claim (request.instance token) expiry hclock hP hactive hfirst hexpiry hwrite)

theorem authenticatedHeartbeat_changes {session : AuthenticatedSession}
    {availability : Availability} {source : AvailabilitySource} {policy : LeasePolicy}
    {record : InstanceRecord}
    (hclock : c.clock = some session.now)
    (h : (authenticatedHeartbeat session availability source policy).run s = .ok (record, s')) :
    Changes c s s' := by
  simp only [authenticatedHeartbeat, Tx.bind_eq_ok, validateObservation_eq_ok,
    authorizeCurrent_eq_ok, Tx.ofExcept_eq_ok, StoreTx.write_eq_ok, Tx.pure_eq_ok] at h
  obtain ⟨_, _, ⟨-, rfl⟩, _, _, ⟨i, m, hauth, rfl, rfl⟩, expiry, _, ⟨hrenew, rfl⟩, _, _, hwrite,
    -, rfl⟩ := h
  obtain ⟨hlive, hexpiry⟩ := renewLease_eq_ok (Tx.mapError_eq_ok.mp hrenew)
  refine .single (.renew i session.now expiry availability source hclock hauth.mem hauth.unclosed
    hlive hexpiry ?_)
  rw [hwrite, hauth.id]
  rfl

theorem authenticatedSend_changes {session : AuthenticatedSession} {request : SendMessage}
    {record : MessageRecord} (h : (authenticatedSend session request).run s = .ok (record, s')) :
    Changes c s s' := by
  simp only [authenticatedSend, Tx.bind_eq_ok, authenticateHistorical_eq_ok,
    Tx.require_eq_ok] at h
  obtain ⟨_, _, ⟨i, m, -, rfl, rfl⟩, _, _, ⟨-, rfl⟩, retry, t, hretry, h⟩ := h
  cases retry with
  | some r =>
      obtain ⟨_, -, -, -, -, rfl⟩ := resolveRetry_eq_some.mp hretry
      cases h
      exact .refl
  | none =>
      obtain ⟨-, rfl⟩ := resolveRetry_eq_none.mp hretry
      simp only [Tx.bind_eq_ok, authorizeCurrent_eq_ok] at h
      obtain ⟨_, _, ⟨_, _, -, -, rfl⟩, h⟩ := h
      exact sendInTransaction_changes h

theorem authenticatedSendByName_changes {session : AuthenticatedSession} {request : SendByName}
    {outcome : SendOutcome}
    (h : (authenticatedSendByName session request).run s = .ok (outcome, s')) :
    Changes c s s' := by
  simp only [authenticatedSendByName, Tx.bind_eq_ok, authenticateHistorical_eq_ok,
    Tx.query_eq_ok] at h
  obtain ⟨_, _, ⟨i, m, -, rfl, rfl⟩, _, _, ⟨rfl, rfl⟩, h⟩ := h
  split at h
  · -- a stored key is answered without a write
    simp only [Tx.bind_eq_ok, Tx.require_eq_ok, Tx.expect_eq_ok, messageViewOn, Tx.query_eq_ok,
      Tx.pure_eq_ok] at h
    obtain ⟨_, _, ⟨-, rfl⟩, found, t, hfound, _, _, ⟨-, rfl⟩, _, _, ⟨-, rfl⟩, _, _,
      ⟨_, _, ⟨-, rfl⟩, -, rfl⟩, _, _, ⟨-, rfl⟩, -, rfl⟩ := h
    rw [findByDedupe_readOnly _ _ _ _ hfound]
  · simp only [Tx.bind_eq_ok, authorizeCurrent_eq_ok, Tx.query_eq_ok, Tx.expect_eq_ok,
      Tx.require_eq_ok, messageViewOn, Tx.pure_eq_ok] at h
    obtain ⟨_, _, ⟨_, _, -, -, rfl⟩, _, _, ⟨rfl, rfl⟩, r, _, ⟨-, rfl⟩, _, _, ⟨-, rfl⟩, record, t,
      hsend, _, _, ⟨_, _, ⟨-, rfl⟩, -, rfl⟩, -, rfl⟩ := h
    exact sendInTransaction_changes hsend

theorem authenticatedAcknowledge_changes {session : AuthenticatedSession}
    {messageIds : List MessageId} {u : Unit}
    (hbatch : ∀ i m, s.Authorizes session i m → c.acknowledges m.id messageIds)
    (hclock : c.clock = some session.now)
    (h : (authenticatedAcknowledge session messageIds).run s = .ok (u, s')) :
    Changes c s s' := by
  simp only [authenticatedAcknowledge, Tx.bind_eq_ok, authorizeCurrent_eq_ok] at h
  obtain ⟨_, _, ⟨i, m, hauth, rfl, rfl⟩, h⟩ := h
  exact acknowledgeOn_changes (hbatch i m hauth) hclock h

/-- **Closing the session's own instance closes every unclosed one.** The unclosed-owner
index leaves nothing else to close. -/
theorem closeInstances_own {session : AuthenticatedSession} {i : InstanceRow} {m : MembershipRow}
    (hauth : s.Authorizes session i m) (now : UnixMillis) :
    s.toTables.closeInstances (fun j => decide (j.id = session.instanceId)) now
      = s.toTables.closeInstances (fun j => decide (j.membershipId = m.id)) now := by
  have hsame : ∀ j ∈ s.instances, (decide (j.id = session.instanceId) && j.unclosed)
      = (decide (j.membershipId = m.id) && j.unclosed) := by
    intro j hj
    by_cases hopen : j.unclosed = true
    · have hiff : j.id = session.instanceId ↔ j.membershipId = m.id := by
        constructor
        · intro hid
          rw [s.constraints.instanceId.eq hj hauth.mem (hid.trans hauth.id.symm), hauth.memberId]
        · intro hmember
          have hji : j = i := s.constraints.unclosedOwner.eq hj hauth.mem hopen
            (InstanceRow.unclosed_iff.mpr hauth.unclosed) (hmember.trans hauth.memberId)
          rw [hji, hauth.id]
      simp [hiff]
    · simp [hopen]
  simp only [Tables.closeInstances]
  rw [updateWhere_congr hsame]

theorem authenticatedLeave_changes {session : AuthenticatedSession} {expectedSquad : SquadName}
    {outcome : LeaveOutcome}
    (hclock : c.clock = some session.now)
    (h : (authenticatedLeave session expectedSquad).run s = .ok (outcome, s')) :
    Changes c s s' := by
  simp only [authenticatedLeave, squadByIdTx, Tx.bind_eq_ok, authorizeCurrent_eq_ok,
    Tx.query_eq_ok, Tx.expect_eq_ok, Tx.require_eq_ok, StoreTx.write_eq_ok, Tx.pure_eq_ok] at h
  obtain ⟨_, _, ⟨i, m, hauth, rfl, rfl⟩, q, _, ⟨_, _, ⟨rfl, rfl⟩, -, rfl⟩, _, _, ⟨-, rfl⟩, _, t,
    hclose, _, _, hleft, -, rfl⟩ := h
  refine .single (.leave m.id session.now hclock ⟨m, hauth.member, rfl, hauth.joined⟩ ?_)
  rw [hleft, hclose, closeInstances_own hauth]
  rfl

theorem authenticatedArchive_changes {session : AuthenticatedSession} {squad : SquadId} {u : Unit}
    (hclock : c.clock = some session.now)
    (h : (authenticatedArchive session squad).run s = .ok (u, s')) :
    Changes c s s' := by
  simp only [authenticatedArchive, Tx.bind_eq_ok, authorizeCurrent_eq_ok, Tx.query_eq_ok,
    Tx.require_eq_ok, StoreTx.write_eq_ok] at h
  obtain ⟨_, _, ⟨i, m, hauth, rfl, rfl⟩, _, _, ⟨-, rfl⟩, _, _, ⟨rfl, rfl⟩, _, t, hwrite, hchanged,
    rfl⟩ := h
  simp at hchanged
  obtain ⟨q, hq, rfl, hactive⟩ := hchanged
  exact .single (.archive q session.now hclock hq hactive hwrite)

theorem authenticatedArchiveByName_changes {session : AuthenticatedSession} {name : SquadName}
    {record : SquadRecord}
    (hclock : c.clock = some session.now)
    (h : (authenticatedArchiveByName session name).run s = .ok (record, s')) :
    Changes c s s' := by
  simp only [authenticatedArchiveByName, squadByNameTx, Tx.bind_eq_ok, authorizeCurrent_eq_ok,
    Tx.query_eq_ok, Tx.expect_eq_ok, Tx.require_eq_ok, StoreTx.write_eq_ok, Tx.pure_eq_ok] at h
  obtain ⟨_, _, ⟨i, m, hauth, rfl, rfl⟩, q, _, ⟨_, _, ⟨rfl, rfl⟩, hq, rfl⟩, _, _, ⟨-, rfl⟩, _, _,
    ⟨hactive, rfl⟩, _, t, hwrite, -, rfl⟩ := h
  exact .single (.archive q session.now hclock (s.squadByName_eq_some.mp hq).1 hactive hwrite)

/-- What a committed `authenticated_resume` found and did. -/
theorem authenticatedResume_eq_ok {request : AuthenticatedResume} {context : SessionContext}
    (h : (authenticatedResume request).run s = .ok (context, s')) :
    s.ActiveMembership context.membership.id
      ∧ (∃ i ∈ s.instances, i.membershipId = context.membership.id)
      ∧ (∀ i ∈ s.instances, i.membershipId = context.membership.id →
          InstanceState.atNow i.closedAt i.leaseExpiresAt request.now ≠ .online)
      ∧ ∃ expiry, request.now.checkedAdd request.policy.leaseDuration = some expiry
          ∧ s'.toTables = s.toTables.replaceOwner context.membership.id request.now
              ((request.instance context.membership.id).row expiry) := by
  simp [authenticatedResume, membershipByIdTx, squadByIdTx] at h
  obtain ⟨-, -, prior, m, q, ⟨hjoin, hjoined⟩, -, -, hactive, -, hlive, t, hclose, row, hrow, -, -,
    expiry, ⟨hexpiry, hwrite⟩, rfl⟩ := h
  obtain ⟨⟨⟨hprior, -⟩, hm, hmid⟩, hq, hqid⟩ := Store.instanceJoinSquad_eq_some.mp hjoin
  have hid : row.id = m.id := (t.membershipById_eq_some.mp hrow).2
  refine ⟨⟨m, hm, hid.symm, hjoined, q, hq, hqid, hactive⟩, ⟨prior, hprior, ?_⟩,
    fun i hi himem honline => ?_, expiry, hexpiry, ?_⟩
  · exact hmid.symm.trans hid.symm
  · obtain ⟨hclosed, hnow⟩ := InstanceState.atNow_eq_online.mp honline
    simp [Tables.hasLiveOwner] at hlive
    exact absurd hnow (not_lt.mpr (hlive i hi (himem.trans hid) hclosed))
  · show s'.toTables = Tables.replaceOwner row.id _ ((request.instance row.id).row expiry) _
    rw [hwrite, hclose, hid]
    rfl

theorem authenticatedResume_changes {request : AuthenticatedResume} {context : SessionContext}
    (hP : c.policy request.policy) (hclock : c.clock = some request.now)
    (h : (authenticatedResume request).run s = .ok (context, s')) : Changes c s s' := by
  obtain ⟨hactive, hany, hoffline, expiry, hexpiry, hwrite⟩ := authenticatedResume_eq_ok h
  exact .single (.replace (request.instance context.membership.id) expiry hclock hP hactive
    (Or.inr ⟨hany, hoffline⟩) hexpiry hwrite)

/-! ## Reads -/

theorem pendingInboxOn_readOnly (q : InboxQuery) : (pendingInboxOn q).ReadOnly :=
  (Tx.readOnly_require _ _).bind fun _ =>
    (Tx.readOnly_query _).bind fun _ => Tx.readOnly_ofExcept _

theorem transcriptRecords_readOnly (squad : SquadId) (after : Int) (limit : Nat) :
    (transcriptRecords squad after limit).ReadOnly :=
  (Tx.readOnly_query _).bind fun _ => Tx.readOnly_ofExcept _

theorem authenticateHistorical_readOnly (session : AuthenticatedSession) :
    (authenticateHistorical session).ReadOnly := by
  intro s identity t h
  obtain ⟨_, _, -, -, rfl⟩ := authenticateHistorical_eq_ok.mp h
  rfl

theorem authorizeCurrent_readOnly (session : AuthenticatedSession) :
    (authorizeCurrent session).ReadOnly := by
  intro s identity t h
  obtain ⟨_, _, -, -, rfl⟩ := authorizeCurrent_eq_ok.mp h
  rfl

theorem authenticatedRoster_readOnly (session : AuthenticatedSession) (squad : SquadName) :
    (authenticatedRoster session squad).ReadOnly :=
  (authenticateHistorical_readOnly session).bind fun _ =>
    (squadByIdTx_readOnly _).bind fun _ =>
      (Tx.readOnly_require _ _).bind fun _ => roster_readOnly _ _

theorem authenticatedPendingPage_readOnly (session : AuthenticatedSession) (limit : Nat) :
    (authenticatedPendingPage session limit).ReadOnly :=
  (authorizeCurrent_readOnly session).bind fun _ =>
    (Tx.readOnly_query _).bind fun _ =>
      (pendingInboxOn_readOnly _).bind fun _ =>
        (messageViewsOn_readOnly _).bind fun _ => Tx.readOnly_pure _

theorem authenticatedPending_readOnly (session : AuthenticatedSession) (limit : Nat) :
    (authenticatedPending session limit).ReadOnly :=
  (authorizeCurrent_readOnly session).bind fun _ => pendingInboxOn_readOnly _

theorem authenticatedTranscript_readOnly (session : AuthenticatedSession) (q : TranscriptQuery) :
    (authenticatedTranscript session q).ReadOnly :=
  (Tx.readOnly_require _ _).bind fun _ =>
    (authorizeCurrent_readOnly session).bind fun _ =>
      (Tx.readOnly_require _ _).bind fun _ => transcriptRecords_readOnly _ _ _

theorem authenticatedTranscriptViews_readOnly (session : AuthenticatedSession)
    (q : TranscriptByName) : (authenticatedTranscriptViews session q).ReadOnly :=
  (Tx.readOnly_require _ _).bind fun _ =>
    (authorizeCurrent_readOnly session).bind fun _ =>
      (squadByIdTx_readOnly _).bind fun _ =>
        (Tx.readOnly_require _ _).bind fun _ =>
          (transcriptRecords_readOnly _ _ _).bind fun _ => messageViewsOn_readOnly _

/-! ## Every operation -/

/-- A committed body is its changes; a failed one is none. -/
theorem commit_changes {α : Type} {x : StoreTx α}
    (h : ∀ a s', x.run s = .ok (a, s') → Changes c s s') :
    Changes c s (Tx.commit x s).2 := by
  rcases Tx.commit_cases x s with ⟨e, -, hc⟩ | ⟨a, t, hrun, hc⟩
  · rw [hc]
  · rw [hc]
    exact h a t hrun

theorem commit_readOnly {α : Type} {x : StoreTx α} (h : x.ReadOnly) :
    Changes c s (Tx.commit x s).2 := by
  rw [h.commit_snd s]

/-- In state `s` the operation commits an acknowledgement of the batch `ids` by `recipient`. -/
def Store.Acknowledges (s : Store) (op : Op) (recipient : MembershipId) (ids : List MessageId) :
    Prop :=
  match op with
  | .acknowledgeMessages request =>
    (recipient = request.recipient ∧ ids = request.messageIds)
      ∧ ∃ t, (acknowledgeMessages request).run s = .ok ((), t)
  | .authenticatedAcknowledge session messageIds =>
    ((∃ i m, s.Authorizes session i m ∧ recipient = m.id) ∧ ids = messageIds)
      ∧ ∃ t, (authenticatedAcknowledge session messageIds).run s = .ok ((), t)
  | _ => False

/-- The context of an operation whose lease policies satisfy `P`. -/
def Op.context (P : LeasePolicy → Prop) (s : Store) (op : Op) : Context :=
  ⟨P, op.now, s.Acknowledges op⟩

/-- **Every operation is a sequence of guarded changes**, made at the operation's clock
reading and under the operation's lease policy. -/
theorem Store.exec_changes {P : LeasePolicy → Prop} (s : Store) (op : Op)
    (hP : ∀ policy ∈ op.policy, P policy) : Changes (op.context P s) s (s.exec op) := by
  cases op with
  | createSquad request => exact commit_changes fun _ _ => createSquad_changes rfl
  | listSquads => exact commit_readOnly (Tx.readOnly_query _)
  | describeSquad name => exact commit_readOnly (describeSquad_readOnly name)
  | archiveSquad name now => exact commit_changes fun _ _ => archiveSquad_changes rfl
  | join request => exact commit_changes fun _ _ => join_changes rfl
  | roster squad now => exact commit_readOnly (roster_readOnly squad now)
  | leave squad member now => exact commit_changes fun _ _ => leave_changes rfl
  | claimInstance request generated =>
      exact commit_changes fun _ _ => claimInstance_changes (hP _ rfl) rfl
  | heartbeatInstance request => exact commit_changes fun _ _ => heartbeatInstance_changes rfl
  | resumeInstance request =>
      exact commit_changes fun _ _ => resumeInstance_changes (hP _ rfl) rfl
  | sendMessage request => exact commit_changes fun _ _ => sendInTransaction_changes
  | pendingInbox query => exact commit_readOnly (pendingInboxOn_readOnly query)
  | acknowledgeMessages request =>
      exact commit_changes fun _ t h =>
        acknowledgeMessages_changes ⟨⟨rfl, rfl⟩, t, h⟩ rfl h
  | joinAndClaim request generated =>
      exact commit_changes fun _ _ => joinAndClaim_changes (hP _ rfl) rfl
  | authenticatedHeartbeat session availability source policy =>
      exact commit_changes fun _ _ => authenticatedHeartbeat_changes rfl
  | authenticatedRoster session squad =>
      exact commit_readOnly (authenticatedRoster_readOnly session squad)
  | authenticatedSend session request =>
      exact commit_changes fun _ _ => authenticatedSend_changes
  | authenticatedSendByName session request =>
      exact commit_changes fun _ _ => authenticatedSendByName_changes
  | authenticatedPendingPage session limit =>
      exact commit_readOnly (authenticatedPendingPage_readOnly session limit)
  | authenticatedPending session limit =>
      exact commit_readOnly (authenticatedPending_readOnly session limit)
  | authenticatedAcknowledge session messageIds =>
      exact commit_changes fun _ t h =>
        authenticatedAcknowledge_changes
          (fun i m hauth => ⟨⟨⟨i, m, hauth, rfl⟩, rfl⟩, t, h⟩) rfl h
  | authenticatedTranscript session query =>
      exact commit_readOnly (authenticatedTranscript_readOnly session query)
  | authenticatedTranscriptViews session query =>
      exact commit_readOnly (authenticatedTranscriptViews_readOnly session query)
  | authenticatedLeave session squad =>
      exact commit_changes fun _ _ => authenticatedLeave_changes rfl
  | authenticatedArchive session squad =>
      exact commit_changes fun _ _ => authenticatedArchive_changes rfl
  | authenticatedArchiveByName session squad =>
      exact commit_changes fun _ _ => authenticatedArchiveByName_changes rfl
  | authenticatedResume request =>
      exact commit_changes fun _ _ => authenticatedResume_changes (hP _ rfl) rfl

/-! ## What a change does to the message table -/

/-- A change leaves the messages alone, appends one, or acknowledges a batch. -/
theorem Change.messages_cases (h : Change c s s') :
    s'.messages = s.messages
      ∨ (∃ request : SendMessage, s'.messages = s.messages ++ [request.row s.nextSequence])
      ∨ ∃ recipient now ids, c.acknowledges recipient ids
          ∧ s'.messages = (s.toTables.acknowledgeAll recipient now ids).messages := by
  cases h with
  | squad _ _ _ heq => exact Or.inl (by rw [heq])
  | agent _ heq => exact Or.inl (by rw [heq])
  | membership _ _ _ heq => exact Or.inl (by rw [heq])
  | claim _ _ _ _ _ _ _ heq => exact Or.inl (by rw [heq]; rfl)
  | renew _ _ _ _ _ _ _ _ _ _ heq => exact Or.inl (by rw [heq]; rfl)
  | replace _ _ _ _ _ _ _ heq => exact Or.inl (by rw [heq]; rfl)
  | leave _ _ _ _ heq => exact Or.inl (by rw [heq]; rfl)
  | archive _ _ _ _ _ heq => exact Or.inl (by rw [heq]; rfl)
  | send request _ _ heq => exact Or.inr (Or.inl ⟨request, by rw [heq]; rfl⟩)
  | acknowledge recipient now ids hbatch _ _ heq =>
      exact Or.inr (Or.inr ⟨recipient, now, ids, hbatch, by rw [heq]⟩)

/-- Outside a clock reading no instance is written. -/
theorem Change.instances_of_no_clock (hclock : c.clock = none)
    (h : Change c s s') : s'.instances = s.instances := by
  cases h with
  | squad _ hc _ _ => rw [hclock] at hc; cases hc
  | agent _ heq => rw [heq]
  | membership _ _ _ heq => rw [heq]
  | claim _ _ hc _ _ _ _ _ => rw [hclock] at hc; cases hc
  | renew _ _ _ _ _ hc _ _ _ _ _ => rw [hclock] at hc; cases hc
  | replace _ _ hc _ _ _ _ _ => rw [hclock] at hc; cases hc
  | leave _ _ hc _ _ => rw [hclock] at hc; cases hc
  | archive _ _ hc _ _ _ => rw [hclock] at hc; cases hc
  | send _ _ _ heq => rw [heq]; rfl
  | acknowledge _ _ _ _ hc _ _ => rw [hclock] at hc; cases hc

/-- What every change keeps, every operation keeps. -/
theorem Changes.keeps {Q : Store → Prop} (hchange : ∀ t t', Change c t t' → Q t → Q t')
    (h : Changes c s s') (hs : Q s) : Q s' := by
  induction h with
  | refl => exact hs
  | tail _ hstep ih => exact hchange _ _ hstep ih

end Psst
