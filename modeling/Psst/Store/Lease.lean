import Psst.Store.Authority

/-!
# Leases over time

The columns of an instance that time moves. A claim or a resume grants a lease, a heartbeat
renews one, and no other operation writes these columns (`exec_leases`). Both heartbeats refuse a
raw reading past the lease and renew from the later of the reading and the last sighting, so a
clock that goes back moves nothing back and, under one lease duration, moves nothing forward.
-/

namespace Psst

open Table

/-! ## Lease columns -/

/-- The columns of an instance a lease is made of. -/
structure Lease where
  id : InstanceId
  createdAt : UnixMillis
  availabilityObservedAt : UnixMillis
  lastSeenAt : UnixMillis
  leaseExpiresAt : UnixMillis

def InstanceRow.lease (i : InstanceRow) : Lease :=
  ⟨i.id, i.createdAt, i.availabilityObservedAt, i.lastSeenAt, i.leaseExpiresAt⟩

def Tables.leases (t : Tables) : List Lease := t.instances.map InstanceRow.lease

/-- A lease granted at `now`. -/
def Lease.granted (id : InstanceId) (now expiry : UnixMillis) : Lease := ⟨id, now, now, now, expiry⟩

/-- A lease renewed at `now`. -/
def Lease.renewed (now expiry : UnixMillis) (l : Lease) : Lease :=
  { l with availabilityObservedAt := now, lastSeenAt := now, leaseExpiresAt := expiry }

/-- The instance an operation grants or renews a lease for. -/
def Op.leases : Op → Option InstanceId
  | .claimInstance request _ => some request.id
  | .heartbeatInstance request => some request.id
  | .resumeInstance request => some request.id
  | .joinAndClaim request _ => some request.instanceId
  | .authenticatedHeartbeat session _ _ _ => some session.instanceId
  | .authenticatedResume request => some request.newInstance
  | _ => none

namespace Tables

variable {t : Tables}

theorem leases_addInstance {row : InstanceRow} :
    (t.addInstance row).leases = t.leases ++ [row.lease] := by
  simp [leases, addInstance]

theorem leases_closeInstances {p : InstanceRow → Bool} {now : UnixMillis} :
    (t.closeInstances p now).leases = t.leases := by
  show List.map _ (updateWhere _ _ t.instances) = _
  exact map_updateWhere InstanceRow.lease fun _ => rfl

theorem leases_renewInstances {id : InstanceId} {availability : Availability}
    {source : AvailabilitySource} {now expiry : UnixMillis} :
    (t.renewInstances (fun i => decide (i.id = id))
        (InstanceRow.renewed availability source now expiry)).leases
      = updateWhere (fun l => decide (l.id = id)) (Lease.renewed now expiry) t.leases := by
  simp only [leases, renewInstances, updateWhere, List.map_map]
  refine List.map_congr_left fun i _ => ?_
  show InstanceRow.lease (if _ then _ else _) = if _ then _ else _
  by_cases hid : i.id = id
  · simp [InstanceRow.lease, InstanceRow.renewed, Lease.renewed, hid]
  · simp [InstanceRow.lease, hid]

end Tables

/-! ## Operations that touch no lease -/

/-- Commits nothing that touches the column `f` of the instances. -/
abbrev StoreTx.KeepsColumn {γ α : Type} (f : InstanceRow → γ) (x : StoreTx α) : Prop :=
  x.Keeps fun s : Store => s.instances.map f

/-- Closing an instance does not write the column. -/
def InstanceRow.Unclosing {γ : Type} (f : InstanceRow → γ) : Prop :=
  ∀ i closed, f { i with closedAt := closed } = f i

theorem unclosing_lease : InstanceRow.Unclosing InstanceRow.lease := fun _ _ => rfl

section Columns

variable {γ : Type} (f : InstanceRow → γ)

theorem createSquad_keepsColumn (request : CreateSquad) :
    (createSquad request).KeepsColumn f := by
  intro s record t h
  simp [createSquad, insertSquad] at h
  obtain ⟨-, -, hwrite, -⟩ := h
  show t.toTables.instances.map f = s.toTables.instances.map f
  rw [hwrite]

theorem archiveSquads_keepsColumn (p : SquadRecord → Bool) (now : UnixMillis) :
    (StoreTx.write (Tables.archiveSquads p now)).KeepsColumn f :=
  StoreTx.write_keeps (q := fun t => t.instances.map f) fun _ => rfl

theorem archiveSquad_keepsColumn (name : SquadName) (now : UnixMillis) :
    (archiveSquad name now).KeepsColumn f := by
  refine (Tx.readOnly_query _).keeps.bind fun changed => ?_
  refine (archiveSquads_keepsColumn f _ _).bind fun _ => ?_
  cases changed with
  | true => exact (Tx.readOnly_pure _).keeps
  | false => exact (describeSquad_readOnly _).keeps.bind fun _ => fun _ _ _ h => by cases h

theorem findOrCreateSquad_keepsColumn (request : JoinMembership) :
    (findOrCreateSquad request).KeepsColumn f := by
  refine (Tx.readOnly_query _).keeps.bind fun existing => ?_
  cases existing with
  | some squad =>
      exact (Tx.readOnly_require _ _).keeps.bind fun _ => (Tx.readOnly_pure _).keeps
  | none =>
      refine (Tx.readOnly_expect _ _).keeps.bind fun _ => ?_
      refine Tx.Keeps.bind ?_ fun _ => (Tx.readOnly_pure _).keeps
      exact StoreTx.write_keeps (q := fun t => t.instances.map f) fun _ => rfl

theorem insertMembership_keepsColumn (row : MembershipRow) :
    (insertMembership row).KeepsColumn f := by
  refine (Tx.readOnly_require _ _).keeps.bind fun _ => ?_
  refine (Tx.readOnly_query _).keeps.bind fun _ => ?_
  refine (Tx.readOnly_require _ _).keeps.bind fun _ => ?_
  exact StoreTx.write_keeps (q := fun t => t.instances.map f) fun _ => rfl

theorem insertAgent_keepsColumn (id : AgentId) (now : UnixMillis) :
    (insertAgent id now).KeepsColumn f :=
  StoreTx.write_keeps (q := fun t => t.instances.map f) fun _ => rfl

theorem join_keepsColumn (request : JoinMembership) : (join request).KeepsColumn f :=
  (findOrCreateSquad_keepsColumn f request).bind fun _ =>
    (insertAgent_keepsColumn f _ _).bind fun _ =>
      (insertMembership_keepsColumn f _).bind fun _ => (Tx.readOnly_pure _).keeps

variable {f} in
theorem closeInstances_keepsColumn (hf : InstanceRow.Unclosing f) (p : InstanceRow → Bool)
    (now : UnixMillis) : (StoreTx.write (Tables.closeInstances p now)).KeepsColumn f :=
  StoreTx.write_keeps (q := fun t => t.instances.map f) fun _ =>
    map_updateWhere f fun i => hf i (some now)

theorem setLeft_keepsColumn (member : MembershipId) (now : UnixMillis) :
    (StoreTx.write (Tables.setLeft member now)).KeepsColumn f :=
  StoreTx.write_keeps (q := fun t => t.instances.map f) fun _ => rfl

variable {f} in
theorem leave_keepsColumn (hf : InstanceRow.Unclosing f) (squad : SquadId)
    (member : MembershipId) (now : UnixMillis) : (leave squad member now).KeepsColumn f :=
  (Tx.readOnly_query _).keeps.bind fun _ =>
    (Tx.readOnly_require _ _).keeps.bind fun _ =>
      (closeInstances_keepsColumn hf _ _).bind fun _ => setLeft_keepsColumn f _ _

theorem acknowledgeOn_keepsColumn (request : AcknowledgeMessages) :
    (acknowledgeOn request).KeepsColumn f := by
  intro s u t h
  show t.toTables.instances.map f = s.toTables.instances.map f
  rw [(acknowledgeOn_eq_ok h).2]
  rfl

variable [Sha256]

/-- A send writes messages only. -/
theorem column_of_changes {c : Context} (hclock : c.clock = none) {s t : Store}
    (h : Changes c s t) : t.instances.map f = s.instances.map f := by
  refine Changes.keeps (Q := fun t => t.instances.map f = s.instances.map f) ?_ h rfl
  intro u v hchange hu
  rw [← hu, hchange.instances_of_no_clock hclock]

variable {f} in
theorem authenticatedLeave_keepsColumn (hf : InstanceRow.Unclosing f)
    (session : AuthenticatedSession) (squad : SquadName) :
    (authenticatedLeave session squad).KeepsColumn f :=
  (authorizeCurrent_readOnly session).keeps.bind fun _ =>
    (squadByIdTx_readOnly _).keeps.bind fun _ =>
      (Tx.readOnly_require _ _).keeps.bind fun _ =>
        (closeInstances_keepsColumn hf _ _).bind fun _ =>
          (setLeft_keepsColumn f _ _).bind fun _ => (Tx.readOnly_pure _).keeps

theorem authenticatedArchive_keepsColumn (session : AuthenticatedSession) (squad : SquadId) :
    (authenticatedArchive session squad).KeepsColumn f :=
  (authorizeCurrent_readOnly session).keeps.bind fun _ =>
    (Tx.readOnly_require _ _).keeps.bind fun _ =>
      (Tx.readOnly_query _).keeps.bind fun _ =>
        (archiveSquads_keepsColumn f _ _).bind fun _ => (Tx.readOnly_require _ _).keeps

theorem authenticatedArchiveByName_keepsColumn (session : AuthenticatedSession)
    (squad : SquadName) : (authenticatedArchiveByName session squad).KeepsColumn f :=
  (authorizeCurrent_readOnly session).keeps.bind fun _ =>
    (describeSquad_readOnly _).keeps.bind fun _ =>
      (Tx.readOnly_require _ _).keeps.bind fun _ =>
        (Tx.readOnly_require _ _).keeps.bind fun _ =>
          (archiveSquads_keepsColumn f _ _).bind fun _ => (Tx.readOnly_pure _).keeps

variable {f}

/-- **An operation that neither grants nor renews a lease** leaves every column of the instances
but the closing time alone. -/
theorem Store.exec_column (hf : InstanceRow.Unclosing f) (s : Store) {op : Op}
    (hop : op.leases = none) : (s.exec op).instances.map f = s.instances.map f := by
  have hkeep : ∀ {α : Type} {x : StoreTx α}, x.KeepsColumn f →
      (Tx.commit x s).2.instances.map f = s.instances.map f := fun h => h.commit_snd s
  have hread : ∀ {α : Type} {x : StoreTx α}, x.ReadOnly →
      (Tx.commit x s).2.instances.map f = s.instances.map f := fun h => hkeep h.keeps
  have hsend : ∀ {α : Type} {x : StoreTx α},
      (∀ a t, x.run s = .ok (a, t) → Changes ⟨fun _ => False, none, fun _ _ => False⟩ s t) →
      (Tx.commit x s).2.instances.map f = s.instances.map f :=
    fun h => column_of_changes f rfl (commit_changes h)
  cases op with
  | createSquad request => exact hkeep (createSquad_keepsColumn f request)
  | listSquads => exact hread (Tx.readOnly_query _)
  | describeSquad name => exact hread (describeSquad_readOnly name)
  | archiveSquad name archivedAt => exact hkeep (archiveSquad_keepsColumn f name archivedAt)
  | join request => exact hkeep (join_keepsColumn f request)
  | roster squad now => exact hread (roster_readOnly squad now)
  | leave squad member now => exact hkeep (leave_keepsColumn hf squad member now)
  | claimInstance request generated => cases hop
  | heartbeatInstance request => cases hop
  | resumeInstance request => cases hop
  | sendMessage request => exact hsend fun _ _ => sendInTransaction_changes
  | pendingInbox query => exact hread (pendingInboxOn_readOnly query)
  | acknowledgeMessages request =>
      exact hkeep ((Tx.readOnly_require _ _).keeps.bind fun _ => acknowledgeOn_keepsColumn f _)
  | joinAndClaim request generated => cases hop
  | authenticatedHeartbeat session availability source policy => cases hop
  | authenticatedRoster session squad => exact hread (authenticatedRoster_readOnly session squad)
  | authenticatedSend session request => exact hsend fun _ _ => authenticatedSend_changes
  | authenticatedSendByName session request =>
      exact hsend fun _ _ => authenticatedSendByName_changes
  | authenticatedPendingPage session limit =>
      exact hread (authenticatedPendingPage_readOnly session limit)
  | authenticatedPending session limit => exact hread (authenticatedPending_readOnly session limit)
  | authenticatedAcknowledge session messageIds =>
      exact hkeep
        ((authorizeCurrent_readOnly session).keeps.bind fun _ => acknowledgeOn_keepsColumn f _)
  | authenticatedTranscript session query =>
      exact hread (authenticatedTranscript_readOnly session query)
  | authenticatedTranscriptViews session query =>
      exact hread (authenticatedTranscriptViews_readOnly session query)
  | authenticatedLeave session squad =>
      exact hkeep (authenticatedLeave_keepsColumn hf session squad)
  | authenticatedArchive session squad =>
      exact hkeep (authenticatedArchive_keepsColumn f session squad)
  | authenticatedArchiveByName session squad =>
      exact hkeep (authenticatedArchiveByName_keepsColumn f session squad)
  | authenticatedResume request => cases hop

end Columns

/-! ## What an operation does to the leases -/

/-- Everything an operation can do to the leases. -/
inductive Store.LeaseMove (s : Store) (op : Op) (t : Store) : Prop where
  | kept (heq : t.leases = s.leases)
  | granted (id : InstanceId) (policy : LeasePolicy) (now expiry : UnixMillis)
      (hid : op.leases = some id) (hpolicy : op.policy = some policy)
      (hexpiry : now.checkedAdd policy.leaseDuration = some expiry)
      (heq : t.leases = s.leases ++ [Lease.granted id now expiry])
  | renewed (i : InstanceRow) (policy : LeasePolicy) (now expiry : UnixMillis)
      (hi : i ∈ s.instances) (hid : op.leases = some i.id) (hpolicy : op.policy = some policy)
      (hnow : op.now = some now)
      (hrenew : renewLease (InstanceState.atNow none i.leaseExpiresAt (max now i.lastSeenAt))
        i.leaseExpiresAt (max now i.lastSeenAt) policy.leaseDuration = .ok expiry)
      (heq : t.leases = updateWhere (fun l => decide (l.id = i.id))
        (Lease.renewed (max now i.lastSeenAt) expiry) s.leases)

variable {s t : Store} {op : Op}

theorem Store.LeaseMove.of_commit {α : Type} {x : StoreTx α}
    (h : ∀ a t, x.run s = .ok (a, t) → s.LeaseMove op t) : s.LeaseMove op (Tx.commit x s).2 := by
  rcases Tx.commit_cases x s with ⟨e, -, hc⟩ | ⟨a, t, hrun, hc⟩
  · rw [hc]
    exact .kept rfl
  · rw [hc]
    exact h a t hrun

section Runs

variable [Sha256]

/-- An instance is inserted after steps that left the leases alone. -/
theorem Store.LeaseMove.of_insert {u : Tables} (hkept : u.leases = s.leases) {n : NewInstance}
    {expiry : UnixMillis} (hid : op.leases = some n.id) (hpolicy : op.policy = some n.leasePolicy)
    (hexpiry : n.now.checkedAdd n.leasePolicy.leaseDuration = some expiry)
    (hwrite : t.toTables = u.addInstance (n.row expiry)) : s.LeaseMove op t := by
  refine .granted n.id n.leasePolicy n.now expiry hid hpolicy hexpiry ?_
  show t.toTables.leases = _
  rw [hwrite, Tables.leases_addInstance, hkept]
  rfl

theorem claimInstance_leaseMove {request : ClaimInstance} {generated : Option ResumeToken}
    {outcome : ClaimOutcome} (h : (claimInstance request generated).run s = .ok (outcome, t)) :
    s.LeaseMove (.claimInstance request generated) t := by
  simp [claimInstance] at h
  obtain ⟨-, -, token, -, -, -, expiry, ⟨hexpiry, hwrite⟩, -⟩ := h
  exact .of_insert (n := request.instance token) rfl rfl rfl hexpiry hwrite

theorem joinAndClaim_leaseMove {request : JoinAndClaim} {generated : Option ResumeToken}
    {outcome : JoinAndClaimOutcome}
    (h : (joinAndClaim request generated).run s = .ok (outcome, t)) :
    s.LeaseMove (.joinAndClaim request generated) t := by
  simp only [joinAndClaim, squadByIdTx, Tx.bind_eq_ok, validateClient_eq_ok,
    validateObservation_eq_ok, Tx.expect_eq_ok, Tx.query_eq_ok, insertInstance_eq_ok,
    Tx.pure_eq_ok] at h
  obtain ⟨_, _, ⟨-, rfl⟩, _, _, ⟨-, rfl⟩, token, _, ⟨-, rfl⟩, id, t₁, hsquad, _, t₂, hagent, _, t₃,
    hmember, _, _, ⟨expiry, hexpiry, hwrite, -⟩, _, _, ⟨_, _, ⟨-, rfl⟩, -, rfl⟩, -, rfl⟩ := h
  have hkept : t₃.leases = s.leases :=
    calc t₃.leases = t₂.leases := insertMembership_keepsColumn _ _ _ _ _ hmember
      _ = t₁.leases := insertAgent_keepsColumn _ _ _ _ _ _ hagent
      _ = s.leases := findOrCreateSquad_keepsColumn _ _ _ _ _ hsquad
  exact .of_insert (n := request.instance token) hkept rfl rfl hexpiry hwrite

theorem resumeInstance_leaseMove {request : ResumeInstance} {record : InstanceRecord}
    (h : (resumeInstance request).run s = .ok (record, t)) :
    s.LeaseMove (.resumeInstance request) t := by
  obtain ⟨-, -, expiry, hexpiry, hwrite⟩ := resumeInstance_eq_ok h
  exact .of_insert (n := request) Tables.leases_closeInstances rfl rfl hexpiry hwrite

theorem authenticatedResume_leaseMove {request : AuthenticatedResume} {context : SessionContext}
    (h : (authenticatedResume request).run s = .ok (context, t)) :
    s.LeaseMove (.authenticatedResume request) t := by
  obtain ⟨-, -, -, expiry, hexpiry, hwrite⟩ := authenticatedResume_eq_ok h
  exact .of_insert (n := request.instance context.membership.id) Tables.leases_closeInstances rfl
    rfl hexpiry hwrite

/-- What a committed `heartbeat_instance` found. -/
theorem heartbeatInstance_eq_ok {request : HeartbeatInstance} {record : InstanceRecord}
    (h : (heartbeatInstance request).run s = .ok (record, t)) :
    ∃ i expiry, (i ∈ s.instances ∧ i.id = request.id) ∧ i.closedAt = none
      ∧ renewLease (InstanceState.atNow none i.leaseExpiresAt (max request.now i.lastSeenAt))
          i.leaseExpiresAt (max request.now i.lastSeenAt) request.leasePolicy.leaseDuration
          = .ok expiry
      ∧ t.toTables = s.toTables.renewInstances
          (fun j => decide (j.id = request.id) && j.unclosed)
          (InstanceRow.renewed request.availability request.availabilitySource
            (max request.now i.lastSeenAt) expiry) := by
  simp only [heartbeatInstance, Tx.bind_eq_ok, validateObservation_eq_ok, Tx.query_eq_ok,
    Tx.expect_eq_ok, Tx.require_eq_ok, Tx.ofExcept_eq_ok, StoreTx.write_eq_ok,
    Tx.pure_eq_ok] at h
  obtain ⟨_, _, ⟨-, rfl⟩, _, _, ⟨rfl, rfl⟩, i, _, ⟨hcurrent, rfl⟩, _, _, ⟨-, rfl⟩, expiry, _,
    ⟨hrenew, rfl⟩, _, _, hwrite, -, rfl⟩ := h
  obtain ⟨hfind, hguard⟩ := Option.filter_eq_some_iff.mp hcurrent
  simp only [Bool.and_eq_true, InstanceRow.unclosed_iff] at hguard
  exact ⟨i, expiry, s.instanceById_eq_some.mp hfind, hguard.1, Tx.mapError_eq_ok.mp hrenew, hwrite⟩

theorem heartbeatInstance_leaseMove {request : HeartbeatInstance} {record : InstanceRecord}
    (h : (heartbeatInstance request).run s = .ok (record, t)) :
    s.LeaseMove (.heartbeatInstance request) t := by
  obtain ⟨i, expiry, ⟨hi, hid⟩, hunclosed, hrenew, hwrite⟩ := heartbeatInstance_eq_ok h
  refine .renewed i request.leasePolicy request.now expiry hi (by rw [hid]; rfl) rfl rfl hrenew ?_
  -- the row that has the id is unclosed, so the id alone picks it out
  have hsame : ∀ j ∈ s.instances, (decide (j.id = request.id) && j.unclosed)
      = decide (j.id = i.id) := by
    intro j hj
    by_cases hjid : j.id = request.id
    · have hji : j = i := s.constraints.instanceId.eq hj hi (hjid.trans hid.symm)
      simp [hji, hid, InstanceRow.unclosed, hunclosed]
    · simp [hjid, hid]
  show t.toTables.leases = _
  rw [hwrite, ← Tables.leases_renewInstances]
  simp only [Tables.leases, Tables.renewInstances]
  rw [updateWhere_congr hsame]

/-- What a committed `authenticated_heartbeat` found. -/
theorem authenticatedHeartbeat_eq_ok {session : AuthenticatedSession}
    {availability : Availability} {source : AvailabilitySource} {policy : LeasePolicy}
    {record : InstanceRecord}
    (h : (authenticatedHeartbeat session availability source policy).run s = .ok (record, t)) :
    ∃ i m expiry, s.Authorizes session i m
      ∧ renewLease (InstanceState.atNow none i.leaseExpiresAt (max session.now i.lastSeenAt))
          i.leaseExpiresAt (max session.now i.lastSeenAt) policy.leaseDuration = .ok expiry
      ∧ t.toTables = s.toTables.renewInstances (fun j => decide (j.id = i.id))
          (InstanceRow.renewed availability source (max session.now i.lastSeenAt) expiry) := by
  simp only [authenticatedHeartbeat, Tx.bind_eq_ok, validateObservation_eq_ok,
    authorizeCurrent_eq_ok, Tx.ofExcept_eq_ok, StoreTx.write_eq_ok, Tx.pure_eq_ok] at h
  obtain ⟨_, _, ⟨-, rfl⟩, _, _, ⟨i, m, hauth, rfl, rfl⟩, expiry, _, ⟨hrenew, rfl⟩, _, _, hwrite,
    -, rfl⟩ := h
  refine ⟨i, m, expiry, hauth, Tx.mapError_eq_ok.mp hrenew, ?_⟩
  rw [hwrite, hauth.id]
  rfl

theorem authenticatedHeartbeat_leaseMove {session : AuthenticatedSession}
    {availability : Availability} {source : AvailabilitySource} {policy : LeasePolicy}
    {record : InstanceRecord}
    (h : (authenticatedHeartbeat session availability source policy).run s = .ok (record, t)) :
    s.LeaseMove (.authenticatedHeartbeat session availability source policy) t := by
  obtain ⟨i, m, expiry, hauth, hrenew, hwrite⟩ := authenticatedHeartbeat_eq_ok h
  refine .renewed i policy session.now expiry hauth.mem (by rw [hauth.id]; rfl) rfl rfl hrenew ?_
  show t.toTables.leases = _
  rw [hwrite, Tables.leases_renewInstances]

/-- **The inversion of a step, for leases.** -/
theorem Store.exec_leases (s : Store) (op : Op) : s.LeaseMove op (s.exec op) := by
  cases op with
  | claimInstance request generated => exact .of_commit fun _ _ => claimInstance_leaseMove
  | heartbeatInstance request => exact .of_commit fun _ _ => heartbeatInstance_leaseMove
  | resumeInstance request => exact .of_commit fun _ _ => resumeInstance_leaseMove
  | joinAndClaim request generated => exact .of_commit fun _ _ => joinAndClaim_leaseMove
  | authenticatedHeartbeat session availability source policy =>
      exact .of_commit fun _ _ => authenticatedHeartbeat_leaseMove
  | authenticatedResume request => exact .of_commit fun _ _ => authenticatedResume_leaseMove
  | _ => exact .kept (s.exec_column unclosing_lease rfl)

/-! ## Leases never move back -/

/-- The same lease later on. -/
structure Lease.Extends (l l' : Lease) : Prop where
  id : l'.id = l.id
  createdAt : l'.createdAt = l.createdAt
  lastSeenAt : l.lastSeenAt ≤ l'.lastSeenAt
  leaseExpiresAt : l.leaseExpiresAt ≤ l'.leaseExpiresAt

omit [Sha256] in
theorem Lease.Extends.refl (l : Lease) : l.Extends l := ⟨rfl, rfl, le_refl _, le_refl _⟩

omit [Sha256] in
theorem Lease.Extends.trans {l l' l'' : Lease} (h : l.Extends l') (h' : l'.Extends l'') :
    l.Extends l'' where
  id := h'.id.trans h.id
  createdAt := h'.createdAt.trans h.createdAt
  lastSeenAt := h.lastSeenAt.trans h'.lastSeenAt
  leaseExpiresAt := h.leaseExpiresAt.trans h'.leaseExpiresAt

/-- Every lease of `s` is still there in `t`. -/
def Store.LeasesExtend (s t : Store) : Prop := ∀ l ∈ s.leases, ∃ l' ∈ t.leases, l.Extends l'

omit [Sha256] in
/-- The lease a renewed row had is the one its instance shows. -/
theorem Store.lease_eq {i : InstanceRow} (hi : i ∈ s.instances) {l : Lease} (hl : l ∈ s.leases)
    (hid : l.id = i.id) : l = i.lease := by
  obtain ⟨j, hj, rfl⟩ := List.mem_map.mp hl
  rw [s.constraints.instanceId.eq hj hi hid]

omit [Sha256] in
theorem Store.LeaseMove.extend (h : s.LeaseMove op t) : s.LeasesExtend t := by
  intro l hl
  cases h with
  | kept heq => exact ⟨l, by rw [heq]; exact hl, .refl l⟩
  | granted id policy now expiry _ _ _ heq =>
      exact ⟨l, by rw [heq]; exact List.mem_append_left _ hl, .refl l⟩
  | renewed i policy now expiry hi _ _ _ hrenew heq =>
      refine ⟨_, by rw [heq]; exact mem_updateWhere.mpr ⟨l, hl, rfl⟩, ?_⟩
      split
      · rename_i hid
        have hlease := Store.lease_eq hi hl (of_decide_eq_true hid)
        subst hlease
        exact ⟨rfl, rfl, le_max_right _ _, (renewLease_eq_ok hrenew).2⟩
      · exact .refl l

theorem steps_leasesExtend {ok : Store → Op → Prop} (h : storeLts.Steps ok s t) :
    s.LeasesExtend t := by
  refine h.related (R := Store.LeasesExtend) (P := fun _ => True) (fun s l hl => ⟨l, hl, .refl l⟩)
    ?_ ?_ trivial
  · intro s t u hst htu l hl
    obtain ⟨l', hl', h⟩ := hst l hl
    obtain ⟨l'', hl'', h'⟩ := htu l' hl'
    exact ⟨l'', hl'', h.trans h'⟩
  · rintro s op t - - rfl
    exact ⟨(s.exec_leases op).extend, trivial⟩

/-! ## What holds of every lease -/

/-- A property of single leases that a grant establishes and a renewal keeps. -/
theorem reach_leases {ok : Store → Op → Prop} {P : Lease → Prop}
    (hgrant : ∀ s op id policy now expiry, ok s op → op.leases = some id →
      op.policy = some policy → now.checkedAdd policy.leaseDuration = some expiry →
      P (Lease.granted id now expiry))
    (hrenew : ∀ s op i policy now expiry, ok s op → op.leases = some i.id →
      op.policy = some policy → P (InstanceRow.lease i) →
      renewLease (InstanceState.atNow none i.leaseExpiresAt (max now i.lastSeenAt))
        i.leaseExpiresAt (max now i.lastSeenAt) policy.leaseDuration = .ok expiry →
      P (Lease.renewed (max now i.lastSeenAt) expiry i.lease))
    (h : storeLts.Reach ok s) : ∀ l ∈ s.leases, P l := by
  refine h.invariant (P := fun s => ∀ l ∈ s.leases, P l) ?_ ?_
  · rintro _ rfl l hl
    cases hl
  · rintro s op _ hs hok rfl l hl
    cases s.exec_leases op with
    | kept heq =>
        rw [heq] at hl
        exact hs l hl
    | granted id policy now expiry hid hpolicy hexpiry heq =>
        rw [heq] at hl
        rcases List.mem_append.mp hl with hl | hl
        · exact hs l hl
        · rw [List.mem_singleton.mp hl]
          exact hgrant s op id policy now expiry hok hid hpolicy hexpiry
    | renewed i policy now expiry hi hid hpolicy _ hrenewed heq =>
        rw [heq] at hl
        obtain ⟨l', hl', rfl⟩ := mem_updateWhere.mp hl
        split
        · rename_i hsame
          have hlease := Store.lease_eq hi hl' (of_decide_eq_true hsame)
          subst hlease
          exact hrenew s op i policy now expiry hok hid hpolicy (hs _ hl') hrenewed
        · exact hs l' hl'

/-- Availability was observed when the instance was last seen. -/
theorem reach_observed {ok : Store → Op → Prop} (h : storeLts.Reach ok s) :
    ∀ i ∈ s.instances, i.availabilityObservedAt = i.lastSeenAt := by
  have hleases : ∀ l ∈ s.leases, l.availabilityObservedAt = l.lastSeenAt :=
    reach_leases (fun _ _ _ _ _ _ _ _ _ _ => rfl) (fun _ _ _ _ _ _ _ _ _ _ _ => rfl) h
  exact fun i hi => hleases i.lease (List.mem_map_of_mem hi)

/-! ## One lease duration -/

/-- Operations on instance `id` use the lease duration `d`. -/
def LeasedFor (id : InstanceId) (d : Duration) (_ : Store) (op : Op) : Prop :=
  op.leases = some id → ∀ policy ∈ op.policy, policy.leaseDuration = d

instance (id : InstanceId) (d : Duration) (s : Store) (op : Op) :
    Decidable (LeasedFor id d s op) :=
  inferInstanceAs (Decidable (op.leases = some id → ∀ policy ∈ op.policy, policy.leaseDuration = d))

omit [Sha256] in
/-- A renewal past the last sighting is the reading plus the duration, whenever the lease it
renews was. -/
theorem renewLease_of_exact {state : InstanceState} {seen now current expiry : UnixMillis}
    {d : Duration} (hseen : seen ≤ now) (hexact : seen.checkedAdd d = some current)
    (h : renewLease state current now d = .ok expiry) : now.checkedAdd d = some expiry := by
  unfold renewLease at h
  split at h
  · cases h
  · split at h
    · cases h
    · split at h
      · cases h
      · rename_i candidate hcandidate
        have hle : current ≤ candidate := by
          rw [UnixMillis.le_iff] at hseen ⊢
          rw [UnixMillis.checkedAdd_eq_some hexact, UnixMillis.checkedAdd_eq_some hcandidate]
          omega
        cases h
        rw [hcandidate, max_eq_left hle]

/-- **Under one duration the lease is the last sighting plus the duration.** -/
theorem reach_leasedFor {id : InstanceId} {d : Duration} (h : storeLts.Reach (LeasedFor id d) s) :
    ∀ i ∈ s.instances, i.id = id → i.lastSeenAt.checkedAdd d = some i.leaseExpiresAt := by
  have hleases : ∀ l ∈ s.leases, l.id = id → l.lastSeenAt.checkedAdd d = some l.leaseExpiresAt := by
    refine reach_leases (P := fun l => l.id = id →
      l.lastSeenAt.checkedAdd d = some l.leaseExpiresAt) ?_ ?_ h
    · rintro s op id' policy now expiry hok hid hpolicy hexpiry rfl
      rw [← hok hid policy hpolicy]
      exact hexpiry
    · rintro s op i policy now expiry hok hid hpolicy hi hrenew rfl
      rw [hok hid policy hpolicy] at hrenew
      exact renewLease_of_exact (le_max_right now i.lastSeenAt) (hi rfl) hrenew
  exact fun i hi hid => hleases i.lease (List.mem_map_of_mem hi) hid

/-- Under one duration, an operation with a reading no later than the last sighting extends no
lease. -/
theorem exec_rolled_back {id : InstanceId} {d : Duration} (h : storeLts.Reach (LeasedFor id d) s)
    (hok : LeasedFor id d s op) {i j : InstanceRow} (hi : i ∈ s.instances) (hiid : i.id = id)
    (hnow : ∀ now ∈ op.now, now ≤ i.lastSeenAt) (hj : j ∈ (s.exec op).instances)
    (hjid : j.id = id) : j.leaseExpiresAt = i.leaseExpiresAt := by
  have hil : i.lease ∈ s.leases := List.mem_map_of_mem hi
  -- whatever lease of the id is there afterwards is the one of `j`
  have hsame : ∀ l ∈ (s.exec op).leases, l.id = id → l.leaseExpiresAt = i.leaseExpiresAt →
      j.leaseExpiresAt = i.leaseExpiresAt := by
    intro l hl hid hexpires
    have hlease := Store.lease_eq hj hl (hid.trans hjid.symm)
    rw [hlease] at hexpires
    exact hexpires
  cases s.exec_leases op with
  | kept heq => exact hsame i.lease (by rw [heq]; exact hil) hiid rfl
  | granted id' policy now expiry _ _ _ heq =>
      exact hsame i.lease (by rw [heq]; exact List.mem_append_left _ hil) hiid rfl
  | renewed o policy now expiry ho hid hpolicy hopnow hrenew heq =>
      refine hsame _ (by rw [heq]; exact mem_updateWhere.mpr ⟨i.lease, hil, rfl⟩) ?_ ?_
      · split
        · exact hiid
        · exact hiid
      · split
        · rename_i hio
          have hoi : o = i := s.constraints.instanceId.eq ho hi (of_decide_eq_true hio).symm
          subst hoi
          have hexact := reach_leasedFor h o ho hiid
          rw [max_eq_right (hnow now hopnow), hok (hid.trans (by rw [hiid])) policy hpolicy] at hrenew
          have hrenewed := renewLease_of_exact (le_refl o.lastSeenAt) hexact hrenew
          exact Option.some.inj (hrenewed.symm.trans hexact)
        · rfl

/-! ## Heartbeats -/

/-- A heartbeat of instance `id` at `now` commits in `s`. -/
inductive Store.Beats (s : Store) (id : InstanceId) (now : UnixMillis) : Prop where
  | instance (request : HeartbeatInstance) (record : InstanceRecord) (t : Store)
      (hid : request.id = id) (hnow : request.now = now)
      (h : Tx.commit (heartbeatInstance request) s = (.ok record, t))
  | session (session : AuthenticatedSession) (availability : Availability)
      (source : AvailabilitySource) (policy : LeasePolicy) (record : InstanceRecord) (t : Store)
      (hid : session.instanceId = id) (hnow : session.now = now)
      (h : Tx.commit (authenticatedHeartbeat session availability source policy) s
        = (.ok record, t))

/-- A heartbeat commits only before the lease ends, for an instance that is not closed. -/
theorem Store.Beats.live {id : InstanceId} {now : UnixMillis} (h : s.Beats id now)
    {i : InstanceRow} (hi : i ∈ s.instances) (hid : i.id = id) :
    i.closedAt = none ∧ now < i.leaseExpiresAt := by
  cases h with
  | «instance» request record t hrequest hnow h =>
      obtain ⟨j, expiry, ⟨hj, hjid⟩, hclosed, hrenew, -⟩ :=
        heartbeatInstance_eq_ok (Tx.commit_eq_ok.mp h)
      have hji : j = i := s.constraints.instanceId.eq hj hi (hjid.trans (hrequest.trans hid.symm))
      subst hji
      refine ⟨hclosed, ?_⟩
      rw [← hnow]
      exact (le_max_left _ _).trans_lt (renewLease_eq_ok hrenew).1
  | session session availability source policy record t hsession hnow h =>
      obtain ⟨j, m, expiry, hauth, -, -⟩ := authenticatedHeartbeat_eq_ok (Tx.commit_eq_ok.mp h)
      have hji : j = i :=
        s.constraints.instanceId.eq hauth.mem hi (hauth.id.trans (hsession.trans hid.symm))
      subst hji
      refine ⟨hauth.unclosed, ?_⟩
      rw [← hnow]
      exact hauth.lease

/-! ## Monotone leases -/

/-- What a run does to an instance. -/
structure InstanceRow.Advances (i j : InstanceRow) : Prop where
  id : j.id = i.id
  createdAt : j.createdAt = i.createdAt
  lastSeenAt : i.lastSeenAt ≤ j.lastSeenAt
  leaseExpiresAt : i.leaseExpiresAt ≤ j.leaseExpiresAt
  /-- Set at most once, and never cleared. -/
  closedAt : ∀ closed, i.closedAt = some closed → j.closedAt = some closed

theorem steps_advances {ok : Store → Op → Prop} (h : storeLts.Steps ok s t) {i : InstanceRow}
    (hi : i ∈ s.instances) : ∃ j ∈ t.instances, i.Advances j := by
  obtain ⟨j, hj, hev⟩ := steps_instancesKept h i hi
  obtain ⟨l, hl, hext⟩ := steps_leasesExtend h i.lease (List.mem_map_of_mem hi)
  obtain rfl := Store.lease_eq hj hl (hext.id.trans hev.id.symm)
  refine ⟨j, hj, hev.id, hext.createdAt, hext.lastSeenAt, hext.leaseExpiresAt, ?_⟩
  intro closed hclosed
  rw [hev.closed (by simp [hclosed]), hclosed]

/-- **Leases are monotone under any clock.** Along every run an instance keeps its creation time,
is never seen earlier or leased shorter than before, and stays closed once closed; it was observed
when it was last seen; no heartbeat commits at or past its lease or after it was closed. And if
every operation on an instance uses one lease duration, its lease is always its last sighting plus
the duration, so that a clock that went back extends nothing. -/
theorem leases_monotone {s t : Store} (hreach : storeLts.Reach Lts.always s)
    (hlater : storeLts.Steps Lts.always s t) :
    (∀ i ∈ s.instances, ∃ j ∈ t.instances, i.Advances j)
      ∧ (∀ i ∈ s.instances, i.availabilityObservedAt = i.lastSeenAt)
      ∧ (∀ i ∈ s.instances, ∀ now, i.closedAt ≠ none ∨ i.leaseExpiresAt ≤ now →
          ¬ s.Beats i.id now)
      ∧ (∀ id d, 1 ≤ d.asMillis → storeLts.Reach (LeasedFor id d) s →
          ∀ i ∈ s.instances, i.id = id →
            i.lastSeenAt.checkedAdd d = some i.leaseExpiresAt
              ∧ ∀ op, LeasedFor id d s op → (∀ now ∈ op.now, now ≤ i.lastSeenAt) →
                  ∀ j ∈ (s.exec op).instances, j.id = id →
                    j.leaseExpiresAt = i.leaseExpiresAt) := by
  refine ⟨fun i hi => steps_advances hlater hi, reach_observed hreach, ?_, ?_⟩
  · intro i hi now hover hbeats
    obtain ⟨hclosed, hlease⟩ := hbeats.live hi rfl
    rcases hover with hover | hover
    · exact hover hclosed
    · exact absurd hlease (not_lt.mpr hover)
  · intro id d _ hleased i hi hid
    exact ⟨reach_leasedFor hleased i hi hid,
      fun op hok hnow j hj hjid => exec_rolled_back hleased hok hi hid hnow hj hjid⟩

end Runs

open Sample in
/-- Alice's first lease under a clock that goes back. -/
theorem leases_monotone_alice :
    ∃ i ∈ (Store.empty.run [aliceJoins]).instances,
      ∃ j ∈ (Store.empty.run [aliceJoins, .authenticatedHeartbeat (aliceAt ⟨50, by decide⟩) .unknown
          .unknown .default]).instances, i.Advances j := by
  have hnext : storeLts.Steps Lts.always (Store.empty.run [aliceJoins])
      (Store.empty.run [aliceJoins, .authenticatedHeartbeat (aliceAt ⟨50, by decide⟩) .unknown
        .unknown .default]) :=
    steps_run [_] _ fun _ _ _ => trivial
  have hsome : ∃ i, i ∈ (Store.empty.run [aliceJoins]).instances := by
    refine List.exists_mem_of_length_pos ?_
    decide
  obtain ⟨i, hi⟩ := hsome
  exact ⟨i, hi, (leases_monotone (reach_run _ fun _ _ _ => trivial) hnext).1 i hi⟩

end Psst
