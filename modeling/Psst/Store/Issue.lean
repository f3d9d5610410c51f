import Psst.Store.Change

/-!
# What a join or a resume issues

The two session-issuing commands, described by their results: the membership and the squad
they report are in the store they leave, and so is the instance the issued token
authenticates.
-/

namespace Psst

variable [Sha256] {s s' : Store}

/-- **What a committed `join_and_claim` reports.** -/
theorem joinAndClaim_eq_ok {request : JoinAndClaim} {generated : Option ResumeToken}
    {outcome : JoinAndClaimOutcome}
    (h : (joinAndClaim request generated).run s = .ok (outcome, s')) :
    ∃ token expiry, generated = some token
      ∧ request.membership.joinedAt.checkedAdd request.leasePolicy.leaseDuration = some expiry
      ∧ outcome.squad ∈ s'.squads ∧ outcome.squad.state = .active
      ∧ outcome.membership = request.membership.record outcome.squad.id
      ∧ outcome.claim = ⟨((request.instance token).row expiry).record request.leasePolicy, token⟩
      ∧ request.membership.row outcome.squad.id ∈ s'.memberships
      ∧ (request.instance token).row expiry ∈ s'.instances := by
  simp only [joinAndClaim, squadByIdTx, Tx.bind_eq_ok, validateClient_eq_ok,
    validateObservation_eq_ok, Tx.expect_eq_ok, Tx.query_eq_ok, insertInstance_eq_ok,
    Tx.pure_eq_ok] at h
  obtain ⟨_, _, ⟨-, rfl⟩, _, _, ⟨-, rfl⟩, token, _, ⟨hgenerated, rfl⟩, id, t₁, h₁, u, t₂, h₂, v,
    t₃, h₃, _, t₄, ⟨expiry, hexpiry, hwrite, rfl⟩, q', _, ⟨_, _, ⟨rfl, rfl⟩, hq', rfl⟩,
    rfl, rfl⟩ := h
  obtain ⟨-, -, -, q, hq, hqid, hactive⟩ :=
    findOrCreateSquad_changes (c := ⟨fun _ => True, _, fun _ _ => True⟩) rfl h₁
  simp [insertAgent] at h₂
  simp [insertMembership] at h₃
  obtain ⟨-, -, hmember⟩ := h₃
  have hsquads : t₄.squads = t₁.squads := by rw [hwrite]; simp [Tables.addInstance, hmember, h₂]
  obtain ⟨hq'mem, hq'id⟩ := t₄.squadById_eq_some.mp hq'
  have hsame : q' = q :=
    t₄.constraints.squadId.eq hq'mem (hsquads ▸ hq) (hq'id.trans hqid.symm)
  subst hsame
  refine ⟨token, expiry, hgenerated, hexpiry, hq'mem, hactive, ?_, rfl, ?_, ?_⟩
  · rw [hqid]
  · rw [hwrite]
    simp [Tables.addInstance, hmember, hqid]
  · rw [hwrite]
    simp [Tables.addInstance]

/-- **What a committed `authenticated_resume` reports.** -/
theorem authenticatedResume_issues {request : AuthenticatedResume} {context : SessionContext}
    (h : (authenticatedResume request).run s = .ok (context, s')) :
    ∃ expiry, request.now.checkedAdd request.policy.leaseDuration = some expiry
      ∧ context.squad ∈ s'.squads ∧ context.squad.state = .active
      ∧ context.record
          = ((request.instance context.membership.id).row expiry).record request.policy
      ∧ (request.instance context.membership.id).row expiry ∈ s'.instances := by
  simp [authenticatedResume, membershipByIdTx, squadByIdTx] at h
  obtain ⟨-, -, prior, m, q, ⟨hjoin, hjoined⟩, -, -, hactive, -, hlive, t, hclose, row, hrow, q',
    hq', expiry, ⟨hexpiry, hwrite⟩, rfl⟩ := h
  obtain ⟨⟨⟨hprior, -⟩, hm, hmid⟩, hq, hqid⟩ := Store.instanceJoinSquad_eq_some.mp hjoin
  have hmemberships : t.memberships = s.memberships := by rw [hclose]; rfl
  have hsquads : t.squads = s.squads := by rw [hclose]; rfl
  obtain ⟨hrowmem, hrowid⟩ := t.membershipById_eq_some.mp hrow
  have hsame : row = m :=
    s.constraints.membershipId.eq (hmemberships ▸ hrowmem) hm hrowid
  subst hsame
  obtain ⟨hq'mem, hq'id⟩ := t.squadById_eq_some.mp hq'
  have hsquad : q' = q :=
    s.constraints.squadId.eq (hsquads ▸ hq'mem) hq (hq'id.trans hqid.symm)
  subst hsquad
  refine ⟨expiry, hexpiry, ?_, hactive, rfl, ?_⟩
  · rw [hwrite]
    exact hq'mem
  · rw [hwrite]
    simp [Tables.addInstance]

end Psst
