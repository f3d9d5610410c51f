import Psst.Store.Ownership

/-!
# Lease-fenced authority

Who may act for a membership. Authority is decided on one row, at most one instance of a
membership has it in any state, and a resume takes it from instances that are not online
and that never get it back: a closed row is never changed again.
-/

namespace Psst

open Table

/-! ## Instance rows over time -/

/-- The same instance later on: its credential stays, and a closed row stays as it is. -/
structure InstanceRow.Evolves (i i' : InstanceRow) : Prop where
  id : i'.id = i.id
  membershipId : i'.membershipId = i.membershipId
  token : i'.resumeTokenHash = i.resumeTokenHash
  closed : i.closedAt ≠ none → i' = i

namespace InstanceRow.Evolves

variable {i i' i'' : InstanceRow}

theorem refl (i : InstanceRow) : i.Evolves i := ⟨rfl, rfl, rfl, fun _ => rfl⟩

theorem trans (h : i.Evolves i') (h' : i'.Evolves i'') : i.Evolves i'' where
  id := h'.id.trans h.id
  membershipId := h'.membershipId.trans h.membershipId
  token := h'.token.trans h.token
  closed hclosed := by
    obtain rfl := h.closed hclosed
    exact h'.closed hclosed

theorem closeIf (p : InstanceRow → Bool) (now : UnixMillis) : i.Evolves (i.closeIf p now) where
  id := closeIf_id
  membershipId := closeIf_membershipId
  token := by unfold InstanceRow.closeIf; split <;> rfl
  closed := closeIf_of_closed

end InstanceRow.Evolves

/-- Every instance of `s` is still there in `t`. -/
def Store.InstancesKept (s t : Store) : Prop :=
  ∀ i ∈ s.instances, ∃ i' ∈ t.instances, i.Evolves i'

theorem Store.InstancesKept.refl (s : Store) : s.InstancesKept s := fun i hi => ⟨i, hi, .refl i⟩

theorem Store.InstancesKept.trans {s t u : Store} (h : s.InstancesKept t)
    (h' : t.InstancesKept u) : s.InstancesKept u := by
  intro i hi
  obtain ⟨i', hi', hev⟩ := h i hi
  obtain ⟨i'', hi'', hev'⟩ := h' i' hi'
  exact ⟨i'', hi'', hev.trans hev'⟩

section Runs

variable [Sha256] {c : Context} {s s' t : Store}

theorem Change.instancesKept (h : Change c s s') : s.InstancesKept s' := by
  intro i hi
  have hsame : s'.instances = s.instances → ∃ i' ∈ s'.instances, i.Evolves i' := fun heq =>
    ⟨i, by rw [heq]; exact hi, .refl i⟩
  cases h with
  | squad _ _ _ heq => exact hsame (by rw [heq])
  | agent _ heq => exact hsame (by rw [heq])
  | membership _ _ _ heq => exact hsame (by rw [heq])
  | claim n expiry _ _ _ _ _ heq =>
      exact ⟨i, by rw [heq]; exact List.mem_append_left _ hi, .refl i⟩
  | renew o now expiry availability source _ ho hopen _ _ heq =>
      refine ⟨_, by rw [heq]; exact mem_updateWhere.mpr ⟨i, hi, rfl⟩, ?_⟩
      split
      · rename_i hid
        have hio : i = o := s.constraints.instanceId.eq hi ho (by simpa using hid)
        exact ⟨rfl, rfl, rfl, fun hclosed => absurd (hio ▸ hopen) hclosed⟩
      · exact .refl i
  | replace n expiry _ _ _ _ _ heq =>
      refine ⟨_, ?_, .closeIf (fun i => decide (i.membershipId = n.membershipId)) n.now⟩
      rw [heq]
      exact List.mem_append_left _ (Tables.mem_closeInstances.mpr ⟨i, hi, rfl⟩)
  | leave member now _ _ heq =>
      refine ⟨_, ?_, .closeIf (fun i => decide (i.membershipId = member)) now⟩
      rw [heq]
      exact Tables.mem_closeInstances.mpr ⟨i, hi, rfl⟩
  | archive _ _ _ _ _ heq => exact hsame (by rw [heq]; rfl)
  | send _ _ _ heq => exact hsame (by rw [heq]; rfl)
  | acknowledge _ _ _ _ _ _ heq => exact hsame (by rw [heq]; rfl)

theorem Store.exec_instancesKept (s : Store) (op : Op) : s.InstancesKept (s.exec op) := by
  refine Changes.keeps (Q := fun t => s.InstancesKept t) ?_
    (s.exec_changes (P := fun _ => True) op fun _ _ => trivial) (.refl s)
  intro t t' hchange ht
  exact ht.trans hchange.instancesKept

theorem steps_instancesKept {ok : Store → Op → Prop} (h : storeLts.Steps ok s t) :
    s.InstancesKept t := by
  refine h.related (R := Store.InstancesKept) (P := fun _ => True) Store.InstancesKept.refl
    (fun _ _ _ => Store.InstancesKept.trans) ?_ trivial
  rintro s op t - - rfl
  exact ⟨s.exec_instancesKept op, trivial⟩

/-! ## Fencing -/

/-- A credential of a closed instance has no authority in any later state. -/
theorem closed_never_authorized {ok : Store → Op → Prop} {i : InstanceRow}
    (hi : i ∈ s.instances) (hclosed : i.closedAt ≠ none) (hlater : storeLts.Steps ok s t)
    {session : AuthenticatedSession} (hid : session.instanceId = i.id) {identity : Identity}
    {u : Store} : (authorizeCurrent session).run t ≠ .ok (identity, u) := by
  intro hok
  obtain ⟨j, m, hauth, -, -⟩ := authorizeCurrent_eq_ok.mp hok
  obtain ⟨i', hi', hev⟩ := steps_instancesKept hlater i hi
  have hji : j = i' :=
    t.constraints.instanceId.eq hauth.mem hi' (hauth.id.trans (hid.trans hev.id.symm))
  have hopen := hauth.unclosed
  rw [hji, hev.closed hclosed] at hopen
  exact hclosed hopen

/-- What a resume for `member` at `now` from `s` to `t` may do: nobody was online, and no
instance it found is ever authorized again. -/
structure Fenced (s t : Store) (member : MembershipId) (now : UnixMillis) : Prop where
  offline : ∀ i ∈ s.instances, i.membershipId = member →
    InstanceState.atNow i.closedAt i.leaseExpiresAt now ≠ .online
  retired : ∀ i ∈ s.instances, i.membershipId = member →
    ∀ u, storeLts.Steps Lts.always t u → ∀ session, session.instanceId = i.id →
      ∀ identity v, Tx.commit (authorizeCurrent session) u ≠ (.ok identity, v)

/-- Replacing an owner closes every instance of the membership for good. -/
theorem Fenced.of_replaceOwner {member : MembershipId} {now : UnixMillis} {row : InstanceRow}
    (hoffline : ∀ i ∈ s.instances, i.membershipId = member →
      InstanceState.atNow i.closedAt i.leaseExpiresAt now ≠ .online)
    (heq : t.toTables = s.toTables.replaceOwner member now row) : Fenced s t member now where
  offline := hoffline
  retired i hi hmember u hlater session hid identity v hcommit := by
    have hin : i.closeIf (fun i => decide (i.membershipId = member)) now ∈ t.instances := by
      rw [heq]
      exact List.mem_append_left _ (Tables.mem_closeInstances.mpr ⟨i, hi, rfl⟩)
    exact closed_never_authorized hin (InstanceRow.closeIf_closed (by simp [hmember])) hlater
      (by rw [hid, InstanceRow.closeIf_id]) (Tx.commit_eq_ok.mp hcommit)

/-- **Lease-fenced authority.** In every state reached under leases of at least a millisecond:
`authorize_current` succeeds exactly on a matching token, an unexpired lease, an active
squad, an unclosed instance and a joined membership; at most one instance of a membership
is authorized; and both resumes succeed only when no instance of the membership is online,
after which no earlier instance is ever authorized again, whatever the clock reads. -/
theorem lease_fenced_authority (hreach : storeLts.Reach WholeMillis s) :
    (∀ session, (∃ identity, Tx.commit (authorizeCurrent session) s = (.ok identity, s))
        ↔ ∃ i m, s.Authenticates session i m ∧ session.now < i.leaseExpiresAt
            ∧ (∃ q ∈ s.squads, q.id = m.squadId ∧ q.state = .active)
            ∧ i.closedAt = none ∧ m.leftAt = none)
      ∧ (∀ session session' identity identity',
          Tx.commit (authorizeCurrent session) s = (.ok identity, s) →
          Tx.commit (authorizeCurrent session') s = (.ok identity', s) →
          identity.membership = identity'.membership → session.instanceId = session'.instanceId)
      ∧ (∀ request record t, Tx.commit (resumeInstance request) s = (.ok record, t) →
          Fenced s t request.membershipId request.now)
      ∧ ∀ request context t, Tx.commit (authenticatedResume request) s = (.ok context, t) →
          Fenced s t context.membership.id request.now := by
  refine ⟨fun session => ?_, fun session session' identity identity' h h' hsame => ?_,
    fun request record t hcommit => ?_, fun request context t hcommit => ?_⟩
  · constructor
    · rintro ⟨identity, hcommit⟩
      obtain ⟨i, m, h, -, -⟩ := authorizeCurrent_eq_ok.mp (Tx.commit_eq_ok.mp hcommit)
      exact ⟨i, m, h.toAuthenticates, h.lease, h.squad, h.unclosed, h.joined⟩
    · rintro ⟨i, m, hauth, hlease, hsquad, hunclosed, hjoined⟩
      exact ⟨identityOf i m, Tx.commit_of_ok (authorizeCurrent_eq_ok.mpr
        ⟨i, m, ⟨hauth, hlease, hsquad, hunclosed, hjoined⟩, rfl, rfl⟩)⟩
  · obtain ⟨i, m, hauth, rfl, -⟩ := authorizeCurrent_eq_ok.mp (Tx.commit_eq_ok.mp h)
    obtain ⟨i', m', hauth', rfl, -⟩ := authorizeCurrent_eq_ok.mp (Tx.commit_eq_ok.mp h')
    have hii : i = i' := s.constraints.unclosedOwner.eq hauth.mem hauth'.mem
      (InstanceRow.unclosed_iff.mpr hauth.unclosed) (InstanceRow.unclosed_iff.mpr hauth'.unclosed)
      (by rw [← hauth.memberId, ← hauth'.memberId]; exact hsame)
    rw [← hauth.id, ← hauth'.id, hii]
  · obtain ⟨hactive, hguard, expiry, -, heq⟩ := resumeInstance_eq_ok (Tx.commit_eq_ok.mp hcommit)
    obtain ⟨o, ho, hpast⟩ := (reach_owned hreach).resume_past_lease hactive hguard
    refine Fenced.of_replaceOwner (fun i hi hmember honline => ?_) heq
    obtain ⟨hopen, hlive⟩ := InstanceState.atNow_eq_online.mp honline
    rw [ho.eq_of_unclosed hi hmember hopen] at hlive
    exact absurd hlive (not_lt.mpr hpast)
  · obtain ⟨-, -, hoffline, expiry, -, heq⟩ :=
      authenticatedResume_eq_ok (Tx.commit_eq_ok.mp hcommit)
    exact Fenced.of_replaceOwner hoffline heq

end Runs

namespace Sample

/-- Alice's instance `id`, resumed at `now` under `policy`. -/
def aliceInstanceAt (now : UnixMillis) (id : InstanceId) (policy : LeasePolicy) :
    NewInstance where
  id := id
  membershipId := alice
  mode := .cooperative
  clientKind := "test"
  hostname := none
  resumeToken := aliceToken
  availability := .unknown
  availabilitySource := .unknown
  now := now
  leasePolicy := policy

/-- A lease of two nanoseconds, which the policy constructor accepts. -/
def nanoLease : LeasePolicy where
  heartbeatInterval := .fromNanos 1
  leaseDuration := .fromNanos 2
  heartbeatPositive := by decide
  leaseLonger := by decide
  leaseFits := by decide

/-- Alice joins, claims `ins_b` under the two-nanosecond lease, and resumes as `ins_a` under
the default lease in the same millisecond. -/
def resumedInstant : List Op :=
  [.join (joinAlpha aliceName aliceAgent alice aliceInstance
      (instant 100)).membership,
    .claimInstance
      { id := ⟨"ins_b", by decide⟩, membershipId := alice, mode := .cooperative,
        clientKind := "test", hostname := none, availability := .unknown,
        availabilitySource := .unknown, now := instant 100, leasePolicy := nanoLease }
      (some aliceToken),
    .resumeInstance (aliceInstanceAt (instant 100) ⟨"ins_a", by decide⟩ .default)]

end Sample

open Sample in
/-- Alice resumes at the end of her lease; her first instance is fenced off. -/
theorem lease_fenced_authority_alice :
    ∃ record t,
      Tx.commit (resumeInstance
          (aliceInstanceAt ⟨30100, by decide⟩ ⟨"ins_again", by decide⟩ .default))
        (Store.empty.run greeted) = (.ok record, t)
      ∧ Fenced (Store.empty.run greeted) t alice ⟨30100, by decide⟩ := by
  have hmillis : ∀ op ∈ greeted, ∀ policy ∈ op.policy, policy.AtLeastOneMilli := by decide
  have hreach : storeLts.Reach WholeMillis (Store.empty.run greeted) :=
    reach_run greeted fun op hop _ => hmillis op hop
  obtain ⟨record, hcommit⟩ := Tx.exists_of_isOk (x := resumeInstance
    (aliceInstanceAt ⟨30100, by decide⟩ ⟨"ins_again", by decide⟩ .default))
    (s := Store.empty.run greeted) (by decide)
  exact ⟨record, _, hcommit, (lease_fenced_authority hreach).2.2.1 _ record _ hcommit⟩

open Sample in
/-- **A lease shorter than a millisecond lets a resume pre-empt a live owner.** `ins_a` and the
closed `ins_b` share a creation time, the newest instance is then the closed one, and a
third instance takes over while `ins_a` is online. -/
theorem resume_preempts_live_owner :
    (LeasePolicy.new (.fromNanos 1) (.fromNanos 2)).toOption = some nanoLease
      ∧ storeLts.Reach Lts.always (Store.empty.run resumedInstant)
      ∧ (∃ record t, Tx.commit (resumeInstance
            (aliceInstanceAt ⟨100, by decide⟩ ⟨"ins_c", by decide⟩ .default))
          (Store.empty.run resumedInstant) = (.ok record, t))
      ∧ ∃ i ∈ (Store.empty.run resumedInstant).instances,
          i.id = (⟨"ins_a", by decide⟩ : InstanceId) ∧ i.membershipId = alice
            ∧ InstanceState.atNow i.closedAt i.leaseExpiresAt ⟨100, by decide⟩ = .online := by
  refine ⟨by decide, reach_run resumedInstant fun _ _ _ => trivial, ?_, by decide⟩
  obtain ⟨record, hcommit⟩ := Tx.exists_of_isOk (x := resumeInstance
    (aliceInstanceAt ⟨100, by decide⟩ ⟨"ins_c", by decide⟩ .default))
    (s := Store.empty.run resumedInstant) (by decide)
  exact ⟨record, _, hcommit⟩

end Psst
