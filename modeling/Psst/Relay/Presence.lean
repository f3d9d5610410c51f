import Psst.Lib.Traverse
import Psst.Relay.Archive
import Psst.Store.Lease

/-!
# Presence

A roster judges a membership by its newest instance, while `authorize_current` judges the instance
it is presented with. Under leases of at least a millisecond the newest instance is the only one
that is not closed, so the two agree whatever the clock reads: a member is shown online exactly
while some instance of the membership has authority.
-/

namespace Psst

open Table

section Presence

variable [Sha256] {s t : Store}

/-! ## Stored observations

Every operation that stores an observation has validated it, so no roster line is refused. -/

theorem claimInstance_consistent {request : ClaimInstance} {generated : Option ResumeToken}
    {outcome : ClaimOutcome} (h : (claimInstance request generated).run s = .ok (outcome, t))
    (hs : s.Consistent) : t.Consistent := by
  simp only [claimInstance, Tx.bind_eq_ok, validateObservation_eq_ok, validateClient_eq_ok,
    Tx.expect_eq_ok, requireActiveMembership_eq_ok, Tx.query_eq_ok, Tx.require_eq_ok,
    insertInstance_eq_ok, Tx.pure_eq_ok] at h
  obtain ⟨_, _, ⟨hvalid, rfl⟩, _, _, ⟨-, rfl⟩, token, _, ⟨-, rfl⟩, _, _, ⟨-, rfl⟩, _, _, ⟨rfl, rfl⟩,
    _, _, ⟨-, rfl⟩, _, _, ⟨expiry, -, hwrite, -⟩, -, rfl⟩ := h
  have hrow : ((request.instance token).row expiry).Consistent := hvalid
  exact hs.append hrow (by rw [hwrite]; rfl)

theorem heartbeatInstance_consistent {request : HeartbeatInstance} {record : InstanceRecord}
    (h : (heartbeatInstance request).run s = .ok (record, t)) (hs : s.Consistent) :
    t.Consistent := by
  simp only [heartbeatInstance, Tx.bind_eq_ok, validateObservation_eq_ok, Tx.query_eq_ok,
    Tx.expect_eq_ok, Tx.require_eq_ok, Tx.ofExcept_eq_ok, StoreTx.write_eq_ok,
    Tx.pure_eq_ok] at h
  obtain ⟨_, _, ⟨hvalid, rfl⟩, _, _, ⟨rfl, rfl⟩, i, _, ⟨-, rfl⟩, _, _, ⟨-, rfl⟩, renewed, _,
    ⟨-, rfl⟩, _, _, hwrite, -, rfl⟩ := h
  exact hs.renew hwrite fun _ _ => hvalid

theorem resumeInstance_consistent {request : ResumeInstance} {record : InstanceRecord}
    (h : (resumeInstance request).run s = .ok (record, t)) (hs : s.Consistent) :
    t.Consistent := by
  simp only [resumeInstance, Tx.bind_eq_ok, validateObservation_eq_ok, validateClient_eq_ok,
    requireActiveMembership_eq_ok, Tx.query_eq_ok, Tx.expect_eq_ok, Tx.require_eq_ok,
    StoreTx.write_eq_ok, insertInstance_eq_ok] at h
  obtain ⟨_, _, ⟨hvalid, rfl⟩, _, _, ⟨-, rfl⟩, _, _, ⟨-, rfl⟩, _, _, ⟨rfl, rfl⟩, i, _, ⟨-, rfl⟩,
    _, _, ⟨-, rfl⟩, _, _, ⟨-, rfl⟩, _, u, hclose, expiry, -, hwrite, -⟩ := h
  have hrow : (request.row expiry).Consistent := hvalid
  exact (hs.close hclose).append hrow (by rw [hwrite]; rfl)

/-- The two columns of an observation that have to agree. -/
def InstanceRow.observation (i : InstanceRow) : Availability × AvailabilitySource :=
  (i.availability, i.availabilitySource)

omit [Sha256] in
theorem unclosing_observation : InstanceRow.Unclosing InstanceRow.observation := fun _ _ => rfl

omit [Sha256] in
theorem Store.Consistent.of_column (h : s.Consistent)
    (heq : t.instances.map InstanceRow.observation = s.instances.map InstanceRow.observation) :
    t.Consistent := by
  intro i hi
  have hmem : i.observation ∈ s.instances.map InstanceRow.observation := by
    rw [← heq]
    exact List.mem_map_of_mem hi
  obtain ⟨j, hj, hji⟩ := List.mem_map.mp hmem
  have havailability : j.availability = i.availability := congrArg Prod.fst hji
  have hsource : j.availabilitySource = i.availabilitySource := congrArg Prod.snd hji
  show i.availability = .unknown ↔ i.availabilitySource = .unknown
  rw [← havailability, ← hsource]
  exact h j hj

omit [Sha256] in
theorem Store.Consistent.commit {α : Type} {x : StoreTx α} (hs : s.Consistent)
    (h : ∀ a t, x.run s = .ok (a, t) → t.Consistent) : (Tx.commit x s).2.Consistent := by
  rcases Tx.commit_cases x s with ⟨e, -, hc⟩ | ⟨a, t, hrun, hc⟩
  · rw [hc]
    exact hs
  · rw [hc]
    exact h a t hrun

theorem Store.Consistent.exec (hs : s.Consistent) (op : Op) : (s.exec op).Consistent := by
  cases op with
  | claimInstance request generated =>
      exact hs.commit fun _ _ h => claimInstance_consistent h hs
  | heartbeatInstance request => exact hs.commit fun _ _ h => heartbeatInstance_consistent h hs
  | resumeInstance request => exact hs.commit fun _ _ h => resumeInstance_consistent h hs
  | joinAndClaim request generated => exact hs.commit fun _ _ h => joinAndClaim_consistent h hs
  | authenticatedHeartbeat session availability source policy =>
      exact hs.commit fun _ _ h => authenticatedHeartbeat_consistent h hs
  | authenticatedResume request => exact hs.commit fun _ _ h => authenticatedResume_consistent h hs
  | _ => exact hs.of_column (s.exec_column unclosing_observation rfl)

theorem reach_consistent_exec {ok : Store → Op → Prop} (h : storeLts.Reach ok s) :
    s.Consistent := by
  refine h.invariant (P := Store.Consistent) ?_ ?_
  · rintro _ rfl i hi
    cases hi
  · rintro s op _ hs - rfl
    exact hs.exec op

/-! ## Credentials

An instance is stored with the hash of the token it was handed. -/

/-- Every stored hash is that of a token. -/
def Store.Hashed (s : Store) : Prop :=
  ∀ i ∈ s.instances, ∃ token, authenticates i.resumeTokenHash token

theorem Store.Hashed.of_instances (h : s.Hashed) (heq : t.instances = s.instances) : t.Hashed :=
  fun i hi => h i (heq ▸ hi)

/-- Updates that keep the hash column. -/
theorem Store.Hashed.update (h : s.Hashed) {p : InstanceRow → Bool}
    {f : InstanceRow → InstanceRow} (heq : t.instances = updateWhere p f s.instances)
    (hf : ∀ i, (f i).resumeTokenHash = i.resumeTokenHash) : t.Hashed := by
  intro i hi
  rw [heq] at hi
  obtain ⟨j, hj, rfl⟩ := mem_updateWhere.mp hi
  split
  · rw [hf]
    exact h j hj
  · exact h j hj

theorem Change.hashed {c : Context} (h : Change c s t) (hs : s.Hashed) : t.Hashed := by
  cases h with
  | squad _ _ _ heq => exact hs.of_instances (by rw [heq])
  | agent _ heq => exact hs.of_instances (by rw [heq])
  | membership _ _ _ heq => exact hs.of_instances (by rw [heq])
  | claim n expiry _ _ _ _ _ heq =>
      intro i hi
      rw [heq] at hi
      rcases List.mem_append.mp hi with hold | hnew
      · exact hs i hold
      · rw [List.mem_singleton.mp hnew]
        exact ⟨n.resumeToken, rfl⟩
  | renew i now expiry availability source _ _ _ _ _ heq =>
      have hinstances : t.instances = updateWhere (fun j => decide (j.id = i.id))
          (InstanceRow.renewed availability source (max now i.lastSeenAt) expiry) s.instances := by
        rw [heq]
        rfl
      exact hs.update hinstances fun _ => rfl
  | replace n expiry _ _ _ _ _ heq =>
      intro i hi
      rw [heq] at hi
      rcases List.mem_append.mp hi with hold | hnew
      · obtain ⟨j, hj, rfl⟩ := Tables.mem_closeInstances.mp hold
        obtain ⟨token, htoken⟩ := hs j hj
        refine ⟨token, ?_⟩
        rw [(InstanceRow.Evolves.closeIf _ _).token]
        exact htoken
      · rw [List.mem_singleton.mp hnew]
        exact ⟨n.resumeToken, rfl⟩
  | leave member now _ _ heq =>
      have hinstances : t.instances
          = updateWhere (fun i => decide (i.membershipId = member) && i.unclosed)
              (fun i => { i with closedAt := some now }) s.instances := by
        rw [heq]
        rfl
      exact hs.update hinstances fun _ => rfl
  | archive _ _ _ _ _ heq => exact hs.of_instances (by rw [heq]; rfl)
  | send _ _ _ heq => exact hs.of_instances (by rw [heq]; rfl)
  | acknowledge _ _ _ _ _ _ heq => exact hs.of_instances (by rw [heq]; rfl)

theorem reach_hashed {ok : Store → Op → Prop} (h : storeLts.Reach ok s) : s.Hashed := by
  refine h.invariant (P := Store.Hashed) ?_ ?_
  · rintro _ rfl i hi
    cases hi
  · rintro s op _ hs - rfl
    exact Changes.keeps (fun _ _ hchange => hchange.hashed)
      (s.exec_changes (P := fun _ => True) op fun _ _ => trivial) hs

/-! ## Roster lines -/

/-- The newest instance of the membership makes the member online. -/
def Tables.Present (t : Tables) (m : MembershipRow) (now : UnixMillis) : Prop :=
  ∃ i, t.newestInstance m.id = some i ∧ m.leftAt = none ∧ i.closedAt = none
    ∧ now < i.leaseExpiresAt

omit [Sha256] in
/-- What a roster line says, read off the rows of the member. -/
theorem rosterMember_cases {now : UnixMillis} {m : MembershipRow} {line : RosterMember}
    (h : rosterMember s.toTables now m = .ok line) :
    line.membership = m.toMembershipRecord
      ∧ ((line.presence = .online ∧ s.Present m now)
        ∨ (line.presence = .offline ∧ line.availability = .unknownAt now ∧ ¬ s.Present m now)) := by
  simp only [rosterMember] at h
  cases hnewest : s.newestInstance m.id with
  | none =>
      rw [hnewest] at h
      cases h
      refine ⟨rfl, Or.inr ⟨rfl, rfl, fun hpresent => ?_⟩⟩
      obtain ⟨i, hi, -⟩ := hpresent
      cases hnewest.symm.trans hi
  | some i =>
      rw [hnewest] at h
      by_cases honline : (m.joined && i.unclosed && decide (now < i.leaseExpiresAt)) = true
      · simp only [honline, if_true] at h
        have hparts : m.leftAt = none ∧ i.closedAt = none ∧ now < i.leaseExpiresAt := by
          simpa [and_assoc] using honline
        cases hobservation : AvailabilityObservation.new i.availability i.availabilitySource
            i.availabilityObservedAt with
        | error e => rw [hobservation] at h; cases h
        | ok observation =>
            rw [hobservation] at h
            cases h
            exact ⟨rfl, Or.inl ⟨rfl, i, hnewest, hparts⟩⟩
      · simp only [honline] at h
        cases h
        refine ⟨rfl, Or.inr ⟨rfl, rfl, fun hpresent => honline ?_⟩⟩
        obtain ⟨j, hj, hjoined, hopen, hlive⟩ := hpresent
        obtain rfl : i = j := Option.some.inj (hnewest.symm.trans hj)
        simp [hjoined, hopen, hlive]

/-- **Presence is authority.** In an active squad the newest instance makes a member online exactly
when some instance of the membership has current authority. -/
theorem Store.Owned.present_iff (howned : s.Owned) (hhashed : s.Hashed) {m : MembershipRow}
    (hm : m ∈ s.memberships) {q : SquadRecord} (hq : q ∈ s.squads) (hid : q.id = m.squadId)
    (hactive : q.state = .active) (now : UnixMillis) :
    s.Present m now ↔ ∃ i ∈ s.instances, i.membershipId = m.id
      ∧ ∃ token, s.Authorizes ⟨i.id, token, now⟩ i m := by
  constructor
  · rintro ⟨i, hnewest, hjoined, hopen, hlive⟩
    have hmem := head?_insertionSort_mem hnewest
    simp only [List.mem_filter, decide_eq_true_eq] at hmem
    obtain ⟨token, htoken⟩ := hhashed i hmem.1
    exact ⟨i, hmem.1, hmem.2, token, ⟨hmem.1, rfl, hm, hmem.2.symm, htoken⟩, hlive,
      ⟨q, hq, hid, hactive⟩, hopen, hjoined⟩
  · rintro ⟨i, hi, hmember, token, hauth⟩
    obtain ⟨o, ho⟩ := howned.owner m hm hauth.joined ⟨i, hi, hmember⟩
    -- what has authority is not closed, so it is the owner, which is what the roster reads
    obtain rfl : i = o := ho.eq_of_unclosed hi hmember hauth.unclosed
    exact ⟨i, ho.newestInstance, hauth.joined, hauth.unclosed, hauth.lease⟩

/-! ## The roster -/

/-- The memberships of a squad, past and present. -/
def Tables.membersOf (t : Tables) (squad : SquadId) : List MembershipRow :=
  t.memberships.filter fun m => decide (m.squadId = squad)

omit [Sha256] in
/-- A roster has one line for each membership of the squad, in the order of joining. -/
theorem roster_lines {q : SquadRecord} (hq : q ∈ s.squads) {now : UnixMillis}
    {lines : List RosterMember} (h : (roster q.name now).run s = .ok (lines, t)) :
    t = s ∧ List.Forall₂ (fun m line => rosterMember s.toTables now m = .ok line)
      ((s.membersOf q.id).insertionSort MembershipRow.RosterLe) lines := by
  have hsquad : (describeSquad q.name).run s = .ok (q, s) := by
    rw [describeSquad, Tx.run_query_bind, s.squadByName_eq_some.mpr ⟨hq, rfl⟩]
    rfl
  rw [roster, Tx.run_bind_of_ok s hsquad, Tx.run_query_bind, Tx.ofExcept_eq_ok] at h
  exact ⟨h.2.symm, Traverse.mapM_eq_ok.mp h.1⟩

/-- **Presence agrees with authority.** In every state reached under leases of at least a
millisecond, and at every reading: the roster of a squad lists each of its memberships, past and
present, exactly once; in an active squad a member is online exactly when some instance of the
membership would be accepted with its own token; a member that is offline has unknown availability
from an unknown source, and one that left is offline. -/
theorem presence_agrees_with_authority (hreach : storeLts.Reach WholeMillis s) {q : SquadRecord}
    (hq : q ∈ s.squads) (now : UnixMillis) :
    ∃ lines, Tx.commit (roster q.name now) s = (.ok lines, s)
      ∧ (lines.map RosterMember.membership).Perm
          ((s.membersOf q.id).map MembershipRow.toMembershipRecord)
      ∧ (lines.map fun line => line.membership.id).Nodup
      ∧ ∀ line ∈ lines,
          (q.state = .active → (line.presence = .online
            ↔ ∃ i ∈ s.instances, i.membershipId = line.membership.id
                ∧ ∃ token identity,
                    Tx.commit (authorizeCurrent ⟨i.id, token, now⟩) s = (.ok identity, s)))
          ∧ (line.presence = .offline →
              line.availability.availability = .unknown ∧ line.availability.source = .unknown)
          ∧ (line.membership.leftAt ≠ none → line.presence = .offline) := by
  obtain ⟨lines, hlines⟩ := roster_eq_ok (reach_consistent_exec hreach) hq now
  obtain ⟨-, hforall⟩ := roster_lines hq hlines
  have hperm : (lines.map RosterMember.membership).Perm
      ((s.membersOf q.id).map MembershipRow.toMembershipRecord) := by
    have hcolumn : lines.map RosterMember.membership
        = ((s.membersOf q.id).insertionSort MembershipRow.RosterLe).map
            MembershipRow.toMembershipRecord := by
      refine Traverse.map_eq_map ?_ hforall
      intro m line hread
      exact (rosterMember_cases hread).1
    rw [hcolumn]
    exact (List.perm_insertionSort _ _).map _
  refine ⟨lines, Tx.commit_of_ok hlines, hperm, ?_, fun line hline => ?_⟩
  · -- a column of the lines is a column of the membership rows, whose ids are unique
    have hids := (hperm.map MembershipRecord.id).nodup_iff
    rw [List.map_map, List.map_map] at hids
    refine hids.mpr ?_
    exact s.constraints.membershipId.nodup_filter _
  · obtain ⟨m, hm, hread⟩ := Traverse.exists_of_mem_right hforall hline
    rw [List.mem_insertionSort] at hm
    obtain ⟨hmem, hsquad⟩ := List.mem_filter.mp hm
    obtain ⟨hmembership, hpresence⟩ := rosterMember_cases hread
    refine ⟨fun hactive => ?_, fun hoffline => ?_, fun hleft => ?_⟩
    · have hiff := (reach_owned hreach).present_iff (reach_hashed hreach) hmem hq
        (of_decide_eq_true hsquad).symm hactive now
      have honline : line.presence = .online ↔ s.Present m now := by
        rcases hpresence with ⟨hon, hpresent⟩ | ⟨hoff, -, habsent⟩
        · exact iff_of_true hon hpresent
        · exact iff_of_false (by simp [hoff]) habsent
      rw [honline, hiff, hmembership]
      constructor
      · rintro ⟨i, hi, hmember, token, hauth⟩
        exact ⟨i, hi, hmember, token, identityOf i m,
          Tx.commit_of_ok (authorizeCurrent_eq_ok.mpr ⟨i, m, hauth, rfl, rfl⟩)⟩
      · rintro ⟨i, hi, hmember, token, identity, hcommit⟩
        obtain ⟨j, n, hauth, -, -⟩ := authorizeCurrent_eq_ok.mp (Tx.commit_eq_ok.mp hcommit)
        obtain rfl : j = i := s.constraints.instanceId.eq hauth.mem hi hauth.id
        obtain rfl : n = m := s.constraints.membershipId.eq hauth.member hmem
          (hauth.memberId.trans hmember)
        exact ⟨j, hi, hmember, token, hauth⟩
    · rcases hpresence with ⟨hon, -⟩ | ⟨-, havailability, -⟩
      · cases hoffline.symm.trans hon
      · rw [havailability]
        exact ⟨rfl, rfl⟩
    · rcases hpresence with ⟨-, i, -, hjoined, -⟩ | ⟨hoff, -⟩
      · rw [hmembership] at hleft
        exact absurd hjoined hleft
      · exact hoff

end Presence

open Sample in
/-- Alice and Bob are both online ten milliseconds after Bob joined. -/
theorem presence_agrees_with_authority_greeted :
    ∃ lines, Tx.commit (roster alpha ⟨111, by decide⟩) (Store.empty.run greeted)
        = (.ok lines, Store.empty.run greeted)
      ∧ (lines.map fun line => line.membership.id).Nodup := by
  have hmillis : ∀ op ∈ greeted, ∀ policy ∈ op.policy, policy.AtLeastOneMilli := by decide
  have hreach : storeLts.Reach WholeMillis (Store.empty.run greeted) :=
    reach_run greeted fun op hop _ => hmillis op hop
  have hsquad : ∃ q ∈ (Store.empty.run greeted).squads, q.name = alpha := by decide
  obtain ⟨q, hq, hname⟩ := hsquad
  obtain ⟨lines, hlines, -, hnodup, -⟩ :=
    presence_agrees_with_authority hreach hq ⟨111, by decide⟩
  rw [hname] at hlines
  exact ⟨lines, hlines, hnodup⟩

open Sample in
/-- **A member with authority is shown offline.** `ins_a` took over from `ins_b` in the millisecond
`ins_b` was claimed in, under a lease of no whole millisecond; the roster reads the closed `ins_b`. -/
theorem roster_hides_live_owner :
    ¬ ∀ s : Store, storeLts.Reach Lts.always s → ∀ q ∈ s.squads, q.state = .active →
        ∀ now lines, Tx.commit (roster q.name now) s = (.ok lines, s) → ∀ line ∈ lines,
          (line.presence = .online ↔ ∃ i ∈ s.instances, i.membershipId = line.membership.id
            ∧ ∃ token identity,
                Tx.commit (authorizeCurrent ⟨i.id, token, now⟩) s = (.ok identity, s)) := by
  intro hclaim
  have hreach : storeLts.Reach Lts.always (Store.empty.run resumedInstant) :=
    reach_run resumedInstant fun _ _ _ => trivial
  have hsquad : ∃ q ∈ (Store.empty.run resumedInstant).squads, q.state = .active ∧ q.name = alpha := by
    decide
  obtain ⟨q, hq, hactive, hname⟩ := hsquad
  have hsame : ∀ {α : Type} {x : StoreTx α}, x.ReadOnly →
      (Tx.commit x (Store.empty.run resumedInstant)).2 = Store.empty.run resumedInstant :=
    fun h => h.commit_snd _
  have hroster : (Tx.commit (roster alpha ⟨100, by decide⟩)
        (Store.empty.run resumedInstant)).1.toOption.map
      (fun lines => lines.map fun line => (line.membership.id, line.presence))
        = some [(alice, .offline)] := by
    decide
  have hauthorized : (Tx.commit (authorizeCurrent ⟨⟨"ins_a", by decide⟩, aliceToken,
      ⟨100, by decide⟩⟩) (Store.empty.run resumedInstant)).1.isOk = true := by
    decide
  have hinstance : ∃ i ∈ (Store.empty.run resumedInstant).instances,
      i.id = (⟨"ins_a", by decide⟩ : InstanceId) ∧ i.membershipId = alice := by
    decide
  obtain ⟨i, hi, hid, hmember⟩ := hinstance
  obtain ⟨identity, hcommit⟩ := Tx.exists_of_isOk hauthorized
  rw [hsame (authorizeCurrent_readOnly _), ← hid] at hcommit
  -- the one line of the roster is Alice's
  have hread := hsame (roster_readOnly alpha ⟨100, by decide⟩)
  cases hresult : Tx.commit (roster alpha ⟨100, by decide⟩) (Store.empty.run resumedInstant) with
  | mk result after =>
      rw [hresult] at hroster hread
      cases result with
      | error e => cases hroster
      | ok lines =>
          cases lines with
          | nil => cases hroster
          | cons line rest =>
              cases hread
              have hline : line.membership.id = alice ∧ line.presence = .offline := by
                simpa using (List.cons.inj (Option.some.inj hroster)).1
              have honline := (hclaim _ hreach q hq hactive ⟨100, by decide⟩ (line :: rest)
                (by rw [hname]; exact hresult) line (List.mem_cons_self ..)).mpr
                  ⟨i, hi, hmember.trans hline.1.symm, aliceToken, identity, hcommit⟩
              cases honline.symm.trans hline.2

end Psst
