import Psst.Store.Constraint
import Psst.Store.Lease

/-!
# Leases that are granted

A policy is checked on durations that count nanoseconds, a lease ends at a reading that counts
milliseconds. What remains of a duration in whole milliseconds decides whether the instance a
lease is granted to is online at all.
-/

namespace Psst

open Table

/-! ## Readings -/

theorem UnixMillis.checkedAdd_isSome {t : UnixMillis} {d : Duration} :
    (t.checkedAdd d).isSome = true ↔ t.asI64 + d.asMillis < 2 ^ 63 := by
  unfold UnixMillis.checkedAdd
  split
  · split
    · rename_i h
      exact iff_of_true rfl h
    · rename_i h
      exact iff_of_false Bool.false_ne_true h
  · rename_i h
    exact iff_of_false Bool.false_ne_true (by omega)

theorem UnixMillis.asI64_max (a b : UnixMillis) :
    (Max.max a b).asI64 = Max.max a.asI64 b.asI64 := by
  rcases le_total a b with h | h
  · rw [max_eq_right h, max_eq_right (UnixMillis.le_iff.mp h)]
  · rw [max_eq_left h, max_eq_left (UnixMillis.le_iff.mp h)]

/-- A renewal before the expiry fails only where the new expiry has no reading. -/
theorem renewLease_isOk {current now : UnixMillis} {duration : Duration} (hlive : now < current) :
    (∃ expiry, renewLease (InstanceState.atNow none current now) current now duration = .ok expiry)
      ↔ (now.checkedAdd duration).isSome = true := by
  have honline : InstanceState.atNow none current now = .online :=
    InstanceState.atNow_eq_online.mpr ⟨rfl, hlive⟩
  have hopen : ¬ (InstanceState.online = .expired ∨ current ≤ now) := by
    rintro (h | h)
    · cases h
    · exact absurd hlive (not_lt.mpr h)
  unfold renewLease
  rw [honline, if_neg (by decide), if_neg hopen]
  cases now.checkedAdd duration with
  | none =>
      apply iff_of_false _ Bool.false_ne_true
      rintro ⟨expiry, h⟩
      cases h
  | some candidate => exact iff_of_true ⟨_, rfl⟩ rfl

/-! ## Heartbeats that succeed -/

theorem currentInstance_cases {s : Store} {id : InstanceId} {i : InstanceRow}
    (h : s.currentInstance id = some i) :
    i ∈ s.instances ∧ i.id = id ∧ i.closedAt = none := by
  obtain ⟨hfind, hguard⟩ := Option.filter_eq_some_iff.mp h
  simp only [Bool.and_eq_true, InstanceRow.unclosed_iff] at hguard
  obtain ⟨hmem, hid⟩ := s.instanceById_eq_some.mp hfind
  exact ⟨hmem, hid, hguard.1⟩

/-- The schema accepts every heartbeat. -/
theorem renewed_write {s : Store} (p : InstanceRow → Bool) (availability : Availability)
    (source : AvailabilitySource) (now expiry : UnixMillis) :
    ∃ t, (StoreTx.write (Tables.renewInstances p
      (InstanceRow.renewed availability source now expiry))).run s = .ok ((), t) := by
  have hconstraints : (s.toTables.renewInstances p
      (InstanceRow.renewed availability source now expiry)).Constraints := by
    apply s.constraints.renewInstances
    · exact fun _ => rfl
    · exact fun _ => rfl
    · exact fun _ => rfl
    · exact fun _ hopen => hopen
  exact ⟨_, StoreTx.write_run_of_constraints hconstraints⟩

section Grants

variable [Sha256]

/-- A heartbeat with the token of a current instance, before its lease ends. -/
theorem heartbeatInstance_isOk {request : HeartbeatInstance} {s : Store} {i : InstanceRow}
    (hcurrent : s.currentInstance request.id = some i)
    (htoken : authenticates i.resumeTokenHash request.resumeToken)
    (hobserved : request.availability = .unknown ↔ request.availabilitySource = .unknown)
    (hlive : max request.now i.lastSeenAt < i.leaseExpiresAt) :
    (∃ record t, (heartbeatInstance request).run s = .ok (record, t))
      ↔ ((max request.now i.lastSeenAt).checkedAdd
          request.leasePolicy.leaseDuration).isSome = true := by
  rw [← renewLease_isOk hlive]
  constructor
  · rintro ⟨record, t, hrun⟩
    obtain ⟨j, expiry, ⟨hj, hid⟩, -, hrenew, -⟩ := heartbeatInstance_eq_ok hrun
    obtain ⟨hmem, hid', -⟩ := currentInstance_cases hcurrent
    have hji : j = i := s.constraints.instanceId.eq hj hmem (hid.trans hid'.symm)
    rw [hji] at hrenew
    exact ⟨expiry, hrenew⟩
  · rintro ⟨expiry, hrenew⟩
    obtain ⟨t, hwrite⟩ := renewed_write (s := s)
      (fun j => decide (j.id = request.id) && j.unclosed) request.availability
      request.availabilitySource (max request.now i.lastSeenAt) expiry
    apply Exists.intro
    apply Exists.intro t
    rw [heartbeatInstance]
    simp only [Tx.bind_eq_ok, validateObservation_eq_ok, Tx.query_eq_ok, Tx.expect_eq_ok,
      Tx.require_eq_ok, Tx.ofExcept_eq_ok, Tx.pure_eq_ok]
    exact ⟨(), s, ⟨hobserved, rfl⟩, _, s, ⟨rfl, rfl⟩, i, s, ⟨hcurrent, rfl⟩, (), s,
      ⟨htoken, rfl⟩, expiry, s, ⟨Tx.mapError_eq_ok.mpr hrenew, rfl⟩, (), t, hwrite, rfl, rfl⟩

/-- The heartbeat of a session with current authority. -/
theorem authenticatedHeartbeat_isOk {session : AuthenticatedSession} {s : Store} {i : InstanceRow}
    {m : MembershipRow} {availability : Availability} {source : AvailabilitySource}
    {policy : LeasePolicy} (hauth : s.Authorizes session i m)
    (hobserved : availability = .unknown ↔ source = .unknown)
    (hlive : max session.now i.lastSeenAt < i.leaseExpiresAt) :
    (∃ record t, (authenticatedHeartbeat session availability source policy).run s
        = .ok (record, t))
      ↔ ((max session.now i.lastSeenAt).checkedAdd policy.leaseDuration).isSome = true := by
  rw [← renewLease_isOk hlive]
  constructor
  · rintro ⟨record, t, hrun⟩
    obtain ⟨j, n, expiry, hauth', hrenew, -⟩ := authenticatedHeartbeat_eq_ok hrun
    obtain ⟨rfl, -⟩ := hauth'.toAuthenticates.unique hauth.toAuthenticates
    exact ⟨expiry, hrenew⟩
  · rintro ⟨expiry, hrenew⟩
    obtain ⟨t, hwrite⟩ := renewed_write (s := s) (fun j => decide (j.id = session.instanceId))
      availability source (max session.now i.lastSeenAt) expiry
    apply Exists.intro
    apply Exists.intro t
    rw [authenticatedHeartbeat]
    simp only [Tx.bind_eq_ok, validateObservation_eq_ok, authorizeCurrent_eq_ok,
      Tx.ofExcept_eq_ok, Tx.pure_eq_ok]
    exact ⟨(), s, ⟨hobserved, rfl⟩, _, s, ⟨i, m, hauth, rfl, rfl⟩, expiry, s,
      ⟨Tx.mapError_eq_ok.mpr hrenew, rfl⟩, (), t, hwrite, rfl, rfl⟩

/-! ## What a grant gives -/

/-- A heartbeat of the instance inserted as `n`. -/
structure HeartbeatInstance.Of (request : HeartbeatInstance) (n : NewInstance) : Prop where
  id : request.id = n.id
  token : request.resumeToken = n.resumeToken
  policy : request.leasePolicy = n.leasePolicy
  observed : request.availability = .unknown ↔ request.availabilitySource = .unknown

/-- What an instance can count on that is inserted, or renewed, at `now` under `policy`. The
heartbeats are those at the given readings, in any store that holds the instance as inserted. -/
structure LeasePolicy.Live (policy : LeasePolicy) (now : UnixMillis)
    (readings : UnixMillis → Prop) : Prop where
  inserted : ∀ n s record t, n.leasePolicy = policy → n.now = now →
    (insertInstance n).run s = .ok (record, t) →
      InstanceState.atNow record.closedAt record.leaseExpiresAt now = .online
  beats : ∀ n s record t, n.leasePolicy = policy → n.now = now →
    (insertInstance n).run s = .ok (record, t) →
      ∀ u : Store, u.currentInstance n.id = some (n.row record.leaseExpiresAt) →
        ∀ request : HeartbeatInstance, request.Of n → request.now < record.leaseExpiresAt →
          readings request.now →
            ∃ renewed v, (heartbeatInstance request).run u = .ok (renewed, v)
  sessionBeats : ∀ n s record t, n.leasePolicy = policy → n.now = now →
    (insertInstance n).run s = .ok (record, t) →
      ∀ (u : Store) (session : AuthenticatedSession) m availability source,
        u.Authorizes session (n.row record.leaseExpiresAt) m →
        (availability = Availability.unknown ↔ source = AvailabilitySource.unknown) →
        readings session.now →
          ∃ renewed v,
            (authenticatedHeartbeat session availability source policy).run u = .ok (renewed, v)
  renewed : ∀ request s record t, request.leasePolicy = policy → request.now = now →
    (heartbeatInstance request).run s = .ok (record, t) →
      InstanceState.atNow record.closedAt record.leaseExpiresAt now = .online
  sessionRenewed : ∀ session availability source s record t, session.now = now →
    (authenticatedHeartbeat session availability source policy).run s = .ok (record, t) →
      InstanceState.atNow record.closedAt record.leaseExpiresAt now = .online

/-- Whatever the policy, an instance that is renewed is online: it was before. -/
theorem heartbeatInstance_online {request : HeartbeatInstance} {s t : Store}
    {record : InstanceRecord} (h : (heartbeatInstance request).run s = .ok (record, t)) :
    InstanceState.atNow record.closedAt record.leaseExpiresAt request.now = .online := by
  simp only [heartbeatInstance, Tx.bind_eq_ok, validateObservation_eq_ok, Tx.query_eq_ok,
    Tx.expect_eq_ok, Tx.require_eq_ok, Tx.ofExcept_eq_ok, Tx.pure_eq_ok] at h
  obtain ⟨_, _, ⟨-, rfl⟩, _, _, ⟨rfl, rfl⟩, i, _, ⟨hcurrent, rfl⟩, _, _, ⟨-, rfl⟩, expiry, _,
    ⟨hrenew, rfl⟩, _, _, -, rfl, -⟩ := h
  obtain ⟨-, -, hunclosed⟩ := currentInstance_cases hcurrent
  obtain ⟨hlive, hforward⟩ := renewLease_eq_ok (Tx.mapError_eq_ok.mp hrenew)
  apply InstanceState.atNow_eq_online.mpr
  exact ⟨hunclosed, ((le_max_left _ _).trans_lt hlive).trans_le hforward⟩

theorem authenticatedHeartbeat_online {session : AuthenticatedSession}
    {availability : Availability} {source : AvailabilitySource} {policy : LeasePolicy}
    {s t : Store} {record : InstanceRecord}
    (h : (authenticatedHeartbeat session availability source policy).run s = .ok (record, t)) :
    InstanceState.atNow record.closedAt record.leaseExpiresAt session.now = .online := by
  simp only [authenticatedHeartbeat, Tx.bind_eq_ok, validateObservation_eq_ok,
    authorizeCurrent_eq_ok, Tx.ofExcept_eq_ok, Tx.pure_eq_ok] at h
  obtain ⟨_, _, ⟨-, rfl⟩, _, _, ⟨i, m, hauth, rfl, rfl⟩, expiry, _, ⟨hrenew, rfl⟩, _, _, -, rfl,
    -⟩ := h
  obtain ⟨hlive, hforward⟩ := renewLease_eq_ok (Tx.mapError_eq_ok.mp hrenew)
  apply InstanceState.atNow_eq_online.mpr
  exact ⟨rfl, ((le_max_left _ _).trans_lt hlive).trans_le hforward⟩

/-- A lease of at least a millisecond is live, as far as the heartbeats have a new expiry. -/
theorem LeasePolicy.live_of_milli {policy : LeasePolicy} (hmilli : policy.AtLeastOneMilli)
    {now : UnixMillis} {readings : UnixMillis → Prop}
    (hreadings : ∀ reading, readings reading →
      reading.asI64 < now.asI64 + policy.leaseDuration.asMillis →
      reading.asI64 + policy.leaseDuration.asMillis < 2 ^ 63) :
    policy.Live now readings := by
  have hpos : 1 ≤ policy.leaseDuration.asMillis := hmilli
  -- the later of a reading before the expiry and the grant is before the expiry too
  have hlater : ∀ reading expiry : UnixMillis,
      now.checkedAdd policy.leaseDuration = some expiry → reading < expiry →
      readings reading → Max.max reading now < expiry
        ∧ ((Max.max reading now).checkedAdd policy.leaseDuration).isSome = true := by
    intro reading expiry hexpiry hbefore hreading
    have hsum := UnixMillis.checkedAdd_eq_some hexpiry
    have hfits := expiry.isLt
    have hlt := UnixMillis.lt_iff.mp hbefore
    have hnext := hreadings reading hreading (by omega)
    rw [UnixMillis.lt_iff, UnixMillis.checkedAdd_isSome, UnixMillis.asI64_max]
    omega
  refine ⟨?_, ?_, ?_, ?_, ?_⟩
  · rintro n s record t rfl rfl hrun
    obtain ⟨expiry, hexpiry, -, rfl⟩ := insertInstance_eq_ok.mp hrun
    have hsum := UnixMillis.checkedAdd_eq_some hexpiry
    apply InstanceState.atNow_eq_online.mpr
    refine ⟨rfl, UnixMillis.lt_iff.mpr ?_⟩
    show n.now.asI64 < expiry.asI64
    omega
  · rintro n s record t rfl rfl hrun u hcurrent request hof hbefore hreading
    obtain ⟨expiry, hexpiry, -, rfl⟩ := insertInstance_eq_ok.mp hrun
    obtain ⟨hlive, hnext⟩ := hlater request.now expiry hexpiry hbefore hreading
    rw [← hof.id] at hcurrent
    have htoken : authenticates (n.row expiry).resumeTokenHash request.resumeToken := by
      rw [hof.token]
      rfl
    apply (heartbeatInstance_isOk hcurrent htoken hof.observed hlive).mpr
    rw [hof.policy]
    exact hnext
  · rintro n s record t rfl rfl hrun u session m availability source hauth hobserved hreading
    obtain ⟨expiry, hexpiry, -, rfl⟩ := insertInstance_eq_ok.mp hrun
    obtain ⟨hlive, hnext⟩ := hlater session.now expiry hexpiry hauth.lease hreading
    exact (authenticatedHeartbeat_isOk hauth hobserved hlive).mpr hnext
  · rintro request s record t - rfl hrun
    exact heartbeatInstance_online hrun
  · rintro session availability source s record t rfl hrun
    exact authenticatedHeartbeat_online hrun

/-- A claim or a resume inserts its instance in the end. -/
theorem claimInstance_inserts {request : ClaimInstance} {generated : Option ResumeToken}
    {s t : Store} {outcome : ClaimOutcome}
    (h : (claimInstance request generated).run s = .ok (outcome, t)) :
    ∃ token u, (insertInstance (request.instance token)).run u = .ok (outcome.record, t) := by
  simp only [claimInstance, Tx.bind_eq_ok, Tx.pure_eq_ok] at h
  obtain ⟨_, _, -, _, _, -, token, _, -, _, _, -, _, _, -, _, u, -, record, _, hinsert, rfl, rfl⟩ := h
  exact ⟨token, u, hinsert⟩

theorem resumeInstance_inserts {request : ResumeInstance} {s t : Store} {record : InstanceRecord}
    (h : (resumeInstance request).run s = .ok (record, t)) :
    ∃ u, (insertInstance request).run u = .ok (record, t) := by
  simp only [resumeInstance, Tx.bind_eq_ok] at h
  obtain ⟨_, _, -, _, _, -, _, _, -, _, _, -, _, _, -, _, _, -, _, _, -, _, u, -, hinsert⟩ := h
  exact ⟨u, hinsert⟩

namespace Sample

/-- Alice has joined `alpha` and holds no instance. -/
def aliceJoined : Store :=
  letI := sha256
  Store.empty.run
    [.join (joinAlpha aliceName aliceAgent alice aliceInstance (instant 100)).membership]

/-- She can be given an instance at any reading. -/
theorem aliceJoined_insert {policy : LeasePolicy} {now expiry : UnixMillis}
    (hexpiry : now.checkedAdd policy.leaseDuration = some expiry) :
    ∃ t, (insertInstance (aliceInstanceAt now aliceInstance policy)).run aliceJoined
        = .ok (((aliceInstanceAt now aliceInstance policy).row expiry).record policy, t)
      ∧ t.currentInstance aliceInstance
        = some ((aliceInstanceAt now aliceInstance policy).row expiry) := by
  have hempty : aliceJoined.instances = [] := by decide
  have hmember : ∃ m ∈ aliceJoined.memberships, m.id = alice ∧ m.joined = true := by
    decide
  obtain ⟨m, hm, hmid, hjoined⟩ := hmember
  have hconstraints : (aliceJoined.toTables.addInstance
      ((aliceInstanceAt now aliceInstance policy).row expiry)).Constraints := by
    apply (aliceJoined.constraints.addInstance_iff ⟨m, hm, hmid⟩ _).mpr
    · refine ⟨fun i hi => ?_, by show 0 < sqlLength "test"; decide⟩
      rw [hempty] at hi
      cases hi
    · intro i hi
      rw [hempty] at hi
      cases hi
  obtain ⟨t, ht⟩ : ∃ t : Store, t.toTables = aliceJoined.toTables.addInstance
      ((aliceInstanceAt now aliceInstance policy).row expiry) := ⟨⟨_, hconstraints⟩, rfl⟩
  refine ⟨t, insertInstance_eq_ok.mpr ⟨expiry, hexpiry, ht, rfl⟩, ?_⟩
  apply Option.filter_eq_some_iff.mpr
  refine ⟨t.instanceById_eq_some.mpr ⟨?_, rfl⟩, ?_⟩
  · rw [ht]
    exact List.mem_append_right _ (List.mem_singleton.mpr rfl)
  · have hfind : aliceJoined.membershipById alice = some m :=
      aliceJoined.membershipById_eq_some.mpr ⟨hm, hmid⟩
    have hsame : t.membershipById alice = aliceJoined.membershipById alice := by
      rw [ht]
      rfl
    show (true && (t.membershipById alice).any MembershipRow.joined) = true
    rw [hsame, hfind]
    exact hjoined

/-- Alice's heartbeat at `reading`. -/
def aliceBeats (reading : UnixMillis) (policy : LeasePolicy) : HeartbeatInstance where
  id := aliceInstance
  resumeToken := aliceToken
  availability := .unknown
  availabilitySource := .unknown
  now := reading
  leasePolicy := policy

omit [Sha256] in
theorem aliceBeats_of (now reading : UnixMillis) (policy : LeasePolicy) :
    (aliceBeats reading policy).Of (aliceInstanceAt now aliceInstance policy) :=
  ⟨rfl, rfl, rfl, iff_of_true rfl rfl⟩

end Sample

open Sample in
theorem LeasePolicy.Live.milli {policy : LeasePolicy} {now : UnixMillis}
    {readings : UnixMillis → Prop}
    (hnow : (now.checkedAdd policy.leaseDuration).isSome = true)
    (h : policy.Live now readings) : policy.AtLeastOneMilli := by
  obtain ⟨expiry, hexpiry⟩ := Option.isSome_iff_exists.mp hnow
  obtain ⟨t, hrun, -⟩ := aliceJoined_insert hexpiry
  have honline := (InstanceState.atNow_eq_online.mp (h.inserted _ _ _ _ rfl rfl hrun)).2
  have hlt : now.asI64 < expiry.asI64 := UnixMillis.lt_iff.mp honline
  have hsum := UnixMillis.checkedAdd_eq_some hexpiry
  show 1 ≤ policy.leaseDuration.asMillis
  omega

open Sample in
/-- The last reading before the expiry has a new expiry too. -/
theorem LeasePolicy.Live.fits {policy : LeasePolicy} {now : UnixMillis}
    (hnow : (now.checkedAdd policy.leaseDuration).isSome = true)
    (h : policy.Live now fun _ => True) :
    now.asI64 + 2 * policy.leaseDuration.asMillis ≤ 2 ^ 63 := by
  have hpos : 1 ≤ policy.leaseDuration.asMillis := h.milli hnow
  obtain ⟨expiry, hexpiry⟩ := Option.isSome_iff_exists.mp hnow
  obtain ⟨t, hrun, hcurrent⟩ := aliceJoined_insert hexpiry
  have hsum := UnixMillis.checkedAdd_eq_some hexpiry
  have hfits := expiry.isLt
  obtain ⟨last, hlast⟩ : ∃ last : UnixMillis, last.asI64 = expiry.asI64 - 1 :=
    ⟨⟨expiry.asI64 - 1, by omega⟩, rfl⟩
  have hbefore : last < expiry := UnixMillis.lt_iff.mpr (by omega)
  have hlater : max last now = last := max_eq_left (UnixMillis.le_iff.mpr (by omega))
  have hbeat := h.beats _ _ _ _ rfl rfl hrun t hcurrent (aliceBeats last policy)
    (aliceBeats_of now last policy) hbefore trivial
  have hlive : max last now < expiry := by
    rw [hlater]
    exact hbefore
  have hrenewal := @heartbeatInstance_isOk _ (aliceBeats last policy) _ _ hcurrent rfl
    (aliceBeats_of now last policy).observed hlive
  have hmax : ((max last now).checkedAdd policy.leaseDuration).isSome = true :=
    hrenewal.mp hbeat
  rw [hlater, UnixMillis.checkedAdd_isSome] at hmax
  omega

/-- **Accepted lease policies give live leases exactly from a millisecond on.** At a reading that
the duration can be added to, an inserted instance is online, its heartbeats before the expiry
succeed as long as the duration can be added to their readings too, and a renewed instance is
online, if and only if the lease has a whole millisecond; with no condition on the readings the
end of time must be a second duration away. A claim or a resume then has an owner that is online. -/
theorem lease_live_iff (policy : LeasePolicy) (now : UnixMillis)
    (hnow : (now.checkedAdd policy.leaseDuration).isSome = true) :
    (policy.Live now (fun reading => (reading.checkedAdd policy.leaseDuration).isSome = true)
        ↔ policy.AtLeastOneMilli)
      ∧ (policy.Live now (fun _ => True)
        ↔ policy.AtLeastOneMilli ∧ now.asI64 + 2 * policy.leaseDuration.asMillis ≤ 2 ^ 63)
      ∧ (policy.AtLeastOneMilli →
        (∀ request generated s outcome t, request.leasePolicy = policy → request.now = now →
          (claimInstance request generated).run s = .ok (outcome, t) →
          InstanceState.atNow outcome.record.closedAt outcome.record.leaseExpiresAt now = .online)
        ∧ ∀ request s record t, request.leasePolicy = policy → request.now = now →
          (resumeInstance request).run s = .ok (record, t) →
          InstanceState.atNow record.closedAt record.leaseExpiresAt now = .online) := by
  have hlive : policy.AtLeastOneMilli →
      policy.Live now (fun reading => (reading.checkedAdd policy.leaseDuration).isSome = true) :=
    fun hmilli => LeasePolicy.live_of_milli hmilli fun _ hreading _ =>
      UnixMillis.checkedAdd_isSome.mp hreading
  refine ⟨⟨fun h => h.milli hnow, hlive⟩, ⟨fun h => ⟨h.milli hnow, h.fits hnow⟩, ?_⟩, ?_⟩
  · rintro ⟨hmilli, hfits⟩
    exact LeasePolicy.live_of_milli hmilli fun _ _ hbefore => by omega
  · intro hmilli
    refine ⟨?_, ?_⟩
    · intro request generated s outcome t hpolicy hreading hrun
      obtain ⟨token, u, hinsert⟩ := claimInstance_inserts hrun
      exact (hlive hmilli).inserted _ _ _ _ hpolicy hreading hinsert
    · intro request s record t hpolicy hreading hrun
      obtain ⟨u, hinsert⟩ := resumeInstance_inserts hrun
      exact (hlive hmilli).inserted _ _ _ _ hpolicy hreading hinsert

end Grants

open Sample in
/-- Under the default policy Alice's instance is live. -/
theorem lease_live_iff_default : LeasePolicy.default.Live (instant 100) fun _ => True :=
  (lease_live_iff .default (instant 100) (by decide)).2.1.mpr
    ⟨LeasePolicy.default_atLeastOneMilli, by decide⟩

open Sample in
/-- **An accepted lease of two nanoseconds is over when it is granted**: the instance is expired
at the reading it is inserted at. -/
theorem nano_lease_expired :
    (LeasePolicy.new (.fromNanos 1) (.fromNanos 2)).toOption = some nanoLease
      ∧ ∃ record t,
        (insertInstance (aliceInstanceAt (instant 100) aliceInstance nanoLease)).run aliceJoined
            = .ok (record, t)
          ∧ InstanceState.atNow record.closedAt record.leaseExpiresAt (instant 100)
            = .expired := by
  have hexpiry : (instant 100).checkedAdd nanoLease.leaseDuration = some (instant 100) := by
    decide
  obtain ⟨t, hrun, -⟩ := aliceJoined_insert hexpiry
  refine ⟨by decide, _, t, hrun, ?_⟩
  show InstanceState.atNow none (instant 100) (instant 100) = .expired
  decide

end Psst
