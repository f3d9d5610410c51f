import Psst.Store.Growth

/-!
# Why a session is denied

`NotMember` is the answer for a closed instance and for a membership that left. Under a clock
that never goes back the two cannot be confused: a resume closes an instance only past its
lease, and past its lease an instance is answered `LeaseExpired` before anyone looks whether
it is closed.
-/

namespace Psst

open Table

/-- The membership has left. -/
def Store.Left (s : Store) (member : MembershipId) : Prop :=
  ∃ m ∈ s.memberships, m.id = member ∧ m.leftAt ≠ none

theorem Store.Left.finished {s : Store} {member : MembershipId} (h : s.Left member) :
    s.Finished member :=
  let ⟨m, hm, hid, hleft⟩ := h
  ⟨m, hm, hid, Or.inl hleft⟩

theorem Store.Left.grows {s t : Store} {member : MembershipId} (h : s.Left member)
    (hgrows : s.Grows t) : t.Left member := by
  obtain ⟨m, hm, hid, hleft⟩ := h
  obtain ⟨m', hm', hid', -, hkeep⟩ := hgrows.memberships m hm
  exact ⟨m', hm', hid'.trans hid, hkeep hleft⟩

theorem Store.not_left_of_joined {s : Store} {m : MembershipRow} (hm : m ∈ s.memberships)
    (hjoined : m.leftAt = none) : ¬ s.Left m.id := by
  rintro ⟨m', hm', hid, hleft⟩
  rw [s.constraints.membershipId.eq hm' hm hid] at hleft
  exact hleft hjoined

/-! ## Closed instances -/

/-- Every closed instance belongs to a membership that left, or its lease is over by `now`. -/
def Store.Lapsed (s : Store) (now : UnixMillis) : Prop :=
  ∀ i ∈ s.instances, i.closedAt ≠ none → s.Left i.membershipId ∨ i.leaseExpiresAt ≤ now

theorem Store.Lapsed.mono {s : Store} {now later : UnixMillis} (h : s.Lapsed now)
    (hle : now ≤ later) : s.Lapsed later :=
  fun i hi hclosed => (h i hi hclosed).imp_right fun hlease => hlease.trans hle

section Runs

variable [Sha256] {c : Context} {s s' : Store} {now : UnixMillis}

theorem Change.lapsed (h : Change c s s') (hclock : ∀ t ∈ c.clock, t = now) (howned : s.Owned)
    (hs : s.Lapsed now) : s'.Lapsed now := by
  have hgrows := h.grows
  have hold : ∀ i ∈ s.instances, i.closedAt ≠ none →
      s'.Left i.membershipId ∨ i.leaseExpiresAt ≤ now :=
    fun i hi hclosed => (hs i hi hclosed).imp_left fun hleft => hleft.grows hgrows
  have hsame : s'.instances = s.instances → s'.Lapsed now :=
    fun heq i hi => hold i (heq ▸ hi)
  cases h with
  | claim n expiry _ _ _ _ _ heq =>
      intro i hi hclosed
      rw [heq] at hi
      rcases List.mem_append.mp hi with hi | hi
      · exact hold i hi hclosed
      · rw [List.mem_singleton.mp hi] at hclosed
        exact absurd rfl hclosed
  | renew o t expiry availability source _ ho hopen _ _ heq =>
      intro i hi hclosed
      rw [heq] at hi
      obtain ⟨i₀, hi₀, rfl⟩ := mem_updateWhere.mp hi
      split at hclosed
      · next hid =>
          rw [s.constraints.instanceId.eq hi₀ ho (by simpa using hid)] at hclosed
          exact absurd hopen hclosed
      · next hid =>
          rw [if_neg hid]
          exact hold i₀ hi₀ hclosed
  | replace n expiry hnow _ hactive hguard _ heq =>
      -- the owner it closes is past its lease
      obtain ⟨o, ho, hpast⟩ := howned.resume_past_lease hactive hguard
      intro i hi hclosed
      rw [heq] at hi
      rcases List.mem_append.mp hi with hi | hi
      · obtain ⟨i₀, hi₀, rfl⟩ := Tables.mem_closeInstances.mp hi
        rw [InstanceRow.closeIf_membershipId, InstanceRow.closeIf_leaseExpiresAt]
        by_cases hopen : i₀.closedAt = none
        · by_cases hmember : i₀.membershipId = n.membershipId
          · rw [ho.eq_of_unclosed hi₀ hmember hopen]
            exact Or.inr (hclock _ hnow ▸ hpast)
          · rw [InstanceRow.closeIf_of_not (by simp [hmember])] at hclosed
            exact absurd hopen hclosed
        · exact hold i₀ hi₀ hopen
      · rw [List.mem_singleton.mp hi] at hclosed
        exact absurd rfl hclosed
  | leave member t _ hjoined heq =>
      intro i hi hclosed
      rw [heq] at hi
      obtain ⟨i₀, hi₀, rfl⟩ := Tables.mem_closeInstances.mp hi
      rw [InstanceRow.closeIf_membershipId, InstanceRow.closeIf_leaseExpiresAt]
      by_cases hmember : i₀.membershipId = member
      · obtain ⟨m, hm, hid, hstays⟩ := hjoined
        refine Or.inl ⟨{ m with leftAt := some t }, ?_, hid.trans hmember.symm, by simp⟩
        rw [heq]
        exact mem_updateWhere.mpr ⟨m, hm, by simp [hid, hstays]⟩
      · rw [InstanceRow.closeIf_of_not (by simp [hmember])] at hclosed
        exact hold i₀ hi₀ hclosed
  | squad _ _ _ heq => exact hsame (by rw [heq])
  | agent _ heq => exact hsame (by rw [heq])
  | membership _ _ _ heq => exact hsame (by rw [heq])
  | archive _ _ _ _ _ heq => exact hsame (by rw [heq]; rfl)
  | send _ _ _ heq => exact hsame (by rw [heq]; rfl)
  | acknowledge _ _ _ _ _ _ heq => exact hsame (by rw [heq]; rfl)

theorem Store.Lapsed.exec {op : Op} (hs : s.Lapsed now) (howned : s.Owned)
    (hop : WholeMillis s op) (hclock : ∀ t ∈ op.now, t = now) : (s.exec op).Lapsed now := by
  have hboth : (s.exec op).Owned ∧ (s.exec op).Lapsed now := by
    refine Changes.keeps (Q := fun t => t.Owned ∧ t.Lapsed now) ?_ (s.exec_changes op hop)
      ⟨howned, hs⟩
    intro t t' hchange ht
    exact ⟨hchange.owned (fun _ hp => hp) ht.1, hchange.lapsed hclock ht.1 ht.2⟩
  exact hboth.2

/-! ## Denials -/

/-- **A denial names a finished membership.** -/
theorem Store.Lapsed.denied {session : AuthenticatedSession} {i : InstanceRow}
    {m : MembershipRow} (hs : s.Lapsed session.now) (hauth : s.Authenticates session i m)
    {e : RepositoryError} (he : e = .notMember ∨ e = .squadArchived)
    (h : (authorizeCurrent session).run s = .error e) : s.Finished m.id := by
  obtain ⟨q, hq, hqid⟩ := s.constraints.membershipSquad m hauth.member
  rw [authorizeCurrent_run hauth hq hqid] at h
  split at h
  · cases h
    rcases he with he | he <;> cases he
  · next hlease =>
      split at h
      · next harchived => exact ⟨m, hauth.member, rfl, Or.inr ⟨q, hq, hqid, harchived⟩⟩
      · split at h
        · next hgone =>
            rcases hgone with hclosed | hleft
            · rcases hs i hauth.mem hclosed with hleft | hlapsed
              · rw [hauth.memberId]
                exact hleft.finished
              · exact absurd hlapsed hlease
            · exact ⟨m, hauth.member, rfl, Or.inl hleft⟩
        · cases h

end Runs

end Psst
