import Psst.Store.Change

/-!
# Single live owner

A membership that has not left and has been claimed has exactly one unclosed instance, its
owner, and the owner is the newest instance. The invariant survives a clock that goes
backwards because an owner is only replaced at a reading past its lease, and a lease of at
least a millisecond ends strictly after the instance was created.
-/

namespace Psst

open Table

/-! ## The invariant -/

/-- `o` is the only unclosed instance of `member` and strictly its newest. -/
structure Store.Owner (s : Store) (member : MembershipId) (o : InstanceRow) : Prop where
  mem : o ∈ s.instances
  memberId : o.membershipId = member
  unclosed : o.closedAt = none
  newest : ∀ j ∈ s.instances, j.membershipId = member → j ≠ o → j.createdAt < o.createdAt

/-- The ownership invariant. -/
structure Store.Owned (s : Store) : Prop where
  /-- a claimed membership that has not left has an owner -/
  owner : ∀ m ∈ s.memberships, m.leftAt = none → (∃ i ∈ s.instances, i.membershipId = m.id) →
    ∃ o, s.Owner m.id o
  /-- a membership that left has no unclosed instance -/
  closed : ∀ m ∈ s.memberships, m.leftAt ≠ none → ∀ i ∈ s.instances, i.membershipId = m.id →
    i.closedAt ≠ none
  /-- every lease ends after its instance was created -/
  lease : ∀ i ∈ s.instances, i.createdAt < i.leaseExpiresAt
  /-- routing names are stored normalized -/
  name : ∀ m ∈ s.memberships, m.normalizedName = m.name

theorem Store.Owner.eq_of_unclosed {s : Store} {member : MembershipId} {o i : InstanceRow}
    (h : s.Owner member o) (hi : i ∈ s.instances) (hmember : i.membershipId = member)
    (hopen : i.closedAt = none) : i = o :=
  s.constraints.unclosedOwner.eq hi h.mem (InstanceRow.unclosed_iff.mpr hopen)
    (InstanceRow.unclosed_iff.mpr h.unclosed) (hmember.trans h.memberId.symm)

/-- The owner is the instance an ordered read finds first. -/
theorem Store.Owner.newestInstance {s : Store} {member : MembershipId} {o : InstanceRow}
    (h : s.Owner member o) : s.newestInstance member = some o := by
  have hfilter : o ∈ s.instances.filter fun i => decide (i.membershipId = member) :=
    List.mem_filter.mpr ⟨h.mem, by simp [h.memberId]⟩
  cases hfirst : s.newestInstance member with
  | none =>
      rw [Tables.newestInstance, List.head?_eq_none_iff] at hfirst
      have hsorted := (List.mem_insertionSort InstanceRow.Newer).mpr hfilter
      rw [hfirst] at hsorted
      cases hsorted
  | some i =>
      have hmem := head?_insertionSort_mem hfirst
      simp only [List.mem_filter, decide_eq_true_eq] at hmem
      by_contra hne
      -- any other row is strictly older than the owner, and cannot come before it
      have hlt : i.createdAt < o.createdAt :=
        h.newest i hmem.1 hmem.2 fun hio => hne (by rw [hio])
      rcases head?_insertionSort_rel hfirst hfilter with heq | hlt' | ⟨heq, -⟩
      · exact hne (by rw [heq])
      · exact absurd hlt (lt_asymm hlt')
      · exact absurd hlt (by rw [heq]; exact lt_irrefl _)

theorem Store.Owned.of_tables {s s' : Store} (h : s.Owned)
    (hm : s'.memberships = s.memberships) (hi : s'.instances = s.instances) : s'.Owned := by
  refine ⟨fun m hmem hjoined hany => ?_, fun m hmem hleft i hiin hid => ?_,
    fun i hiin => h.lease i (hi ▸ hiin), fun m hmem => h.name m (hm ▸ hmem)⟩
  · rw [hm] at hmem
    rw [hi] at hany
    obtain ⟨o, ho⟩ := h.owner m hmem hjoined hany
    exact ⟨o, hi ▸ ho.mem, ho.memberId, ho.unclosed, fun j hj => ho.newest j (hi ▸ hj)⟩
  · rw [hm] at hmem
    rw [hi] at hiin
    exact h.closed m hmem hleft i hiin hid

/-! ## Rows after closing -/

/-- A row after `UPDATE instances SET closed_at = now WHERE p AND closed_at IS NULL`. -/
def InstanceRow.closeIf (p : InstanceRow → Bool) (now : UnixMillis) (i : InstanceRow) :
    InstanceRow :=
  if p i && i.unclosed then { i with closedAt := some now } else i

theorem Tables.mem_closeInstances {t : Tables} {p : InstanceRow → Bool} {now : UnixMillis}
    {i : InstanceRow} :
    i ∈ (t.closeInstances p now).instances ↔ ∃ o ∈ t.instances, o.closeIf p now = i :=
  mem_updateWhere

namespace InstanceRow

variable {p : InstanceRow → Bool} {now : UnixMillis} {i : InstanceRow}

@[simp] theorem closeIf_id : (i.closeIf p now).id = i.id := by
  unfold closeIf; split <;> rfl

@[simp] theorem closeIf_membershipId : (i.closeIf p now).membershipId = i.membershipId := by
  unfold closeIf; split <;> rfl

@[simp] theorem closeIf_createdAt : (i.closeIf p now).createdAt = i.createdAt := by
  unfold closeIf; split <;> rfl

@[simp] theorem closeIf_leaseExpiresAt :
    (i.closeIf p now).leaseExpiresAt = i.leaseExpiresAt := by
  unfold closeIf; split <;> rfl

/-- A selected row is closed afterwards. -/
theorem closeIf_closed (h : p i = true) : (i.closeIf p now).closedAt ≠ none := by
  unfold closeIf
  cases hopen : i.unclosed with
  | true => simp [h]
  | false => simpa using hopen

/-- A row that is not selected stays as it is. -/
theorem closeIf_of_not (h : p i = false) : i.closeIf p now = i := by
  unfold closeIf
  simp [h]

/-- A closed row stays as it is. -/
theorem closeIf_of_closed (h : i.closedAt ≠ none) : i.closeIf p now = i := by
  unfold closeIf
  simp [InstanceRow.unclosed_eq_false.mpr h]

end InstanceRow

/-! ## Preservation -/

section Preservation

variable {s s' : Store}

/-- A fresh membership has no instances. -/
theorem Store.Owned.membership (h : s.Owned) {row : MembershipRow} (hjoined : row.leftAt = none)
    (hname : row.normalizedName = row.name)
    (heq : s'.toTables = { s.toTables with memberships := s.memberships ++ [row] }) :
    s'.Owned := by
  have hm : s'.memberships = s.memberships ++ [row] := by rw [heq]
  have hi : s'.instances = s.instances := by rw [heq]
  have hnone : ∀ i ∈ s.instances, i.membershipId ≠ row.id := by
    intro i hiin hid
    obtain ⟨m, hmem, hmid⟩ := s.constraints.instanceMembership i hiin
    have hunique := s'.constraints.membershipId
    rw [hm] at hunique
    exact hunique.fresh hmem (hmid.trans hid)
  refine ⟨fun m hmem hj hany => ?_, fun m hmem hleft i hiin hid => ?_,
    fun i hiin => h.lease i (hi ▸ hiin), fun m hmem => ?_⟩
  · rw [hm] at hmem
    rw [hi] at hany
    rcases List.mem_append.mp hmem with hold | hnew
    · obtain ⟨o, ho⟩ := h.owner m hold hj hany
      exact ⟨o, hi ▸ ho.mem, ho.memberId, ho.unclosed, fun j hjin => ho.newest j (hi ▸ hjin)⟩
    · rw [List.mem_singleton.mp hnew] at hany
      obtain ⟨i, hiin, hid⟩ := hany
      exact absurd hid (hnone i hiin)
  · rw [hm] at hmem
    rw [hi] at hiin
    rcases List.mem_append.mp hmem with hold | hnew
    · exact h.closed m hold hleft i hiin hid
    · rw [List.mem_singleton.mp hnew] at hleft
      exact absurd hjoined hleft
  · rw [hm] at hmem
    rcases List.mem_append.mp hmem with hold | hnew
    · exact h.name m hold
    · rw [List.mem_singleton.mp hnew]
      exact hname

/-- An active membership has not left. -/
theorem Store.left_ne_of_active {member : MembershipId} (hactive : s.ActiveMembership member)
    {m : MembershipRow} (hm : m ∈ s.memberships) (hid : m.id = member) : m.leftAt = none := by
  obtain ⟨row, hrow, hrid, hleft, -⟩ := hactive
  rw [s.constraints.membershipId.eq hm hrow (hid.trans hrid.symm)]
  exact hleft

/-- A renewal keeps every column ownership depends on and only extends leases. -/
theorem Store.Owned.renew (h : s.Owned) {i : InstanceRow} {effectiveNow expiry : UnixMillis}
    {availability : Availability} {source : AvailabilitySource} (hi : i ∈ s.instances)
    (hexpiry : i.leaseExpiresAt ≤ expiry)
    (heq : s'.toTables = s.toTables.renewInstances (fun j => decide (j.id = i.id))
      (InstanceRow.renewed availability source effectiveNow expiry)) : s'.Owned := by
  have hm : s'.memberships = s.memberships := by rw [heq]; rfl
  -- every row comes from one with the same membership, creation time and closing time
  have hback : ∀ j ∈ s'.instances, ∃ o ∈ s.instances, o.id = j.id
      ∧ o.membershipId = j.membershipId ∧ o.createdAt = j.createdAt ∧ o.closedAt = j.closedAt
      ∧ o.leaseExpiresAt ≤ j.leaseExpiresAt := by
    intro j hj
    rw [heq] at hj
    obtain ⟨o, ho, rfl⟩ := mem_updateWhere.mp hj
    refine ⟨o, ho, ?_⟩
    split
    · rename_i hid
      have hoi : o = i := s.constraints.instanceId.eq ho hi (by simpa using hid)
      exact ⟨rfl, rfl, rfl, rfl, by rw [hoi]; exact hexpiry⟩
    · exact ⟨rfl, rfl, rfl, rfl, le_rfl⟩
  have hforth : ∀ o ∈ s.instances, ∃ j ∈ s'.instances, j.id = o.id
      ∧ j.membershipId = o.membershipId ∧ j.createdAt = o.createdAt
      ∧ j.closedAt = o.closedAt := by
    intro o ho
    refine ⟨_, by rw [heq]; exact mem_updateWhere.mpr ⟨o, ho, rfl⟩, ?_⟩
    split <;> exact ⟨rfl, rfl, rfl, rfl⟩
  refine ⟨fun m hmem hj hany => ?_, fun m hmem hleft j hjin hjid => ?_, fun j hjin => ?_,
    fun m hmem => h.name m (hm ▸ hmem)⟩
  · rw [hm] at hmem
    obtain ⟨j, hjin, hjid⟩ := hany
    obtain ⟨k, hk, -, hkm, -⟩ := hback j hjin
    obtain ⟨o, ho⟩ := h.owner m hmem hj ⟨k, hk, hkm.trans hjid⟩
    obtain ⟨o', ho', hoid, hom, hoc, hocl⟩ := hforth o ho.mem
    refine ⟨o', ho', hom.trans ho.memberId, hocl.trans ho.unclosed, fun x hx hxm hne => ?_⟩
    obtain ⟨y, hy, hyid, hym, hyc, -⟩ := hback x hx
    have hyo : y ≠ o := by
      rintro rfl
      exact hne (s'.constraints.instanceId.eq hx ho' (hyid.symm.trans hoid.symm))
    rw [← hyc, hoc]
    exact ho.newest y hy (hym.trans hxm) hyo
  · rw [hm] at hmem
    obtain ⟨o, ho, -, hom, -, hocl, -⟩ := hback j hjin
    rw [← hocl]
    exact h.closed m hmem hleft o ho (hom.trans hjid)
  · obtain ⟨o, ho, -, -, hoc, -, hol⟩ := hback j hjin
    rw [← hoc]
    exact (h.lease o ho).trans_le hol

/-- **A resume only happens past the owner's lease.** The newest instance is the owner, so
both resumes look at the one instance that could be online. -/
theorem Store.Owned.resume_past_lease (h : s.Owned) {member : MembershipId} {now : UnixMillis}
    (hactive : s.ActiveMembership member) (hguard : s.ResumeGuard member now) :
    ∃ o, s.Owner member o ∧ o.leaseExpiresAt ≤ now := by
  obtain ⟨m, hm, hid, hjoined, -⟩ := hactive
  subst hid
  rcases hguard with ⟨i, hnewest, hoffline⟩ | ⟨hany, hoffline⟩
  · have hmem := head?_insertionSort_mem hnewest
    simp only [List.mem_filter, decide_eq_true_eq] at hmem
    obtain ⟨o, ho⟩ := h.owner m hm hjoined ⟨i, hmem⟩
    have hio : i = o := Option.some.inj (hnewest.symm.trans ho.newestInstance)
    subst hio
    refine ⟨i, ho, not_lt.mp fun hlive => hoffline ?_⟩
    exact InstanceState.atNow_eq_online.mpr ⟨ho.unclosed, hlive⟩
  · obtain ⟨o, ho⟩ := h.owner m hm hjoined hany
    refine ⟨o, ho, not_lt.mp fun hlive => hoffline o ho.mem ho.memberId ?_⟩
    exact InstanceState.atNow_eq_online.mpr ⟨ho.unclosed, hlive⟩

/-- At such a reading every instance of the membership is older. -/
theorem Store.Owned.createdAt_lt (h : s.Owned) {member : MembershipId} {now : UnixMillis}
    {o : InstanceRow} (ho : s.Owner member o) (hpast : o.leaseExpiresAt ≤ now)
    {j : InstanceRow} (hj : j ∈ s.instances) (hjm : j.membershipId = member) :
    j.createdAt < now := by
  by_cases hjo : j = o
  · rw [hjo]
    exact (h.lease o ho.mem).trans_le hpast
  · exact (ho.newest j hj hjm hjo).trans ((h.lease o ho.mem).trans_le hpast)

/-- Leaving closes every instance of the membership and no other. -/
theorem Store.Owned.leave (h : s.Owned) {member : MembershipId} {now : UnixMillis}
    (heq : s'.toTables = s.toTables.leaveMembership member now) : s'.Owned := by
  have hiff : ∀ i, i ∈ s'.instances
      ↔ ∃ o ∈ s.instances, o.closeIf (fun i => decide (i.membershipId = member)) now = i := by
    intro i
    rw [heq]
    exact Tables.mem_closeInstances
  have hmiff : ∀ m, m ∈ s'.memberships ↔ ∃ o ∈ s.memberships,
      (if (decide (o.id = member) && o.joined) = true then { o with leftAt := some now } else o)
        = m := by
    intro m
    rw [heq]
    exact mem_updateWhere
  refine ⟨fun m hmem hj hany => ?_, fun m hmem hleft i hiin hid => ?_, fun i hiin => ?_,
    fun m hmem => ?_⟩
  · obtain ⟨row, hrow, rfl⟩ := (hmiff m).mp hmem
    by_cases hupd : (decide (row.id = member) && row.joined) = true
    · rw [if_pos hupd] at hj
      cases hj
    · rw [if_neg hupd] at hj hany ⊢
      have hother : row.id ≠ member := by
        intro hid
        simp [hid, hj] at hupd
      obtain ⟨i, hiin, hid⟩ := hany
      obtain ⟨o, ho, rfl⟩ := (hiff i).mp hiin
      obtain ⟨w, hw⟩ := h.owner row hrow hj ⟨o, ho, by simpa using hid⟩
      have hkept : w.closeIf (fun i => decide (i.membershipId = member)) now = w :=
        InstanceRow.closeIf_of_not (by simp [hw.memberId, hother])
      refine ⟨w, (hiff w).mpr ⟨w, hw.mem, hkept⟩, hw.memberId, hw.unclosed, fun j hjin hjm hne => ?_⟩
      obtain ⟨x, hx, rfl⟩ := (hiff j).mp hjin
      have hxm : x.membershipId = row.id := by simpa using hjm
      have hxw : x ≠ w := by
        rintro rfl
        exact hne hkept
      simpa using hw.newest x hx hxm hxw
  · obtain ⟨row, hrow, rfl⟩ := (hmiff m).mp hmem
    obtain ⟨o, ho, rfl⟩ := (hiff i).mp hiin
    have hom : o.membershipId = row.id := by
      split at hid <;> simpa using hid
    by_cases hmember : row.id = member
    · exact InstanceRow.closeIf_closed (by simp [hom, hmember])
    · rw [if_neg (by simp [hmember])] at hleft
      have hclosed := h.closed row hrow hleft o ho hom
      rw [InstanceRow.closeIf_of_closed hclosed]
      exact hclosed
  · obtain ⟨o, ho, rfl⟩ := (hiff i).mp hiin
    simpa using h.lease o ho
  · obtain ⟨row, hrow, rfl⟩ := (hmiff m).mp hmem
    split <;> exact h.name row hrow

variable [Sha256] {c : Context}

/-- What is known of an instance inserted for an active membership under a policy of at least
a millisecond. -/
theorem newRow_lease {n : NewInstance} {expiry : UnixMillis}
    (hpolicy : n.leasePolicy.AtLeastOneMilli)
    (hexpiry : n.now.checkedAdd n.leasePolicy.leaseDuration = some expiry) :
    (n.row expiry).createdAt < (n.row expiry).leaseExpiresAt := by
  have hadd := UnixMillis.checkedAdd_eq_some hexpiry
  have hone : 1 ≤ n.leasePolicy.leaseDuration.asMillis := hpolicy
  show n.now < expiry
  rw [UnixMillis.lt_iff]
  omega

/-- A first instance is the owner. -/
theorem Store.Owned.claim (h : s.Owned) {n : NewInstance} {expiry : UnixMillis}
    (hpolicy : n.leasePolicy.AtLeastOneMilli) (hactive : s.ActiveMembership n.membershipId)
    (hfirst : ∀ i ∈ s.instances, i.membershipId ≠ n.membershipId)
    (hexpiry : n.now.checkedAdd n.leasePolicy.leaseDuration = some expiry)
    (heq : s'.toTables = s.toTables.addInstance (n.row expiry)) : s'.Owned := by
  have hm : s'.memberships = s.memberships := by rw [heq]; rfl
  have hi : s'.instances = s.instances ++ [n.row expiry] := by rw [heq]; rfl
  have hcases : ∀ i ∈ s'.instances, i ∈ s.instances ∨ i = n.row expiry := by
    intro i hiin
    rw [hi] at hiin
    exact (List.mem_append.mp hiin).imp id List.mem_singleton.mp
  refine ⟨fun m hmem hj hany => ?_, fun m hmem hleft i hiin hid => ?_, fun i hiin => ?_,
    fun m hmem => h.name m (hm ▸ hmem)⟩
  · rw [hm] at hmem
    by_cases hnew : m.id = n.membershipId
    · refine ⟨n.row expiry, by rw [hi]; simp, hnew.symm, rfl, fun j hjin hjid hne => ?_⟩
      rcases hcases j hjin with hold | heq'
      · exact absurd (hjid.trans hnew) (hfirst j hold)
      · exact absurd heq' hne
    · have hany' : ∃ i ∈ s.instances, i.membershipId = m.id := by
        obtain ⟨i, hiin, hid⟩ := hany
        rcases hcases i hiin with hold | rfl
        · exact ⟨i, hold, hid⟩
        · exact absurd hid.symm hnew
      obtain ⟨o, ho⟩ := h.owner m hmem hj hany'
      refine ⟨o, by rw [hi]; exact List.mem_append_left _ ho.mem, ho.memberId, ho.unclosed,
        fun j hjin hjid hne => ?_⟩
      rcases hcases j hjin with hold | rfl
      · exact ho.newest j hold hjid hne
      · exact absurd hjid.symm hnew
  · rw [hm] at hmem
    rcases hcases i hiin with hold | rfl
    · exact h.closed m hmem hleft i hold hid
    · exact absurd (Store.left_ne_of_active hactive hmem hid.symm) hleft
  · rcases hcases i hiin with hold | rfl
    · exact h.lease i hold
    · exact newRow_lease hpolicy hexpiry

/-- A replacement is the newest instance, because it is created past the owner's lease. -/
theorem Store.Owned.replace (h : s.Owned) {n : NewInstance} {expiry : UnixMillis}
    (hpolicy : n.leasePolicy.AtLeastOneMilli) (hactive : s.ActiveMembership n.membershipId)
    (hguard : s.ResumeGuard n.membershipId n.now)
    (hexpiry : n.now.checkedAdd n.leasePolicy.leaseDuration = some expiry)
    (heq : s'.toTables = s.toTables.replaceOwner n.membershipId n.now (n.row expiry)) :
    s'.Owned := by
  obtain ⟨o, ho, hpast⟩ := h.resume_past_lease hactive hguard
  have hm : s'.memberships = s.memberships := by rw [heq]; rfl
  have hiff : ∀ i, i ∈ s'.instances ↔ (∃ x ∈ s.instances,
      x.closeIf (fun i => decide (i.membershipId = n.membershipId)) n.now = i)
        ∨ i = n.row expiry := by
    intro i
    rw [heq]
    show i ∈ (Tables.closeInstances _ _ _).instances ++ [_] ↔ _
    rw [List.mem_append, List.mem_singleton, Tables.mem_closeInstances]
  refine ⟨fun m hmem hj hany => ?_, fun m hmem hleft i hiin hid => ?_, fun i hiin => ?_,
    fun m hmem => h.name m (hm ▸ hmem)⟩
  · rw [hm] at hmem
    by_cases hself : m.id = n.membershipId
    · refine ⟨n.row expiry, (hiff _).mpr (Or.inr rfl), hself.symm, rfl, fun j hjin hjm hne => ?_⟩
      rcases (hiff j).mp hjin with ⟨x, hx, rfl⟩ | rfl
      · have hxm : x.membershipId = n.membershipId := by
          rw [← hself]
          simpa using hjm
        rw [InstanceRow.closeIf_createdAt]
        exact h.createdAt_lt ho hpast hx hxm
      · exact absurd rfl hne
    · obtain ⟨i, hiin, hid⟩ := hany
      have hany' : ∃ i ∈ s.instances, i.membershipId = m.id := by
        rcases (hiff i).mp hiin with ⟨x, hx, rfl⟩ | rfl
        · exact ⟨x, hx, by simpa using hid⟩
        · exact absurd hid.symm hself
      obtain ⟨w, hw⟩ := h.owner m hmem hj hany'
      have hkept : w.closeIf (fun i => decide (i.membershipId = n.membershipId)) n.now = w :=
        InstanceRow.closeIf_of_not (by simp [hw.memberId, hself])
      refine ⟨w, (hiff w).mpr (Or.inl ⟨w, hw.mem, hkept⟩), hw.memberId, hw.unclosed,
        fun j hjin hjm hne => ?_⟩
      rcases (hiff j).mp hjin with ⟨x, hx, rfl⟩ | rfl
      · have hxw : x ≠ w := by
          rintro rfl
          exact hne hkept
        simpa using hw.newest x hx (by simpa using hjm) hxw
      · exact absurd hjm.symm hself
  · rw [hm] at hmem
    rcases (hiff i).mp hiin with ⟨x, hx, rfl⟩ | rfl
    · have hclosed := h.closed m hmem hleft x hx (by simpa using hid)
      rw [InstanceRow.closeIf_of_closed hclosed]
      exact hclosed
    · exact absurd (Store.left_ne_of_active hactive hmem hid.symm) hleft
  · rcases (hiff i).mp hiin with ⟨x, hx, rfl⟩ | rfl
    · simpa using h.lease x hx
    · exact newRow_lease hpolicy hexpiry

/-- **Every change keeps the ownership invariant**, under leases of at least a millisecond. -/
theorem Change.owned (h : Change c s s')
    (hpolicy : ∀ policy, c.policy policy → policy.AtLeastOneMilli) (hs : s.Owned) : s'.Owned := by
  cases h with
  | squad _ _ _ heq => exact hs.of_tables (by rw [heq]) (by rw [heq])
  | agent _ heq => exact hs.of_tables (by rw [heq]) (by rw [heq])
  | membership row hjoined hname heq => exact hs.membership hjoined hname heq
  | claim n expiry _ hp hactive hfirst hexpiry heq =>
      exact hs.claim (hpolicy _ hp) hactive hfirst hexpiry heq
  | renew i now expiry _ _ _ hi _ _ hexpiry heq => exact hs.renew hi hexpiry heq
  | replace n expiry _ hp hactive hguard hexpiry heq =>
      exact hs.replace (hpolicy _ hp) hactive hguard hexpiry heq
  | leave member now _ _ heq => exact hs.leave heq
  | archive _ _ _ _ _ heq => exact hs.of_tables (by rw [heq]; rfl) (by rw [heq]; rfl)
  | send _ _ _ heq => exact hs.of_tables (by rw [heq]; rfl) (by rw [heq]; rfl)
  | acknowledge _ _ _ _ _ _ heq => exact hs.of_tables (by rw [heq]; rfl) (by rw [heq]; rfl)

theorem Store.Owned.exec (h : s.Owned) {op : Op} (hop : WholeMillis s op) : (s.exec op).Owned :=
  Changes.keeps (fun _ _ hchange => hchange.owned fun _ hp => hp) (s.exec_changes op hop) h

theorem reach_owned (h : storeLts.Reach WholeMillis s) : s.Owned := by
  refine h.invariant ?_ ?_
  · rintro s rfl
    refine ⟨?_, ?_, ?_, ?_⟩ <;> intro x hx <;> cases hx
  · rintro s op t hs hop rfl
    exact hs.exec hop

end Preservation

/-! ## Single live owner -/

section SingleOwner

variable [Sha256] {s : Store}

/-- **Single live owner.** In every state reached under leases of at least a millisecond:
a claimed membership that has not left has exactly one unclosed instance, strictly its
newest; one that left has none; a routing name has at most one joined member; and a session
that leaves, closing only its own instance, leaves no open instance behind. -/
theorem single_live_owner (hreach : storeLts.Reach WholeMillis s) :
    (∀ m ∈ s.memberships, m.leftAt = none → (∃ i ∈ s.instances, i.membershipId = m.id) →
        ∃ o, (o ∈ s.instances ∧ o.membershipId = m.id ∧ o.closedAt = none)
          ∧ (∀ i ∈ s.instances, i.membershipId = m.id → i.closedAt = none → i = o)
          ∧ ∀ i ∈ s.instances, i.membershipId = m.id → i ≠ o → i.createdAt < o.createdAt)
      ∧ (∀ m ∈ s.memberships, m.leftAt ≠ none → ∀ i ∈ s.instances, i.membershipId = m.id →
          i.closedAt ≠ none)
      ∧ (∀ m ∈ s.memberships, ∀ n ∈ s.memberships, m.leftAt = none → n.leftAt = none →
          m.squadId = n.squadId → m.name = n.name → m = n)
      ∧ ∀ session squad outcome t,
          Tx.commit (authenticatedLeave session squad) s = (.ok outcome, t) →
            ∀ i ∈ t.instances, i.membershipId = outcome.membershipId → i.closedAt ≠ none := by
  have howned := reach_owned hreach
  refine ⟨fun m hm hjoined hany => ?_, howned.closed, fun m hm n hn hmj hnj hsquad hname => ?_,
    fun session squad outcome t hcommit i hi hid => ?_⟩
  · obtain ⟨o, ho⟩ := howned.owner m hm hjoined hany
    exact ⟨o, ⟨ho.mem, ho.memberId, ho.unclosed⟩,
      fun i hi hid hopen => ho.eq_of_unclosed hi hid hopen, ho.newest⟩
  · refine s.constraints.activeName.eq hm hn (by simp [hmj]) (by simp [hnj]) ?_
    rw [howned.name m hm, howned.name n hn, hsquad, hname]
  · -- after the leave the membership is a left one of a reachable state
    have hrun := Tx.commit_eq_ok.mp hcommit
    have hexec : s.exec (.authenticatedLeave session squad) = t := congrArg Prod.snd hcommit
    have ht : t.Owned := by
      rw [← hexec]
      exact Store.Owned.exec howned fun _ h => by cases h
    simp only [authenticatedLeave, squadByIdTx, Tx.bind_eq_ok, authorizeCurrent_eq_ok,
      Tx.query_eq_ok, Tx.expect_eq_ok, Tx.require_eq_ok, StoreTx.write_eq_ok,
      Tx.pure_eq_ok] at hrun
    obtain ⟨_, _, ⟨j, m, hauth, rfl, rfl⟩, q, _, ⟨_, _, ⟨rfl, rfl⟩, -, rfl⟩, _, _, ⟨-, rfl⟩, _, u,
      hclose, _, v, hleft, rfl, rfl⟩ := hrun
    have hmem : { m with leftAt := some session.now } ∈ v.memberships := by
      rw [hleft, hclose]
      refine mem_updateWhere.mpr ⟨m, hauth.member, ?_⟩
      rw [if_pos (by simp [identityOf, hauth.joined])]
    exact ht.closed _ hmem (by simp) i hi hid

end SingleOwner

open Sample in
/-- Alice's membership has one open instance, the one she joined with. -/
theorem single_live_owner_alice :
    ∃ o, (o ∈ (Store.empty.run greeted).instances ∧ o.membershipId = alice ∧ o.closedAt = none)
      ∧ (∀ i ∈ (Store.empty.run greeted).instances, i.membershipId = alice → i.closedAt = none →
          i = o)
      ∧ ∀ i ∈ (Store.empty.run greeted).instances, i.membershipId = alice → i ≠ o →
          i.createdAt < o.createdAt := by
  have hmillis : ∀ op ∈ greeted, ∀ policy ∈ op.policy, policy.AtLeastOneMilli := by decide
  have hreach : storeLts.Reach WholeMillis (Store.empty.run greeted) :=
    reach_run greeted fun op hop _ => hmillis op hop
  have hany : ∃ m ∈ (Store.empty.run greeted).memberships, m.id = alice ∧ m.leftAt = none
      ∧ ∃ i ∈ (Store.empty.run greeted).instances, i.membershipId = m.id := by
    decide
  obtain ⟨m, hm, hid, hjoined, hinstance⟩ := hany
  have howner := (single_live_owner hreach).1 m hm hjoined hinstance
  rw [hid] at howner
  exact howner

end Psst
