import Psst.Store.Authority

/-!
# What a store never takes back

Rows stay: an instance keeps its membership and its token, a membership its squad, a squad
its name, and a membership that left or a squad that was archived stays so. This is what a
client may rely on while it waits.
-/

namespace Psst

open Table

/-- Everything a client may have been told in `s` still holds in `t`. -/
structure Store.Grows (s t : Store) : Prop where
  instances : s.InstancesKept t
  memberships : ∀ m ∈ s.memberships, ∃ m' ∈ t.memberships, m'.id = m.id ∧ m'.squadId = m.squadId
    ∧ (m.leftAt ≠ none → m'.leftAt ≠ none)
  squads : ∀ q ∈ s.squads, ∃ q' ∈ t.squads, q'.id = q.id ∧ q'.name = q.name
    ∧ (q.state = .archived → q'.state = .archived)

namespace Store.Grows

variable {s t u : Store}

theorem refl (s : Store) : s.Grows s where
  instances := .refl s
  memberships m hm := ⟨m, hm, rfl, rfl, fun h => h⟩
  squads q hq := ⟨q, hq, rfl, rfl, fun h => h⟩

theorem trans (h : s.Grows t) (h' : t.Grows u) : s.Grows u where
  instances := h.instances.trans h'.instances
  memberships m hm := by
    obtain ⟨m', hm', hid, hsquad, hleft⟩ := h.memberships m hm
    obtain ⟨m'', hm'', hid', hsquad', hleft'⟩ := h'.memberships m' hm'
    exact ⟨m'', hm'', hid'.trans hid, hsquad'.trans hsquad, fun hl => hleft' (hleft hl)⟩
  squads q hq := by
    obtain ⟨q', hq', hid, hname, harchived⟩ := h.squads q hq
    obtain ⟨q'', hq'', hid', hname', harchived'⟩ := h'.squads q' hq'
    exact ⟨q'', hq'', hid'.trans hid, hname'.trans hname, fun ha => harchived' (harchived ha)⟩

end Store.Grows

section Runs

variable [Sha256] {c : Context} {s s' t : Store}

theorem Change.grows (h : Change c s s') : s.Grows s' := by
  have hmemberships : s'.memberships = s.memberships → ∀ m ∈ s.memberships,
      ∃ m' ∈ s'.memberships, m'.id = m.id ∧ m'.squadId = m.squadId
        ∧ (m.leftAt ≠ none → m'.leftAt ≠ none) :=
    fun heq m hm => ⟨m, by rw [heq]; exact hm, rfl, rfl, fun hl => hl⟩
  have hsquads : s'.squads = s.squads → ∀ q ∈ s.squads, ∃ q' ∈ s'.squads, q'.id = q.id
      ∧ q'.name = q.name ∧ (q.state = .archived → q'.state = .archived) :=
    fun heq q hq => ⟨q, by rw [heq]; exact hq, rfl, rfl, fun ha => ha⟩
  refine ⟨h.instancesKept, ?_, ?_⟩
  · cases h with
    | membership row _ _ heq =>
        intro m hm
        exact ⟨m, by rw [heq]; exact List.mem_append_left _ hm, rfl, rfl, fun hl => hl⟩
    | leave member now _ _ heq =>
        intro m hm
        refine ⟨_, by rw [heq]; exact mem_updateWhere.mpr ⟨m, hm, rfl⟩, ?_⟩
        split <;> simp
    | squad _ _ _ heq => exact hmemberships (by rw [heq])
    | agent _ heq => exact hmemberships (by rw [heq])
    | claim _ _ _ _ _ _ _ heq => exact hmemberships (by rw [heq]; rfl)
    | renew _ _ _ _ _ _ _ _ _ _ heq => exact hmemberships (by rw [heq]; rfl)
    | replace _ _ _ _ _ _ _ heq => exact hmemberships (by rw [heq]; rfl)
    | archive _ _ _ _ _ heq => exact hmemberships (by rw [heq]; rfl)
    | send _ _ _ heq => exact hmemberships (by rw [heq]; rfl)
    | acknowledge _ _ _ _ _ _ heq => exact hmemberships (by rw [heq]; rfl)
  · cases h with
    | squad row _ _ heq =>
        intro q hq
        exact ⟨q, by rw [heq]; exact List.mem_append_left _ hq, rfl, rfl, fun ha => ha⟩
    | archive q now _ _ _ heq =>
        intro p hp
        refine ⟨_, by rw [heq]; exact mem_updateWhere.mpr ⟨p, hp, rfl⟩, ?_⟩
        split <;> simp
    | agent _ heq => exact hsquads (by rw [heq])
    | membership _ _ _ heq => exact hsquads (by rw [heq])
    | claim _ _ _ _ _ _ _ heq => exact hsquads (by rw [heq]; rfl)
    | renew _ _ _ _ _ _ _ _ _ _ heq => exact hsquads (by rw [heq]; rfl)
    | replace _ _ _ _ _ _ _ heq => exact hsquads (by rw [heq]; rfl)
    | leave _ _ _ _ heq => exact hsquads (by rw [heq]; rfl)
    | send _ _ _ heq => exact hsquads (by rw [heq]; rfl)
    | acknowledge _ _ _ _ _ _ heq => exact hsquads (by rw [heq]; rfl)

theorem Changes.grows (h : Changes c s s') : s.Grows s' := by
  refine Changes.keeps (Q := fun t => s.Grows t) ?_ h (.refl s)
  exact fun t t' hchange ht => ht.trans hchange.grows

theorem Store.exec_grows (s : Store) (op : Op) : s.Grows (s.exec op) :=
  (s.exec_changes (P := fun _ => True) op fun _ _ => trivial).grows

theorem steps_grows {ok : Store → Op → Prop} (h : storeLts.Steps ok s t) : s.Grows t := by
  refine h.related (R := Store.Grows) (P := fun _ => True) Store.Grows.refl
    (fun _ _ _ => Store.Grows.trans) ?_ trivial
  rintro s op t - - rfl
  exact ⟨s.exec_grows op, trivial⟩

end Runs

/-! ## Memberships -/

/-- The membership has left, or its squad is archived. -/
def Store.Finished (s : Store) (member : MembershipId) : Prop :=
  ∃ m ∈ s.memberships, m.id = member
    ∧ (m.leftAt ≠ none ∨ ∃ q ∈ s.squads, q.id = m.squadId ∧ q.state = .archived)

/-- The membership is in the store, in this squad. -/
def Store.Enrols (s : Store) (member : MembershipId) (squad : SquadId) : Prop :=
  ∃ m ∈ s.memberships, m.id = member ∧ m.squadId = squad

theorem Store.Finished.grows {s t : Store} {member : MembershipId} (h : s.Finished member)
    (hgrows : s.Grows t) : t.Finished member := by
  obtain ⟨m, hm, hid, hfinished⟩ := h
  obtain ⟨m', hm', hid', hsquad, hleft⟩ := hgrows.memberships m hm
  refine ⟨m', hm', hid'.trans hid, hfinished.imp hleft ?_⟩
  rintro ⟨q, hq, hqid, harchived⟩
  obtain ⟨q', hq', hqid', -, hkeep⟩ := hgrows.squads q hq
  exact ⟨q', hq', by rw [hqid', hqid, hsquad], hkeep harchived⟩

theorem Store.Enrols.grows {s t : Store} {member : MembershipId} {squad : SquadId}
    (h : s.Enrols member squad) (hgrows : s.Grows t) : t.Enrols member squad := by
  obtain ⟨m, hm, hid, hsquad⟩ := h
  obtain ⟨m', hm', hid', hsquad', -⟩ := hgrows.memberships m hm
  exact ⟨m', hm', hid'.trans hid, hsquad'.trans hsquad⟩

/-! ## Authority -/

section Authority

variable [Sha256] {s : Store}

/-- **What `authorize_current` decides, in its order.** -/
theorem authorizeCurrent_run {session : AuthenticatedSession} {i : InstanceRow}
    {m : MembershipRow} (h : s.Authenticates session i m) {q : SquadRecord} (hq : q ∈ s.squads)
    (hqid : q.id = m.squadId) :
    (authorizeCurrent session).run s =
      if i.leaseExpiresAt ≤ session.now then .error .leaseExpired
      else if q.state = .archived then .error .squadArchived
      else if i.closedAt ≠ none ∨ m.leftAt ≠ none then .error .notMember
      else .ok (identityOf i m, s) := by
  have hhistorical : (authenticateHistorical session).run s = .ok (identityOf i m, s) :=
    authenticateHistorical_eq_ok.mpr ⟨i, m, h, rfl, rfl⟩
  have hjoin := Store.instanceJoinSquad_eq_some.mpr
    ⟨⟨⟨h.mem, h.id⟩, h.member, h.memberId⟩, hq, hqid⟩
  rw [authorizeCurrent, Tx.run_bind_of_ok s hhistorical, Tx.run_require_bind]
  by_cases hlease : i.leaseExpiresAt ≤ session.now
  · rw [if_neg (show ¬ session.now < (identityOf i m).expiry from not_lt.mpr hlease),
      if_pos hlease]
  rw [if_pos (show session.now < (identityOf i m).expiry from not_le.mp hlease), if_neg hlease,
    Tx.run_query_bind, hjoin, Tx.run_bind_of_ok s (Tx.run_expect_some s _ _),
    Tx.run_require_bind]
  cases hstate : q.state with
  | archived => simp
  | active =>
      rw [if_pos rfl, if_neg (by simp), Tx.run_require_bind]
      by_cases hopen : i.closedAt = none ∧ m.leftAt = none
      · rw [if_pos hopen, if_neg (by simp [hopen.1, hopen.2])]
        rfl
      · rw [if_neg hopen, if_pos (by rw [← not_and_or]; exact hopen)]

end Authority

end Psst
