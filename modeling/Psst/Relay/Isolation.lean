import Psst.Relay.Archive
import Psst.Store.Agreement

/-!
# Squad isolation

A command works with the rows of its credential's squad and with nothing else: it changes no
row of another squad, and two stores that agree on that squad answer it alike, whatever names
and identifiers the request carries. The second half is a two-run property, proved body by
body with the relational rules of the transactions.
-/

namespace Psst

open Table

section Isolation

variable [Sha256] {s t : Store} {squad : SquadId}

/-- The two runs agree on the squad, and the session's instance is in it. -/
abbrev Linked (squad : SquadId) (id : InstanceId) (s t : Store) : Prop :=
  s.Alike t squad ∧ s.Seats id squad

/-- The two runs agree on the squad, and the identity is one of its members. -/
abbrev Known (squad : SquadId) (identity : Identity) (s t : Store) : Prop :=
  (identity.squad = squad ∧ s.belongs squad identity.membership = true) ∧ s.Alike t squad

/-! ## Authority -/

omit [Sha256] in
/-- What the join finds for a seated instance is a member of the squad. -/
theorem Store.Seats.member {id : InstanceId} (h : s.Seats id squad) {i : InstanceRow}
    {m : MembershipRow} (hjoin : s.instanceJoin id = some (i, m)) :
    m.squadId = squad ∧ s.belongs squad m.id = true := by
  obtain ⟨⟨hi, hid⟩, hm, hmid⟩ := Store.instanceJoin_eq_some.mp hjoin
  obtain ⟨j, hj, hjid, hmember⟩ := h
  have hij : i = j := s.constraints.instanceId.eq hi hj (hid.trans hjid.symm)
  subst hij
  rw [← hmid] at hmember
  obtain ⟨n, hn, hnid, hsquad⟩ := Tables.belongs_eq_true.mp hmember
  have hmn : m = n := s.constraints.membershipId.eq hm hn hnid.symm
  subst hmn
  exact ⟨hsquad, hmember⟩

theorem authenticateHistorical_relates (squad : SquadId) (session : AuthenticatedSession) :
    Tx.Relates (Linked squad session.instanceId) (authenticateHistorical session)
      fun identity s t => Known squad identity s t ∧ Linked squad session.instanceId s t := by
  refine (Tx.relates_query fun s t h => h.1.instanceJoin h.2).bind fun row => ?_
  refine (Tx.relates_expect row _).bind fun ⟨i, m⟩ => ?_
  refine (Tx.relates_require _ _).bind fun _ => ?_
  refine Tx.relates_pure _ ?_
  rintro s t ⟨-, rfl, hjoin, halike, hseat⟩
  exact ⟨⟨hseat.member hjoin, halike⟩, halike, hseat⟩

theorem authorizeCurrent_relates (squad : SquadId) (session : AuthenticatedSession) :
    Tx.Relates (Linked squad session.instanceId) (authorizeCurrent session) (Known squad) := by
  refine (authenticateHistorical_relates squad session).bind fun identity => ?_
  refine (Tx.relates_require _ _).bind fun _ => ?_
  refine (Tx.relates_query fun s t h => h.2.2.1.instanceJoinSquad h.2.2.2).bind fun row => ?_
  refine (Tx.relates_expect row _).bind fun ⟨i, m, q⟩ => ?_
  refine (Tx.relates_require _ _).bind fun _ => ?_
  refine (Tx.relates_require _ _).bind fun _ => ?_
  refine Tx.relates_pure _ ?_
  rintro s t ⟨-, -, -, -, -, hknown, -⟩
  exact hknown

omit [Sha256] in
/-- A write the schema always accepts. -/
theorem StoreTx.relates_write {R : Store → Store → Prop} {f : Tables → Tables}
    (h : ∀ s : Store, (f s.toTables).Constraints) :
    Tx.Relates R (StoreTx.write f) fun _ s' t' => ∃ s t, R s t
      ∧ s'.toTables = f s.toTables ∧ t'.toTables = f t.toTables := by
  intro s t hst
  exact Or.inr ⟨(), _, _, StoreTx.write_run_of_constraints (h s),
    StoreTx.write_run_of_constraints (h t), s, t, hst, rfl, rfl⟩

omit [Sha256] in
theorem squadByIdTx_relates {R : Store → Store → Prop} {id : SquadId}
    (h : ∀ s t, R s t → s.squadById id = t.squadById id) :
    Tx.Relates R (squadByIdTx id) fun q s t => s.squadById id = some q ∧ R s t := by
  refine (Tx.relates_query h).bind fun found => ?_
  refine (Tx.relates_expect found _).mono (fun _ _ hst => hst) ?_
  rintro q s t ⟨rfl, hq, hst⟩
  exact ⟨hq, hst⟩

/-! ## Heartbeat, roster -/

theorem authenticatedHeartbeat_relates (session : AuthenticatedSession)
    (availability : Availability) (source : AvailabilitySource) (policy : LeasePolicy) :
    Tx.Relates (Linked squad session.instanceId)
      (authenticatedHeartbeat session availability source policy) fun _ _ _ => True := by
  rw [authenticatedHeartbeat, validateObservation_eq_require]
  refine (Tx.relates_require _ _).bind fun _ => ?_
  refine ((authorizeCurrent_relates squad session).mono (fun _ _ h => h.2)
    fun _ _ _ h => h).bind fun identity => ?_
  refine (Tx.relates_ofExcept _).bind fun expiry => ?_
  refine (StoreTx.relates_write fun s => ?_).bind fun _ => ?_
  · exact s.constraints.renewInstances (fun _ => rfl) (fun _ => rfl) (fun _ => rfl) fun _ h => h
  · exact Tx.relates_pure _ fun _ _ _ => trivial

omit [Sha256] in
/-- The name of an own squad denotes it in both stores. -/
theorem Store.Alike.squadByName (h : s.Alike t squad) {q : SquadRecord} (hq : q ∈ s.squads)
    (hid : q.id = squad) : s.squadByName q.name = t.squadByName q.name := by
  rw [s.squadByName_eq_some.mpr ⟨hq, rfl⟩,
    t.squadByName_eq_some.mpr ⟨(h.squads q hid).mp hq, rfl⟩]

omit [Sha256] in
theorem Store.Alike.rosterLines (h : s.Alike t squad) (now : UnixMillis) :
    ((s.memberships.filter fun m => decide (m.squadId = squad)).insertionSort
        MembershipRow.RosterLe).mapM (Psst.rosterMember s.toTables now)
      = ((t.memberships.filter fun m => decide (m.squadId = squad)).insertionSort
          MembershipRow.RosterLe).mapM (Psst.rosterMember t.toTables now) := by
  rw [← h.rosterRows]
  have hrows : ∀ m ∈ (s.memberships.filter fun m => decide (m.squadId = squad)).insertionSort
      MembershipRow.RosterLe, m ∈ s.memberships ∧ m.squadId = squad := by
    intro m hm
    obtain ⟨hm, hsquad⟩ := List.mem_filter.mp ((List.mem_insertionSort _).mp hm)
    exact ⟨hm, of_decide_eq_true hsquad⟩
  generalize (s.memberships.filter fun m => decide (m.squadId = squad)).insertionSort
    MembershipRow.RosterLe = rows at hrows
  induction rows with
  | nil => rfl
  | cons m rows ih =>
      obtain ⟨hm, hsquad⟩ := hrows m (List.mem_cons_self ..)
      rw [List.mapM_cons, List.mapM_cons, h.rosterMember now hm hsquad,
        ih fun n hn => hrows n (List.mem_cons_of_mem _ hn)]

/-- The two runs agree on the squad, and `name` is its name. -/
abbrev Named (squad : SquadId) (name : SquadName) (s t : Store) : Prop :=
  (∃ q ∈ s.squads, q.id = squad ∧ q.name = name) ∧ s.Alike t squad

omit [Sha256] in
theorem roster_relates (squad : SquadId) (name : SquadName) (now : UnixMillis) :
    Tx.Relates (Named squad name) (roster name now) fun _ _ _ => True := by
  have hdescribe : Tx.Relates (Named squad name) (describeSquad name)
      fun q s t => q.id = squad ∧ s.Alike t squad := by
    refine (Tx.relates_query ?_).bind fun found => ?_
    · rintro s t ⟨⟨q, hq, hid, rfl⟩, halike⟩
      exact halike.squadByName hq hid
    · refine (Tx.relates_expect found _).mono (fun _ _ h => h) ?_
      rintro q s t ⟨rfl, hfound, ⟨p, hp, hpid, hname⟩, halike⟩
      obtain ⟨hq, hqname⟩ := s.squadByName_eq_some.mp hfound
      rw [s.constraints.squadName.eq hq hp (hqname.trans hname.symm)]
      exact ⟨hpid, halike⟩
  refine hdescribe.bind fun q => ?_
  refine (Tx.relates_query ?_).bind fun lines => ?_
  · rintro s t ⟨rfl, halike⟩
    exact halike.rosterLines now
  · exact (Tx.relates_ofExcept lines).mono (fun _ _ h => h) fun _ _ _ _ => trivial

theorem authenticatedRoster_relates (session : AuthenticatedSession) (expected : SquadName) :
    Tx.Relates (Linked squad session.instanceId) (authenticatedRoster session expected)
      fun _ _ _ => True := by
  refine (authenticateHistorical_relates squad session).bind fun identity => ?_
  refine (squadByIdTx_relates ?_).bind fun q => ?_
  · rintro s t ⟨⟨⟨hsquad, -⟩, halike⟩, -⟩
    rw [hsquad]
    exact halike.squadById
  · refine (Tx.relates_require _ _).bind fun _ => ?_
    refine (roster_relates squad expected session.now).mono ?_ fun _ _ _ h => h
    rintro s t ⟨hname, hfound, ⟨⟨hsquad, -⟩, halike⟩, -⟩
    obtain ⟨hq, hid⟩ := s.squadById_eq_some.mp hfound
    exact ⟨⟨q, hq, hid.trans hsquad, hname⟩, halike⟩

/-! ## Sending -/

/-- The two runs agree on the squad, and the message is stored in it. -/
abbrev Stored (squad : SquadId) (row : MessageRow) (s t : Store) : Prop :=
  (row ∈ s.messages ∧ row.squadId = squad) ∧ s.Alike t squad

omit [Sha256] in
theorem messageViewOn_relates {R : Store → Store → Prop} (record : MessageRecord)
    (h : ∀ s t, R s t → s.messageView record = t.messageView record) :
    Tx.Relates R (messageViewOn record) fun _ _ _ => True := by
  refine (Tx.relates_query h).bind fun view => ?_
  exact (Tx.relates_expect view _).mono (fun _ _ h => h) fun _ _ _ _ => trivial

theorem findByDedupe_relates (squad : SquadId) (request : SendMessage) :
    Tx.Relates (fun s t => request.semantics.squad = squad ∧ s.Alike t squad)
      (findByDedupe request) fun found s t =>
        (∀ record ∈ found, ∃ m ∈ s.messages, m.squadId = squad ∧ m.record = record)
          ∧ s.Alike t squad
          ∧ (found = none → s.messageByDedupe request.semantics.squad request.semantics.sender
              request.dedupeKey = none) := by
  refine (Tx.relates_query ?_).bind fun row => ?_
  · rintro s t ⟨rfl, halike⟩
    exact halike.messageByDedupe _ _
  · cases row with
    | none =>
        refine Tx.relates_pure _ ?_
        rintro s t ⟨hnone, -, halike⟩
        exact ⟨fun _ hrecord => (by cases hrecord), halike, fun _ => hnone⟩
    | some m =>
        refine (Tx.relates_ofExcept _).bind fun record => ?_
        refine Tx.relates_pure _ ?_
        rintro s t ⟨hmap, hfound, rfl, halike⟩
        obtain ⟨hm, hkey⟩ := Store.messageByDedupe_eq_some.mp hfound
        obtain ⟨-, rfl⟩ := mapMessage_eq_ok.mp hmap
        refine ⟨?_, halike, fun h => (by cases h)⟩
        rintro _ ⟨⟩
        exact ⟨m, hm, congrArg Prod.fst hkey, rfl⟩

theorem resolveRetry_relates (squad : SquadId) (request : SendMessage) :
    Tx.Relates (fun s t => request.semantics.squad = squad ∧ s.Alike t squad)
      (resolveRetry request) fun found s t =>
        (∀ record ∈ found, ∃ m ∈ s.messages, m.squadId = squad ∧ m.record = record)
          ∧ s.Alike t squad
          ∧ (found = none → s.messageByDedupe request.semantics.squad request.semantics.sender
              request.dedupeKey = none) := by
  refine (findByDedupe_relates squad request).bind fun existing => ?_
  cases existing with
  | none => exact Tx.relates_pure _ fun _ _ h => h
  | some record =>
      refine (Tx.relates_require _ _).bind fun _ => ?_
      exact Tx.relates_pure _ fun _ _ h => h.2

omit [Sha256] in
theorem authorizeSquadAndMembers_relates (squad : SquadId) (semantics : MessageSemantics) :
    Tx.Relates (fun s t => semantics.squad = squad ∧ s.Alike t squad)
      (authorizeSquadAndMembers semantics) fun _ s t => s.Alike t squad
        ∧ s.activeMember squad semantics.sender = true
        ∧ s.activeMember squad semantics.recipient = true := by
  refine (Tx.relates_query ?_).bind fun found => ?_
  · rintro s t ⟨rfl, halike⟩
    exact halike.squadById
  refine (Tx.relates_expect found _).bind fun q => ?_
  refine (Tx.relates_require _ _).bind fun _ => ?_
  refine (Tx.relates_query ?_).bind fun sender => ?_
  · rintro s t ⟨-, -, -, rfl, halike⟩
    exact halike.activeMember _
  refine (Tx.relates_require _ _).bind fun _ => ?_
  refine (Tx.relates_query ?_).bind fun recipient => ?_
  · rintro s t ⟨-, -, -, -, -, rfl, halike⟩
    exact halike.activeMember _
  refine (Tx.relates_require _ _).mono (fun _ _ h => h) ?_
  rintro _ s t ⟨hrecipient, hr, hsender, hs, -, -, -, rfl, halike⟩
  exact ⟨halike, hs.trans hsender, hr.trans hrecipient⟩

omit [Sha256] in
theorem authorizeReply_relates {semantics : MessageSemantics} {R : Store → Store → Prop}
    (hR : ∀ s t, R s t → semantics.squad = squad ∧ s.Alike t squad) :
    Tx.Relates R (authorizeReply semantics) fun _ s t =>
      (∀ reply ∈ semantics.replyTo, ∃ o ∈ s.messages, o.id = reply ∧ o.squadId = squad)
        ∧ R s t := by
  unfold authorizeReply
  cases hreply : semantics.replyTo with
  | none => exact Tx.relates_pure _ fun s t h => ⟨fun _ hr => (by cases hr), h⟩
  | some reply =>
      refine (Tx.relates_query ?_).bind fun valid => ?_
      · intro s t h
        obtain ⟨rfl, halike⟩ := hR s t h
        exact halike.replyExists reply
      · refine (Tx.relates_require _ _).mono (fun _ _ h => h) ?_
        rintro _ s t ⟨hvalid, hs, h⟩
        refine ⟨?_, h⟩
        rintro _ ⟨⟩
        obtain ⟨rfl, -⟩ := hR s t h
        rw [← hs] at hvalid
        simp only [List.any_eq_true, Bool.and_eq_true, decide_eq_true_eq] at hvalid
        exact hvalid

/-- The view of a message just inserted joins it with rows that were there before. -/
theorem messageView_insertMessage {u v : Store} {request : SendMessage}
    (hu : u.toTables = s.toTables.insertMessage request)
    (hv : v.toTables = t.toTables.insertMessage request)
    (halike : s.Alike t request.semantics.squad)
    (hsender : s.belongs request.semantics.squad request.semantics.sender = true)
    (hrecipient : s.belongs request.semantics.squad request.semantics.recipient = true) :
    u.messageView (request.row s.nextSequence).record
      = v.messageView (request.row s.nextSequence).record := by
  have hrow : ∀ {x y : Store}, x.toTables = y.toTables.insertMessage request →
      x.messages.find? (fun o => decide (o.id = (request.row s.nextSequence).record.id))
        = some (request.row y.nextSequence) := by
    intro x y hx
    refine x.constraints.messageId.find?_eq_some.mpr ⟨?_, rfl⟩
    rw [hx]
    exact List.mem_append_right _ (List.mem_singleton.mpr rfl)
  have hsquad : u.squadById request.semantics.squad = v.squadById request.semantics.squad := by
    rw [hu, hv]
    exact halike.squadById
  have hmember : ∀ {member : MembershipId},
      s.belongs request.semantics.squad member = true →
        u.membershipById member = v.membershipById member := by
    intro member h
    rw [hu, hv]
    exact halike.membershipById h
  simp only [Tables.messageView, hrow hu, hrow hv, Option.bind_eq_bind, Option.bind_some]
  simp only [SendMessage.row, hsquad, hmember hsender, hmember hrecipient]

/-- Both stores accept a new message, or both refuse it. -/
theorem insertMessage_relates (request : SendMessage) (sequence : Nat) :
    Tx.Relates (fun s t => s.nextSequence = sequence
        ∧ (∀ reply ∈ request.semantics.replyTo, ∃ o ∈ s.messages,
            o.id = reply ∧ o.squadId = request.semantics.squad)
        ∧ s.messageByDedupe request.semantics.squad request.semantics.sender request.dedupeKey
            = none
        ∧ s.Alike t request.semantics.squad
        ∧ s.activeMember request.semantics.squad request.semantics.sender = true
        ∧ s.activeMember request.semantics.squad request.semantics.recipient = true)
      (StoreTx.write (Tables.insertMessage request)) fun _ s t =>
        s.messageView (request.row sequence).record
          = t.messageView (request.row sequence).record := by
  rintro s t ⟨rfl, hreply, hkey, halike, hsender, hrecipient⟩
  -- what the schema asks of the row, in a store with the rows of the squad
  have haccepts : ∀ u : Store, s.Alike u request.semantics.squad →
      ((u.toTables.insertMessage request).Constraints
        ↔ (∀ o ∈ s.messages, o.id ≠ request.id) ∧ s.nextSequence < 2 ^ 63) := by
    intro u hu
    obtain ⟨m, hm, hmid, hmsquad, -⟩ := s.activeMember_eq_true.mp hsender
    obtain ⟨r, hr, hrid, hrsquad, -⟩ := s.activeMember_eq_true.mp hrecipient
    have hids : (∀ o ∈ u.messages, o.id ≠ request.id) ↔ ∀ o ∈ s.messages, o.id ≠ request.id := by
      have hiff := not_congr (hu.messageIds request.id)
      push Not at hiff
      exact hiff.symm
    rw [u.constraints.insertMessage_iff ⟨m, (hu.memberships m hmsquad).mp hm, hmid, hmsquad⟩
      ⟨r, (hu.memberships r hrsquad).mp hr, hrid, hrsquad⟩ ?_ ?_, hids, hu.sequence]
    · intro reply hr
      obtain ⟨o, ho, hoid, hosquad⟩ := hreply reply hr
      exact ⟨o, (hu.messages o hosquad).mp ho, hoid, hosquad⟩
    · intro o ho hokey
      have hfound := Store.messageByDedupe_eq_some.mpr ⟨ho, hokey⟩
      rw [← hu.messageByDedupe, hkey] at hfound
      cases hfound
  have hself : s.Alike s request.semantics.squad := .refl s _
  by_cases hfits : (∀ o ∈ s.messages, o.id ≠ request.id) ∧ s.nextSequence < 2 ^ 63
  · refine Or.inr ⟨(), _, _, StoreTx.write_run_of_constraints ((haccepts s hself).mpr hfits),
      StoreTx.write_run_of_constraints ((haccepts t halike).mpr hfits),
      messageView_insertMessage rfl rfl halike ?_ ?_⟩
    · obtain ⟨m, hm, hmid, hmsquad, -⟩ := s.activeMember_eq_true.mp hsender
      exact Tables.belongs_eq_true.mpr ⟨m, hm, hmid, hmsquad⟩
    · obtain ⟨m, hm, hmid, hmsquad, -⟩ := s.activeMember_eq_true.mp hrecipient
      exact Tables.belongs_eq_true.mpr ⟨m, hm, hmid, hmsquad⟩
  · have hrefuses : ∀ u : Store, s.Alike u request.semantics.squad →
        (StoreTx.write (Tables.insertMessage request)).run u = .error .internal := by
      intro u hu
      have hnot : ¬ (u.toTables.insertMessage request).Constraints :=
        fun h => hfits ((haccepts u hu).mp h)
      rw [StoreTx.write, Tx.update_eq_error, Store.ofTables?, dif_neg hnot]
      exact ⟨rfl, rfl⟩
    exact Or.inl ⟨.internal, hrefuses s hself, hrefuses t halike⟩

theorem sendInTransaction_relates (squad : SquadId) (request : SendMessage) :
    Tx.Relates (fun s t => request.semantics.squad = squad ∧ s.Alike t squad)
      (sendInTransaction request) fun record s t =>
        s.messageView record = t.messageView record := by
  refine Tx.Relates.of_fact fun hsquad => ?_
  subst hsquad
  refine ((resolveRetry_relates _ request).mono (fun _ _ h => ⟨rfl, h⟩)
    fun _ _ _ h => h).bind fun retry => ?_
  cases retry with
  | some record =>
      refine Tx.relates_pure _ ?_
      rintro s t ⟨hstored, halike, -⟩
      obtain ⟨m, hm, hmsquad, hrecord⟩ := hstored record rfl
      exact halike.messageView hm hmsquad (by rw [← hrecord]; rfl)
  | none =>
      let unsent : Store → Store → Prop := fun s _ => s.messageByDedupe request.semantics.squad
        request.semantics.sender request.dedupeKey = none
      have hauthorize := (authorizeSquadAndMembers_relates request.semantics.squad
        request.semantics).frame (fun s u s' h => ?_) unsent
      · refine (hauthorize.mono (fun s t h => ⟨h.2.2 rfl, rfl, h.2.1⟩)
          fun _ _ _ h => h).bind fun _ => ?_
        refine (authorizeReply_relates fun s t h => ⟨rfl, h.2.1⟩).bind fun _ => ?_
        refine (Tx.relates_query fun s t h => h.2.2.1.sequence).bind fun sequence => ?_
        refine (insertMessage_relates request sequence).bind fun _ => ?_
        exact Tx.relates_pure _ fun _ _ h => h
      · exact (authorizeSquadAndMembers_eq_ok.mp h).2.2.2.symm

/-- A repeated send reads the stored message and its view, both of the squad. -/
theorem authenticatedSendByName_relates (session : AuthenticatedSession) (request : SendByName) :
    Tx.Relates (Linked squad session.instanceId) (authenticatedSendByName session request)
      fun _ _ _ => True := by
  refine (authenticateHistorical_relates squad session).bind fun identity => ?_
  refine (Tx.relates_query ?_).bind fun stored => ?_
  · rintro s t ⟨⟨⟨hsquad, -⟩, halike⟩, -⟩
    rw [hsquad]
    exact halike.messageByDedupe _ _
  cases stored with
  | some m =>
      refine (Tx.relates_require _ _).bind fun _ => ?_
      refine ((findByDedupe_relates squad _).mono (fun s t h => ?_) fun _ _ _ h => h).bind
        fun found => ?_
      · exact ⟨h.2.2.1.1.1, h.2.2.1.2⟩
      refine (Tx.relates_expect found _).bind fun record => ?_
      refine (Tx.relates_require _ _).bind fun _ => ?_
      refine (messageViewOn_relates record ?_).bind fun view => ?_
      · rintro s t ⟨-, rfl, hrecords, halike, -⟩
        obtain ⟨row, hrow, hsquad, hrecord⟩ := hrecords record rfl
        exact halike.messageView hrow hsquad (by rw [← hrecord]; rfl)
      refine (Tx.relates_require _ _).bind fun _ => ?_
      exact Tx.relates_pure _ fun _ _ _ => trivial
  | none =>
      refine Tx.Relates.bind (Q := fun _ s t => Known squad identity s t) ?_ fun _ => ?_
      · -- the second authentication finds the identity the first one found
        refine ((authorizeCurrent_relates squad session).frame (authorizeCurrent_readOnly session)
          (Known squad identity)).mono ?_ ?_
        · exact fun s t h => ⟨h.2.1, h.2.2⟩
        · exact fun _ _ _ h => h.1
      refine (Tx.relates_query ?_).bind fun found => ?_
      · rintro s t ⟨⟨hsquad, -⟩, halike⟩
        rw [hsquad]
        exact halike.joinedByName _
      refine (Tx.relates_expect found _).bind fun recipient => ?_
      refine (Tx.relates_require _ _).bind fun _ => ?_
      refine ((sendInTransaction_relates squad _).mono (fun s t h => ?_) fun _ _ _ h => h).bind
        fun record => ?_
      · exact ⟨h.2.2.2.1.1, h.2.2.2.2⟩
      refine (messageViewOn_relates record fun _ _ h => h).bind fun view => ?_
      exact Tx.relates_pure _ fun _ _ _ => trivial

/-! ## Reading -/

omit [Sha256] in
theorem messageViewsOn_relates {R : Store → Store → Prop} {records : List MessageRecord}
    (h : ∀ s t, R s t → s.Alike t squad
      ∧ ∀ record ∈ records, ∃ m ∈ s.messages, m.squadId = squad ∧ m.record = record) :
    Tx.Relates R (messageViewsOn records) fun _ _ _ => True := by
  refine (Tx.relates_query fun s t hst => ?_).bind fun views => ?_
  · exact (h s t hst).1.messageViews records (h s t hst).2
  · exact (Tx.relates_expect views _).mono (fun _ _ h => h) fun _ _ _ _ => trivial

theorem pendingInboxOn_relates (squad : SquadId) (member : MembershipId) (limit : Nat) :
    Tx.Relates (fun s t => s.belongs squad member = true ∧ s.Alike t squad)
      (pendingInboxOn ⟨member, limit⟩) fun records s t => s.Alike t squad
        ∧ ∀ record ∈ records, ∃ m ∈ s.messages, m.squadId = squad ∧ m.record = record := by
  refine (Tx.relates_require _ _).bind fun _ => ?_
  refine (Tx.relates_query ?_).bind fun rows => ?_
  · rintro s t ⟨-, hmember, halike⟩
    show (s.pendingRows member).take limit = (t.pendingRows member).take limit
    rw [halike.pendingRows hmember]
  refine (Tx.relates_ofExcept _).mono (fun _ _ h => h) ?_
  rintro records s t ⟨hpage, rfl, -, hmember, halike⟩
  refine ⟨halike, fun record hrecord => ?_⟩
  rcases inboxPage_mem _ _ _ _ hpage record hrecord with hnone | ⟨m, hm, hm'⟩
  · cases hnone
  · have hrow := (List.mem_insertionSort _).mp (List.mem_of_mem_take hm)
    obtain ⟨hmem, hpending⟩ := List.mem_filter.mp hrow
    simp only [MessageRow.pendingFor, Bool.and_eq_true, decide_eq_true_eq] at hpending
    exact ⟨m, hmem, Store.squad_of_recipient hmember hmem hpending.1, hm'⟩

theorem authenticatedPendingPage_relates (session : AuthenticatedSession) (limit : Nat) :
    Tx.Relates (Linked squad session.instanceId) (authenticatedPendingPage session limit)
      fun _ _ _ => True := by
  refine (authorizeCurrent_relates squad session).bind fun identity => ?_
  refine (Tx.relates_query fun s t h => h.2.pendingRows h.1.2).bind fun pending => ?_
  refine ((pendingInboxOn_relates squad identity.membership limit).mono
    (fun s t h => ⟨h.2.1.2, h.2.2⟩) fun _ _ _ h => h).bind fun records => ?_
  refine (messageViewsOn_relates fun s t h => h).bind fun messages => ?_
  exact Tx.relates_pure _ fun _ _ _ => trivial

theorem authenticatedTranscriptViews_relates (session : AuthenticatedSession)
    (query : TranscriptByName) :
    Tx.Relates (Linked squad session.instanceId) (authenticatedTranscriptViews session query)
      fun _ _ _ => True := by
  refine (Tx.relates_require _ _).bind fun _ => ?_
  refine ((authorizeCurrent_relates squad session).mono (fun _ _ h => h.2)
    fun _ _ _ h => h).bind fun identity => ?_
  refine (squadByIdTx_relates ?_).bind fun q => ?_
  · rintro s t ⟨⟨hsquad, -⟩, halike⟩
    rw [hsquad]
    exact halike.squadById
  refine (Tx.relates_require _ _).bind fun _ => ?_
  have htranscript : Tx.Relates
      (fun s t => q.name = query.squad ∧ s.squadById identity.squad = some q
        ∧ Known squad identity s t)
      (transcriptRecords identity.squad query.after query.limit) fun records s t =>
        s.Alike t squad
          ∧ ∀ record ∈ records, ∃ m ∈ s.messages, m.squadId = squad ∧ m.record = record := by
    refine (Tx.relates_query ?_).bind fun rows => ?_
    · rintro s t ⟨-, -, ⟨hsquad, -⟩, halike⟩
      rw [hsquad]
      exact halike.transcriptRows _ _
    refine (Tx.relates_ofExcept _).mono (fun _ _ h => h) ?_
    rintro records s t ⟨hmap, rfl, -, -, ⟨hsquad, -⟩, halike⟩
    refine ⟨halike, fun record hrecord => ?_⟩
    obtain ⟨m, hm, hm'⟩ := mapMessage_mapM_mem _ _ (Tx.mapError_eq_ok.mp hmap) record hrecord
    obtain ⟨hmem, hrow⟩ :=
      List.mem_filter.mp ((List.mem_insertionSort _).mp (List.mem_of_mem_take hm))
    simp only [Bool.and_eq_true, decide_eq_true_eq] at hrow
    exact ⟨m, hmem, hrow.1.trans hsquad, hm'⟩
  exact htranscript.bind fun records => messageViewsOn_relates fun s t h => h

/-! ## Acknowledging, leaving, archiving -/

theorem authenticatedAcknowledge_relates (session : AuthenticatedSession)
    (messageIds : List MessageId) :
    Tx.Relates (Linked squad session.instanceId) (authenticatedAcknowledge session messageIds)
      fun _ _ _ => True := by
  refine (authorizeCurrent_relates squad session).bind fun identity => ?_
  rintro s t ⟨⟨-, hmember⟩, halike⟩
  by_cases howned : ∀ id ∈ messageIds, s.ownsMessage identity.membership id = true
  · refine Or.inr ⟨(), _, _, acknowledgeOn_of_owned howned, acknowledgeOn_of_owned ?_, trivial⟩
    intro id hid
    rw [← halike.ownsMessage hmember]
    exact howned id hid
  · push Not at howned
    obtain ⟨id, hid, hnot⟩ := howned
    have hnot' : s.ownsMessage identity.membership id = false := by simpa using hnot
    refine Or.inl ⟨.notFound, acknowledgeOn_of_not_owned ⟨id, hid, hnot'⟩,
      acknowledgeOn_of_not_owned ⟨id, hid, ?_⟩⟩
    rw [← halike.ownsMessage hmember]
    exact hnot'

theorem authenticatedLeave_relates (session : AuthenticatedSession) (expected : SquadName) :
    Tx.Relates (Linked squad session.instanceId) (authenticatedLeave session expected)
      fun _ _ _ => True := by
  refine (authorizeCurrent_relates squad session).bind fun identity => ?_
  refine (squadByIdTx_relates ?_).bind fun q => ?_
  · rintro s t ⟨⟨hsquad, -⟩, halike⟩
    rw [hsquad]
    exact halike.squadById
  refine (Tx.relates_require _ _).bind fun _ => ?_
  refine (StoreTx.relates_write fun s => s.constraints.closeInstances _ _).bind fun _ => ?_
  refine (StoreTx.relates_write fun s => s.constraints.setLeft _ _).bind fun _ => ?_
  exact Tx.relates_pure _ fun _ _ _ => trivial

/-- A name of another squad is refused alike in both stores: only whether it is taken shows. -/
theorem authenticatedArchiveByName_relates (session : AuthenticatedSession) (name : SquadName) :
    Tx.Relates (Linked squad session.instanceId) (authenticatedArchiveByName session name)
      fun _ _ _ => True := by
  refine (authorizeCurrent_relates squad session).bind fun identity => ?_
  rintro s t ⟨⟨hsquad, -⟩, halike⟩
  by_cases hown : ∃ q ∈ s.squads, q.id = squad ∧ q.name = name
  · obtain ⟨q, hq, hid, rfl⟩ := hown
    have hrelates : Tx.Relates (fun s t => s.squadByName q.name = t.squadByName q.name)
        (do
          let found ← squadByNameTx q.name
          Tx.require (identity.squad = found.id) .notMember
          Tx.require (found.state = .active) .squadArchived
          StoreTx.write (Tables.archiveSquads (fun r => decide (r.id = found.id)) session.now)
          pure { found with state := .archived, archivedAt := some session.now } :
          StoreTx SquadRecord) fun _ _ _ => True := by
      refine Tx.Relates.bind (Q := fun _ _ _ => True) ?_ fun found => ?_
      · refine (Tx.relates_query fun s t h => h).bind fun found => ?_
        exact (Tx.relates_expect found _).mono (fun _ _ h => h) fun _ _ _ _ => trivial
      refine (Tx.relates_require _ _).bind fun _ => ?_
      refine (Tx.relates_require _ _).bind fun _ => ?_
      refine (StoreTx.relates_write fun s => s.constraints.archiveSquads _ _).bind fun _ => ?_
      exact Tx.relates_pure _ fun _ _ _ => trivial
    exact hrelates s t (halike.squadByName hq hid)
  · -- both stores hold the name for another squad, or neither holds it
    have hrefused : ∀ u : Store, (¬ ∃ q ∈ u.squads, q.id = squad ∧ q.name = name) →
        (squadByNameTx name >>= fun found => do
          Tx.require (identity.squad = found.id) .notMember
          Tx.require (found.state = .active) .squadArchived
          StoreTx.write (Tables.archiveSquads (fun r => decide (r.id = found.id)) session.now)
          pure { found with state := .archived, archivedAt := some session.now } :
          StoreTx SquadRecord).run u
        = .error (if ∃ q ∈ u.squads, q.name = name then .notMember else .notFound) := by
      intro u hother
      rw [squadByNameTx, Tx.run_bind, Tx.run_query_bind]
      cases hfound : u.squadByName name with
      | none =>
          rw [if_neg]
          · rfl
          · rintro ⟨q, hq, hname⟩
            rw [u.squadByName_eq_some.mpr ⟨hq, hname⟩] at hfound
            cases hfound
      | some q =>
          obtain ⟨hq, hname⟩ := u.squadByName_eq_some.mp hfound
          rw [if_pos ⟨q, hq, hname⟩]
          simp only [Tx.run_expect_some]
          rw [Tx.run_require_bind, if_neg]
          rw [hsquad]
          exact fun hid => hother ⟨q, hq, hid.symm, hname⟩
    refine Or.inl ⟨_, hrefused s hown, ?_⟩
    have hother : ¬ ∃ q ∈ t.squads, q.id = squad ∧ q.name = name := by
      rintro ⟨q, hq, hid, hname⟩
      exact hown ⟨q, (halike.squads q hid).mpr hq, hid, hname⟩
    rw [hrefused t hother]
    simp only [halike.squadNames name]

/-! ## Resuming -/

omit [Sha256] in
/-- Closing the owner leaves the memberships and squads to be read as before. -/
theorem Store.Alike.of_closed {u v : Store} {p : InstanceRow → Bool} {now : UnixMillis}
    (h : s.Alike t squad) (hu : u.toTables = s.toTables.closeInstances p now)
    (hv : v.toTables = t.toTables.closeInstances p now) {member : MembershipId}
    (hmember : s.belongs squad member = true) :
    u.membershipById member = v.membershipById member
      ∧ u.squadById squad = v.squadById squad := by
  rw [hu, hv]
  exact ⟨h.membershipById hmember, h.squadById⟩

omit [Sha256] in
theorem Tables.exists_closeInstances_id {t : Tables} {p : InstanceRow → Bool} {now : UnixMillis}
    {id : InstanceId} :
    (∃ i ∈ (t.closeInstances p now).instances, i.id = id) ↔ ∃ i ∈ t.instances, i.id = id := by
  constructor
  · rintro ⟨i, hi, hid⟩
    obtain ⟨j, hj, rfl⟩ := mem_updateWhere.mp hi
    refine ⟨j, hj, ?_⟩
    split at hid <;> exact hid
  · rintro ⟨i, hi, hid⟩
    refine ⟨_, mem_updateWhere.mpr ⟨i, hi, rfl⟩, ?_⟩
    split <;> exact hid

/-- Both stores accept the replacement of a closed owner, or both refuse it. -/
theorem insertInstance_relates (n : NewInstance) (now : UnixMillis) :
    Tx.Relates (fun s' t' => ∃ s t : Store, (s.belongs squad n.membershipId = true ∧ s.Alike t squad)
        ∧ s'.toTables = s.toTables.closeInstances
            (fun i => decide (i.membershipId = n.membershipId)) now
        ∧ t'.toTables = t.toTables.closeInstances
            (fun i => decide (i.membershipId = n.membershipId)) now)
      (insertInstance n) fun _ _ _ => True := by
  refine (Tx.relates_expect _ _).bind fun expiry => ?_
  refine Tx.Relates.bind (Q := fun _ _ _ => True) ?_ fun _ =>
    Tx.relates_pure _ fun _ _ _ => trivial
  rintro s' t' ⟨-, s, t, ⟨hmember, halike⟩, hs', ht'⟩
  -- what the schema asks of the row, after the owner was closed
  have haccepts : ∀ {u u' : Store}, s.Alike u squad → u'.toTables = u.toTables.closeInstances
      (fun i => decide (i.membershipId = n.membershipId)) now →
      ((u'.toTables.addInstance (n.row expiry)).Constraints
        ↔ (¬ ∃ i ∈ s.instances, i.id = n.id) ∧ 0 < sqlLength n.clientKind) := by
    intro u u' hu hu'
    obtain ⟨m, hm, hmid, hmsquad⟩ := Tables.belongs_eq_true.mp hmember
    have hids : (∀ i ∈ u'.instances, i.id ≠ (n.row expiry).id)
        ↔ ¬ ∃ i ∈ s.instances, i.id = n.id := by
      rw [hu.instanceIds, ← Tables.exists_closeInstances_id, ← hu']
      push Not
      exact Iff.rfl
    rw [u'.constraints.addInstance_iff ?_ ?_, hids]
    · rfl
    · refine ⟨m, ?_, hmid⟩
      rw [hu']
      exact (hu.memberships m hmsquad).mp hm
    · intro i hi hopen hid
      rw [hu'] at hi
      obtain ⟨j, hj, rfl⟩ := mem_updateWhere.mp hi
      split at hopen
      · simp at hopen
      · rename_i hkeep
        split at hid
        · exact absurd ‹_› hkeep
        · rw [hopen, Bool.and_true, decide_eq_true_eq] at hkeep
          exact hkeep hid
  by_cases hfits : (¬ ∃ i ∈ s.instances, i.id = n.id) ∧ 0 < sqlLength n.clientKind
  · exact Or.inr ⟨(), _, _,
      StoreTx.write_run_of_constraints ((haccepts (.refl s squad) hs').mpr hfits),
      StoreTx.write_run_of_constraints ((haccepts halike ht').mpr hfits), trivial⟩
  · have hrefuses : ∀ {u u' : Store}, s.Alike u squad → u'.toTables = u.toTables.closeInstances
        (fun i => decide (i.membershipId = n.membershipId)) now →
        (StoreTx.write (Tables.addInstance (n.row expiry))).run u' = .error .internal := by
      intro u u' hu hu'
      have hnot : ¬ (u'.toTables.addInstance (n.row expiry)).Constraints :=
        fun h => hfits ((haccepts hu hu').mp h)
      rw [StoreTx.write, Tx.update_eq_error, Store.ofTables?, dif_neg hnot]
      exact ⟨rfl, rfl⟩
    exact Or.inl ⟨.internal, hrefuses (.refl s squad) hs', hrefuses halike ht'⟩

theorem authenticatedResume_relates (squad : SquadId) (request : AuthenticatedResume) :
    Tx.Relates (Linked squad request.priorInstance) (authenticatedResume request)
      fun _ _ _ => True := by
  rw [authenticatedResume, validateClient, validateObservation_eq_require]
  refine (Tx.relates_require _ _).bind fun _ => ?_
  refine (Tx.relates_require _ _).bind fun _ => ?_
  refine (Tx.relates_query ?_).bind fun row => ?_
  · rintro s t ⟨-, -, halike, hseat⟩
    rw [halike.instanceJoinSquad hseat]
  refine (Tx.relates_expect row _).bind fun joined => ?_
  obtain ⟨prior, m, q⟩ := joined
  -- from here on only the membership matters
  refine Tx.Relates.mono (R := fun s t =>
      (m.squadId = squad ∧ s.belongs squad m.id = true) ∧ s.Alike t squad)
    (Q := fun _ _ _ => True) ?_ ?_ fun _ _ _ _ => trivial
  · refine (Tx.relates_require _ _).bind fun _ => ?_
    refine (Tx.relates_require _ _).bind fun _ => ?_
    refine (Tx.relates_require _ _).bind fun _ => ?_
    refine (Tx.relates_require _ _).bind fun _ => ?_
    refine (Tx.relates_query fun s t h =>
      h.2.2.2.2.2.hasLiveOwner h.2.2.2.2.1.2 _).bind fun live => ?_
    refine (Tx.relates_require _ _).bind fun _ => ?_
    let closed : Store → Store → Prop := fun s' t' => ∃ s t : Store,
      (s.belongs squad m.id = true ∧ s.Alike t squad)
        ∧ s'.toTables = s.toTables.closeInstances (fun i => decide (i.membershipId = m.id))
            request.now
        ∧ t'.toTables = t.toTables.closeInstances (fun i => decide (i.membershipId = m.id))
            request.now
    refine Tx.Relates.bind (Q := fun _ s t => m.squadId = squad ∧ closed s t) ?_ fun _ => ?_
    · refine (StoreTx.relates_write fun s => s.constraints.closeInstances _ _).mono
        (fun _ _ h => h) ?_
      rintro _ s' t' ⟨s, t, ⟨-, -, -, -, -, -, ⟨hsquad, hmember⟩, halike⟩, hs', ht'⟩
      exact ⟨hsquad, s, t, ⟨hmember, halike⟩, hs', ht'⟩
    refine Tx.Relates.of_fact fun hsquad => ?_
    subst hsquad
    have hread : ∀ s t, closed s t → s.membershipById m.id = t.membershipById m.id
        ∧ s.squadById m.squadId = t.squadById m.squadId := by
      rintro s' t' ⟨s, t, ⟨hmember, halike⟩, hs', ht'⟩
      exact halike.of_closed hs' ht' hmember
    refine Tx.Relates.bind (Q := fun record s t => record.squadId = m.squadId ∧ closed s t) ?_
      fun record => ?_
    · refine (Tx.relates_query fun s t h => (hread s t h).1).bind fun found => ?_
      refine (Tx.relates_expect found _).bind fun n => ?_
      refine Tx.relates_pure _ ?_
      rintro s' t' ⟨rfl, hn, hclosed⟩
      refine ⟨?_, hclosed⟩
      obtain ⟨s, t, ⟨hmember, halike⟩, hs', ht'⟩ := hclosed
      obtain ⟨hnmem, hnid⟩ := s'.membershipById_eq_some.mp hn
      rw [hs'] at hnmem
      obtain ⟨o, ho, hoid, hosquad⟩ := Tables.belongs_eq_true.mp hmember
      rw [← hosquad, ← s.constraints.membershipId.eq hnmem ho (hnid.trans hoid.symm)]
    refine Tx.Relates.of_fact fun hrecord => ?_
    refine Tx.Relates.bind (Q := fun _ => closed) ?_ fun squadRecord => ?_
    · refine (squadByIdTx_relates fun s t h => ?_).mono (fun _ _ h => h) fun _ _ _ h => h.2
      rw [hrecord]
      exact (hread s t h).2
    refine (insertInstance_relates (request.instance m.id) request.now).bind fun _ => ?_
    exact Tx.relates_pure _ fun _ _ _ => trivial
  · rintro s t ⟨rfl, hrow, -, -, halike, hseat⟩
    obtain ⟨hjoin, -⟩ := Option.filter_eq_some_iff.mp hrow
    have hpair := Store.instanceJoin_eq_some.mpr (Store.instanceJoinSquad_eq_some.mp hjoin).1
    exact ⟨hseat.member hpair, halike⟩

/-! ## Every command -/

omit [Sha256] in
theorem Store.answer_fst_eq {α : Type} {R : Store → Store → Prop} {x : StoreTx α}
    {R' : α → Store → Store → Prop} (h : Tx.Relates R x R') (hst : R s t) (reply : α → Reply) :
    (s.answer x reply).1 = (t.answer x reply).1 := by
  simp only [Store.answer, h.commit_fst hst]

/-- **The answer depends on the squad of the credential alone.** -/
theorem Store.execute_alike {command : StoreCommand} {credential : Credential}
    (hcredential : command.credential = some credential)
    (hseat : s.Seats credential.instanceId squad) (halike : s.Alike t squad) (now : UnixMillis)
    (generated : Option ResumeToken) :
    (s.execute command now generated).1 = (t.execute command now generated).1 := by
  have hlinked : Linked squad (session credential now).instanceId s t := ⟨halike, hseat⟩
  cases command with
  | join _ | listSquads | createSquad _ | describeSquad _ => cases hcredential
  | roster _ name =>
      cases hcredential
      exact Store.answer_fst_eq (authenticatedRoster_relates _ name) hlinked _
  | heartbeat _ availability source policy =>
      cases hcredential
      exact Store.answer_fst_eq (authenticatedHeartbeat_relates _ availability source policy)
        hlinked _
  | send _ request =>
      cases hcredential
      exact Store.answer_fst_eq (authenticatedSendByName_relates _ request) hlinked _
  | pending _ limit =>
      cases hcredential
      exact Store.answer_fst_eq (authenticatedPendingPage_relates _ limit) hlinked _
  | acknowledge _ ids =>
      cases hcredential
      exact Store.answer_fst_eq (authenticatedAcknowledge_relates _ ids) hlinked _
  | transcript _ query =>
      cases hcredential
      exact Store.answer_fst_eq (authenticatedTranscriptViews_relates _ query) hlinked _
  | leave _ name =>
      cases hcredential
      exact Store.answer_fst_eq (authenticatedLeave_relates _ name) hlinked _
  | archive _ name =>
      cases hcredential
      exact Store.answer_fst_eq (authenticatedArchiveByName_relates _ name) hlinked _
  | resume request =>
      cases hcredential
      exact Store.answer_fst_eq (authenticatedResume_relates squad (request.atNow now))
        ⟨halike, hseat⟩ _

omit [Sha256] in
/-- The command works for the squad its credential is seated in. -/
theorem Store.WorksFor.eq_seat {command : StoreCommand} {credential : Credential}
    {other : SquadId} (h : s.WorksFor command other)
    (hcredential : command.credential = some credential)
    (hseat : s.Seats credential.instanceId squad) : other = squad := by
  obtain ⟨i, hi, hid, m, hm, hmid, hsquad⟩ := h.member credential hcredential
  have hjoin := Store.instanceJoin_eq_some.mpr ⟨⟨hi, hid⟩, hm, hmid⟩
  exact hsquad.symm.trans (hseat.member hjoin).1

/-- **Squad isolation.** Every stored message stays within its squad, and a command with a
credential of a squad changes no row of another one and is answered alike by every store that
agrees on the squad. -/
theorem squad_isolation (s : Store) :
    (∀ message ∈ s.messages,
        s.belongs message.squadId message.senderMembershipId = true
          ∧ s.belongs message.squadId message.recipientMembershipId = true
          ∧ ∀ reply ∈ message.replyTo, ∃ target ∈ s.messages,
              target.id = reply ∧ target.squadId = message.squadId)
      ∧ ∀ (command : StoreCommand) (credential : Credential) (squad : SquadId) (now : UnixMillis)
          (generated : Option ResumeToken),
          command.credential = some credential → s.Seats credential.instanceId squad →
            (∀ other, other ≠ squad →
              (s.execute command now generated).2.rowsOf other = s.rowsOf other)
            ∧ ∀ t : Store, s.Alike t squad →
                (s.execute command now generated).1 = (t.execute command now generated).1 := by
  refine ⟨fun message hmessage => ⟨?_, ?_, ?_⟩,
    fun command credential squad now generated hcredential hseat => ⟨?_, ?_⟩⟩
  · exact Tables.belongs_eq_true.mpr (s.constraints.messageSender message hmessage)
  · exact Tables.belongs_eq_true.mpr (s.constraints.messageRecipient message hmessage)
  · exact s.constraints.messageReply message hmessage
  · intro other hne
    rcases s.execute_confined command now generated with hsame | ⟨worked, hworks, hconfined⟩
    · rw [hsame]
    · rw [hworks.eq_seat hcredential hseat] at hconfined
      exact hconfined other hne
  · exact fun t halike => Store.execute_alike hcredential hseat halike now generated

end Isolation

namespace Sample

def beta : SquadName := ⟨"beta", by decide⟩

/-- Alice is in `alpha`; somebody else created `beta` with this mission. -/
def besideBeta (mission : Mission) : Store :=
  Store.empty.perform (archiving.take 1 ++
    [⟨.createSquad ⟨⟨"sqd_beta", by decide⟩, beta, mission⟩, ⟨105, by decide⟩, none⟩])

def betaRecord (mission : Mission) : SquadRecord :=
  activeSquad ⟨"sqd_beta", by decide⟩ beta mission ⟨105, by decide⟩

def alphaRecord : SquadRecord :=
  activeSquad alphaId alpha collaboration (instant 100)

def secret : Mission := ⟨"secret", by decide⟩

def other : Mission := ⟨"other", by decide⟩

/-- The two stores differ in the mission of `beta` alone. -/
theorem besideBeta_alike : (besideBeta secret).Alike (besideBeta other) alphaId := by
  have hs : (besideBeta secret).squads = [alphaRecord, betaRecord secret] := by decide
  have ht : (besideBeta other).squads = [alphaRecord, betaRecord other] := by decide
  have hmemberships : (besideBeta secret).memberships = (besideBeta other).memberships := by
    decide
  have hinstances : (besideBeta secret).instances = (besideBeta other).instances := by
    decide
  have hmessages : (besideBeta secret).messages = (besideBeta other).messages := by
    decide
  have hid : (⟨"sqd_beta", by decide⟩ : SquadId) ≠ alphaId := by decide
  have hbeta : ∀ mission, (betaRecord mission).id ≠ alphaId := fun _ => hid
  refine ⟨fun q hq => ?_, fun m _ => by rw [hmemberships], fun i => ?_,
    fun m _ => by rw [hmessages], fun name => ?_, fun id => by rw [hinstances],
    fun id => by rw [hmessages], by decide⟩
  · have hne : ∀ mission, q ≠ betaRecord mission := fun mission h => hbeta mission (h ▸ hq)
    simp [hs, ht, hne]
  · simp only [Tables.belongs, hinstances, hmemberships]
  · have hname : ∀ mission, (betaRecord mission).name = beta := fun _ => rfl
    simp [hs, ht, hname]

end Sample

open Sample in
/-- Alice asks to archive `beta`: the refusal tells her nothing about its mission. -/
theorem squad_isolation_beta :
    ((besideBeta secret).execute (.archive ⟨aliceInstance, aliceToken⟩ beta) ⟨120, by decide⟩
        none).1
      = ((besideBeta other).execute (.archive ⟨aliceInstance, aliceToken⟩ beta) ⟨120, by decide⟩
        none).1 :=
  ((squad_isolation (besideBeta secret)).2 _ ⟨aliceInstance, aliceToken⟩ alphaId
    ⟨120, by decide⟩ none rfl (by decide)).2 _ besideBeta_alike

end Psst
