import Psst.Store.Change

/-!
# The rows of a squad

Every row of the store but an agent's belongs to one squad: a membership and a message name
it, an instance belongs to the squad of its membership. A write on behalf of one squad leaves
the rows of every other squad as they were; below, one lemma per kind of write and then one
per command.
-/

namespace Psst

open Table

/-- The rows that belong to one squad. -/
@[ext]
structure SquadRows where
  squads : List SquadRecord
  memberships : List MembershipRow
  instances : List InstanceRow
  messages : List MessageRow

/-- The membership is one of this squad. -/
def Tables.belongs (t : Tables) (squad : SquadId) (member : MembershipId) : Bool :=
  t.memberships.any fun m => decide (m.id = member) && decide (m.squadId = squad)

def Tables.rowsOf (t : Tables) (squad : SquadId) : SquadRows where
  squads := t.squads.filter fun q => decide (q.id = squad)
  memberships := t.memberships.filter fun m => decide (m.squadId = squad)
  instances := t.instances.filter fun i => t.belongs squad i.membershipId
  messages := t.messages.filter fun m => decide (m.squadId = squad)

theorem Tables.belongs_eq_true {t : Tables} {squad : SquadId} {member : MembershipId} :
    t.belongs squad member = true ↔ ∃ m ∈ t.memberships, m.id = member ∧ m.squadId = squad := by
  simp [Tables.belongs]

/-- A membership belongs to one squad only. -/
theorem Store.belongs_unique {s : Store} {m : MembershipRow} (hm : m ∈ s.memberships)
    {squad : SquadId} (hne : squad ≠ m.squadId) : s.belongs squad m.id = false := by
  by_contra h
  obtain ⟨n, hn, hid, hsquad⟩ := Tables.belongs_eq_true.mp (Bool.not_eq_false _ ▸ h)
  rw [s.constraints.membershipId.eq hn hm hid] at hsquad
  exact hne hsquad.symm

/-- The squad is not an archived one: active, or not in the store. -/
def Store.Open (s : Store) (squad : SquadId) : Prop :=
  ∀ q ∈ s.squads, q.id = squad → q.state = .active

theorem Store.open_of_active {s : Store} {q : SquadRecord} (hq : q ∈ s.squads)
    (hactive : q.state = .active) : s.Open q.id := by
  intro r hr hid
  rw [s.constraints.squadId.eq hr hq hid]
  exact hactive

/-- Only rows of `squad` differ. -/
def Store.Confined (s t : Store) (squad : SquadId) : Prop :=
  ∀ other, other ≠ squad → t.rowsOf other = s.rowsOf other

namespace Store.Confined

variable {s t u : Store} {squad : SquadId}

theorem refl (s : Store) (squad : SquadId) : s.Confined s squad := fun _ _ => rfl

theorem trans (h : s.Confined t squad) (h' : t.Confined u squad) : s.Confined u squad :=
  fun other hne => (h' other hne).trans (h other hne)

/-! ## Writes -/

theorem insertSquad {row : SquadRecord} (hid : row.id = squad)
    (heq : t.toTables = { s.toTables with squads := s.squads ++ [row] }) :
    s.Confined t squad := by
  intro other hne
  have hout : ¬ squad = other := Ne.symm hne
  rw [heq]
  ext1 <;> simp [Tables.rowsOf, Tables.belongs, hid, hout]

theorem insertAgent {row : AgentRow}
    (heq : t.toTables = { s.toTables with agents := s.agents ++ [row] }) :
    s.Confined t squad := by
  intro other _
  rw [heq]
  rfl

theorem insertMembership {row : MembershipRow} (hsquad : row.squadId = squad)
    (heq : t.toTables = { s.toTables with memberships := s.memberships ++ [row] }) :
    s.Confined t squad := by
  intro other hne
  have hout : ¬ squad = other := Ne.symm hne
  rw [heq]
  ext1 <;> simp [Tables.rowsOf, Tables.belongs, hsquad, hout]

theorem addInstance {row : InstanceRow} {m : MembershipRow} (hm : m ∈ s.memberships)
    (hid : m.id = row.membershipId) (hsquad : m.squadId = squad)
    (heq : t.toTables = s.toTables.addInstance row) : s.Confined t squad := by
  intro other hne
  have hout : s.belongs other row.membershipId = false := by
    rw [← hid]
    exact Store.belongs_unique hm (by rw [hsquad]; exact hne)
  rw [heq]
  have hinstances : (s.instances ++ [row]).filter (fun i => s.belongs other i.membershipId)
      = s.instances.filter fun i => s.belongs other i.membershipId := by
    rw [List.filter_append]
    simp [hout]
  ext1
  · rfl
  · rfl
  · exact hinstances
  · rfl

/-- An update of instances of one membership. -/
theorem renewInstances {p : InstanceRow → Bool} {f : InstanceRow → InstanceRow}
    {m : MembershipRow} (hm : m ∈ s.memberships) (hsquad : m.squadId = squad)
    (heq : t.toTables = s.toTables.renewInstances p f)
    (hp : ∀ i ∈ s.instances, p i = true → i.membershipId = m.id)
    (hf : ∀ i, (f i).membershipId = i.membershipId) : s.Confined t squad := by
  intro other hne
  have hout : s.belongs other m.id = false :=
    Store.belongs_unique hm (by rw [hsquad]; exact hne)
  rw [heq]
  -- only the rows at hand matter, and on them the guard names the membership
  have hguard : updateWhere p f s.instances
      = updateWhere (fun i => p i && decide (i.membershipId = m.id)) f s.instances := by
    apply updateWhere_congr
    intro i hi
    cases hpi : p i with
    | false => rfl
    | true => simp [hp i hi hpi]
  have hinstances : (updateWhere p f s.instances).filter (fun i => s.belongs other i.membershipId)
      = s.instances.filter fun i => s.belongs other i.membershipId := by
    rw [hguard]
    apply filter_updateWhere_of_out
    intro i hi
    have hmember : i.membershipId = m.id := by
      simp only [Bool.and_eq_true, decide_eq_true_eq] at hi
      exact hi.2
    rw [hf, hmember]
    exact ⟨hout, hout⟩
  ext1
  · rfl
  · rfl
  · exact hinstances
  · rfl

theorem closeInstances {p : InstanceRow → Bool} {now : UnixMillis} {m : MembershipRow}
    (hm : m ∈ s.memberships) (hsquad : m.squadId = squad)
    (heq : t.toTables = s.toTables.closeInstances p now)
    (hp : ∀ i ∈ s.instances, p i = true → i.membershipId = m.id) : s.Confined t squad := by
  refine renewInstances (p := fun i => p i && i.unclosed)
    (f := fun i => { i with closedAt := some now }) hm hsquad heq ?_ fun _ => rfl
  intro i hi hpi
  exact hp i hi (Bool.and_eq_true_iff.mp hpi).1

theorem setLeft {m : MembershipRow} (hm : m ∈ s.memberships) (hsquad : m.squadId = squad)
    {now : UnixMillis} (heq : t.toTables = s.toTables.setLeft m.id now) : s.Confined t squad := by
  intro other hne
  rw [heq]
  have hmemberships : (s.toTables.setLeft m.id now).memberships.filter
        (fun n => decide (n.squadId = other))
      = s.memberships.filter fun n => decide (n.squadId = other) := by
    have hguard : (s.toTables.setLeft m.id now).memberships
        = updateWhere (fun n => (decide (n.id = m.id) && n.joined) && decide (n.squadId = squad))
            (fun n => { n with leftAt := some now }) s.memberships := by
      apply updateWhere_congr
      intro n hn
      by_cases hid : n.id = m.id
      · rw [s.constraints.membershipId.eq hn hm hid]
        simp [hsquad]
      · simp [hid]
    rw [hguard]
    apply filter_updateWhere_of_out
    intro n hn
    have hn' : n.squadId = squad := by
      simp only [Bool.and_eq_true, decide_eq_true_eq] at hn
      exact hn.2
    simp [hn', Ne.symm hne]
  have hbelongs : (s.toTables.setLeft m.id now).belongs other = s.belongs other := by
    funext member
    rw [Bool.eq_iff_iff, Tables.belongs_eq_true, Tables.belongs_eq_true]
    constructor
    · rintro ⟨n, hn, hid, hn'⟩
      obtain ⟨o, ho, rfl⟩ := mem_updateWhere.mp hn
      refine ⟨o, ho, ?_⟩
      split at hid <;> split at hn' <;> exact ⟨hid, hn'⟩
    · rintro ⟨o, ho, hid, ho'⟩
      refine ⟨_, mem_updateWhere.mpr ⟨o, ho, rfl⟩, ?_⟩
      split <;> exact ⟨hid, ho'⟩
  ext1
  · rfl
  · exact hmemberships
  · show s.instances.filter (fun i => (s.toTables.setLeft m.id now).belongs other i.membershipId)
      = s.instances.filter fun i => s.belongs other i.membershipId
    rw [hbelongs]
  · rfl

theorem archiveSquads {now : UnixMillis}
    (heq : t.toTables = s.toTables.archiveSquads (fun q => decide (q.id = squad)) now) :
    s.Confined t squad := by
  intro other hne
  rw [heq]
  have hsquads : (s.toTables.archiveSquads (fun q => decide (q.id = squad)) now).squads.filter
        (fun q => decide (q.id = other))
      = s.squads.filter fun q => decide (q.id = other) := by
    apply filter_updateWhere_of_out
    intro q hq
    have hid : q.id = squad := by
      simp only [Bool.and_eq_true, decide_eq_true_eq] at hq
      exact hq.1
    simp [hid, Ne.symm hne]
  ext1
  · exact hsquads
  · rfl
  · rfl
  · rfl

theorem insertMessage [Sha256] {request : SendMessage} (hsquad : request.semantics.squad = squad)
    (heq : t.toTables = s.toTables.insertMessage request) : s.Confined t squad := by
  intro other hne
  have hout : ¬ squad = other := Ne.symm hne
  rw [heq]
  ext1 <;> simp [Tables.rowsOf, Tables.belongs, Tables.insertMessage, SendMessage.row, hsquad,
    hout]

/-- The messages of a recipient belong to its squad. -/
theorem acknowledgeAll {m : MembershipRow} (hm : m ∈ s.memberships) (hsquad : m.squadId = squad)
    {now : UnixMillis} {ids : List MessageId}
    (heq : t.toTables = s.toTables.acknowledgeAll m.id now ids) : s.Confined t squad := by
  intro other hne
  rw [heq]
  have hmessages : (s.toTables.acknowledgeAll m.id now ids).messages.filter
        (fun o => decide (o.squadId = other))
      = s.messages.filter fun o => decide (o.squadId = other) := by
    have hguard : (s.toTables.acknowledgeAll m.id now ids).messages
        = updateWhere (fun o => (decide (o.id ∈ ids) && o.pendingFor m.id)
              && decide (o.squadId = squad))
            (fun o => { o with acknowledgedAt := some now }) s.messages := by
      apply updateWhere_congr
      intro o ho
      by_cases hrecipient : o.recipientMembershipId = m.id
      · obtain ⟨r, hr, hrid, hrsquad⟩ := s.constraints.messageRecipient o ho
        rw [s.constraints.membershipId.eq hr hm (hrid.trans hrecipient), hsquad] at hrsquad
        simp [← hrsquad]
      · simp [MessageRow.pendingFor, hrecipient]
    rw [hguard]
    apply filter_updateWhere_of_out
    intro o ho
    have ho' : o.squadId = squad := by
      simp only [Bool.and_eq_true, decide_eq_true_eq] at ho
      exact ho.2
    simp [ho', Ne.symm hne]
  ext1
  · rfl
  · rfl
  · rfl
  · exact hmessages

end Store.Confined

/-! ## Commands -/

section Commands

variable [Sha256] {s s' : Store}

theorem Store.Authorizes.isOpen {session : AuthenticatedSession} {i : InstanceRow}
    {m : MembershipRow} (h : s.Authorizes session i m) : s.Open m.squadId := by
  obtain ⟨q, hq, hid, hactive⟩ := h.squad
  rw [← hid]
  exact Store.open_of_active hq hactive

omit [Sha256] in
theorem createSquad_confined {request : CreateSquad} {record : SquadRecord}
    (h : (createSquad request).run s = .ok (record, s')) :
    s.Open request.id ∧ s.Confined s' request.id := by
  simp [createSquad, insertSquad] at h
  obtain ⟨-, -, hwrite, -⟩ := h
  refine ⟨fun q hq hid => ?_, Store.Confined.insertSquad rfl hwrite⟩
  -- the id of the inserted row is new
  have hunique := s'.constraints.squadId
  rw [hwrite] at hunique
  exact absurd hid (hunique.fresh hq)

omit [Sha256] in
theorem findOrCreateSquad_confined {request : JoinMembership} {id : SquadId}
    (h : (findOrCreateSquad request).run s = .ok (id, s')) : s.Open id ∧ s.Confined s' id := by
  simp only [findOrCreateSquad, Tx.bind_eq_ok, Tx.query_eq_ok] at h
  obtain ⟨found, _, ⟨rfl, rfl⟩, h⟩ := h
  split at h
  · rename_i q hfound
    simp at h
    obtain ⟨⟨hactive, rfl⟩, rfl⟩ := h
    exact ⟨Store.open_of_active (s.squadByName_eq_some.mp hfound).1 hactive, .refl s _⟩
  · simp [insertSquad] at h
    obtain ⟨mission, -, hwrite, rfl⟩ := h
    refine ⟨fun q hq hid => ?_, Store.Confined.insertSquad rfl hwrite⟩
    have hunique := s'.constraints.squadId
    rw [hwrite] at hunique
    exact absurd hid (hunique.fresh hq)

theorem joinAndClaim_confined {request : JoinAndClaim} {generated : Option ResumeToken}
    {outcome : JoinAndClaimOutcome}
    (h : (joinAndClaim request generated).run s = .ok (outcome, s')) :
    ∃ squad, s.Open squad ∧ s.Confined s' squad := by
  simp only [joinAndClaim, squadByIdTx, Tx.bind_eq_ok, validateClient_eq_ok,
    validateObservation_eq_ok, Tx.expect_eq_ok, Tx.query_eq_ok, insertInstance_eq_ok,
    Tx.pure_eq_ok] at h
  obtain ⟨_, _, ⟨-, rfl⟩, _, _, ⟨-, rfl⟩, token, _, ⟨-, rfl⟩, squad, t, hfind, _, u, hagent, _, v,
    hinsert, _, _, ⟨expiry, -, hclaim, -⟩, _, _, ⟨_, _, ⟨-, rfl⟩, -, rfl⟩, -, rfl⟩ := h
  simp [insertAgent] at hagent
  simp [insertMembership] at hinsert
  obtain ⟨-, -, hmember⟩ := hinsert
  obtain ⟨hopen, hfound⟩ := findOrCreateSquad_confined hfind
  have hrow : request.membership.row squad ∈ v.memberships := by
    rw [hmember]
    exact List.mem_append_right _ (List.mem_singleton.mpr rfl)
  exact ⟨squad, hopen, hfound.trans ((Store.Confined.insertAgent hagent).trans
    ((Store.Confined.insertMembership rfl hmember).trans
      (Store.Confined.addInstance hrow rfl rfl hclaim)))⟩

theorem authenticatedHeartbeat_confined {session : AuthenticatedSession}
    {availability : Availability} {source : AvailabilitySource} {policy : LeasePolicy}
    {record : InstanceRecord}
    (h : (authenticatedHeartbeat session availability source policy).run s = .ok (record, s')) :
    ∃ i m, s.Authorizes session i m ∧ s.Confined s' m.squadId := by
  simp only [authenticatedHeartbeat, Tx.bind_eq_ok, validateObservation_eq_ok,
    authorizeCurrent_eq_ok, Tx.ofExcept_eq_ok, StoreTx.write_eq_ok, Tx.pure_eq_ok] at h
  obtain ⟨_, _, ⟨-, rfl⟩, _, _, ⟨i, m, hauth, rfl, rfl⟩, expiry, _, ⟨-, rfl⟩, _, _, hwrite, -,
    rfl⟩ := h
  refine ⟨i, m, hauth, Store.Confined.renewInstances hauth.member rfl hwrite ?_ fun _ => rfl⟩
  intro j hj hid
  have hji : j = i := s.constraints.instanceId.eq hj hauth.mem
    ((of_decide_eq_true hid).trans hauth.id.symm)
  rw [hji, hauth.memberId]

theorem sendInTransaction_confined {request : SendMessage} {record : MessageRecord}
    (h : (sendInTransaction request).run s = .ok (record, s')) :
    s.Confined s' request.semantics.squad := by
  rcases sendInTransaction_eq_ok h with ⟨-, rfl⟩ | ⟨-, -, hwrite, -⟩
  · exact .refl s' _
  · exact Store.Confined.insertMessage rfl hwrite

/-- The request repeats a stored message of the member under its dedupe key. -/
structure Store.Repeats (s : Store) (member : MembershipRow) (request : SendByName)
    (m : MessageRow) : Prop where
  mem : m ∈ s.messages
  squad : m.squadId = member.squadId
  sender : m.senderMembershipId = member.id
  key : m.dedupeKey = request.dedupeKey
  body : m.body = request.body
  priority : m.priority = request.priority
  replyTo : m.replyTo = request.replyTo
  correlationId : m.correlationId = request.correlationId
  pin : request.pinAgrees m.recipientMembershipId
  recipient : ∃ r ∈ s.memberships, r.id = m.recipientMembershipId ∧ r.name = request.recipient

/-- **A send by name replays a stored message, or has current authority.** -/
theorem authenticatedSendByName_cases {session : AuthenticatedSession} {request : SendByName}
    {outcome : SendOutcome}
    (h : (authenticatedSendByName session request).run s = .ok (outcome, s')) :
    (∃ i m row, s.Authenticates session i m ∧ s.Repeats m request row
        ∧ outcome.message.message = row.record ∧ outcome.idempotentReplay = true ∧ s' = s)
      ∨ ∃ i m, s.Authorizes session i m ∧ s.Confined s' m.squadId := by
  simp only [authenticatedSendByName, Tx.bind_eq_ok, authenticateHistorical_eq_ok,
    Tx.query_eq_ok] at h
  obtain ⟨_, _, ⟨i, m, hauth, rfl, rfl⟩, stored, _, ⟨hstored, rfl⟩, h⟩ := h
  cases stored with
  | some row =>
      simp only [findByDedupe, Tx.bind_eq_ok, Tx.require_eq_ok,
        Tx.expect_eq_ok, messageViewOn, Tx.query_eq_ok, Tx.pure_eq_ok] at h
      obtain ⟨_, _, ⟨hpin, rfl⟩, found, t, ⟨again, _, ⟨hagain, rfl⟩, hfound⟩, record, _,
        ⟨rfl, rfl⟩, _, _, ⟨hsemantics, rfl⟩, view, _, ⟨_, _, ⟨hview, rfl⟩, rfl, rfl⟩, _, _,
        ⟨hrecipient, rfl⟩, rfl, rfl⟩ := h
      have hrow : again = some row := by
        rw [← hagain]
        exact hstored
      subst hrow
      simp only [Tx.bind_eq_ok, Tx.ofExcept_eq_ok, mapMessage_eq_ok, Tx.pure_eq_ok,
        Option.some.injEq] at hfound
      obtain ⟨_, _, ⟨⟨-, rfl⟩, rfl⟩, rfl, rfl⟩ := hfound
      obtain ⟨hmem, hkey⟩ := Store.messageByDedupe_eq_some.mp hstored
      have hsem : row.semantics = (sendFromName request m.squadId m.id
          row.recipientMembershipId session.now).semantics := hsemantics
      simp only [Prod.mk.injEq, identityOf] at hkey
      simp only [Tables.messageView, Option.bind_eq_bind, Option.bind_eq_some_iff,
        Option.pure_def, Option.some.injEq] at hview
      obtain ⟨row', hrow', _, -, _, -, r, hr, rfl⟩ := hview
      -- the view joins the row it was asked for
      obtain ⟨hrowmem, hrowid⟩ := s.constraints.messageId.find?_eq_some.mp hrow'
      have hsame : row' = row := s.constraints.messageId.eq hrowmem hmem hrowid
      subst hsame
      obtain ⟨hrmem, hrid⟩ := s.membershipById_eq_some.mp hr
      exact Or.inl ⟨i, m, row', hauth, ⟨hmem, hkey.1, hkey.2.1, hkey.2.2,
        congrArg MessageSemantics.body hsem, congrArg MessageSemantics.priority hsem,
        congrArg MessageSemantics.replyTo hsem, congrArg MessageSemantics.correlationId hsem,
        hpin, r, hrmem, hrid, hrecipient⟩, rfl, rfl, rfl⟩
  | none =>
      simp only [Tx.bind_eq_ok, authorizeCurrent_eq_ok, Tx.query_eq_ok, Tx.expect_eq_ok,
        Tx.require_eq_ok, messageViewOn, Tx.pure_eq_ok] at h
      obtain ⟨_, _, ⟨j, n, hcurrent, -, rfl⟩, _, _, ⟨rfl, rfl⟩, r, _, ⟨-, rfl⟩, _, _, ⟨-, rfl⟩,
        record, t, hsend, _, _, ⟨_, _, ⟨-, rfl⟩, -, rfl⟩, -, rfl⟩ := h
      obtain ⟨rfl, rfl⟩ := hauth.unique hcurrent.toAuthenticates
      exact Or.inr ⟨i, m, hcurrent, sendInTransaction_confined hsend⟩

/-- **A repeated send is answered with the stored message**, without current authority. -/
theorem authenticatedSendByName_of_repeats {session : AuthenticatedSession} {i : InstanceRow}
    {m : MembershipRow} (hauth : s.Authenticates session i m) {request : SendByName}
    {row : MessageRow} (h : s.Repeats m request row) (hhash : row.bodyHash = bodyDigest row.body) :
    ∃ outcome, (authenticatedSendByName session request).run s = .ok (outcome, s) := by
  have hhistorical : (authenticateHistorical session).run s = .ok (identityOf i m, s) :=
    authenticateHistorical_eq_ok.mpr ⟨i, m, hauth, rfl, rfl⟩
  have hstored : s.messageByDedupe (identityOf i m).squad (identityOf i m).membership
      request.dedupeKey = some row := by
    refine Store.messageByDedupe_eq_some.mpr ⟨h.mem, ?_⟩
    rw [h.squad, h.sender, h.key]
    rfl
  let candidate := sendFromName request (identityOf i m).squad (identityOf i m).membership
    row.recipientMembershipId session.now
  have hfound : (findByDedupe candidate).run s = .ok (some row.record, s) := by
    rw [findByDedupe, Tx.run_query_bind]
    simp only [candidate, sendFromName, hstored]
    rw [Tx.run_bind_of_ok s (Tx.ofExcept_eq_ok.mpr ⟨mapMessage_eq_ok.mpr ⟨hhash, rfl⟩, rfl⟩)]
    rfl
  have hsemantics : row.record.semantics = candidate.semantics := by
    simp [MessageRow.record, MessageRow.semantics, candidate, sendFromName, identityOf, h.squad,
      h.sender, h.body, h.priority, h.replyTo, h.correlationId]
  obtain ⟨sender, hsender, hsenderid, -⟩ := s.constraints.messageSender row h.mem
  obtain ⟨r, hr, hrid, hname⟩ := h.recipient
  obtain ⟨n, hn, hnid, hnsquad⟩ := s.constraints.messageSender row h.mem
  obtain ⟨q, hq, hqid⟩ := s.constraints.membershipSquad n hn
  have hview : s.messageView row.record
      = some ⟨row.record, q.name, sender.name, r.name, row.acknowledgedAt⟩ := by
    have hrow : s.messages.find? (fun o => decide (o.id = row.record.id)) = some row :=
      s.constraints.messageId.find?_eq_some.mpr ⟨h.mem, rfl⟩
    have hsquad := s.squadById_eq_some.mpr ⟨hq, hqid.trans hnsquad⟩
    have hs := s.membershipById_eq_some.mpr ⟨hsender, hsenderid⟩
    have hr' := s.membershipById_eq_some.mpr ⟨hr, hrid⟩
    simp only [Tables.messageView, Option.bind_eq_bind, hrow, Option.bind_some, hsquad, hs, hr',
      Option.pure_def]
  refine ⟨⟨⟨row.record, q.name, sender.name, r.name, row.acknowledgedAt⟩, true⟩, ?_⟩
  rw [authenticatedSendByName, Tx.run_bind_of_ok s hhistorical, Tx.run_query_bind, hstored]
  simp only []
  rw [Tx.run_require_bind, if_pos h.pin, Tx.run_bind_of_ok s hfound,
    Tx.run_bind_of_ok s (Tx.run_expect_some s _ _), Tx.run_require_bind, if_pos hsemantics,
    Tx.run_bind_of_ok s (a := ⟨row.record, q.name, sender.name, r.name, row.acknowledgedAt⟩)
      (by rw [messageViewOn, Tx.run_query_bind, hview]; rfl),
    Tx.run_require_bind, if_pos hname]
  rfl

theorem authenticatedAcknowledge_confined {session : AuthenticatedSession}
    {messageIds : List MessageId} {u : Unit}
    (h : (authenticatedAcknowledge session messageIds).run s = .ok (u, s')) :
    ∃ i m, s.Authorizes session i m ∧ s.Confined s' m.squadId := by
  simp only [authenticatedAcknowledge, Tx.bind_eq_ok, authorizeCurrent_eq_ok] at h
  obtain ⟨_, _, ⟨i, m, hauth, rfl, rfl⟩, h⟩ := h
  exact ⟨i, m, hauth, Store.Confined.acknowledgeAll hauth.member rfl (acknowledgeOn_eq_ok h).2⟩

theorem authenticatedLeave_confined {session : AuthenticatedSession} {expectedSquad : SquadName}
    {outcome : LeaveOutcome}
    (h : (authenticatedLeave session expectedSquad).run s = .ok (outcome, s')) :
    ∃ i m, s.Authorizes session i m ∧ s.Confined s' m.squadId := by
  simp only [authenticatedLeave, squadByIdTx, Tx.bind_eq_ok, authorizeCurrent_eq_ok,
    Tx.query_eq_ok, Tx.expect_eq_ok, Tx.require_eq_ok, StoreTx.write_eq_ok, Tx.pure_eq_ok] at h
  obtain ⟨_, _, ⟨i, m, hauth, rfl, rfl⟩, q, _, ⟨_, _, ⟨rfl, rfl⟩, -, rfl⟩, _, _, ⟨-, rfl⟩, _, t,
    hclose, _, _, hleft, -, rfl⟩ := h
  have hfirst : s.Confined t m.squadId := by
    refine Store.Confined.closeInstances hauth.member rfl hclose fun j hj hid => ?_
    have hji : j = i := s.constraints.instanceId.eq hj hauth.mem
      ((of_decide_eq_true hid).trans hauth.id.symm)
    rw [hji, hauth.memberId]
  have hm : m ∈ t.memberships := by
    rw [hclose]
    exact hauth.member
  exact ⟨i, m, hauth, hfirst.trans (Store.Confined.setLeft hm rfl hleft)⟩

theorem authenticatedArchiveByName_confined {session : AuthenticatedSession} {name : SquadName}
    {record : SquadRecord}
    (h : (authenticatedArchiveByName session name).run s = .ok (record, s')) :
    ∃ i m, s.Authorizes session i m ∧ s.Confined s' m.squadId := by
  simp only [authenticatedArchiveByName, squadByNameTx, Tx.bind_eq_ok, authorizeCurrent_eq_ok,
    Tx.query_eq_ok, Tx.expect_eq_ok, Tx.require_eq_ok, StoreTx.write_eq_ok, Tx.pure_eq_ok] at h
  obtain ⟨_, _, ⟨i, m, hauth, rfl, rfl⟩, q, _, ⟨_, _, ⟨rfl, rfl⟩, -, rfl⟩, _, _, ⟨hsquad, rfl⟩, _,
    _, ⟨-, rfl⟩, _, t, hwrite, -, rfl⟩ := h
  have hid : q.id = m.squadId := hsquad.symm
  rw [hid] at hwrite
  exact ⟨i, m, hauth, Store.Confined.archiveSquads hwrite⟩

/-- A resume works for a joined membership of an active squad, and on its rows alone. -/
theorem authenticatedResume_confined {request : AuthenticatedResume} {context : SessionContext}
    (h : (authenticatedResume request).run s = .ok (context, s')) :
    ∃ i ∈ s.instances, i.id = request.priorInstance
      ∧ ∃ m ∈ s.memberships, m.id = i.membershipId ∧ s.Open m.squadId
        ∧ s.Confined s' m.squadId := by
  simp [authenticatedResume, membershipByIdTx, squadByIdTx] at h
  obtain ⟨-, -, prior, m, q, ⟨hjoin, -⟩, -, -, hactive, -, -, t, hclose, row, -, -, -, expiry,
    ⟨-, hwrite⟩, -⟩ := h
  obtain ⟨⟨⟨hprior, hid⟩, hm, hmid⟩, hq, hqid⟩ := Store.instanceJoinSquad_eq_some.mp hjoin
  have hfirst : s.Confined t m.squadId :=
    Store.Confined.closeInstances hm rfl hclose fun _ _ hj => of_decide_eq_true hj
  have hmt : m ∈ t.memberships := by
    rw [hclose]
    exact hm
  refine ⟨prior, hprior, hid, m, hm, hmid, ?_, hfirst.trans ?_⟩
  · rw [← hqid]
    exact Store.open_of_active hq hactive
  · exact Store.Confined.addInstance hmt rfl rfl hwrite

end Commands

end Psst
