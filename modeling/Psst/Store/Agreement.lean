import Psst.Store.Confinement
import Psst.Store.Constraint

/-!
# Stores that agree on one squad

Two stores are alike for a squad when they hold the same rows of it and agree on the names and
identifiers that are taken and on the next message sequence. Every lookup a command makes for
a member of the squad reads the same in both.
-/

namespace Psst

open Table

/-- The stores agree on the rows of `squad`, on the squad names, instance and message
identifiers in use, and on the next sequence. -/
structure Store.Alike (s t : Store) (squad : SquadId) : Prop where
  squads : ∀ q, q.id = squad → (q ∈ s.squads ↔ q ∈ t.squads)
  memberships : ∀ m, m.squadId = squad → (m ∈ s.memberships ↔ m ∈ t.memberships)
  instances : ∀ i, (i ∈ s.instances ∧ s.belongs squad i.membershipId = true)
    ↔ (i ∈ t.instances ∧ t.belongs squad i.membershipId = true)
  messages : ∀ m, m.squadId = squad → (m ∈ s.messages ↔ m ∈ t.messages)
  squadNames : ∀ name, (∃ q ∈ s.squads, q.name = name) ↔ ∃ q ∈ t.squads, q.name = name
  instanceIds : ∀ id, (∃ i ∈ s.instances, i.id = id) ↔ ∃ i ∈ t.instances, i.id = id
  messageIds : ∀ id, (∃ m ∈ s.messages, m.id = id) ↔ ∃ m ∈ t.messages, m.id = id
  sequence : s.nextSequence = t.nextSequence

/-- The store the credential's instance is in, as a member of `squad`. -/
def Store.Seats (s : Store) (id : InstanceId) (squad : SquadId) : Prop :=
  ∃ i ∈ s.instances, i.id = id ∧ s.belongs squad i.membershipId = true

instance (s : Store) (id : InstanceId) (squad : SquadId) : Decidable (s.Seats id squad) :=
  inferInstanceAs (Decidable (∃ i ∈ s.instances, _))

/-! ## Orders of the reads -/

instance : Std.Total MembershipRow.RosterLe where
  total a b := by
    rcases lt_trichotomy a.joinedAt b.joinedAt with h | h | h
    · exact Or.inl (Or.inl h)
    · rcases String.le_total a.id.val b.id.val with hle | hle
      · exact Or.inl (Or.inr ⟨h, hle⟩)
      · exact Or.inr (Or.inr ⟨h.symm, hle⟩)
    · exact Or.inr (Or.inl h)

instance : IsTrans MembershipRow MembershipRow.RosterLe where
  trans a b c := by
    rintro (hab | ⟨hab, hab'⟩) (hbc | ⟨hbc, hbc'⟩)
    · exact Or.inl (lt_trans hab hbc)
    · exact Or.inl (hbc ▸ hab)
    · exact Or.inl (hab ▸ hbc)
    · exact Or.inr ⟨hab.trans hbc, String.le_trans hab' hbc'⟩

instance : Std.Total fun a b : MessageRow => a.sequence ≤ b.sequence where
  total a b := Nat.le_total a.sequence b.sequence

instance : IsTrans MessageRow fun a b : MessageRow => a.sequence ≤ b.sequence where
  trans _ _ _ := Nat.le_trans

/-- The messages of a recipient are in the recipient's squad. -/
theorem Store.squad_of_recipient {s : Store} {squad : SquadId} {member : MembershipId}
    (hmember : s.belongs squad member = true) {m : MessageRow} (hm : m ∈ s.messages)
    (hrecipient : m.recipientMembershipId = member) : m.squadId = squad := by
  obtain ⟨n, hn, hnid, hnsquad⟩ := Tables.belongs_eq_true.mp hmember
  obtain ⟨r, hr, hrid, hrsquad⟩ := s.constraints.messageRecipient m hm
  rw [← hrsquad, ← hnsquad,
    s.constraints.membershipId.eq hr hn ((hrid.trans hrecipient).trans hnid.symm)]

/-- The active-name index makes the name of a joined member a key. -/
theorem Store.joinedByName_eq_some {s : Store} {squad : SquadId} {name : MemberName}
    {m : MembershipRow} :
    s.joinedByName squad name = some m
      ↔ m ∈ s.memberships ∧ m.squadId = squad ∧ m.normalizedName = name ∧ m.joined = true := by
  unfold Tables.joinedByName
  constructor
  · intro hfind
    have hp := List.find?_some hfind
    simp only [Bool.and_eq_true, decide_eq_true_eq] at hp
    exact ⟨List.mem_of_find?_eq_some hfind, hp.1.1, hp.1.2, hp.2⟩
  · rintro ⟨hm, rfl, rfl, hjoined⟩
    cases hfind : s.memberships.find? (fun n => decide (n.squadId = m.squadId)
        && decide (n.normalizedName = m.normalizedName) && n.joined) with
    | none => simpa [hjoined] using List.find?_eq_none.mp hfind m hm
    | some n =>
        have hp := List.find?_some hfind
        simp only [Bool.and_eq_true, decide_eq_true_eq] at hp
        have hn := List.mem_of_find?_eq_some hfind
        rw [s.constraints.activeName.eq hn hm hp.2 hjoined (Prod.ext hp.1.1 hp.1.2)]

namespace Store.Alike

variable {s t : Store} {squad : SquadId} {member : MembershipId}

theorem refl (s : Store) (squad : SquadId) : s.Alike s squad where
  squads _ _ := Iff.rfl
  memberships _ _ := Iff.rfl
  instances _ := Iff.rfl
  messages _ _ := Iff.rfl
  squadNames _ := Iff.rfl
  instanceIds _ := Iff.rfl
  messageIds _ := Iff.rfl
  sequence := rfl

theorem belongs (h : s.Alike t squad) (member : MembershipId) :
    s.belongs squad member = t.belongs squad member := by
  rw [Bool.eq_iff_iff, Tables.belongs_eq_true, Tables.belongs_eq_true]
  constructor
  · rintro ⟨m, hm, hid, hsquad⟩
    exact ⟨m, (h.memberships m hsquad).mp hm, hid, hsquad⟩
  · rintro ⟨m, hm, hid, hsquad⟩
    exact ⟨m, (h.memberships m hsquad).mpr hm, hid, hsquad⟩

theorem squadById (h : s.Alike t squad) : s.squadById squad = t.squadById squad := by
  apply Option.ext
  intro q
  rw [s.squadById_eq_some, t.squadById_eq_some]
  constructor
  · rintro ⟨hq, hid⟩
    exact ⟨(h.squads q hid).mp hq, hid⟩
  · rintro ⟨hq, hid⟩
    exact ⟨(h.squads q hid).mpr hq, hid⟩

theorem membershipById (h : s.Alike t squad) (hmember : s.belongs squad member = true) :
    s.membershipById member = t.membershipById member := by
  obtain ⟨m, hm, hid, hsquad⟩ := Tables.belongs_eq_true.mp hmember
  rw [s.membershipById_eq_some.mpr ⟨hm, hid⟩,
    t.membershipById_eq_some.mpr ⟨(h.memberships m hsquad).mp hm, hid⟩]

theorem mem_instances (h : s.Alike t squad) (hmember : s.belongs squad member = true)
    {i : InstanceRow} (hi : i.membershipId = member) : i ∈ s.instances ↔ i ∈ t.instances := by
  have hs : s.belongs squad i.membershipId = true := hi ▸ hmember
  have ht : t.belongs squad i.membershipId = true := h.belongs i.membershipId ▸ hs
  have hiff := h.instances i
  rw [hs, ht] at hiff
  simpa using hiff

/-! ## The session's own rows -/

theorem instanceJoin (h : s.Alike t squad) {id : InstanceId} (hseat : s.Seats id squad) :
    s.instanceJoin id = t.instanceJoin id := by
  obtain ⟨i, hi, hid, hmember⟩ := hseat
  obtain ⟨m, hm, hmid, hsquad⟩ := Tables.belongs_eq_true.mp hmember
  rw [Store.instanceJoin_eq_some.mpr ⟨⟨hi, hid⟩, hm, hmid⟩,
    Store.instanceJoin_eq_some.mpr
      ⟨⟨(h.mem_instances hmember rfl).mp hi, hid⟩, (h.memberships m hsquad).mp hm, hmid⟩]

theorem instanceJoinSquad (h : s.Alike t squad) {id : InstanceId} (hseat : s.Seats id squad) :
    s.instanceJoinSquad id = t.instanceJoinSquad id := by
  have hjoin := h.instanceJoin hseat
  obtain ⟨i, hi, hid, hmember⟩ := hseat
  obtain ⟨m, hm, hmid, hsquad⟩ := Tables.belongs_eq_true.mp hmember
  have hs := Store.instanceJoin_eq_some.mpr ⟨⟨hi, hid⟩, hm, hmid⟩
  simp only [Tables.instanceJoinSquad, ← hjoin, hs, Option.bind_eq_bind, Option.bind_some, hsquad,
    h.squadById]

/-! ## Reads of instances -/

theorem newestInstance (h : s.Alike t squad) (hmember : s.belongs squad member = true) :
    s.newestInstance member = t.newestInstance member := by
  unfold Tables.newestInstance
  congr 1
  refine insertionSort_eq_of_mem_iff InstanceRow.id
    (s.constraints.instanceId.nodup_filter _) (t.constraints.instanceId.nodup_filter _) ?_ ?_
  · intro i
    rw [List.mem_filter, List.mem_filter]
    constructor
    · rintro ⟨hi, hid⟩
      exact ⟨(h.mem_instances hmember (of_decide_eq_true hid)).mp hi, hid⟩
    · rintro ⟨hi, hid⟩
      exact ⟨(h.mem_instances hmember (of_decide_eq_true hid)).mpr hi, hid⟩
  · rintro a b (hab | ⟨hab, hle⟩) (hba | ⟨hba, hge⟩)
    · exact absurd hab (lt_asymm hba)
    · exact absurd hab (by rw [hba]; exact lt_irrefl _)
    · exact absurd hba (by rw [hab]; exact lt_irrefl _)
    · exact Validated.ext (String.le_antisymm hge hle)

theorem hasLiveOwner (h : s.Alike t squad) (hmember : s.belongs squad member = true)
    (now : UnixMillis) : s.hasLiveOwner member now = t.hasLiveOwner member now := by
  rw [Bool.eq_iff_iff]
  simp only [Tables.hasLiveOwner, List.any_eq_true, Bool.and_eq_true, decide_eq_true_eq]
  constructor
  · rintro ⟨i, hi, ⟨hid, hopen⟩, hlease⟩
    exact ⟨i, (h.mem_instances hmember hid).mp hi, ⟨hid, hopen⟩, hlease⟩
  · rintro ⟨i, hi, ⟨hid, hopen⟩, hlease⟩
    exact ⟨i, (h.mem_instances hmember hid).mpr hi, ⟨hid, hopen⟩, hlease⟩

theorem rosterMember (h : s.Alike t squad) (now : UnixMillis) {m : MembershipRow}
    (hm : m ∈ s.memberships) (hsquad : m.squadId = squad) :
    rosterMember s.toTables now m = rosterMember t.toTables now m := by
  have hmember : s.belongs squad m.id = true := Tables.belongs_eq_true.mpr ⟨m, hm, rfl, hsquad⟩
  unfold Psst.rosterMember
  rw [h.newestInstance hmember]

/-- The lines of a roster, in order. -/
theorem rosterRows (h : s.Alike t squad) :
    (s.memberships.filter fun m => decide (m.squadId = squad)).insertionSort MembershipRow.RosterLe
      = (t.memberships.filter fun m => decide (m.squadId = squad)).insertionSort
          MembershipRow.RosterLe := by
  refine insertionSort_eq_of_mem_iff (fun m : MembershipRow => m.id)
    (s.constraints.membershipId.nodup_filter _) (t.constraints.membershipId.nodup_filter _) ?_ ?_
  · intro m
    rw [List.mem_filter, List.mem_filter]
    constructor
    · rintro ⟨hm, hsquad⟩
      exact ⟨(h.memberships m (of_decide_eq_true hsquad)).mp hm, hsquad⟩
    · rintro ⟨hm, hsquad⟩
      exact ⟨(h.memberships m (of_decide_eq_true hsquad)).mpr hm, hsquad⟩
  · rintro a b (hab | ⟨hab, hle⟩) (hba | ⟨hba, hge⟩)
    · exact absurd hab (lt_asymm hba)
    · exact absurd hab (by rw [hba]; exact lt_irrefl _)
    · exact absurd hba (by rw [hab]; exact lt_irrefl _)
    · exact Validated.ext (String.le_antisymm hle hge)

/-! ## Reads of messages -/

theorem sequenceRows (h : s.Alike t squad) {p : MessageRow → Bool}
    (hs : ∀ m ∈ s.messages, p m = true → m.squadId = squad)
    (ht : ∀ m ∈ t.messages, p m = true → m.squadId = squad) :
    (s.messages.filter p).insertionSort (fun a b => a.sequence ≤ b.sequence)
      = (t.messages.filter p).insertionSort fun a b => a.sequence ≤ b.sequence := by
  refine insertionSort_eq_of_mem_iff MessageRow.sequence
    (s.constraints.messageSequence.nodup_filter _) (t.constraints.messageSequence.nodup_filter _)
    ?_ fun _ _ => Nat.le_antisymm
  intro m
  rw [List.mem_filter, List.mem_filter]
  constructor
  · rintro ⟨hm, hp⟩
    exact ⟨(h.messages m (hs m hm hp)).mp hm, hp⟩
  · rintro ⟨hm, hp⟩
    exact ⟨(h.messages m (ht m hm hp)).mpr hm, hp⟩

theorem pendingRows (h : s.Alike t squad) (hmember : s.belongs squad member = true) :
    s.pendingRows member = t.pendingRows member := by
  have hmember' : t.belongs squad member = true := h.belongs member ▸ hmember
  refine h.sequenceRows (fun m hm hp => ?_) fun m hm hp => ?_
  · simp only [MessageRow.pendingFor, Bool.and_eq_true, decide_eq_true_eq] at hp
    exact Store.squad_of_recipient hmember hm hp.1
  · simp only [MessageRow.pendingFor, Bool.and_eq_true, decide_eq_true_eq] at hp
    exact Store.squad_of_recipient hmember' hm hp.1

theorem transcriptRows (h : s.Alike t squad) (after : Int) (limit : Nat) :
    s.transcriptRows squad after limit = t.transcriptRows squad after limit := by
  unfold Tables.transcriptRows
  rw [h.sequenceRows (fun m _ hp => ?_) fun m _ hp => ?_]
  · simp only [Bool.and_eq_true, decide_eq_true_eq] at hp
    exact hp.1
  · simp only [Bool.and_eq_true, decide_eq_true_eq] at hp
    exact hp.1

theorem ownsMessage (h : s.Alike t squad) (hmember : s.belongs squad member = true)
    (id : MessageId) : s.ownsMessage member id = t.ownsMessage member id := by
  have hmember' : t.belongs squad member = true := h.belongs member ▸ hmember
  rw [Bool.eq_iff_iff, Tables.ownsMessage_eq_true, Tables.ownsMessage_eq_true]
  constructor
  · rintro ⟨m, hm, hid, hrecipient⟩
    have hsquad := Store.squad_of_recipient hmember hm hrecipient
    exact ⟨m, (h.messages m hsquad).mp hm, hid, hrecipient⟩
  · rintro ⟨m, hm, hid, hrecipient⟩
    have hsquad := Store.squad_of_recipient hmember' hm hrecipient
    exact ⟨m, (h.messages m hsquad).mpr hm, hid, hrecipient⟩

theorem messageByDedupe (h : s.Alike t squad) (sender : MembershipId) (key : DedupeKey) :
    s.messageByDedupe squad sender key = t.messageByDedupe squad sender key := by
  apply Option.ext
  intro m
  rw [Store.messageByDedupe_eq_some, Store.messageByDedupe_eq_some]
  constructor
  · rintro ⟨hm, hkey⟩
    exact ⟨(h.messages m (congrArg Prod.fst hkey)).mp hm, hkey⟩
  · rintro ⟨hm, hkey⟩
    exact ⟨(h.messages m (congrArg Prod.fst hkey)).mpr hm, hkey⟩

theorem replyExists (h : s.Alike t squad) (reply : MessageId) :
    (s.messages.any fun m => decide (m.id = reply) && decide (m.squadId = squad))
      = t.messages.any fun m => decide (m.id = reply) && decide (m.squadId = squad) := by
  rw [Bool.eq_iff_iff]
  simp only [List.any_eq_true, Bool.and_eq_true, decide_eq_true_eq]
  constructor
  · rintro ⟨m, hm, hid, hsquad⟩
    exact ⟨m, (h.messages m hsquad).mp hm, hid, hsquad⟩
  · rintro ⟨m, hm, hid, hsquad⟩
    exact ⟨m, (h.messages m hsquad).mpr hm, hid, hsquad⟩

/-! ## Reads of memberships -/

theorem activeMember (h : s.Alike t squad) (member : MembershipId) :
    s.activeMember squad member = t.activeMember squad member := by
  rw [Bool.eq_iff_iff, s.activeMember_eq_true, t.activeMember_eq_true]
  constructor
  · rintro ⟨m, hm, hid, hsquad, hleft⟩
    exact ⟨m, (h.memberships m hsquad).mp hm, hid, hsquad, hleft⟩
  · rintro ⟨m, hm, hid, hsquad, hleft⟩
    exact ⟨m, (h.memberships m hsquad).mpr hm, hid, hsquad, hleft⟩

theorem joinedByName (h : s.Alike t squad) (name : MemberName) :
    s.joinedByName squad name = t.joinedByName squad name := by
  apply Option.ext
  intro m
  rw [Store.joinedByName_eq_some, Store.joinedByName_eq_some]
  constructor
  · rintro ⟨hm, hsquad, hname⟩
    exact ⟨(h.memberships m hsquad).mp hm, hsquad, hname⟩
  · rintro ⟨hm, hsquad, hname⟩
    exact ⟨(h.memberships m hsquad).mpr hm, hsquad, hname⟩

/-- The view of a message of the squad joins rows of the squad. -/
theorem messageView (h : s.Alike t squad) {m : MessageRow} (hm : m ∈ s.messages)
    (hsquad : m.squadId = squad) {record : MessageRecord} (hid : m.id = record.id) :
    s.messageView record = t.messageView record := by
  have hbelongs : ∀ {member : MembershipId},
      (∃ r ∈ s.memberships, r.id = member ∧ r.squadId = m.squadId) →
        s.belongs squad member = true := by
    rintro member ⟨r, hr, hrid, hrsquad⟩
    exact Tables.belongs_eq_true.mpr ⟨r, hr, hrid, hrsquad.trans hsquad⟩
  have hs : s.messages.find? (fun o => decide (o.id = record.id)) = some m :=
    s.constraints.messageId.find?_eq_some.mpr ⟨hm, hid⟩
  have ht : t.messages.find? (fun o => decide (o.id = record.id)) = some m :=
    t.constraints.messageId.find?_eq_some.mpr ⟨(h.messages m hsquad).mp hm, hid⟩
  simp only [Tables.messageView, hs, ht, Option.bind_eq_bind, Option.bind_some, hsquad,
    h.squadById, h.membershipById (hbelongs (s.constraints.messageSender m hm)),
    h.membershipById (hbelongs (s.constraints.messageRecipient m hm))]

theorem messageViews (h : s.Alike t squad) (records : List MessageRecord)
    (hrecords : ∀ record ∈ records, ∃ m ∈ s.messages, m.squadId = squad ∧ m.record = record) :
    records.mapM s.messageView = records.mapM t.messageView := by
  induction records with
  | nil => rfl
  | cons record records ih =>
      obtain ⟨m, hm, hsquad, hrecord⟩ := hrecords record (List.mem_cons_self ..)
      rw [List.mapM_cons, List.mapM_cons, ih fun r hr => hrecords r (List.mem_cons_of_mem _ hr),
        h.messageView hm hsquad (by rw [← hrecord]; rfl)]

end Store.Alike

/-- The records of a page are records of the rows read. -/
theorem inboxPage_mem [Sha256] (rows : List MessageRow) :
    ∀ (estimated : Nat) (messages page : List MessageRecord),
      inboxPage rows estimated messages = .ok page → ∀ record ∈ page,
        record ∈ messages ∨ ∃ m ∈ rows, m.record = record := by
  induction rows with
  | nil =>
      intro estimated messages page h record hrecord
      cases h
      exact Or.inl hrecord
  | cons row rows ih =>
      intro estimated messages page h record hrecord
      have hdigest : row.bodyHash = bodyDigest row.body := by
        rw [inboxPage] at h
        obtain ⟨message, hmessage, -⟩ := Except.bind_eq_ok.mp h
        exact (mapMessage_eq_ok.mp hmessage).1
      rw [inboxPage_cons hdigest] at h
      by_cases hfull : maxInboxOutputBytes < estimated + (if messages.isEmpty then 0 else 1)
          + conservativeSerializedSize row.record
      · rw [if_pos hfull] at h
        cases h
        exact Or.inl hrecord
      · rw [if_neg hfull] at h
        rcases ih _ _ _ h record hrecord with hold | ⟨m, hm, hm'⟩
        · rcases List.mem_append.mp hold with hold | hnew
          · exact Or.inl hold
          · exact Or.inr ⟨row, List.mem_cons_self .., (List.mem_singleton.mp hnew).symm⟩
        · exact Or.inr ⟨m, List.mem_cons_of_mem _ hm, hm'⟩

theorem mapMessage_mapM_mem [Sha256] (rows : List MessageRow) :
    ∀ records : List MessageRecord, rows.mapM mapMessage = .ok records →
      ∀ record ∈ records, ∃ m ∈ rows, m.record = record := by
  induction rows with
  | nil =>
      intro records h record hrecord
      cases h
      cases hrecord
  | cons row rows ih =>
      intro records h record hrecord
      rw [List.mapM_cons] at h
      obtain ⟨first, hfirst, h⟩ := Except.bind_eq_ok.mp h
      obtain ⟨rest, hrest, h⟩ := Except.bind_eq_ok.mp h
      cases h
      obtain ⟨-, rfl⟩ := mapMessage_eq_ok.mp hfirst
      rcases List.mem_cons.mp hrecord with rfl | hrecord
      · exact ⟨row, List.mem_cons_self .., rfl⟩
      · obtain ⟨m, hm, hm'⟩ := ih rest hrest record hrecord
        exact ⟨m, List.mem_cons_of_mem _ hm, hm'⟩

end Psst
