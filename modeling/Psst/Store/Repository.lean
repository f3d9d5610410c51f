import Psst.Store.Schema

/-!
# Squads and memberships

`repository.rs`: creating, listing and archiving squads, joining and leaving them, and the
roster read. Every operation is a transaction body; the fault-injection arguments of the
source are only ever set by its own tests and are left out.
-/

namespace Psst

open Table

/-! ## Row lookups and updates -/

namespace Tables

def squadById (t : Tables) (id : SquadId) : Option SquadRecord :=
  t.squads.find? fun s => decide (s.id = id)

def squadByName (t : Tables) (name : SquadName) : Option SquadRecord :=
  t.squads.find? fun s => decide (s.name = name)

def membershipById (t : Tables) (id : MembershipId) : Option MembershipRow :=
  t.memberships.find? fun m => decide (m.id = id)

def instanceById (t : Tables) (id : InstanceId) : Option InstanceRow :=
  t.instances.find? fun i => decide (i.id = id)

/-- `EXISTS(SELECT 1 FROM memberships WHERE id = ? AND squad_id = ? AND left_at IS NULL)` -/
def activeMember (t : Tables) (squad : SquadId) (member : MembershipId) : Bool :=
  t.memberships.any fun m => decide (m.id = member) && decide (m.squadId = squad) && m.joined

/-- `UPDATE instances SET closed_at = ? WHERE p AND closed_at IS NULL` -/
def closeInstances (p : InstanceRow → Bool) (closedAt : UnixMillis) (t : Tables) : Tables :=
  { t with
    instances := updateWhere (fun i => p i && i.unclosed)
      (fun i => { i with closedAt := some closedAt }) t.instances }

/-- `UPDATE memberships SET left_at = ? WHERE id = ? AND left_at IS NULL` -/
def setLeft (member : MembershipId) (leftAt : UnixMillis) (t : Tables) : Tables :=
  { t with
    memberships := updateWhere (fun m => decide (m.id = member) && m.joined)
      (fun m => { m with leftAt := some leftAt }) t.memberships }

/-- `UPDATE squads SET state = 'archived', archived_at = ? WHERE p AND state = 'active'` -/
def archiveSquads (p : SquadRecord → Bool) (archivedAt : UnixMillis) (t : Tables) : Tables :=
  { t with
    squads := updateWhere (fun s => p s && decide (s.state = .active))
      (fun s => { s with state := .archived, archivedAt := some archivedAt }) t.squads }

end Tables

/-! ## What a lookup by a unique column finds -/

namespace Store

variable (s : Store)

theorem squadById_eq_some {id : SquadId} {q : SquadRecord} :
    s.squadById id = some q ↔ q ∈ s.squads ∧ q.id = id :=
  s.constraints.squadId.find?_eq_some

theorem squadByName_eq_some {name : SquadName} {q : SquadRecord} :
    s.squadByName name = some q ↔ q ∈ s.squads ∧ q.name = name :=
  s.constraints.squadName.find?_eq_some

theorem membershipById_eq_some {id : MembershipId} {m : MembershipRow} :
    s.membershipById id = some m ↔ m ∈ s.memberships ∧ m.id = id :=
  s.constraints.membershipId.find?_eq_some

theorem instanceById_eq_some {id : InstanceId} {i : InstanceRow} :
    s.instanceById id = some i ↔ i ∈ s.instances ∧ i.id = id :=
  s.constraints.instanceId.find?_eq_some

theorem activeMember_eq_true {squad : SquadId} {member : MembershipId} :
    s.activeMember squad member = true
      ↔ ∃ m ∈ s.memberships, m.id = member ∧ m.squadId = squad ∧ m.leftAt = none := by
  simp [Tables.activeMember, and_assoc]

end Store

/-! ## Squads -/

structure CreateSquad where
  id : SquadId
  name : SquadName
  mission : Mission
  createdAt : UnixMillis

/-- The row an insert into `squads` writes. -/
def activeSquad (id : SquadId) (name : SquadName) (mission : Mission) (createdAt : UnixMillis) :
    SquadRecord where
  id := id
  name := name
  mission := mission
  state := .active
  createdAt := createdAt
  archivedAt := none

def insertSquad (row : SquadRecord) : StoreTx Unit :=
  StoreTx.write fun t => { t with squads := t.squads ++ [row] }

def createSquad (request : CreateSquad) : StoreTx SquadRecord := do
  -- checks run before the conflict clause, and the conflict clause before the other keys
  Tx.require (0 < sqlLength request.mission.val) .internal
  let conflict ← Tx.query fun s => s.squadByName request.name
  Tx.require (conflict = none) .nameInUse
  let record := activeSquad request.id request.name request.mission request.createdAt
  insertSquad record
  pure record

def listSquads : StoreTx (List SquadRecord) :=
  Tx.query fun s => s.squads.insertionSort fun a b => a.name.val ≤ b.name.val

def describeSquad (name : SquadName) : StoreTx SquadRecord := do
  let found ← Tx.query fun s => s.squadByName name
  Tx.expect found .notFound

def archiveSquad (name : SquadName) (archivedAt : UnixMillis) : StoreTx Unit := do
  let changed ← Tx.query fun s =>
    s.squads.any fun q => decide (q.name = name) && decide (q.state = .active)
  StoreTx.write (Tables.archiveSquads (fun q => decide (q.name = name)) archivedAt)
  if changed then
    pure ()
  else do
    let _ ← describeSquad name
    throw .squadArchived

/-! ## Memberships -/

structure JoinMembership where
  squadName : SquadName
  missionIfMissing : Option Mission
  squadIdIfMissing : SquadId
  agentId : AgentId
  membershipId : MembershipId
  memberName : MemberName
  role : Role
  joinedAt : UnixMillis

/-- The two copies of `find_or_create_squad` in the source agree on every stored state. -/
def findOrCreateSquad (request : JoinMembership) : StoreTx SquadId := do
  let existing ← Tx.query fun s => s.squadByName request.squadName
  match existing with
  | some squad => do
    Tx.require (squad.state = .active) .squadArchived
    pure squad.id
  | none => do
    let mission ← Tx.expect request.missionIfMissing .notFound
    insertSquad
      (activeSquad request.squadIdIfMissing request.squadName mission request.joinedAt)
    pure request.squadIdIfMissing

def insertAgent (id : AgentId) (createdAt : UnixMillis) : StoreTx Unit :=
  StoreTx.write fun t => { t with agents := t.agents ++ [⟨id, createdAt⟩] }

/-- The record a join reports, and the row it inserts. -/
def JoinMembership.record (request : JoinMembership) (squad : SquadId) : MembershipRecord where
  id := request.membershipId
  squadId := squad
  agentId := request.agentId
  name := request.memberName
  role := request.role
  joinedAt := request.joinedAt
  leftAt := none

def JoinMembership.row (request : JoinMembership) (squad : SquadId) : MembershipRow where
  toMembershipRecord := request.record squad
  normalizedName := request.memberName

/-- `INSERT INTO memberships ... ON CONFLICT(squad_id, normalized_name) WHERE left_at IS
NULL DO NOTHING`, where an ignored insert is reported as `NameInUse`. -/
def insertMembership (row : MembershipRow) : StoreTx Unit := do
  Tx.require (0 < sqlLength row.role.val) .internal
  let conflict ← Tx.query fun s => s.memberships.any fun m =>
    decide (m.squadId = row.squadId) && decide (m.normalizedName = row.normalizedName) && m.joined
  Tx.require (conflict = false) .nameInUse
  StoreTx.write fun t => { t with memberships := t.memberships ++ [row] }

def join (request : JoinMembership) : StoreTx MembershipRecord := do
  let squad ← findOrCreateSquad request
  insertAgent request.agentId request.joinedAt
  insertMembership (request.row squad)
  pure (request.record squad)

/-- The repository's `leave`: every unclosed instance of the membership is closed. -/
def leave (squadId : SquadId) (membershipId : MembershipId) (leftAt : UnixMillis) :
    StoreTx Unit := do
  let active ← Tx.query fun s => s.activeMember squadId membershipId
  Tx.require (active = true) .notMember
  StoreTx.write (Tables.closeInstances (fun i => decide (i.membershipId = membershipId)) leftAt)
  StoreTx.write (Tables.setLeft membershipId leftAt)

/-! ## Roster -/

/-- `ORDER BY created_at DESC, id DESC`: `a` comes before `b`. -/
def InstanceRow.Newer (a b : InstanceRow) : Prop :=
  b.createdAt < a.createdAt ∨ (a.createdAt = b.createdAt ∧ b.id.val ≤ a.id.val)

instance : DecidableRel InstanceRow.Newer := fun _ _ => inferInstanceAs (Decidable (_ ∨ _))

instance : Std.Total InstanceRow.Newer where
  total a b := by
    rcases lt_trichotomy a.createdAt b.createdAt with h | h | h
    · exact Or.inr (Or.inl h)
    · rcases String.le_total b.id.val a.id.val with hle | hle
      · exact Or.inl (Or.inr ⟨h, hle⟩)
      · exact Or.inr (Or.inr ⟨h.symm, hle⟩)
    · exact Or.inl (Or.inl h)

instance : IsTrans InstanceRow InstanceRow.Newer where
  trans a b c := by
    rintro (hab | ⟨hab, hab'⟩) (hbc | ⟨hbc, hbc'⟩)
    · exact Or.inl (lt_trans hbc hab)
    · exact Or.inl (hbc ▸ hab)
    · exact Or.inl (hab ▸ hbc)
    · exact Or.inr ⟨hab.trans hbc, String.le_trans hbc' hab'⟩

/-- The newest instance of a membership. -/
def Tables.newestInstance (t : Tables) (member : MembershipId) : Option InstanceRow :=
  ((t.instances.filter fun i => decide (i.membershipId = member)).insertionSort
    InstanceRow.Newer).head?

inductive TransportPresence where
  | online
  | offline
  deriving DecidableEq, Repr

structure RosterMember where
  membership : MembershipRecord
  presence : TransportPresence
  mode : Option AgentMode
  availability : AvailabilityObservation
  lastSeenAt : Option UnixMillis

/-- Unknown availability, observed at the read. -/
def AvailabilityObservation.unknownAt (now : UnixMillis) : AvailabilityObservation where
  availability := .unknown
  source := .unknown
  observedAt := now
  consistent := by simp

/-- One roster line: presence is derived from the newest instance's lease. -/
def rosterMember (t : Tables) (now : UnixMillis) (m : MembershipRow) :
    Except RepositoryError RosterMember :=
  let newest := t.newestInstance m.id
  let line (presence : TransportPresence) (observation : AvailabilityObservation) :
      RosterMember :=
    { membership := m.toMembershipRecord
      presence := presence
      mode := newest.map InstanceRow.mode
      availability := observation
      lastSeenAt := newest.map InstanceRow.lastSeenAt }
  match newest with
  | some i =>
    if m.joined && i.unclosed && decide (now < i.leaseExpiresAt) then
      match AvailabilityObservation.new i.availability i.availabilitySource
          i.availabilityObservedAt with
      | .ok observation => .ok (line .online observation)
      | .error _ => .error .internal
    else .ok (line .offline (.unknownAt now))
  | none => .ok (line .offline (.unknownAt now))

/-- `ORDER BY m.joined_at, m.id` -/
def MembershipRow.RosterLe (a b : MembershipRow) : Prop :=
  a.joinedAt < b.joinedAt ∨ (a.joinedAt = b.joinedAt ∧ a.id.val ≤ b.id.val)

instance : DecidableRel MembershipRow.RosterLe := fun _ _ => inferInstanceAs (Decidable (_ ∨ _))

def roster (squadName : SquadName) (now : UnixMillis) : StoreTx (List RosterMember) := do
  let squad ← describeSquad squadName
  let lines ← Tx.query fun s =>
    ((s.memberships.filter fun m => decide (m.squadId = squad.id)).insertionSort
      MembershipRow.RosterLe).mapM (rosterMember s.toTables now)
  Tx.ofExcept lines

end Psst
