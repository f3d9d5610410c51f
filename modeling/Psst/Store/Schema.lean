import Mathlib.Tactic.MkIffOfInductiveProp
import Psst.Core.State
import Psst.Lib.Table
import Psst.Lib.Transaction

/-!
# The relational schema

The five tables of the migrations and everything SQLite enforces on them: primary keys,
unique columns, partial unique indexes, foreign keys and checks. A `Store` is a set of
tables together with the proof that they satisfy the schema, so no operation can build
tables the database would have refused. Columns whose check is a property of the stored
domain type (enumerations, digest width, body length) carry it in their Lean type.
-/

namespace Psst

open Table

/-! ## Rows -/

/-- A row of `squads`. -/
structure SquadRecord where
  id : SquadId
  name : SquadName
  mission : Mission
  state : SquadState
  createdAt : UnixMillis
  archivedAt : Option UnixMillis
  deriving DecidableEq

/-- A row of `agents`. -/
structure AgentRow where
  id : AgentId
  createdAt : UnixMillis
  deriving DecidableEq

structure MembershipRecord where
  id : MembershipId
  squadId : SquadId
  agentId : AgentId
  name : MemberName
  role : Role
  joinedAt : UnixMillis
  leftAt : Option UnixMillis
  deriving DecidableEq

/-- A row of `memberships`: the record and the indexed name. -/
structure MembershipRow extends MembershipRecord where
  normalizedName : MemberName
  deriving DecidableEq

/-- A row of `instances`. -/
structure InstanceRow where
  id : InstanceId
  membershipId : MembershipId
  mode : AgentMode
  clientKind : String
  hostname : Option String
  resumeTokenHash : Digest
  availability : Availability
  availabilitySource : AvailabilitySource
  availabilityObservedAt : UnixMillis
  leaseExpiresAt : UnixMillis
  lastSeenAt : UnixMillis
  createdAt : UnixMillis
  closedAt : Option UnixMillis
  deriving DecidableEq

/-- A row of `messages`. Every insert of the repository supplies a dedupe key. -/
structure MessageRow where
  sequence : Nat
  id : MessageId
  squadId : SquadId
  senderMembershipId : MembershipId
  recipientMembershipId : MembershipId
  body : MessageBody
  bodyHash : Digest
  priority : MessagePriority
  replyTo : Option MessageId
  correlationId : Option CorrelationId
  dedupeKey : DedupeKey
  createdAt : UnixMillis
  acknowledgedAt : Option UnixMillis
  deriving DecidableEq

/-- The semantic columns of a message row. -/
def MessageRow.semantics (m : MessageRow) : MessageSemantics where
  squad := m.squadId
  sender := m.senderMembershipId
  recipient := m.recipientMembershipId
  body := m.body
  priority := m.priority
  replyTo := m.replyTo
  correlationId := m.correlationId

/-- The database content; `sqliteSequence` is the `AUTOINCREMENT` high-water mark. -/
@[ext]
structure Tables where
  squads : List SquadRecord
  agents : List AgentRow
  memberships : List MembershipRow
  instances : List InstanceRow
  messages : List MessageRow
  sqliteSequence : Nat
  deriving DecidableEq

/-! ## Constraints -/

/-- SQLite's `length(text)`: characters before the first NUL. -/
def sqlLength (s : String) : Nat := (s.toList.takeWhile (· ≠ '\x00')).length

/-- The two checks on a squad row. -/
def SquadRecord.Check (s : SquadRecord) : Prop :=
  0 < sqlLength s.mission.val ∧ (s.state = .active ↔ s.archivedAt = none)

instance (s : SquadRecord) : Decidable s.Check := inferInstanceAs (Decidable (_ ∧ _))

def MembershipRow.joined (m : MembershipRow) : Bool := m.leftAt.isNone

def InstanceRow.unclosed (i : InstanceRow) : Bool := i.closedAt.isNone

@[simp] theorem MembershipRow.joined_iff {m : MembershipRow} :
    m.joined = true ↔ m.leftAt = none := by
  simp [MembershipRow.joined]

@[simp] theorem InstanceRow.unclosed_iff {i : InstanceRow} :
    i.unclosed = true ↔ i.closedAt = none := by
  simp [InstanceRow.unclosed]

@[simp] theorem InstanceRow.unclosed_eq_false {i : InstanceRow} :
    i.unclosed = false ↔ i.closedAt ≠ none := by
  cases h : i.closedAt <;> simp [InstanceRow.unclosed, h]

/-- What the schema enforces, constraint by constraint. -/
@[mk_iff]
structure Tables.Constraints (t : Tables) : Prop where
  squadId : UniqueKey SquadRecord.id t.squads
  squadName : UniqueKey SquadRecord.name t.squads
  squadCheck : ∀ s ∈ t.squads, s.Check
  agentId : UniqueKey AgentRow.id t.agents
  membershipId : UniqueKey (fun m : MembershipRow => m.id) t.memberships
  membershipSquad : ∀ m ∈ t.memberships, ∃ s ∈ t.squads, s.id = m.squadId
  membershipAgent : ∀ m ∈ t.memberships, ∃ a ∈ t.agents, a.id = m.agentId
  membershipRole : ∀ m ∈ t.memberships, 0 < sqlLength m.role.val
  /-- `memberships_active_name` -/
  activeName : UniqueOn MembershipRow.joined
    (fun m : MembershipRow => (m.squadId, m.normalizedName)) t.memberships
  instanceId : UniqueKey InstanceRow.id t.instances
  instanceMembership : ∀ i ∈ t.instances, ∃ m ∈ t.memberships, m.id = i.membershipId
  instanceClientKind : ∀ i ∈ t.instances, 0 < sqlLength i.clientKind
  /-- `instances_unclosed_owner` -/
  unclosedOwner : UniqueOn InstanceRow.unclosed InstanceRow.membershipId t.instances
  messageSequence : UniqueKey MessageRow.sequence t.messages
  messageId : UniqueKey MessageRow.id t.messages
  messageSender : ∀ m ∈ t.messages,
    ∃ s ∈ t.memberships, s.id = m.senderMembershipId ∧ s.squadId = m.squadId
  messageRecipient : ∀ m ∈ t.messages,
    ∃ r ∈ t.memberships, r.id = m.recipientMembershipId ∧ r.squadId = m.squadId
  messageReply : ∀ m ∈ t.messages, ∀ reply ∈ m.replyTo,
    ∃ o ∈ t.messages, o.id = reply ∧ o.squadId = m.squadId
  /-- `messages_dedupe` -/
  messageDedupe : UniqueKey
    (fun m : MessageRow => (m.squadId, m.senderMembershipId, m.dedupeKey)) t.messages
  /-- `AUTOINCREMENT` fails once the largest `i64` has been used -/
  sequenceRange : t.sqliteSequence < 2 ^ 63

instance (t : Tables) : Decidable t.Constraints := 
  decidable_of_iff _ (Tables.constraints_iff t).symm

/-! ## The store -/

/-- Tables that satisfy the schema. -/
structure Store extends Tables where
  constraints : toTables.Constraints

namespace Store

theorem ext_tables {s t : Store} (h : s.toTables = t.toTables) : s = t := by
  cases s
  cases t
  cases h
  rfl

instance : DecidableEq Store := fun s t =>
  decidable_of_iff (s.toTables = t.toTables) ⟨ext_tables, fun h => by rw [h]⟩

/-- A freshly migrated database. -/
def empty : Store where
  toTables := ⟨[], [], [], [], [], 0⟩
  constraints := by decide

/-- The tables as a store, when the schema accepts them. -/
def ofTables? (t : Tables) : Option Store :=
  if h : t.Constraints then some ⟨t, h⟩ else none

theorem ofTables?_eq_some {t : Tables} {s : Store} :
    ofTables? t = some s ↔ s.toTables = t := by
  unfold ofTables?
  constructor
  · intro h
    split at h
    · cases h
      rfl
    · cases h
  · rintro rfl
    rw [dif_pos s.constraints]

end Store

/-! ## Repository errors -/

/-- `RepositoryError`. A constraint violation surfaces as `internal`. -/
inductive RepositoryError where
  | invalidRequest
  | notFound
  | squadArchived
  | notMember
  | nameInUse
  | leaseExpired
  | recipientNotFound
  | idempotencyConflict
  | payloadTooLarge
  | databaseBusy
  | internal
  | invalidStoredData
  | entropyUnavailable
  | injectedFailure
  deriving DecidableEq, Repr

/-- A transaction body over the store. -/
abbrev StoreTx (α : Type) := Tx Store RepositoryError α

namespace StoreTx

/-- One SQL write: the schema is checked when the statement ends. -/
def write (f : Tables → Tables) : StoreTx Unit :=
  Tx.update (fun s => Store.ofTables? (f s.toTables)) .internal

@[simp] theorem write_eq_ok {f : Tables → Tables} {s s' : Store} {u : Unit} :
    (write f).run s = .ok (u, s') ↔ s'.toTables = f s.toTables := by
  rw [write, Tx.update_eq_ok, Store.ofTables?_eq_some]

theorem write_run_of_constraints {f : Tables → Tables} {s : Store}
    (h : (f s.toTables).Constraints) :
    (write f).run s = .ok ((), ⟨f s.toTables, h⟩) :=
  write_eq_ok.mpr rfl

/-- A write that leaves a part of the tables alone. -/
theorem write_keeps {γ : Type} {q : Tables → γ} {f : Tables → Tables}
    (h : ∀ t, q (f t) = q t) : (write f).Keeps fun s : Store => q s.toTables := by
  intro s u t hrun
  show q t.toTables = q s.toTables
  rw [write_eq_ok.mp hrun]
  exact h s.toTables

end StoreTx

end Psst
