import Psst.Lib.Validated
import Psst.Protocol.Api

/-!
# The files of a profile

A profile keeps three records: the credential of its session, the metadata that binds it to a
membership, and the journal of a leave in progress. Each record is replaced or removed in one
atomic step; what can go wrong is that the step does not happen, or that it happens and the
directory cannot be synced, which is reported like a failure.
-/

namespace Psst

/-- The `io::ErrorKind`s the session distinguishes; `os` is whatever the system reported. -/
inductive IoError where
  | os
  | notFound
  | alreadyExists
  | invalidData
  | permissionDenied
  deriving DecidableEq

/-! ## Records -/

/-- The key the paths of a profile are derived from; the origin is in canonical form. -/
structure ProfileKey where
  relayOrigin : String
  profile : String
  deriving DecidableEq

structure ProfileBinding extends ProfileKey where
  squadName : SquadName
  squadId : SquadId
  memberId : MembershipId
  deriving DecidableEq

structure CredentialBinding extends ProfileKey where
  squadId : SquadId
  memberId : MembershipId
  deriving DecidableEq

def ProfileBinding.credentialBinding (b : ProfileBinding) : CredentialBinding where
  toProfileKey := b.toProfileKey
  squadId := b.squadId
  memberId := b.memberId

structure CredentialRecord where
  binding : CredentialBinding
  credential : Credential
  deriving DecidableEq

inductive LeavePhase where
  | intent
  | confirmed
  deriving DecidableEq

structure LeaveJournal where
  phase : LeavePhase
  binding : ProfileBinding
  operationId : String
  createdAt : ApiTimestamp
  confirmedAt : Option ApiTimestamp
  deriving DecidableEq

/-- What is on disk for one profile. -/
structure Disk where
  credential : Option CredentialRecord
  metadata : Option ProfileBinding
  journal : Option LeaveJournal
  deriving DecidableEq

/-- Nothing is left of the profile. -/
def Disk.unbound : Disk := ⟨none, none, none⟩

/-! ## Operation identifiers -/

/-- One to 128 ASCII letters, digits, dashes or underscores; their characters are their
bytes. -/
def operationValid (id : String) : Bool :=
  decide (1 ≤ id.toList.length ∧ id.toList.length ≤ 128)
    && id.toList.all fun c => c.isAlphanum || c == '-' || c == '_'

def hexDigit (n : Nat) : Char :=
  if n < 10 then Char.ofNat ('0'.toNat + n) else Char.ofNat ('a'.toNat + (n - 10))

/-- The lower-case hexadecimal of sixteen random bytes. -/
def drawOperationId (random : Fin 16 → UInt8) : String :=
  String.ofList ((List.ofFn random).flatMap fun byte =>
    [hexDigit (byte.toNat / 16), hexDigit (byte.toNat % 16)])

theorem hexDigit_isAlphanum {n : Nat} (h : n < 16) : (hexDigit n).isAlphanum = true := by
  have hall : ∀ m : Fin 16, (hexDigit m.val).isAlphanum = true := by decide
  exact hall ⟨n, h⟩

theorem drawOperationId_valid (random : Fin 16 → UInt8) :
    operationValid (drawOperationId random) = true := by
  have hlength : ((List.ofFn random).flatMap fun byte =>
      [hexDigit (byte.toNat / 16), hexDigit (byte.toNat % 16)]).length = 32 := by
    simp
  unfold operationValid drawOperationId
  rw [String.toList_ofList, hlength, Bool.and_eq_true]
  refine ⟨rfl, List.all_eq_true.mpr fun c hc => ?_⟩
  obtain ⟨byte, -, hc⟩ := List.mem_flatMap.mp hc
  have hlt : byte.toNat < 256 := byte.toNat_lt
  have halnum : c.isAlphanum = true := by
    rcases List.mem_cons.mp hc with rfl | hc
    · exact hexDigit_isAlphanum (by omega)
    · rw [List.mem_singleton.mp hc]
      exact hexDigit_isAlphanum (by omega)
  rw [halnum]
  rfl

/-! ## The leave journal -/

namespace LeaveJournal

/-- The checks on a record alone. -/
def validateRecord (j : LeaveJournal) : Except IoError Unit :=
  if operationValid j.operationId = true
      ∧ (j.phase = .confirmed ↔ j.confirmedAt.isSome = true)
      ∧ ∀ t ∈ j.confirmedAt, j.createdAt.value ≤ t.value then
    .ok ()
  else .error .invalidData

def validate (j : LeaveJournal) (binding : ProfileBinding) : Except IoError Unit := do
  j.validateRecord
  if j.binding = binding then .ok () else .error .invalidData

def intent (binding : ProfileBinding) (operationId : String) (createdAt : ApiTimestamp) :
    Except IoError LeaveJournal := do
  let value : LeaveJournal := ⟨.intent, binding, operationId, createdAt, none⟩
  value.validate binding
  pure value

/-- Confirming does not compare the two times; storing the result does. -/
def confirmed (j : LeaveJournal) (confirmedAt : ApiTimestamp) : Except IoError LeaveJournal :=
  if j.phase ≠ .intent then .error .invalidData
  else .ok { j with phase := .confirmed, confirmedAt := some confirmedAt }

/-- `LeaveJournalStore::load`. -/
def load (stored : Option LeaveJournal) (binding : ProfileBinding) :
    Except IoError (Option LeaveJournal) :=
  match stored with
  | none => .ok none
  | some value => do
    value.validateRecord
    value.validate binding
    pure (some value)

/-- `LeaveJournalStore::load_for_profile_key`: any binding under the key will do. -/
def loadForProfileKey (stored : Option LeaveJournal) (key : ProfileKey) :
    Except IoError (Option (LeaveJournal × ProfileBinding)) :=
  match stored with
  | none => .ok none
  | some value => do
    value.validateRecord
    if value.binding.toProfileKey ≠ key then .error .invalidData
    else
      value.validate value.binding
      pure (some (value, value.binding))

end LeaveJournal

/-- `CredentialStore::load`: the record must be there, under the expected binding. -/
def CredentialRecord.load (stored : Option CredentialRecord) (expected : CredentialBinding) :
    Except IoError Credential :=
  match stored with
  | none => .error .notFound
  | some record =>
    if record.binding = expected then .ok record.credential else .error .permissionDenied

/-! ## What the checks let through -/

namespace LeaveJournal

/-- The journal of this binding, in a form that loads again. -/
structure Loads (j : LeaveJournal) (binding : ProfileBinding) : Prop where
  record : j.validateRecord = .ok ()
  binding : j.binding = binding

theorem validate_eq_ok {j : LeaveJournal} {binding : ProfileBinding} :
    j.validate binding = .ok () ↔ j.Loads binding := by
  unfold validate
  rw [Except.bind_eq_ok]
  constructor
  · rintro ⟨_, hrecord, hbinding⟩
    split at hbinding
    · next heq => exact ⟨hrecord, heq⟩
    · cases hbinding
  · rintro ⟨hrecord, hbinding⟩
    exact ⟨(), hrecord, if_pos hbinding⟩

theorem load_eq_ok {stored : Option LeaveJournal} {binding : ProfileBinding}
    {found : Option LeaveJournal} :
    load stored binding = .ok found ↔ stored = found ∧ ∀ j ∈ found, j.Loads binding := by
  cases stored with
  | none =>
      constructor
      · rintro ⟨⟩
        exact ⟨rfl, fun j hj => (by cases hj)⟩
      · rintro ⟨rfl, -⟩
        rfl
  | some j =>
      simp only [load, Except.bind_eq_ok]
      constructor
      · rintro ⟨_, -, _, hvalid, ⟨⟩⟩
        refine ⟨rfl, fun i hi => ?_⟩
        cases hi
        exact validate_eq_ok.mp hvalid
      · rintro ⟨rfl, hj⟩
        have hloads := hj j rfl
        exact ⟨(), hloads.record, (), validate_eq_ok.mpr hloads, rfl⟩

theorem loadForProfileKey_eq_ok {stored : Option LeaveJournal} {key : ProfileKey}
    {found : Option (LeaveJournal × ProfileBinding)} :
    loadForProfileKey stored key = .ok found
      ↔ found = stored.map (fun j => (j, j.binding))
        ∧ ∀ j ∈ stored, j.Loads j.binding ∧ j.binding.toProfileKey = key := by
  cases stored with
  | none =>
      constructor
      · rintro ⟨⟩
        exact ⟨rfl, fun j hj => (by cases hj)⟩
      · rintro ⟨rfl, -⟩
        rfl
  | some j =>
      simp only [loadForProfileKey, Except.bind_eq_ok]
      constructor
      · rintro ⟨_, hrecord, hrest⟩
        split at hrest
        · cases hrest
        · next hkey =>
            obtain ⟨_, -, ⟨⟩⟩ := Except.bind_eq_ok.mp hrest
            refine ⟨rfl, fun i hi => ?_⟩
            cases hi
            exact ⟨⟨hrecord, rfl⟩, not_not.mp hkey⟩
      · rintro ⟨rfl, hj⟩
        obtain ⟨hloads, hkey⟩ := hj j rfl
        refine ⟨(), hloads.record, ?_⟩
        rw [if_neg (not_not.mpr hkey)]
        exact Except.bind_eq_ok.mpr ⟨(), validate_eq_ok.mpr hloads, rfl⟩

/-- A fresh intent always loads again. -/
theorem intent_eq_ok (binding : ProfileBinding) (random : Fin 16 → UInt8)
    (createdAt : ApiTimestamp) :
    ∃ j, intent binding (drawOperationId random) createdAt = .ok j ∧ j.phase = .intent
      ∧ j.createdAt = createdAt ∧ j.Loads binding := by
  have hloads : Loads ⟨.intent, binding, drawOperationId random, createdAt, none⟩ binding :=
    ⟨if_pos ⟨drawOperationId_valid random, by simp, fun t ht => (by cases ht)⟩, rfl⟩
  exact ⟨_, Except.bind_eq_ok.mpr ⟨(), validate_eq_ok.mpr hloads, rfl⟩, rfl, rfl, hloads⟩

theorem phase_of_intent {binding : ProfileBinding} {id : String} {createdAt : ApiTimestamp}
    {j : LeaveJournal} (h : intent binding id createdAt = .ok j) :
    j.phase = .intent ∧ j.Loads binding := by
  obtain ⟨_, hvalid, ⟨⟩⟩ := Except.bind_eq_ok.mp h
  exact ⟨rfl, validate_eq_ok.mp hvalid⟩

/-- What confirming an intent makes of it. -/
theorem confirmed_eq_ok {j j' : LeaveJournal} {t : ApiTimestamp} (h : j.confirmed t = .ok j') :
    j.phase = .intent ∧ j' = { j with phase := .confirmed, confirmedAt := some t } := by
  unfold confirmed at h
  split at h
  · cases h
  · next hphase => exact ⟨not_not.mp hphase, (Except.ok.inj h).symm⟩

/-- A confirmation no earlier than its intent loads again. -/
theorem Loads.confirmed {j : LeaveJournal} {binding : ProfileBinding} (h : j.Loads binding)
    {t : ApiTimestamp} (ht : j.createdAt.value ≤ t.value) :
    Loads { j with phase := .confirmed, confirmedAt := some t } binding := by
  have hrecord := h.record
  unfold validateRecord at hrecord
  split at hrecord
  · next hall =>
      refine ⟨if_pos ⟨hall.1, by simp, fun s hs => ?_⟩, h.binding⟩
      cases hs
      exact ht
  · cases hrecord

end LeaveJournal

theorem CredentialRecord.load_eq_ok {stored : Option CredentialRecord}
    {expected : CredentialBinding} {credential : Credential} :
    CredentialRecord.load stored expected = .ok credential
      ↔ stored = some ⟨expected, credential⟩ := by
  cases stored with
  | none => exact ⟨fun h => (by cases h), fun h => (by cases h)⟩
  | some record =>
      obtain ⟨binding, held⟩ := record
      unfold load
      by_cases hbinding : binding = expected
      · simp [hbinding]
      · simp [hbinding]

/-! ## File operations -/

/-- How a durable operation ends: done, not done, or done but reported as failed because the
directory could not be synced. -/
inductive Effect where
  | done
  | failed
  | unsynced
  deriving DecidableEq

/-- Whether the record changed. -/
def Effect.applied : Effect → Bool
  | .done | .unsynced => true
  | .failed => false

/-- What the caller is told. -/
def Effect.reported : Effect → Option Unit
  | .done => some ()
  | .failed | .unsynced => none

end Psst
