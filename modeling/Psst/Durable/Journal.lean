import Psst.Durable.Record
import Psst.Session.Disk

/-!
# The leave journal on disk

The record of a leave in progress, with every check that stands between its octets and the session:
what a record is built from, what storing it asks for, what loading it asks for again, and the
file protocol that replaces it.
-/

namespace Psst.Durable

open Json Directory

/-! ## Bindings -/

def profileVersion : UInt32 := 1

structure ProfileBinding where
  version : UInt32
  profile : String
  relayOrigin : String
  squadName : String
  squadId : String
  memberId : String
  deriving DecidableEq

namespace ProfileBinding

variable [Crates]

def validate (b : ProfileBinding) : Bool :=
  decide (b.version = profileVersion) && validProfileName b.profile
    && decide (canonicalRelayOrigin b.relayOrigin = some b.relayOrigin)
    && (SquadName.rule.check b.squadName).isOk
    && (OpaqueId.check .squad b.squadId).isOk
    && (OpaqueId.check .membership b.memberId).isOk

def new (profile relayOrigin squadName squadId memberId : String) : Option ProfileBinding :=
  match canonicalRelayOrigin relayOrigin with
  | none => none
  | some relayOrigin =>
    let value : ProfileBinding := ⟨profileVersion, profile, relayOrigin, squadName, squadId, memberId⟩
    if value.validate then some value else none

end ProfileBinding

/-! ## Records -/

def journalVersion : UInt32 := 1

def maxJournalBytes : Nat := 16 * 1024

structure LeaveJournal where
  version : UInt32
  phase : LeavePhase
  relayOrigin : String
  profile : String
  squadName : String
  squadId : String
  memberId : String
  operationId : String
  createdAt : ApiTimestamp
  confirmedAt : Option ApiTimestamp
  deriving DecidableEq

namespace LeaveJournal

def validateRecord [Crates] (j : LeaveJournal) : Except Failure Unit :=
  match ProfileBinding.new j.profile j.relayOrigin j.squadName j.squadId j.memberId with
  | none => .error .invalidData
  | some binding =>
    if j.version ≠ journalVersion
        ∨ binding.relayOrigin ≠ j.relayOrigin
        ∨ operationValid j.operationId = false
        ∨ decide (j.phase = .confirmed) ≠ j.confirmedAt.isSome
        ∨ (j.confirmedAt.any fun value => decide (value.value.asI64 < j.createdAt.value.asI64)) then
      .error .invalidData
    else .ok ()

def validate [Crates] (j : LeaveJournal) (binding : ProfileBinding) : Except Failure Unit :=
  if binding.validate = false then .error .invalidData
  else
    match j.validateRecord with
    | .error e => .error e
    | .ok () =>
      if j.relayOrigin ≠ binding.relayOrigin ∨ j.profile ≠ binding.profile
          ∨ j.squadName ≠ binding.squadName ∨ j.squadId ≠ binding.squadId
          ∨ j.memberId ≠ binding.memberId then
        .error .invalidData
      else .ok ()

def intent [Crates] (binding : ProfileBinding) (operationId : String) (createdAt : ApiTimestamp) :
    Except Failure LeaveJournal :=
  let value : LeaveJournal :=
    { version := journalVersion
      phase := .intent
      relayOrigin := binding.relayOrigin
      profile := binding.profile
      squadName := binding.squadName
      squadId := binding.squadId
      memberId := binding.memberId
      operationId := operationId
      createdAt := createdAt
      confirmedAt := none }
  match value.validate binding with
  | .error e => .error e
  | .ok () => .ok value

def confirmed (j : LeaveJournal) (confirmedAt : ApiTimestamp) : Except Failure LeaveJournal :=
  if j.phase ≠ .intent then .error .invalidData
  else .ok { j with phase := .confirmed, confirmedAt := some confirmedAt }

/-! ### Octets -/

def fields : List String :=
  ["version", "phase", "relay_origin", "profile", "squad_name", "squad_id", "member_id",
    "operation_id", "created_at", "confirmed_at"]

def phaseName : LeavePhase → String
  | .intent => "intent"
  | .confirmed => "confirmed"

def timestampScalar (t : ApiTimestamp) : Scalar := .string (String.ofList t.display)

def members (j : LeaveJournal) : Members :=
  [("version", .number j.version), ("phase", .string (phaseName j.phase)),
    ("relay_origin", .string j.relayOrigin), ("profile", .string j.profile),
    ("squad_name", .string j.squadName), ("squad_id", .string j.squadId),
    ("member_id", .string j.memberId), ("operation_id", .string j.operationId),
    ("created_at", timestampScalar j.createdAt),
    ("confirmed_at", (j.confirmedAt.map timestampScalar).getD .null)]

def phaseNamed : String → Option LeavePhase
  | "intent" => some .intent
  | "confirmed" => some .confirmed
  | _ => none

/-- A unit variant: its name, or an object with a `null` under its name. -/
def phaseOf : Value → Option LeavePhase
  | .string s => phaseNamed s
  | .object [(s, .null)] => phaseNamed s
  | _ => none

/-- An optional member may be missing. -/
def optionalTimestamp [Crates] : Option Value → Option (Option ApiTimestamp)
  | none => some none
  | some .null => some none
  | some v => (timestamp v).map some

def deserialize [Crates] (v : Value) : Option LeaveJournal := do
  let members ← structMembers fields v
  let version ← (members.lookup "version").bind asU32
  let phase ← (members.lookup "phase").bind phaseOf
  let relayOrigin ← (members.lookup "relay_origin").bind Value.asStr
  let profile ← (members.lookup "profile").bind Value.asStr
  let squadName ← (members.lookup "squad_name").bind Value.asStr
  let squadId ← (members.lookup "squad_id").bind Value.asStr
  let memberId ← (members.lookup "member_id").bind Value.asStr
  let operationId ← (members.lookup "operation_id").bind Value.asStr
  let createdAt ← (members.lookup "created_at").bind timestamp
  let confirmedAt ← optionalTimestamp (members.lookup "confirmed_at")
  return ⟨version, phase, relayOrigin, profile, squadName, squadId, memberId, operationId,
    createdAt, confirmedAt⟩

/-- What the crates are asked for: the JSON and the timestamps of the record are read as they were
written. -/
structure ReadsBack [Crates] (j : LeaveJournal) : Prop where
  json : j.members.ReadsBack
  createdAt : Crates.parseRfc3339 (String.ofList j.createdAt.display) = some j.createdAt
  confirmedAt : ∀ t ∈ j.confirmedAt, Crates.parseRfc3339 (String.ofList t.display) = some t

/-- **The codec.** -/
theorem deserialize_value [Crates] {j : LeaveJournal} (h : j.ReadsBack) :
    deserialize j.members.value = some j := by
  have hmembers : structMembers fields j.members.value
      = some (j.members.map fun m => (m.1, m.2.value)) :=
    structMembers_value rfl (by decide)
  have hphase : phaseOf (Scalar.string (phaseName j.phase)).value = some j.phase := by
    cases j.phase <;> rfl
  have hcreated : timestamp (timestampScalar j.createdAt).value = some j.createdAt :=
    timestamp_display h.createdAt
  have hconfirmed : optionalTimestamp
      (some ((j.confirmedAt.map timestampScalar).getD .null).value) = some j.confirmedAt := by
    cases hat : j.confirmedAt with
    | none => rfl
    | some t =>
        have ht : timestamp (timestampScalar t).value = some t :=
          timestamp_display (h.confirmedAt t hat)
        show (timestamp (timestampScalar t).value).map some = some (some t)
        rw [ht]
        rfl
  have hlookup : ∀ (key : String) (v : Scalar), j.members.lookup key = some v →
      List.lookup key (j.members.map fun m => (m.1, m.2.value)) = some v.value :=
    fun key v hkey => lookup_value hkey
  have htext : ∀ (key : String) (v : String), j.members.lookup key = some (.string v) →
      (List.lookup key (j.members.map fun m => (m.1, m.2.value))).bind Value.asStr = some v := by
    intro key v hkey
    rw [hlookup key _ hkey, Option.bind_some, asStr_string]
  have hversion : (List.lookup "version" (j.members.map fun m => (m.1, m.2.value))).bind asU32
      = some j.version := by
    rw [hlookup "version" (.number j.version) rfl, Option.bind_some, asU32_number]
  have hname : (List.lookup "phase" (j.members.map fun m => (m.1, m.2.value))).bind phaseOf
      = some j.phase := by
    rw [hlookup "phase" (.string (phaseName j.phase)) rfl, Option.bind_some, hphase]
  have hat : (List.lookup "created_at" (j.members.map fun m => (m.1, m.2.value))).bind timestamp
      = some j.createdAt := by
    rw [hlookup "created_at" (timestampScalar j.createdAt) rfl, Option.bind_some, hcreated]
  have hoptional : optionalTimestamp
      (List.lookup "confirmed_at" (j.members.map fun m => (m.1, m.2.value)))
      = some j.confirmedAt := by
    rw [hlookup "confirmed_at" ((j.confirmedAt.map timestampScalar).getD .null) rfl, hconfirmed]
  unfold deserialize
  apply bind_eq_some hmembers
  apply bind_eq_some hversion
  apply bind_eq_some hname
  apply bind_eq_some (htext "relay_origin" j.relayOrigin rfl)
  apply bind_eq_some (htext "profile" j.profile rfl)
  apply bind_eq_some (htext "squad_name" j.squadName rfl)
  apply bind_eq_some (htext "squad_id" j.squadId rfl)
  apply bind_eq_some (htext "member_id" j.memberId rfl)
  apply bind_eq_some (htext "operation_id" j.operationId rfl)
  apply bind_eq_some hat
  apply bind_eq_some hoptional
  rfl

/-! ### What the checks let through -/

/-- The binding a record is for. -/
def binding (j : LeaveJournal) : ProfileBinding where
  version := profileVersion
  profile := j.profile
  relayOrigin := j.relayOrigin
  squadName := j.squadName
  squadId := j.squadId
  memberId := j.memberId

section Checks

variable [Crates] {j : LeaveJournal} {b : ProfileBinding}

theorem canonical_of_validate (h : b.validate = true) :
    canonicalRelayOrigin b.relayOrigin = some b.relayOrigin := by
  unfold ProfileBinding.validate at h
  simp only [Bool.and_eq_true, decide_eq_true_eq] at h
  exact h.1.1.1.2

theorem version_of_validate (h : b.validate = true) : b.version = profileVersion := by
  unfold ProfileBinding.validate at h
  simp only [Bool.and_eq_true, decide_eq_true_eq] at h
  exact h.1.1.1.1.1

/-- A record's own binding passes `ProfileBinding::new` unchanged, or not at all: the origin has to
be canonical already. -/
theorem new_eq_binding (j : LeaveJournal) :
    (∃ b, ProfileBinding.new j.profile j.relayOrigin j.squadName j.squadId j.memberId = some b
        ∧ b.relayOrigin = j.relayOrigin) ↔ j.binding.validate = true := by
  unfold ProfileBinding.new
  constructor
  · rintro ⟨b, hnew, horigin⟩
    cases hcanonical : canonicalRelayOrigin j.relayOrigin with
    | none =>
        rw [hcanonical] at hnew
        cases hnew
    | some origin =>
        rw [hcanonical] at hnew
        dsimp only at hnew
        split at hnew
        · rename_i hvalid
          cases hnew
          have heq : origin = j.relayOrigin := horigin
          rw [heq] at hvalid
          exact hvalid
        · cases hnew
  · intro hvalid
    have hcanonical : canonicalRelayOrigin j.relayOrigin = some j.relayOrigin :=
      canonical_of_validate hvalid
    refine ⟨j.binding, ?_, rfl⟩
    rw [hcanonical]
    exact if_pos hvalid

/-- **The checks on a record.** -/
theorem validateRecord_eq_ok : j.validateRecord = .ok () ↔
    j.binding.validate = true ∧ j.version = journalVersion ∧ operationValid j.operationId = true
      ∧ decide (j.phase = .confirmed) = j.confirmedAt.isSome
      ∧ ∀ t ∈ j.confirmedAt, j.createdAt.value.asI64 ≤ t.value.asI64 := by
  have hlast : (j.confirmedAt.any fun value =>
      decide (value.value.asI64 < j.createdAt.value.asI64)) = false
      ↔ ∀ t ∈ j.confirmedAt, j.createdAt.value.asI64 ≤ t.value.asI64 := by
    cases j.confirmedAt <;> simp
  unfold validateRecord
  constructor
  · intro h
    split at h
    · cases h
    · rename_i binding hnew
      split at h
      · cases h
      · rename_i hchecks
        simp only [not_or, not_not, Bool.not_eq_true, Bool.not_eq_false] at hchecks
        obtain ⟨hversion, horigin, hoperation, hphase, htimes⟩ := hchecks
        exact ⟨(new_eq_binding j).mp ⟨binding, hnew, horigin⟩, hversion, hoperation, hphase,
          hlast.mp htimes⟩
  · rintro ⟨hvalid, hversion, hoperation, hphase, htimes⟩
    obtain ⟨binding, hnew, horigin⟩ := (new_eq_binding j).mpr hvalid
    rw [hnew]
    apply if_neg
    simp only [not_or, not_not, Bool.not_eq_true, Bool.not_eq_false]
    exact ⟨hversion, horigin, hoperation, hphase, hlast.mpr htimes⟩

/-- A record is accepted for its own binding only. -/
theorem validate_eq_ok :
    j.validate b = .ok () ↔ j.validateRecord = .ok () ∧ b = j.binding := by
  unfold validate
  constructor
  · intro h
    split at h
    · cases h
    · rename_i hvalid
      rw [Bool.not_eq_false] at hvalid
      split at h
      · cases h
      · rename_i hrecord
        split at h
        · cases h
        · rename_i hfields
          simp only [not_or, not_not] at hfields
          obtain ⟨horigin, hprofile, hname, hsquad, hmember⟩ := hfields
          have hversion := version_of_validate hvalid
          refine ⟨hrecord, ?_⟩
          cases b
          simp only at hversion horigin hprofile hname hsquad hmember
          simp only [binding, hversion, horigin, hprofile, hname, hsquad, hmember]
  · rintro ⟨hrecord, rfl⟩
    have hvalid := (validateRecord_eq_ok.mp hrecord).1
    rw [if_neg (by simp [hvalid]), hrecord]
    exact if_neg (by simp [binding])

/-- An intent is accepted when it is built. -/
theorem of_intent {operationId : String} {createdAt : ApiTimestamp}
    (h : intent b operationId createdAt = .ok j) :
    j.phase = .intent ∧ j.createdAt = createdAt ∧ j.confirmedAt = none
      ∧ j.validateRecord = .ok () ∧ b = j.binding := by
  unfold intent at h
  dsimp only at h
  split at h
  · cases h
  · rename_i hvalid
    cases h
    obtain ⟨hrecord, hbinding⟩ := validate_eq_ok.mp hvalid
    exact ⟨rfl, rfl, rfl, hrecord, hbinding⟩

/-- **The confirmation of an accepted intent** is accepted exactly when its time is not before the
intent's. -/
theorem validateRecord_confirmed {j' : LeaveJournal} {confirmedAt : ApiTimestamp}
    (hrecord : j.validateRecord = .ok ()) (h : j.confirmed confirmedAt = .ok j') :
    j'.validateRecord = .ok () ↔ j.createdAt.value.asI64 ≤ confirmedAt.value.asI64 := by
  unfold confirmed at h
  split at h
  · cases h
  · cases h
    obtain ⟨hvalid, hversion, hoperation, -, -⟩ := validateRecord_eq_ok.mp hrecord
    rw [validateRecord_eq_ok]
    constructor
    · rintro ⟨-, -, -, -, htimes⟩
      exact htimes confirmedAt rfl
    · intro hle
      refine ⟨hvalid, hversion, hoperation, rfl, ?_⟩
      intro t ht
      cases ht
      exact hle

end Checks

end LeaveJournal

/-! ## The store -/

/-- `JournalFault`. -/
inductive JournalFault where
  | none
  | beforeTempName
  | beforeCreate
  | beforeWrite
  | beforeFileSync
  | beforeReplace
  | beforePostReplaceSync
  | beforeRemove
  | beforeRemoveDirectorySync
  deriving DecidableEq

namespace LeaveJournalStore

/-- `temp_name`: sixteen random bytes in hexadecimal. -/
def tempName (target : Name) (random : Fin 16 → UInt8) : Name :=
  "." ++ target ++ ".tmp-" ++ drawOperationId random

/-- `open_target`. -/
def openTarget {α : Type} (target : Name) (k : Option Nat → Io α) : Io α :=
  .act (.openRead target) fun
    | .ok (some file) =>
      call (.metadata file) fun metadata =>
      if restricted metadata.1 then k (some file) else fail .unsafePermissions
    | .ok none => fail .substitution
    | .error .noEntry => k none
    | .error e => fail (.os e)

def storeUnix (target : Name) (bytes : List UInt8) (fault : JournalFault) : Io Unit :=
  if fault = .beforeTempName then fail .injected else
  call (.random 16) fun random =>
  if fault = .beforeCreate then fail .injected else
  call (.create (tempName target random) 0o600) fun file =>
  if fault = .beforeWrite then fail .injected else
  call (.writeAll file bytes) fun _ =>
  if fault = .beforeFileSync then fail .injected else
  call (.syncAll file) fun _ =>
  if fault = .beforeReplace then fail .injected else
  call (.rename (tempName target random) target) fun _ =>
  if fault = .beforePostReplaceSync then fail .injected else
  call .syncDirectory fun _ => done ()

def storeWithFault [Crates] (target : Name) (value : LeaveJournal) (fault : JournalFault) :
    Io Unit :=
  match value.validateRecord with
  | .error e => fail e
  | .ok () =>
    if maxJournalBytes < value.members.toVec.length then fail .invalidData
    else openTarget target fun _ => storeUnix target value.members.toVec fault

def store [Crates] (target : Name) (value : LeaveJournal) : Io Unit :=
  storeWithFault target value .none

def loadRecord [Crates] (target : Name) : Io (Option LeaveJournal) :=
  openTarget target fun
    | none => done none
    | some file =>
      call (.metadata file) fun metadata =>
      if metadata.2 = 0 ∨ maxJournalBytes < metadata.2 then fail .invalidData else
      call (.readToEnd file (maxJournalBytes + 1)) fun bytes =>
      if maxJournalBytes < bytes.length then fail .invalidData else
      match (Crates.parseJson bytes).bind LeaveJournal.deserialize with
      | none => fail .invalidData
      | some value =>
        match value.validateRecord with
        | .error e => fail e
        | .ok () => done (some value)

/-- `load`, after the record is read. -/
def forBinding [Crates] (binding : ProfileBinding) :
    Option LeaveJournal → Except Failure (Option LeaveJournal)
  | none => .ok none
  | some value =>
    match value.validate binding with
    | .error e => .error e
    | .ok () => .ok (some value)

def load [Crates] (target : Name) (binding : ProfileBinding) : Io (Option LeaveJournal) :=
  andThen (loadRecord target) (forBinding binding)

/-- `load_for_profile_key`, after the record is read. -/
def forProfileKey [Crates] (canonical profile : String) :
    Option LeaveJournal → Except Failure (Option (LeaveJournal × ProfileBinding))
  | none => .ok none
  | some value =>
    if value.relayOrigin ≠ canonical ∨ value.profile ≠ profile then .error .invalidData
    else
      match ProfileBinding.new value.profile value.relayOrigin value.squadName value.squadId
          value.memberId with
      | none => .error .invalidData
      | some binding =>
        match value.validate binding with
        | .error e => .error e
        | .ok () => .ok (some (value, binding))

def loadForProfileKey [Crates] (target : Name) (relayOrigin profile : String) :
    Io (Option (LeaveJournal × ProfileBinding)) :=
  match canonicalRelayOrigin relayOrigin with
  | none => fail .invalidInput
  | some canonical =>
    andThen (loadRecord target) (forProfileKey canonical profile)

/-! ### Loading -/

section Load

variable {α : Type} {d : Volume} {target : Name} {draw : (n : Nat) → Fin n → UInt8}

theorem run_openTarget_absent {k : Option Nat → Io α} (h : d.live target = none) :
    (openTarget target k).run (handle draw) d = (k none).run (handle draw) d := by
  have hopen : handle draw (.openRead target) d = (.error .noEntry, d) := by
    simp only [handle, h]
  rw [openTarget, Prog.run_act, hopen]

theorem run_openTarget_file {k : Option Nat → Io α} {i : Nat} {f : File}
    (h : d.live target = some (.file i)) (hfile : d.files[i]? = some f) :
    (openTarget target k).run (handle draw) d
      = if restricted f.mode then (k (some i)).run (handle draw) d
        else (.error .unsafePermissions, d) := by
  have hopen : handle draw (.openRead target) d = (.ok (some i), d) := by
    simp only [handle, h]
  have hmetadata : handle draw (.metadata i) d = (.ok (f.mode, f.content.length), d) := by
    simp only [handle, hfile]
  rw [openTarget, Prog.run_act, hopen]
  dsimp only
  rw [run_call_ok hmetadata]
  split <;> rfl

/-- What the octets of a target that may be read are loaded as. -/
def contentRecord [Crates] (content : List UInt8) : Except Failure (Option LeaveJournal) :=
  if content.length = 0 ∨ maxJournalBytes < content.length then .error .invalidData
  else
    match (Crates.parseJson content).bind LeaveJournal.deserialize with
    | none => .error .invalidData
    | some value =>
      match value.validateRecord with
      | .error e => .error e
      | .ok () => .ok (some value)

/-- What the target is loaded as. -/
def recordAt [Crates] : Option Node → Except Failure (Option LeaveJournal)
  | none => .ok none
  | some .link => .error (.os .loop)
  | some .directory | some .special => .error .substitution
  | some (.file f) =>
    if restricted f.mode then contentRecord f.content else .error .unsafePermissions

/-- **Loading depends on the target alone.** -/
theorem run_loadRecord [Crates] (draw : (n : Nat) → Fin n → UInt8) (d : Volume) (target : Name) :
    (loadRecord target).run (handle draw) d = (recordAt (d.node target), d) := by
  cases hlive : d.live target with
  | none =>
      rw [loadRecord, run_openTarget_absent hlive, Volume.node, hlive]
      rfl
  | some entry =>
      cases entry with
      | file i =>
          have hlt := d.named _ (List.mem_cons_self ..) target i hlive
          have hfile : d.files[i]? = some d.files[i] := List.getElem?_eq_getElem hlt
          have hmetadata : handle draw (.metadata i) d
              = (.ok (d.files[i].mode, d.files[i].content.length), d) := by
            simp only [handle, hfile]
          have hread : handle draw (.readToEnd i (maxJournalBytes + 1)) d
              = (.ok (d.files[i].content.take (maxJournalBytes + 1)), d) := by
            simp only [handle, hfile]
          rw [loadRecord, run_openTarget_file hlive hfile, Volume.node_of_file hlive hfile]
          show _ = (if restricted d.files[i].mode then contentRecord d.files[i].content
            else .error .unsafePermissions, d)
          split
          · rw [run_call_ok hmetadata, contentRecord]
            dsimp only
            split
            · rfl
            · rename_i hlength
              rw [not_or, not_lt] at hlength
              -- a content within the limit is read whole
              have htake : d.files[i].content.take (maxJournalBytes + 1) = d.files[i].content :=
                List.take_of_length_le (Nat.le_succ_of_le hlength.2)
              rw [run_call_ok hread, htake, if_neg (not_lt.mpr hlength.2)]
              split
              · rfl
              · split <;> rfl
          · rfl
      | link =>
          have hopen : handle draw (.openRead target) d = (.error .loop, d) := by
            simp only [handle, hlive]
          rw [loadRecord, openTarget, Prog.run_act, hopen, Volume.node, hlive]
          rfl
      | directory =>
          have hopen : handle draw (.openRead target) d = (.ok none, d) := by
            simp only [handle, hlive]
          rw [loadRecord, openTarget, Prog.run_act, hopen, Volume.node, hlive]
          rfl
      | special =>
          have hopen : handle draw (.openRead target) d = (.ok none, d) := by
            simp only [handle, hlive]
          rw [loadRecord, openTarget, Prog.run_act, hopen, Volume.node, hlive]
          rfl

theorem answer_load [Crates] (d : Volume) (target : Name) (binding : ProfileBinding) :
    answer (load target binding) d = (recordAt (d.node target)).bind (forBinding binding) := by
  rw [answer, load, run_andThen, run_loadRecord]

theorem answer_loadForProfileKey [Crates] (d : Volume) (target : Name)
    (relayOrigin profile canonical : String)
    (horigin : canonicalRelayOrigin relayOrigin = some canonical) :
    answer (loadForProfileKey target relayOrigin profile) d
      = (recordAt (d.node target)).bind (forProfileKey canonical profile) := by
  rw [answer, loadForProfileKey, horigin]
  show ((andThen (loadRecord target) _).run _ d).1 = _
  rw [run_andThen, run_loadRecord]

end Load

/-! ### Storing -/

section Store

variable {d₀ d : Volume} {target : Name} {bytes : List UInt8} {fault : JournalFault}

theorem tempName_ne (target : Name) (random : Fin 16 → UInt8) :
    tempName target random ≠ target := by
  intro heq
  have hlength := congrArg (fun s => s.toList.length) heq
  simp only [tempName, String.toList_append, List.length_append] at hlength
  have hdot : ".".toList.length = 1 := rfl
  omega

/-- **The file protocol** replaces the target atomically, whatever the fault. -/
theorem safe_storeUnix (h : Unreplaced d₀ target d) :
    (replacing d₀ target ⟨bytes, 0o600, true⟩).Safe (Complete d₀ target ⟨bytes, 0o600, true⟩)
      (storeUnix target bytes fault) d := by
  unfold storeUnix
  split
  · exact safe_fail _
  apply safe_call_look (fun _ _ hperforms => hperforms.of_random) h
  intro random
  split
  · exact safe_fail _
  apply safe_call_create h (tempName_ne target random)
  intro file d₁ hcreated
  split
  · exact safe_fail _
  apply safe_call_writeAll hcreated
  intro d₂ hwritten
  split
  · exact safe_fail _
  apply safe_call_syncAll hwritten
  intro d₃ hsynced
  split
  · exact safe_fail _
  apply safe_call_rename hsynced
  intro d₄ hrenamed
  split
  · exact safe_fail _
  exact safe_call_syncDirectory hrenamed

theorem safe_openTarget {final : File} {k : Option Nat → Io Unit} (h : Unreplaced d₀ target d)
    (hk : ∀ found, (replacing d₀ target final).Safe (Complete d₀ target final) (k found) d) :
    (replacing d₀ target final).Safe (Complete d₀ target final) (openTarget target k) d := by
  apply Arena.Safe.alone_act
  intro r d' hperforms
  obtain rfl := hperforms.of_openRead
  refine ⟨Or.inl h, ?_⟩
  split
  · apply safe_call_look (fun _ _ hlook => hlook.of_metadata) h
    intro metadata
    split
    · exact hk _
    · exact safe_fail _
  · exact safe_fail _
  · exact hk none
  · exact safe_fail _

theorem safe_storeWithFault [Crates] (value : LeaveJournal) :
    (replacing d₀ target ⟨value.members.toVec, 0o600, true⟩).Safe
      (Complete d₀ target ⟨value.members.toVec, 0o600, true⟩)
      (storeWithFault target value fault) d₀ := by
  unfold storeWithFault
  split
  · exact safe_fail _
  · split
    · exact safe_fail _
    · exact safe_openTarget (.refl d₀ target) fun _ => safe_storeUnix (.refl d₀ target)

/-- What was stored is loaded. -/
theorem recordAt_stored [Crates] {value : LeaveJournal} (hread : value.ReadsBack)
    (hvalid : value.validateRecord = .ok ())
    (hsize : value.members.toVec.length ≤ maxJournalBytes) :
    recordAt (some (.file ⟨value.members.toVec, 0o600, true⟩)) = .ok (some value) := by
  have hlength : ¬ (value.members.toVec.length = 0
      ∨ maxJournalBytes < value.members.toVec.length) := by
    rw [List.length_eq_zero_iff, not_or, not_lt]
    exact ⟨value.members.toVec_ne_nil, hsize⟩
  have hjson : Crates.parseJson value.members.toVec = some value.members.value := hread.json
  show (if restricted 0o600 then contentRecord value.members.toVec
    else .error .unsafePermissions) = _
  rw [if_pos (by decide), contentRecord, if_neg hlength, hjson, Option.bind_some,
    LeaveJournal.deserialize_value hread]
  dsimp only
  rw [hvalid]

/-- A record that is refused is refused before any call. -/
theorem storeWithFault_refused [Crates] (target : Name) (fault : JournalFault)
    {value : LeaveJournal}
    (h : ¬ (value.validateRecord = .ok () ∧ value.members.toVec.length ≤ maxJournalBytes)) :
    ∃ e, storeWithFault target value fault = fail e := by
  unfold storeWithFault
  split
  · exact ⟨_, rfl⟩
  · rename_i hrecord
    have hsize : maxJournalBytes < value.members.toVec.length :=
      not_le.mp fun hle => h ⟨hrecord, hle⟩
    exact ⟨_, if_pos hsize⟩

/-- A record that was stored passes the checks. -/
theorem accepted_of_stored [Crates] {value : LeaveJournal} {d' : Volume}
    (hpasses : (storeWithFault target value fault).Passes Performs d (done ()) d') :
    value.validateRecord = .ok () ∧ value.members.toVec.length ≤ maxJournalBytes := by
  by_contra hrefused
  obtain ⟨e, he⟩ := storeWithFault_refused target fault hrefused
  rw [he] at hpasses
  cases hpasses

/-- **Storing a journal is atomic** for everything that is computed from the loaded record. -/
theorem atomic_store [Crates] {β : Type} {value : LeaveJournal} (hread : value.ReadsBack)
    (target : Name) (fault : JournalFault) (d : Volume)
    (check : Option LeaveJournal → Except Failure β) {read : Volume → Except Failure β}
    (hcheck : ∀ d, read d = (recordAt (d.node target)).bind check) {new : Except Failure β}
    (hnew : value.validateRecord = .ok () → check (some value) = new) :
    Atomic (storeWithFault target value fault) target read new d := by
  by_cases haccepted : value.validateRecord = .ok ()
      ∧ value.members.toVec.length ≤ maxJournalBytes
  · apply atomic_of_safe (fun node => (recordAt node).bind check) hcheck
      (safe_storeWithFault value) rfl
    show (recordAt (some (.file ⟨value.members.toVec, 0o600, true⟩))).bind check = new
    rw [recordAt_stored hread haccepted.1 haccepted.2]
    exact hnew haccepted.1
  · obtain ⟨e, he⟩ := storeWithFault_refused target fault haccepted
    exact atomic_of_fail (fun node => (recordAt node).bind check) hcheck he

/-- The target may be replaced: nothing is there, or a record of ours. -/
def Storable (d : Volume) (target : Name) : Prop :=
  d.node target = none ∨ ∃ f, d.node target = some (.file f) ∧ restricted f.mode

/-- Calls that are all answered carry the file protocol to its end. -/
theorem run_storeUnix {draw : (n : Nat) → Fin n → UInt8}
    (hfresh : d.live (tempName target (draw 16)) = none)
    (htarget : d.live target ≠ some .directory) :
    ((storeUnix target bytes .none).run (handle draw) d).1 = .ok () := by
  have htemp := tempName_ne target (draw 16)
  -- the target keeps its entry until it is renamed over
  have hkept : (d.create (tempName target (draw 16)) 0o600).live target ≠ some .directory := by
    show Function.update d.live _ _ target ≠ _
    rw [Function.update_of_ne (Ne.symm htemp)]
    exact htarget
  have hentry : (d.create (tempName target (draw 16)) 0o600).live (tempName target (draw 16))
      = some (.file d.files.length) :=
    Function.update_self ..
  let d₁ := d.create (tempName target (draw 16)) 0o600
  let d₂ := d₁.write d.files.length bytes
  let d₃ := d₂.syncFile d.files.length
  let d₄ := d₃.rename (tempName target (draw 16)) target
  have hrandom : handle draw (.random 16) d = (.ok (draw 16), d) := rfl
  have hcreate : handle draw (.create (tempName target (draw 16)) 0o600) d
      = (.ok d.files.length, d₁) :=
    handle_create hfresh
  have hwrite : handle draw (.writeAll d.files.length bytes) d₁ = (.ok (), d₂) := rfl
  have hsync : handle draw (.syncAll d.files.length) d₂ = (.ok (), d₃) := rfl
  have hrename : handle draw (.rename (tempName target (draw 16)) target) d₃ = (.ok (), d₄) :=
    handle_rename hentry hkept
  have hdirectory : handle draw .syncDirectory d₄ = (.ok (), d₄.syncDirectory) := rfl
  unfold storeUnix
  simp only [reduceCtorEq, if_false]
  rw [run_call_ok hrandom, run_call_ok hcreate, run_call_ok hwrite, run_call_ok hsync,
    run_call_ok hrename, run_call_ok hdirectory]
  rfl

/-- **A store that is not disturbed succeeds**, whatever temporary files are left in the
directory. -/
theorem run_store [Crates] {value : LeaveJournal} {draw : (n : Nat) → Fin n → UInt8}
    (hvalid : value.validateRecord = .ok ())
    (hsize : value.members.toVec.length ≤ maxJournalBytes) (htarget : Storable d target)
    (hfresh : d.live (tempName target (draw 16)) = none) :
    ((store target value).run (handle draw) d).1 = .ok () := by
  unfold store storeWithFault
  rw [hvalid]
  dsimp only
  rw [if_neg (not_lt.mpr hsize)]
  rcases htarget with hnone | ⟨f, hfile, hmode⟩
  · have hlive := Volume.live_of_node_none hnone
    rw [run_openTarget_absent hlive]
    exact run_storeUnix hfresh (by rw [hlive]; exact fun h => by cases h)
  · obtain ⟨i, hlive, hi⟩ := Volume.live_of_node_file hfile
    rw [run_openTarget_file hlive hi, if_pos hmode]
    exact run_storeUnix hfresh (by rw [hlive]; exact fun h => by cases h)

end Store

end LeaveJournalStore

end Psst.Durable
