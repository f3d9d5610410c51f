import Psst.Durable.Atomicity

/-!
# The session's view of the files

The session's own model of a profile keeps typed records and lets a durable operation be done, not
done, or done and reported as failed. The octets and system calls behind it come down to exactly
that.
-/

namespace Psst.Durable

open Directory LeaveJournalStore

variable [Crates] {target : Name} {fault : JournalFault} {d d' : Volume}

/-- The record of a journal the session holds. -/
def ofSession (j : Psst.LeaveJournal) : LeaveJournal where
  version := journalVersion
  phase := j.phase
  relayOrigin := j.binding.relayOrigin
  profile := j.binding.profile
  squadName := j.binding.squadName.val
  squadId := j.binding.squadId.val
  memberId := j.binding.memberId.val
  operationId := j.operationId
  createdAt := j.createdAt
  confirmedAt := j.confirmedAt

theorem validate_ofSession (j : Psst.LeaveJournal)
    (hprofile : validProfileName j.binding.profile = true)
    (hcanonical : canonicalRelayOrigin j.binding.relayOrigin = some j.binding.relayOrigin) :
    (ofSession j).binding.validate = true := by
  have hname : (SquadName.rule.check j.binding.squadName.val).isOk = true := by
    rw [j.binding.squadName.valid]
    rfl
  have hsquad : (OpaqueId.check .squad j.binding.squadId.val).isOk = true := by
    rw [j.binding.squadId.valid]
    rfl
  have hmember : (OpaqueId.check .membership j.binding.memberId.val).isOk = true := by
    rw [j.binding.memberId.valid]
    rfl
  unfold ProfileBinding.validate
  simp only [LeaveJournal.binding, ofSession, hprofile, hcanonical, hname, hsquad, hmember,
    decide_true, Bool.and_true]

/-- **The checks are the same** once the types have done their part: what is left is the profile's
name and the spelling of its origin, which `ProfileBinding::new` sees to. -/
theorem validateRecord_ofSession (j : Psst.LeaveJournal)
    (hprofile : validProfileName j.binding.profile = true)
    (hcanonical : canonicalRelayOrigin j.binding.relayOrigin = some j.binding.relayOrigin) :
    (ofSession j).validateRecord = .ok () ↔ j.validateRecord = .ok () := by
  have hvalid := validate_ofSession j hprofile hcanonical
  have hphase : decide (j.phase = .confirmed) = j.confirmedAt.isSome
      ↔ (j.phase = .confirmed ↔ j.confirmedAt.isSome = true) := by
    rw [Bool.eq_iff_iff, decide_eq_true_eq]
  rw [LeaveJournal.validateRecord_eq_ok]
  unfold Psst.LeaveJournal.validateRecord
  constructor
  · rintro ⟨-, -, hoperation, hphases, htimes⟩
    exact if_pos ⟨hoperation, hphase.mp hphases, htimes⟩
  · intro h
    split at h
    · rename_i hchecks
      obtain ⟨hoperation, hphases, htimes⟩ := hchecks
      exact ⟨hvalid, rfl, hoperation, hphase.mpr hphases, htimes⟩
    · cases h

/-- **A store has one of the session's effects**: the record is replaced or it is not, and a success
is reported only when it is. -/
theorem effect_of_store {value : LeaveJournal} {r : Except Failure Unit}
    (hpasses : (storeWithFault target value fault).Passes Performs d (.ret r) d') :
    ∃ effect : Effect, (effect.reported = some () ↔ r = .ok ())
      ∧ d'.node target = (if effect.applied then some (.file ⟨value.members.toVec, 0o600, true⟩)
        else d.node target) := by
  cases r with
  | ok _ =>
      obtain ⟨hvalid, hsize⟩ := accepted_of_stored hpasses
      have hfound := found_of_safe (safe_storeWithFault value) rfl hpasses
      exact ⟨.done, ⟨fun _ => rfl, fun _ => rfl⟩, hfound.ok rfl⟩
  | error e =>
      rcases node_of_passes hpasses with hold | ⟨hnew, -⟩
      · exact ⟨.failed, ⟨(fun h => by cases h), (fun h => by cases h)⟩, hold⟩
      · exact ⟨.unsynced, ⟨(fun h => by cases h), (fun h => by cases h)⟩, hnew⟩

/-- **Loading agrees**: the record the session stored is the one it gets back, under the binding it
stored it under. -/
theorem load_ofSession (j : Psst.LeaveJournal) (hread : (ofSession j).ReadsBack)
    (hprofile : validProfileName j.binding.profile = true)
    (hcanonical : canonicalRelayOrigin j.binding.relayOrigin = some j.binding.relayOrigin)
    (hsize : (ofSession j).members.toVec.length ≤ maxJournalBytes)
    (hnode : d.node target = some (.file ⟨(ofSession j).members.toVec, 0o600, true⟩)) :
    answer (load target (ofSession j).binding) d = .ok (some (ofSession j))
      ↔ Psst.LeaveJournal.load (some j) j.binding = .ok (some j) := by
  constructor
  · intro h
    obtain ⟨-, hfor⟩ := recordAt_of_load h
    have hvalid := (LeaveJournal.validate_eq_ok.mp hfor).1
    apply Psst.LeaveJournal.load_eq_ok.mpr
    refine ⟨rfl, ?_⟩
    intro i hi
    cases hi
    exact ⟨(validateRecord_ofSession j hprofile hcanonical).mp hvalid, rfl⟩
  · intro h
    have hloads := (Psst.LeaveJournal.load_eq_ok.mp h).2 j rfl
    have hvalid := (validateRecord_ofSession j hprofile hcanonical).mpr hloads.record
    rw [answer_load, hnode, recordAt_stored hread hvalid hsize]
    exact forBinding_some hvalid

end Psst.Durable
