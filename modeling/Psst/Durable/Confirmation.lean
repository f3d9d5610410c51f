import Psst.Durable.Journal

/-!
# Recording that a leave is confirmed

The relay has committed the leave; what is left is to replace the stored intent by its confirmation.
Storing a record runs the checks a loaded record has to pass, and one of them compares the two local
clock readings.
-/

namespace Psst.Durable

open Directory LeaveJournalStore

section Confirm

variable [Crates] {target : Name} {d : Volume} {b : ProfileBinding} {i c : LeaveJournal}

/-- What loads leaves the target free to be replaced. -/
theorem storable_of_recordAt {found : Option LeaveJournal}
    (h : recordAt (d.node target) = .ok found) : Storable d target := by
  cases hnode : d.node target with
  | none => exact Or.inl hnode
  | some node =>
      rw [hnode] at h
      cases node with
      | file f =>
          simp only [recordAt] at h
          split at h
          · rename_i hmode
            exact Or.inr ⟨f, hnode, hmode⟩
          · cases h
      | link => cases h
      | directory => cases h
      | special => cases h

/-- What is loaded for a binding is the stored record, and it is for that binding. -/
theorem recordAt_of_load (h : answer (load target b) d = .ok (some i)) :
    recordAt (d.node target) = .ok (some i) ∧ i.validate b = .ok () := by
  rw [answer_load] at h
  cases hrecord : recordAt (d.node target) with
  | error e =>
      rw [hrecord] at h
      cases h
  | ok found =>
      rw [hrecord] at h
      cases found with
      | none => cases h
      | some value =>
          change forBinding b (some value) = .ok (some i) at h
          simp only [forBinding] at h
          split at h
          · cases h
          · rename_i hvalid
            cases h
            exact ⟨rfl, hvalid⟩

/-- For its own binding a record is loaded. -/
theorem forBinding_some (h : c.validateRecord = .ok ()) :
    forBinding c.binding (some c) = .ok (some c) := by
  have hvalid : c.validate c.binding = .ok () := LeaveJournal.validate_eq_ok.mpr ⟨h, rfl⟩
  simp only [forBinding, hvalid]

/-- Under its own key a record is found with its binding. -/
theorem forProfileKey_some (h : c.validateRecord = .ok ()) :
    forProfileKey c.relayOrigin c.profile (some c) = .ok (some (c, c.binding)) := by
  have hvalid : c.validate c.binding = .ok () := LeaveJournal.validate_eq_ok.mpr ⟨h, rfl⟩
  have hchecked : c.binding.validate = true := (LeaveJournal.validateRecord_eq_ok.mp h).1
  have hcanonical : canonicalRelayOrigin c.relayOrigin = some c.relayOrigin :=
    LeaveJournal.canonical_of_validate hchecked
  have hnew : ProfileBinding.new c.profile c.relayOrigin c.squadName c.squadId c.memberId
      = some c.binding := by
    unfold ProfileBinding.new
    rw [hcanonical]
    exact if_pos hchecked
  simp only [forProfileKey, ne_eq, not_true_eq_false, or_self, if_false, hnew, hvalid]

/-- **Recording a confirmation.** Of an intent that loads, the confirmation can be stored and is
found by both ways of loading exactly when the clock was not set back in between and the record,
longer by the second time, is still within the limit. -/
theorem confirmation_recorded_iff {draw : (n : Nat) → Fin n → UInt8} {operationId : String}
    {createdAt confirmedAt : ApiTimestamp}
    (hissued : LeaveJournal.intent b operationId createdAt = .ok i)
    (hstored : answer (load target b) d = .ok (some i))
    (hfresh : d.live (tempName target (draw 16)) = none)
    (hconfirmed : i.confirmed confirmedAt = .ok c) (hread : c.ReadsBack) :
    (∃ d', (store target c).run (handle draw) d = (.ok (), d')
        ∧ answer (load target b) d' = .ok (some c)
        ∧ ∀ origin, canonicalRelayOrigin origin = some b.relayOrigin →
            answer (loadForProfileKey target origin b.profile) d' = .ok (some (c, b)))
      ↔ createdAt.value.asI64 ≤ confirmedAt.value.asI64
        ∧ c.members.toVec.length ≤ maxJournalBytes := by
  obtain ⟨-, hcreated, -, hrecord, hbinding⟩ := LeaveJournal.of_intent hissued
  obtain ⟨hnode, -⟩ := recordAt_of_load hstored
  have htimes := LeaveJournal.validateRecord_confirmed hrecord hconfirmed
  rw [hcreated] at htimes
  have hsame : b = c.binding := by
    unfold LeaveJournal.confirmed at hconfirmed
    split at hconfirmed
    · cases hconfirmed
    · cases hconfirmed
      exact hbinding
  constructor
  · rintro ⟨d', hrun, -⟩
    have hpasses := passes_of_run draw (store target c) d
    rw [hrun] at hpasses
    obtain ⟨hvalid, hsize⟩ := accepted_of_stored hpasses
    exact ⟨htimes.mp hvalid, hsize⟩
  · rintro ⟨hle, hsize⟩
    have hvalid := htimes.mpr hle
    have hok := run_store hvalid hsize (storable_of_recordAt hnode) hfresh
    have hpasses := passes_of_run draw (store target c) d
    rw [hok] at hpasses
    refine ⟨_, Prod.ext hok rfl, ?_, ?_⟩
    · rw [hsame]
      exact (atomic_store hread target .none d (forBinding c.binding)
        (fun d => answer_load d target c.binding) fun _ => forBinding_some hvalid).succeeded _ hpasses
    · intro origin horigin
      rw [hsame] at horigin ⊢
      exact (atomic_store hread target .none d (forProfileKey c.relayOrigin c.profile)
        (fun d => answer_loadForProfileKey d target origin c.profile c.relayOrigin horigin)
        fun _ => forProfileKey_some hvalid).succeeded _ hpasses

end Confirm

/-! ## One profile -/

namespace DefaultProfile

def origin : String := "http://127.0.0.1:7341"

def binding : ProfileBinding :=
  ⟨profileVersion, "default", origin, "alpha", "sqd_alpha", "mem_worker"⟩

def operationId : String := "leave_0123456789abcdef"

def issuedAt : ApiTimestamp := ⟨⟨1786064523004, by decide⟩, by decide⟩

def confirmedAt : ApiTimestamp := ⟨⟨1786064524005, by decide⟩, by decide⟩

/-- A reading of a clock that was set back. -/
def rolledBackAt : ApiTimestamp := ⟨⟨1786064523003, by decide⟩, by decide⟩

def intent : LeaveJournal :=
  ⟨journalVersion, .intent, origin, "default", "alpha", "sqd_alpha", "mem_worker", operationId,
    issuedAt, none⟩

def confirmation (t : ApiTimestamp) : LeaveJournal :=
  { intent with phase := .confirmed, confirmedAt := some t }

/-- The crates on the texts of this profile. -/
scoped instance crates : Crates where
  parseUrl raw :=
    if raw = origin then
      some ⟨"http", "", none, some "127.0.0.1", some 7341, "/", none, none⟩
    else none
  urlText _ := "http://127.0.0.1:7341/"
  parseJson bytes :=
    ([intent, confirmation confirmedAt].find? fun j => decide (j.members.toVec = bytes)).map
      fun j => j.members.value
  parseRfc3339 input :=
    [issuedAt, confirmedAt].find? fun t => decide (String.ofList t.display = input)

def target : Name := "default.leave-v1.json"

def draw : (n : Nat) → Fin n → UInt8 := fun _ _ => 0

/-- The directory with one record under the target. -/
def holding (j : LeaveJournal) : Volume where
  files := [⟨j.members.toVec, 0o600, true⟩]
  live := fun name => if name = target then some (.file 0) else none
  older := []
  named := by
    intro l hl name i hentry
    rw [List.mem_singleton] at hl
    subst hl
    dsimp only at hentry
    split at hentry
    · cases hentry
      exact Nat.zero_lt_one
    · cases hentry

theorem holding_target (j : LeaveJournal) : (holding j).live target = some (.file 0) := by
  show (if target = target then some (.file 0) else none) = some (Entry.file 0)
  exact if_pos rfl

theorem holding_other (j : LeaveJournal) {name : Name} (h : name ≠ target) :
    (holding j).live name = none := by
  show (if name = target then some (.file 0) else none) = (none : Option Entry)
  exact if_neg h

theorem readsBack_intent : intent.ReadsBack where
  json := by
    show (List.find? _ [intent, confirmation confirmedAt]).map _ = _
    rw [List.find?_cons_of_pos (by exact decide_eq_true rfl)]
    rfl
  createdAt := by
    show List.find? _ [issuedAt, confirmedAt] = _
    rw [List.find?_cons_of_pos (by exact decide_eq_true rfl)]
    rfl
  confirmedAt := fun _ h => by cases h

theorem readsBack_confirmation : (confirmation confirmedAt).ReadsBack where
  json := by
    have hne : intent.members.toVec ≠ (confirmation confirmedAt).members.toVec := by
      decide
    show (List.find? _ [intent, confirmation confirmedAt]).map _ = _
    rw [List.find?_cons_of_neg (by simpa using hne),
      List.find?_cons_of_pos (by exact decide_eq_true rfl)]
    rfl
  createdAt := readsBack_intent.createdAt
  confirmedAt := by
    have hne : String.ofList issuedAt.display ≠ String.ofList confirmedAt.display := by
      decide
    intro t ht
    cases ht
    show List.find? _ [issuedAt, confirmedAt] = _
    rw [List.find?_cons_of_neg (by simpa using hne),
      List.find?_cons_of_pos (by exact decide_eq_true rfl)]

theorem intent_issued : LeaveJournal.intent binding operationId issuedAt = .ok intent := by
  decide

set_option maxRecDepth 4000 in
theorem intent_size : intent.members.toVec.length ≤ maxJournalBytes := by
  rw [Members.toVec, Json.length_octets]
  decide

set_option maxRecDepth 4000 in
theorem confirmation_size :
    (confirmation confirmedAt).members.toVec.length ≤ maxJournalBytes := by
  rw [Members.toVec, Json.length_octets]
  decide

theorem intent_loads : answer (load target binding) (holding intent) = .ok (some intent) := by
  have hvalid : intent.validateRecord = .ok () := by decide
  have hnode : (holding intent).node target = some (.file ⟨intent.members.toVec, 0o600, true⟩) :=
    Volume.node_of_file (holding_target intent) rfl
  rw [answer_load, hnode, recordAt_stored readsBack_intent hvalid intent_size]
  exact forBinding_some hvalid

end DefaultProfile

open DefaultProfile in
theorem confirmation_recorded_iff_default :
    (∃ d', (store target (confirmation confirmedAt)).run (handle draw) (holding intent) = (.ok (), d')
        ∧ answer (load target binding) d' = .ok (some (confirmation confirmedAt))
        ∧ ∀ origin', canonicalRelayOrigin origin' = some binding.relayOrigin →
            answer (loadForProfileKey target origin' binding.profile) d'
              = .ok (some (confirmation confirmedAt, binding))) :=
  have hfresh := holding_other intent (tempName_ne target (draw 16))
  (confirmation_recorded_iff intent_issued intent_loads hfresh rfl readsBack_confirmation).mpr
    ⟨by decide, confirmation_size⟩

open DefaultProfile in
/-- One millisecond back: the confirmation of the stored intent is refused, and the intent stays. -/
theorem confirmation_refused_after_rollback :
    LeaveJournal.intent binding operationId issuedAt = .ok intent
      ∧ answer (load target binding) (holding intent) = .ok (some intent)
      ∧ intent.confirmed rolledBackAt = .ok (confirmation rolledBackAt)
      ∧ (store target (confirmation rolledBackAt)).run (handle draw) (holding intent)
        = (.error .invalidData, holding intent) := by
  have hrecord : (confirmation rolledBackAt).validateRecord = .error .invalidData := by
    decide
  refine ⟨intent_issued, intent_loads, rfl, ?_⟩
  unfold store storeWithFault
  rw [hrecord]
  rfl

end Psst.Durable
