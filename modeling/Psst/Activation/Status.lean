import Psst.Activation.Machine
import Psst.Protocol.Api

/-!
# The harness status record

What the status publisher writes of the activation machine, with the checks a record passes
before it is stored. A record that fails them makes the publisher shut the activation down, so
the checks have to admit every snapshot the machine can give.
-/

namespace Psst

def harnessStatusVersion : Nat := 1

inductive HarnessAdapterKind where
  | claudeChannel
  | codexAppServer
  deriving DecidableEq

/-- `ConfigError::Invalid`, with the text that names what was refused. -/
structure ConfigError where
  invalid : String
  deriving DecidableEq

/-- `validate_profile_name`. Outside ASCII no byte is accepted. -/
def validateProfileName (v : String) : Except ConfigError Unit :=
  if v.isEmpty = true ∨ 64 < v.utf8ByteSize
      ∨ ¬ v.toList.all (fun c => isAsciiAlphanumeric c || c == '-' || c == '_') then
    .error ⟨"profile"⟩
  else .ok ()

structure HarnessStatusRecord where
  version : Nat
  profile : String
  adapter : HarnessAdapterKind
  phase : ActivationPhase
  retryAttempt : UInt8
  pendingCount : Option Nat
  highestPriority : Option MessagePriority
  ownerPid : UInt32
  observedAt : ApiTimestamp

/-- The pending count and its priority come together, and the count is in range. -/
def HarnessStatusRecord.pendingValid (r : HarnessStatusRecord) : Bool :=
  match r.pendingCount, r.highestPriority with
  | none, none => true
  | some count, some _ => decide (1 ≤ count ∧ count ≤ maxWakePendingCount)
  | _, _ => false

/-- A phase either requires pending mail or excludes it; `blocked` does neither. -/
def HarnessStatusRecord.phaseValid (r : HarnessStatusRecord) : Bool :=
  match r.phase with
  | .quiet | .stopped => r.pendingCount.isNone
  | .pending | .waking | .running | .backoff => r.pendingCount.isSome
  | .blocked => true

def HarnessStatusRecord.validate (r : HarnessStatusRecord) : Except ConfigError Unit := do
  if r.version ≠ harnessStatusVersion then
    throw ⟨"harness status version"⟩
  validateProfileName r.profile
  if r.ownerPid = 0 ∨ maxBackoffAttempts < r.retryAttempt.toNat then
    throw ⟨"harness status owner"⟩
  if r.pendingValid = false then
    throw ⟨"harness status pending state"⟩
  if r.phaseValid = false then
    throw ⟨"harness status phase"⟩
  else pure ()

/-- `from_snapshot`; `pid` is the identifier of the running process. -/
def HarnessStatusRecord.fromSnapshot (profile : String) (adapter : HarnessAdapterKind)
    (snapshot : ActivationSnapshot) (pid : UInt32) (observedAt : ApiTimestamp) :
    Except ConfigError HarnessStatusRecord := do
  let record : HarnessStatusRecord :=
    { version := harnessStatusVersion
      profile := profile
      adapter := adapter
      phase := snapshot.phase
      retryAttempt := snapshot.retryAttempt
      pendingCount := snapshot.pending.map fun w => w.pendingCount
      highestPriority := snapshot.pending.map fun w => w.highestPriority
      ownerPid := pid
      observedAt := observedAt }
  record.validate
  pure record

/-! ## Publishing -/

/-- Why a snapshot was not published. -/
inductive PublishError where
  /-- the wall clock is outside the calendar -/
  | clock
  | record (e : ConfigError)
  /-- writing the file failed -/
  | store

/-- `publish_snapshot`; `observedAt` is what the wall clock gives and `stored` whether the file
system takes the record. -/
def publishSnapshot (profile : String) (adapter : HarnessAdapterKind) (pid : UInt32)
    (observedAt : Option ApiTimestamp) (stored : HarnessStatusRecord → Bool)
    (snapshot : ActivationSnapshot) : Except PublishError Unit :=
  match observedAt with
  | none => .error .clock
  | some now =>
    match HarnessStatusRecord.fromSnapshot profile adapter snapshot pid now with
    | .error e => .error (.record e)
    | .ok record => if stored record then .ok () else .error .store

/-- The snapshot a sound machine gives makes a valid record. -/
theorem ActivationMachine.Sound.fromSnapshot {m : ActivationMachine} (h : m.Sound)
    {profile : String} (hprofile : validateProfileName profile = .ok ()) {pid : UInt32}
    (hpid : pid ≠ 0) (adapter : HarnessAdapterKind) (observedAt : ApiTimestamp) :
    ∃ record, HarnessStatusRecord.fromSnapshot profile adapter m.snapshot pid observedAt
      = .ok record := by
  have hattempts : ¬ maxBackoffAttempts < m.retryAttempt.toNat := by
    obtain ⟨-, -, hmax⟩ := ActivationPolicy.validate_eq_ok h.policy
    have := h.bounded
    omega
  have howner : ¬ (pid = 0 ∨ maxBackoffAttempts < m.retryAttempt.toNat) := by
    rintro (hzero | hlt)
    · exact hpid hzero
    · exact hattempts hlt
  let record : HarnessStatusRecord :=
    { version := harnessStatusVersion
      profile := profile
      adapter := adapter
      phase := m.phase
      retryAttempt := m.retryAttempt
      pendingCount := m.pending.map fun w => w.pendingCount
      highestPriority := m.pending.map fun w => w.highestPriority
      ownerPid := pid
      observedAt := observedAt }
  have hpending : record.pendingValid = true := by
    cases hp : m.pending with
    | none => simp [HarnessStatusRecord.pendingValid, record, hp]
    | some w => simpa [HarnessStatusRecord.pendingValid, record, hp] using w.pendingCount_range
  have hphase : record.phaseValid = true := by
    unfold HarnessStatusRecord.phaseValid
    simp only [record]
    -- one case per phase: either the phase is busy and carries a wake, or it excludes one
    cases hp : m.phase with
    | quiet => simp [h.empty (Or.inl hp)]
    | stopped => simp [h.empty (Or.inr hp)]
    | blocked => rfl
    | pending =>
        simpa [Option.isSome_iff_ne_none] using h.carries (busy_cases.mpr (Or.inl hp))
    | waking =>
        simpa [Option.isSome_iff_ne_none] using h.carries (busy_cases.mpr (Or.inr (Or.inl hp)))
    | running =>
        simpa [Option.isSome_iff_ne_none] using
          h.carries (busy_cases.mpr (Or.inr (Or.inr (Or.inl hp))))
    | backoff =>
        simpa [Option.isSome_iff_ne_none] using
          h.carries (busy_cases.mpr (Or.inr (Or.inr (Or.inr hp))))
  have hvalid : record.validate = .ok () := by
    unfold HarnessStatusRecord.validate
    simp only [hpending, hphase]
    rw [if_neg (by simp [record]), if_neg howner, hprofile]
    rfl
  exact ⟨record, Except.bind_eq_ok.mpr ⟨(), hvalid, rfl⟩⟩

/-! ## Whole runs -/

/-- A blocked machine only ever stops, and a stopped one stays. -/
theorem ActivationMachine.Moves.terminal {m m' : ActivationMachine}
    {result : Except ActivationContractError ActivationCommand} (h : m.Moves result m') :
    (m.phase = .blocked ∨ m.phase = .stopped → m'.phase = .blocked ∨ m'.phase = .stopped)
      ∧ (m.phase = .stopped → m'.phase = .stopped) := by
  cases h with
  | refuse e => exact ⟨fun h => h, fun h => h⟩
  | ignore => exact ⟨fun h => h, fun h => h⟩
  | wake wake hphase => simp [hphase]
  | note wake hbusy => exact ⟨fun h => h, fun h => h⟩
  | issue hphase => simp [hphase]
  | accept hphase => simp [hphase]
  | complete hhosting => rcases hosting_cases hhosting with h | h <;> simp [h]
  | retry delay hhosting hleft => rcases hosting_cases hhosting with h | h <;> simp [h]
  | exhaust hhosting hleft => rcases hosting_cases hhosting with h | h <;> simp [h]
  | due wake hphase hpending => simp [hphase]
  | block hphase => exact ⟨fun _ => Or.inl rfl, fun h => absurd h hphase⟩
  | stop => exact ⟨fun _ => Or.inr rfl, fun _ => rfl⟩

theorem steps_terminal {m m' : ActivationMachine} (h : machineLts.Steps Lts.always m m') :
    (m.phase = .blocked ∨ m.phase = .stopped → m'.phase = .blocked ∨ m'.phase = .stopped)
      ∧ (m.phase = .stopped → m'.phase = .stopped) := by
  induction h with
  | refl => exact ⟨fun h => h, fun h => h⟩
  | @tail u v call _ _ step ih =>
      have hmoves := u.call_moves call
      rw [← step] at hmoves
      exact ⟨fun h => hmoves.terminal.1 (ih.1 h), fun h => hmoves.terminal.2 (ih.2 h)⟩

/-- The host is activated for the first mail and for a retry that came due. -/
theorem ActivationMachine.Moves.activates {m m' : ActivationMachine} {wake : WakeMetadata}
    (h : m.Moves (.ok (.activate wake)) m') :
    (m.phase = .quiet ∨ m.phase = .backoff) ∧ m'.phase = .pending := by
  cases h with
  | wake wake hphase => exact ⟨Or.inl hphase, rfl⟩
  | due wake hphase hpending => exact ⟨Or.inr hphase, rfl⟩

theorem ActivationMachine.Moves.refused {m m' : ActivationMachine} {e : ActivationContractError}
    (h : m.Moves (.error e) m') : m' = m := by
  cases h with
  | refuse e => rfl

/-- **The activation machine is sound.** After any calls in any order: the phases between the
first mail and the host's answer hold a wake, `quiet` and `stopped` hold none and `quiet` has no
attempt counted; the attempts never exceed the policy's and reach them only in `blocked` or
`stopped`; a blocked machine only ever stops and a stopped one stays; `activate` is returned on
the way from `quiet` or `backoff` to `pending` alone; a refused call changes nothing; and a
status record of the machine is valid, so that publishing it fails for the clock or the file
system alone. -/
theorem activation_sound {m : ActivationMachine} (hreach : machineLts.Reach Lts.always m) :
    (m.phase = .pending ∨ m.phase = .waking ∨ m.phase = .running ∨ m.phase = .backoff →
        m.pending ≠ none)
      ∧ (m.phase = .quiet ∨ m.phase = .stopped → m.pending = none)
      ∧ (m.phase = .quiet → m.retryAttempt = 0)
      ∧ m.retryAttempt.toNat ≤ m.policy.maximumAttempts.toNat
      ∧ (m.retryAttempt = m.policy.maximumAttempts → m.phase = .blocked ∨ m.phase = .stopped)
      ∧ (∀ m', machineLts.Steps Lts.always m m' →
          (m.phase = .blocked → m'.phase = .blocked ∨ m'.phase = .stopped)
            ∧ (m.phase = .stopped → m'.phase = .stopped))
      ∧ (∀ call wake, (m.call call).1 = .ok (.activate wake) →
          (m.phase = .quiet ∨ m.phase = .backoff) ∧ (m.call call).2.phase = .pending)
      ∧ (∀ call e, (m.call call).1 = .error e → (m.call call).2 = m)
      ∧ ∀ profile pid, validateProfileName profile = .ok () → pid ≠ 0 → ∀ adapter,
          (∀ observedAt, ∃ record,
              HarnessStatusRecord.fromSnapshot profile adapter m.snapshot pid observedAt
                = .ok record)
            ∧ ∀ observedAt stored e,
                publishSnapshot profile adapter pid observedAt stored m.snapshot
                  ≠ .error (.record e) := by
  have h := reach_machine_sound hreach
  refine ⟨fun hp => h.carries (ActivationMachine.busy_cases.mpr hp), h.empty, h.fresh, h.bounded,
    ?_, ?_, ?_, ?_, ?_⟩
  · intro heq
    by_contra hphase
    rw [not_or] at hphase
    have hlt := h.left hphase.1 hphase.2
    rw [heq] at hlt
    exact Nat.lt_irrefl _ hlt
  · intro m' hsteps
    obtain ⟨hterminal, hstopped⟩ := steps_terminal hsteps
    exact ⟨fun hp => hterminal (Or.inl hp), hstopped⟩
  · intro call wake hok
    have hmoves := m.call_moves call
    rw [hok] at hmoves
    exact hmoves.activates
  · intro call e herror
    have hmoves := m.call_moves call
    rw [herror] at hmoves
    exact hmoves.refused
  · intro profile pid hprofile hpid adapter
    refine ⟨fun observedAt => h.fromSnapshot hprofile hpid adapter observedAt, ?_⟩
    intro observedAt stored e herror
    cases observedAt with
    | none => cases herror
    | some now =>
        obtain ⟨record, hrecord⟩ := h.fromSnapshot hprofile hpid adapter now
        simp only [publishSnapshot, hrecord] at herror
        split at herror <;> cases herror

namespace Sample

def quietMachine : ActivationMachine := ⟨.default, .quiet, none, false, 0⟩

def aliceWake : WakeMetadata where
  profile := "alice"
  squad := "alpha"
  pendingCount := 1
  highestPriority := .normal
  oldestMessageId := "msg_one"
  valid := by decide

/-- The machine after mail was seen and its host failed before it started. -/
def failedMachine : ActivationMachine :=
  (((quietMachine.call (.observe (some aliceWake))).2.call .wakeStarted).2.call
    .wakeRetryableFailure).2

theorem failedMachine_reach : machineLts.Reach Lts.always failedMachine := by
  have hinit : machineLts.init quietMachine := ⟨.default, by decide⟩
  have hrun : machineLts.Steps Lts.always quietMachine failedMachine :=
    (((Lts.Steps.refl quietMachine).tail (l := .observe (some aliceWake)) trivial rfl).tail
      (l := .wakeStarted) trivial rfl).tail (l := .wakeRetryableFailure) trivial rfl
  exact ⟨quietMachine, hinit, hrun⟩

end Sample

open Sample in
/-- A machine in backoff still holds the wake it will retry. -/
theorem activation_sound_in_backoff :
    failedMachine.phase = .backoff ∧ failedMachine.pending ≠ none := by
  have hphase : failedMachine.phase = .backoff := by decide
  exact ⟨hphase, (activation_sound failedMachine_reach).1 (by simp [hphase])⟩

end Psst
