import Psst.Core.State
import Psst.Lib.Lts

/-!
# The activation machine

The phases of waking a host for pending mail. Every public operation either refuses the
transition and leaves the machine alone, or moves it; `observe`, `stop` and `block` never refuse.
-/

namespace Psst

/-! ## Wake metadata -/

def maxWakePendingCount : Nat := 1000000

def maxWakeProfileBytes : Nat := 64

def maxWakeSquadBytes : Nat := 64

def maxWakeMessageIdBytes : Nat := 128

inductive ActivationContractError where
  | emptyProfile
  | invalidProfile
  | emptySquad
  | invalidSquad
  | pendingCountOutOfRange
  | emptyOldestMessageId
  | invalidOldestMessageId
  | reconcileIntervalOutOfRange
  | backoffRangeInvalid
  | invalidTransition
  deriving DecidableEq

/-- `validate_identifier`. Outside ASCII no byte is accepted, so the check is one of
characters. -/
def validateIdentifier (value : String) (maximumBytes : Nat)
    (empty invalid : ActivationContractError) : Except ActivationContractError Unit :=
  if value.isEmpty then .error empty
  else if maximumBytes < value.utf8ByteSize
      ∨ ¬ value.toList.all (fun c => isAsciiAlphanumeric c || c == '-' || c == '_' || c == '.')
  then .error invalid
  else .ok ()

/-- What a wake carries, before it is checked. -/
structure WakeFields where
  profile : String
  squad : String
  pendingCount : Nat
  highestPriority : MessagePriority
  oldestMessageId : String
  deriving DecidableEq

def WakeFields.check (w : WakeFields) : Except ActivationContractError Unit := do
  validateIdentifier w.profile maxWakeProfileBytes .emptyProfile .invalidProfile
  validateIdentifier w.squad maxWakeSquadBytes .emptySquad .invalidSquad
  if w.pendingCount = 0 ∨ maxWakePendingCount < w.pendingCount then
    throw .pendingCountOutOfRange
  validateIdentifier w.oldestMessageId maxWakeMessageIdBytes .emptyOldestMessageId
    .invalidOldestMessageId

/-- Only `WakeMetadata::new` builds one. -/
structure WakeMetadata extends WakeFields where
  valid : toWakeFields.check = .ok ()
  deriving DecidableEq

def WakeMetadata.new (fields : WakeFields) : Except ActivationContractError WakeMetadata :=
  match h : fields.check with
  | .ok () => .ok ⟨fields, h⟩
  | .error e => .error e

theorem WakeMetadata.pendingCount_range (w : WakeMetadata) :
    1 ≤ w.pendingCount ∧ w.pendingCount ≤ maxWakePendingCount := by
  have hvalid := w.valid
  by_contra hrange
  have hbad : w.pendingCount = 0 ∨ maxWakePendingCount < w.pendingCount := by omega
  unfold WakeFields.check at hvalid
  rw [if_pos hbad] at hvalid
  obtain ⟨_, -, hvalid⟩ := Except.bind_eq_ok.mp hvalid
  obtain ⟨_, -, hvalid⟩ := Except.bind_eq_ok.mp hvalid
  cases hvalid

/-! ## Policy -/

def minReconcileInterval : Duration := .fromSecs 5

def maxReconcileInterval : Duration := .fromSecs 60

def maxBackoffDuration : Duration := .fromSecs 300

def maxBackoffAttempts : Nat := 8

structure ActivationPolicy where
  reconcileInterval : Duration
  initialBackoff : Duration
  maximumBackoff : Duration
  maximumAttempts : UInt8
  deriving DecidableEq

def ActivationPolicy.default : ActivationPolicy where
  reconcileInterval := .fromSecs 60
  initialBackoff := .fromSecs 1
  maximumBackoff := .fromSecs 60
  maximumAttempts := 8

def ActivationPolicy.validate (p : ActivationPolicy) :
    Except ActivationContractError ActivationPolicy :=
  if ¬ (minReconcileInterval.asNanos ≤ p.reconcileInterval.asNanos
      ∧ p.reconcileInterval.asNanos ≤ maxReconcileInterval.asNanos) then
    .error .reconcileIntervalOutOfRange
  else if p.initialBackoff.isZero = true
      ∨ p.maximumBackoff.asNanos < p.initialBackoff.asNanos
      ∨ maxBackoffDuration.asNanos < p.maximumBackoff.asNanos
      ∨ p.maximumAttempts = 0
      ∨ maxBackoffAttempts < p.maximumAttempts.toNat then
    .error .backoffRangeInvalid
  else .ok p

/-- What a validated policy allows. -/
theorem ActivationPolicy.validate_eq_ok {p q : ActivationPolicy} (h : p.validate = .ok q) :
    q = p ∧ 0 < p.maximumAttempts.toNat ∧ p.maximumAttempts.toNat ≤ maxBackoffAttempts := by
  unfold ActivationPolicy.validate at h
  split at h
  · cases h
  · split at h
    · cases h
    · rename_i hrange
      simp only [not_or, not_lt] at hrange
      obtain ⟨-, -, -, hzero, hmax⟩ := hrange
      cases h
      refine ⟨rfl, Nat.pos_of_ne_zero fun h => hzero ?_, hmax⟩
      exact UInt8.toNat_inj.mp h

/-! ## The machine -/

inductive ActivationPhase where
  | quiet
  | pending
  | waking
  | running
  | backoff
  | blocked
  | stopped
  deriving DecidableEq

inductive ActivationCommand where
  | none
  | activate (wake : WakeMetadata)
  | reconcileNow
  | retryAfter (delay : Duration)
  deriving DecidableEq

structure ActivationSnapshot where
  phase : ActivationPhase
  pending : Option WakeMetadata
  reconcileNeeded : Bool
  retryAttempt : UInt8
  deriving DecidableEq

structure ActivationMachine where
  policy : ActivationPolicy
  phase : ActivationPhase
  pending : Option WakeMetadata
  reconcileNeeded : Bool
  retryAttempt : UInt8
  deriving DecidableEq

/-- `saturating_add(1)` -/
def UInt8.saturatingSucc (n : UInt8) : UInt8 := if n = 255 then 255 else n + 1

/-- `checked_mul`, with the given value where it overflows. -/
def Duration.checkedMul (d : Duration) (n : Nat) (fallback : Duration) : Duration :=
  if h : d.asNanos * n < 2 ^ 64 * 10 ^ 9 then ⟨d.asNanos * n, h⟩ else fallback

def Duration.min (a b : Duration) : Duration := if a.asNanos ≤ b.asNanos then a else b

/-- The loop's wait after failed observations; `2_u32.checked_pow` overflows from 32 on. -/
def retryDelay (policy : ActivationPolicy) (attempt : UInt8) : Duration :=
  let exponent := attempt.toNat - 1
  let multiplier := if exponent < 32 then 2 ^ exponent else 2 ^ 32 - 1
  (policy.initialBackoff.checkedMul multiplier policy.maximumBackoff).min policy.maximumBackoff

namespace ActivationMachine

def new (policy : ActivationPolicy) : Except ActivationContractError ActivationMachine := do
  let policy ← policy.validate
  pure ⟨policy, .quiet, none, false, 0⟩

def snapshot (m : ActivationMachine) : ActivationSnapshot where
  phase := m.phase
  pending := m.pending
  reconcileNeeded := m.reconcileNeeded
  retryAttempt := m.retryAttempt

/-- A host activation is under way. -/
def hosting (m : ActivationMachine) : Bool :=
  decide (m.phase = .waking) || decide (m.phase = .running)

def observe (m : ActivationMachine) (pending : Option WakeMetadata) :
    ActivationCommand × ActivationMachine :=
  match m.phase, pending with
  | .stopped, _ | .blocked, _ | _, none => (.none, m)
  | .quiet, some wake => (.activate wake, { m with phase := .pending, pending := some wake })
  | _, some wake => (.none, { m with pending := some wake, reconcileNeeded := true })

def wakeStarted (m : ActivationMachine) :
    Except ActivationContractError Unit × ActivationMachine :=
  if m.phase ≠ .pending ∨ m.pending = none then (.error .invalidTransition, m)
  else (.ok (), { m with phase := .waking })

def wakeAccepted (m : ActivationMachine) :
    Except ActivationContractError Unit × ActivationMachine :=
  if m.phase ≠ .waking then (.error .invalidTransition, m)
  else (.ok (), { m with phase := .running })

def wakeCompleted (m : ActivationMachine) :
    Except ActivationContractError ActivationCommand × ActivationMachine :=
  if m.hosting = false then (.error .invalidTransition, m)
  else (.ok .reconcileNow,
    { m with phase := .quiet, pending := none, reconcileNeeded := false, retryAttempt := 0 })

def wakeRetryableFailure (m : ActivationMachine) :
    Except ActivationContractError ActivationCommand × ActivationMachine :=
  if m.hosting = false then (.error .invalidTransition, m)
  else
    let attempt := UInt8.saturatingSucc m.retryAttempt
    if m.policy.maximumAttempts ≤ attempt then
      (.ok .none, { m with retryAttempt := attempt, phase := .blocked })
    else
      let exponent := attempt.toNat - 1
      let multiplier := if exponent < 32 then 2 ^ exponent else 2 ^ 32 - 1
      let delay :=
        (m.policy.initialBackoff.checkedMul multiplier m.policy.maximumBackoff).min
          m.policy.maximumBackoff
      (.ok (.retryAfter delay), { m with retryAttempt := attempt, phase := .backoff })

def retryDue (m : ActivationMachine) :
    Except ActivationContractError ActivationCommand × ActivationMachine :=
  if m.phase ≠ .backoff then (.error .invalidTransition, m)
  else
    match m.pending with
    | none => (.error .invalidTransition, m)
    | some wake => (.ok (.activate wake), { m with phase := .pending, reconcileNeeded := false })

def wakePermanentFailure (m : ActivationMachine) :
    Except ActivationContractError Unit × ActivationMachine :=
  if m.hosting = false then (.error .invalidTransition, m)
  else (.ok (), { m with phase := .blocked })

def stop (m : ActivationMachine) : ActivationMachine :=
  { m with phase := .stopped, pending := none, reconcileNeeded := false }

def block (m : ActivationMachine) : ActivationMachine :=
  if m.phase ≠ .stopped then { m with phase := .blocked } else m

/-! ## Calls -/

inductive Call where
  | observe (pending : Option WakeMetadata)
  | wakeStarted
  | wakeAccepted
  | wakeCompleted
  | wakeRetryableFailure
  | retryDue
  | wakePermanentFailure
  | stop
  | block

/-- The command a call returns, `none` for those that return nothing, and the machine after. -/
def call (m : ActivationMachine) :
    Call → Except ActivationContractError ActivationCommand × ActivationMachine
  | .observe pending => ((.ok (m.observe pending).1), (m.observe pending).2)
  | .wakeStarted => (m.wakeStarted.1.map fun _ => .none, m.wakeStarted.2)
  | .wakeAccepted => (m.wakeAccepted.1.map fun _ => .none, m.wakeAccepted.2)
  | .wakeCompleted => m.wakeCompleted
  | .wakeRetryableFailure => m.wakeRetryableFailure
  | .retryDue => m.retryDue
  | .wakePermanentFailure => (m.wakePermanentFailure.1.map fun _ => .none, m.wakePermanentFailure.2)
  | .stop => (.ok .none, m.stop)
  | .block => (.ok .none, m.block)

/-- A wake is stored and the host has not finished with it. -/
def busy (m : ActivationMachine) : Bool :=
  decide (m.phase = .pending) || m.hosting || decide (m.phase = .backoff)

/-- **What a call can do**, with its result and the condition under which it does it. -/
inductive Moves (m : ActivationMachine) :
    Except ActivationContractError ActivationCommand → ActivationMachine → Prop where
  | refuse (e : ActivationContractError) : Moves m (.error e) m
  | ignore : Moves m (.ok .none) m
  | wake (wake : WakeMetadata) (hphase : m.phase = .quiet) :
      Moves m (.ok (.activate wake)) { m with phase := .pending, pending := some wake }
  | note (wake : WakeMetadata) (hbusy : m.busy = true) :
      Moves m (.ok .none) { m with pending := some wake, reconcileNeeded := true }
  | issue (hphase : m.phase = .pending) : Moves m (.ok .none) { m with phase := .waking }
  | accept (hphase : m.phase = .waking) : Moves m (.ok .none) { m with phase := .running }
  | complete (hhosting : m.hosting = true) :
      Moves m (.ok .reconcileNow)
        { m with phase := .quiet, pending := none, reconcileNeeded := false, retryAttempt := 0 }
  | retry (delay : Duration) (hhosting : m.hosting = true)
      (hleft : ¬ m.policy.maximumAttempts ≤ UInt8.saturatingSucc m.retryAttempt) :
      Moves m (.ok (.retryAfter delay))
        { m with retryAttempt := UInt8.saturatingSucc m.retryAttempt, phase := .backoff }
  | exhaust (hhosting : m.hosting = true)
      (hleft : m.policy.maximumAttempts ≤ UInt8.saturatingSucc m.retryAttempt) :
      Moves m (.ok .none)
        { m with retryAttempt := UInt8.saturatingSucc m.retryAttempt, phase := .blocked }
  | due (wake : WakeMetadata) (hphase : m.phase = .backoff) (hpending : m.pending = some wake) :
      Moves m (.ok (.activate wake)) { m with phase := .pending, reconcileNeeded := false }
  | block (hphase : m.phase ≠ .stopped) : Moves m (.ok .none) { m with phase := .blocked }
  | stop : Moves m (.ok .none) m.stop

theorem hosting_cases {m : ActivationMachine} (h : m.hosting = true) :
    m.phase = .waking ∨ m.phase = .running := by
  simpa [hosting] using h

theorem busy_cases {m : ActivationMachine} :
    m.busy = true ↔ m.phase = .pending ∨ m.phase = .waking ∨ m.phase = .running
      ∨ m.phase = .backoff := by
  simp [busy, hosting, or_assoc]

theorem call_moves (m : ActivationMachine) (c : Call) : m.Moves (m.call c).1 (m.call c).2 := by
  cases c with
  | observe pending =>
      cases pending with
      | none =>
          have h : m.observe none = (.none, m) := by
            unfold observe
            split <;> simp_all
          simp only [call, h]
          exact .ignore
      | some wake =>
          by_cases hquiet : m.phase = .quiet
          · simp only [call, observe, hquiet]
            exact .wake wake hquiet
          · by_cases hbusy : m.busy = true
            · have h : m.observe (some wake)
                  = (.none, { m with pending := some wake, reconcileNeeded := true }) := by
                rcases busy_cases.mp hbusy with h | h | h | h <;> simp [observe, h]
              simp only [call, h]
              exact .note wake hbusy
            · have h : m.observe (some wake) = (.none, m) := by
                rw [busy_cases] at hbusy
                cases hphase : m.phase <;> simp_all [observe]
              simp only [call, h]
              exact .ignore
  | wakeStarted =>
      by_cases h : m.phase ≠ .pending ∨ m.pending = none
      · simp only [call, wakeStarted, if_pos h]
        exact .refuse _
      · simp only [call, wakeStarted, if_neg h]
        exact .issue (by_contra fun hp => h (Or.inl hp))
  | wakeAccepted =>
      by_cases h : m.phase ≠ .waking
      · simp only [call, wakeAccepted, if_pos h]
        exact .refuse _
      · simp only [call, wakeAccepted, if_neg h]
        exact .accept (not_not.mp h)
  | wakeCompleted =>
      by_cases h : m.hosting = false
      · simp only [call, wakeCompleted, if_pos h]
        exact .refuse _
      · simp only [call, wakeCompleted, if_neg h]
        exact .complete (by simpa using h)
  | wakeRetryableFailure =>
      by_cases h : m.hosting = false
      · simp only [call, wakeRetryableFailure, if_pos h]
        exact .refuse _
      · have hhosting : m.hosting = true := by simpa using h
        simp only [call, wakeRetryableFailure, if_neg h]
        by_cases hleft : m.policy.maximumAttempts ≤ UInt8.saturatingSucc m.retryAttempt
        · simp only [if_pos hleft]
          exact .exhaust hhosting hleft
        · simp only [if_neg hleft]
          exact .retry _ hhosting hleft
  | retryDue =>
      by_cases h : m.phase ≠ .backoff
      · simp only [call, retryDue, if_pos h]
        exact .refuse _
      · simp only [call, retryDue, if_neg h]
        cases hpending : m.pending with
        | none => exact .refuse _
        | some wake =>
            have hdue := Moves.due wake (not_not.mp h) hpending
            rw [hpending] at hdue
            exact hdue
  | wakePermanentFailure =>
      by_cases h : m.hosting = false
      · simp only [call, wakePermanentFailure, if_pos h]
        exact .refuse _
      · simp only [call, wakePermanentFailure, if_neg h]
        refine .block ?_
        rcases hosting_cases (by simpa using h) with hp | hp <;> rw [hp] <;> decide
  | stop => exact .stop
  | block =>
      by_cases h : m.phase ≠ .stopped
      · simp only [call, block, if_pos h]
        exact .block h
      · simp only [call, block, if_neg h]
        exact .ignore

/-! ## The invariant -/

/-- What holds of a machine between calls. -/
structure Sound (m : ActivationMachine) : Prop where
  policy : m.policy.validate = .ok m.policy
  carries : m.busy = true → m.pending ≠ none
  empty : m.phase = .quiet ∨ m.phase = .stopped → m.pending = none
  fresh : m.phase = .quiet → m.retryAttempt = 0
  bounded : m.retryAttempt.toNat ≤ m.policy.maximumAttempts.toNat
  /-- an attempt is left while the machine can still wake the host -/
  left : m.phase ≠ .blocked → m.phase ≠ .stopped →
    m.retryAttempt.toNat < m.policy.maximumAttempts.toNat

theorem new_sound {policy : ActivationPolicy} {m : ActivationMachine} (h : new policy = .ok m) :
    m.Sound := by
  obtain ⟨p, hp, hm⟩ := Except.bind_eq_ok.mp h
  obtain ⟨rfl, hpos, -⟩ := ActivationPolicy.validate_eq_ok hp
  cases hm
  exact ⟨hp, fun hb => (by cases hb), fun _ => rfl, fun _ => rfl, Nat.zero_le _, fun _ _ => hpos⟩

/-- One more attempt, while one is left. -/
theorem saturatingSucc_of_lt {n max : UInt8} (h : n.toNat < max.toNat) :
    (UInt8.saturatingSucc n).toNat = n.toNat + 1 := by
  have hmax := max.toNat_lt
  have hne : n ≠ 255 := by
    rintro rfl
    have : (255 : UInt8).toNat = 255 := rfl
    omega
  rw [UInt8.saturatingSucc, if_neg hne, UInt8.toNat_add]
  have : (1 : UInt8).toNat = 1 := rfl
  omega

theorem Sound.moves {m m' : ActivationMachine}
    {result : Except ActivationContractError ActivationCommand} (h : m.Sound)
    (hmoves : m.Moves result m') : m'.Sound := by
  -- a hosting machine carries its wake and has an attempt left
  have hhosted : m.hosting = true → m.pending ≠ none
      ∧ m.retryAttempt.toNat < m.policy.maximumAttempts.toNat := by
    intro hhosting
    refine ⟨h.carries (by simp [busy, hhosting]), ?_⟩
    rcases hosting_cases hhosting with hp | hp
    · exact h.left (by rw [hp]; decide) (by rw [hp]; decide)
    · exact h.left (by rw [hp]; decide) (by rw [hp]; decide)
  cases hmoves with
  | refuse e => exact h
  | ignore => exact h
  | wake wake hphase =>
      exact ⟨h.policy, fun _ => by simp, fun hp => by simp at hp, fun hp => by simp at hp,
        h.bounded, fun _ _ => h.left (by rw [hphase]; decide) (by rw [hphase]; decide)⟩
  | note wake hbusy =>
      refine ⟨h.policy, fun _ => by simp, fun hp => ?_, h.fresh, h.bounded, h.left⟩
      rcases busy_cases.mp hbusy with hq | hq | hq | hq <;> rcases hp with hp | hp <;>
        exact absurd (hq.symm.trans hp) (by decide)
  | issue hphase =>
      exact ⟨h.policy, fun _ => h.carries (by simp [busy, hphase]), fun hp => by simp at hp,
        fun hp => by simp at hp, h.bounded,
        fun _ _ => h.left (by rw [hphase]; decide) (by rw [hphase]; decide)⟩
  | accept hphase =>
      exact ⟨h.policy, fun _ => h.carries (by simp [busy, hosting, hphase]),
        fun hp => by simp at hp, fun hp => by simp at hp, h.bounded,
        fun _ _ => h.left (by rw [hphase]; decide) (by rw [hphase]; decide)⟩
  | complete hhosting =>
      exact ⟨h.policy, fun hb => by simp [busy, hosting] at hb, fun _ => rfl, fun _ => rfl,
        Nat.zero_le _, fun _ _ => Nat.lt_of_le_of_lt (Nat.zero_le _) (hhosted hhosting).2⟩
  | retry delay hhosting hleft =>
      have hlt : (UInt8.saturatingSucc m.retryAttempt).toNat < m.policy.maximumAttempts.toNat :=
        UInt8.lt_iff_toNat_lt.mp (UInt8.not_le.mp hleft)
      exact ⟨h.policy, fun _ => (hhosted hhosting).1, fun hp => by simp at hp,
        fun hp => by simp at hp, hlt.le, fun _ _ => hlt⟩
  | exhaust hhosting hleft =>
      have hsucc := saturatingSucc_of_lt (hhosted hhosting).2
      have hlt := (hhosted hhosting).2
      refine ⟨h.policy, fun hb => by simp [busy, hosting] at hb, fun hp => by simp at hp,
        fun hp => by simp at hp, ?_, fun hp => absurd rfl hp⟩
      show (UInt8.saturatingSucc m.retryAttempt).toNat ≤ m.policy.maximumAttempts.toNat
      omega
  | due wake hphase hpending =>
      exact ⟨h.policy, fun _ => by simp [hpending], fun hp => by simp at hp,
        fun hp => by simp at hp, h.bounded,
        fun _ _ => h.left (by rw [hphase]; decide) (by rw [hphase]; decide)⟩
  | block hphase =>
      exact ⟨h.policy, fun hb => by simp [busy, hosting] at hb, fun hp => by simp at hp,
        fun hp => by simp at hp, h.bounded, fun hp => absurd rfl hp⟩
  | stop =>
      exact ⟨h.policy, fun hb => by simp [busy, hosting, ActivationMachine.stop] at hb,
        fun _ => rfl, fun hp => by simp [ActivationMachine.stop] at hp, h.bounded,
        fun _ hp => absurd rfl hp⟩

end ActivationMachine

/-- Any calls in any order. -/
def machineLts : Lts ActivationMachine ActivationMachine.Call where
  init m := ∃ policy, ActivationMachine.new policy = .ok m
  step m call m' := m' = (m.call call).2

theorem reach_machine_sound {m : ActivationMachine} (h : machineLts.Reach Lts.always m) :
    m.Sound := by
  refine h.invariant ?_ ?_
  · rintro m ⟨policy, hnew⟩
    exact ActivationMachine.new_sound hnew
  · rintro m call m' hm - rfl
    exact hm.moves (m.call_moves call)

end Psst
