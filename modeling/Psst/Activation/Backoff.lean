import Psst.Activation.Wake
import Psst.Lib.Unsigned

/-!
# Backoff

The delays between retries, computed once by the machine for its host and once by the loop for
its source, and the jitter that is put on the machine's.
-/

namespace Psst

/-! ## Jitter -/

/-- `jitter_delay_from`; `none` stands for an overflow or a division by zero. -/
def jitterDelayFrom (delay : Duration) (sample : UInt64) : Option Duration :=
  -- `u64::try_from(delay.as_millis()).unwrap_or(u64::MAX)`
  let ceilingMillis := min delay.asMillis (2 ^ 64 - 1)
  if ceilingMillis < 2 then some delay
  else do
    let floorMillis := ceilingMillis / 2
    let width ← Unsigned.sub ceilingMillis floorMillis
    let span ← Unsigned.add (2 ^ 64 - 1) width 1
    let offset ← Unsigned.rem sample.toNat span
    let millis ← Unsigned.add (2 ^ 64 - 1) floorMillis offset
    pure (.fromMillis (UInt64.ofNat millis))

theorem Duration.asNanos_fromMillis {millis : Nat} (h : millis < 2 ^ 64) :
    (Duration.fromMillis (UInt64.ofNat millis)).asNanos = millis * 10 ^ 6 := by
  show (UInt64.ofNat millis).toNat * 10 ^ 6 = millis * 10 ^ 6
  rw [UInt64.toNat_ofNat_of_lt' h]

/-- What the jitter returns where there is something to vary. -/
theorem jitterDelayFrom_of_wide {delay : Duration} {ceiling : Nat}
    (hceiling : ceiling = min delay.asMillis (2 ^ 64 - 1)) (hwide : 2 ≤ ceiling) (sample : UInt64) :
    ∃ jittered, jitterDelayFrom delay sample = some jittered
      ∧ jittered.asNanos
        = (ceiling / 2 + sample.toNat % (ceiling - ceiling / 2 + 1)) * 10 ^ 6 := by
  have hbound : ceiling ≤ 2 ^ 64 - 1 := by
    rw [hceiling]
    exact Nat.min_le_right ..
  have hoffset : sample.toNat % (ceiling - ceiling / 2 + 1) < ceiling - ceiling / 2 + 1 :=
    Nat.mod_lt _ (Nat.succ_pos _)
  have hwidth : Unsigned.sub ceiling (ceiling / 2) = some (ceiling - ceiling / 2) :=
    Unsigned.sub_of_le (by omega)
  have hspan : Unsigned.add (2 ^ 64 - 1) (ceiling - ceiling / 2) 1
      = some (ceiling - ceiling / 2 + 1) := Unsigned.add_of_le (by omega)
  have hrem : Unsigned.rem sample.toNat (ceiling - ceiling / 2 + 1)
      = some (sample.toNat % (ceiling - ceiling / 2 + 1)) := Unsigned.rem_of_pos (Nat.succ_pos _)
  have hmillis : Unsigned.add (2 ^ 64 - 1) (ceiling / 2)
      (sample.toNat % (ceiling - ceiling / 2 + 1))
      = some (ceiling / 2 + sample.toNat % (ceiling - ceiling / 2 + 1)) :=
    Unsigned.add_of_le (by omega)
  refine ⟨_, ?_, Duration.asNanos_fromMillis (by omega)⟩
  unfold jitterDelayFrom
  simp only [← hceiling, if_neg (Nat.not_lt.mpr hwide), hwidth, hspan, hrem, hmillis,
    Option.bind_eq_bind, Option.bind_some, Option.pure_def]

/-- The jitter neither overflows nor divides by zero, and stays below the delay and above half of
what 64 bits of milliseconds hold of it. -/
theorem jitterDelayFrom_bounds (delay : Duration) (sample : UInt64) :
    ∃ jittered, jitterDelayFrom delay sample = some jittered
      ∧ jittered.asNanos ≤ delay.asNanos
      ∧ min delay.asMillis (2 ^ 64 - 1) / 2 * 10 ^ 6 ≤ jittered.asNanos := by
  have hmillis : delay.asMillis * 10 ^ 6 ≤ delay.asNanos := Nat.div_mul_le_self ..
  obtain ⟨ceiling, hceiling⟩ : ∃ ceiling, ceiling = min delay.asMillis (2 ^ 64 - 1) := ⟨_, rfl⟩
  have hle : ceiling ≤ delay.asMillis := by
    rw [hceiling]
    exact Nat.min_le_left ..
  rw [← hceiling]
  by_cases hwide : 2 ≤ ceiling
  · obtain ⟨jittered, hjittered, hnanos⟩ := jitterDelayFrom_of_wide hceiling hwide sample
    have hoffset : sample.toNat % (ceiling - ceiling / 2 + 1) < ceiling - ceiling / 2 + 1 :=
      Nat.mod_lt _ (Nat.succ_pos _)
    generalize sample.toNat % (ceiling - ceiling / 2 + 1) = offset at hnanos hoffset
    have hlow : ceiling / 2 ≤ ceiling / 2 + offset := Nat.le_add_right ..
    have hhigh : ceiling / 2 + offset ≤ delay.asMillis := by omega
    refine ⟨jittered, hjittered, ?_, ?_⟩
    · rw [hnanos]
      exact (Nat.mul_le_mul_right _ hhigh).trans hmillis
    · rw [hnanos]
      exact Nat.mul_le_mul_right _ hlow
  · refine ⟨delay, ?_, le_rfl, ?_⟩
    · unfold jitterDelayFrom
      rw [← hceiling]
      exact if_pos (Nat.not_le.mp hwide)
    · have hhalf : ceiling / 2 = 0 := by omega
      rw [hhalf, Nat.zero_mul]
      exact Nat.zero_le _

/-- Half of the delay, in whole milliseconds, is a lower bound for every sample exactly when the
delay's milliseconds fit in 64 bits. -/
theorem jitterDelayFrom_half_iff (delay : Duration) :
    (∀ sample jittered, jitterDelayFrom delay sample = some jittered →
        delay.asNanos / 2 / 10 ^ 6 * 10 ^ 6 ≤ jittered.asNanos)
      ↔ delay.asMillis < 2 ^ 64 := by
  have hhalf : delay.asNanos / 2 / 10 ^ 6 = delay.asMillis / 2 := by
    rw [Duration.asMillis, Nat.div_div_eq_div_mul, Nat.div_div_eq_div_mul, Nat.mul_comm]
  constructor
  · intro h
    by_contra hlarge
    have hceiling : 2 ^ 64 - 1 = min delay.asMillis (2 ^ 64 - 1) := by omega
    obtain ⟨jittered, hjittered, hnanos⟩ :=
      jitterDelayFrom_of_wide hceiling (by omega) 0
    -- the smallest sample gives half of the largest ceiling
    have hlow := h 0 jittered hjittered
    have hzero : (0 : UInt64).toNat = 0 := rfl
    rw [hhalf, hnanos, hzero, Nat.zero_mod] at hlow
    omega
  · intro hfits sample jittered hjittered
    obtain ⟨jittered', hjittered', -, hlow⟩ := jitterDelayFrom_bounds delay sample
    rw [hjittered] at hjittered'
    cases hjittered'
    rw [hhalf]
    have hceiling : min delay.asMillis (2 ^ 64 - 1) = delay.asMillis := by omega
    rw [hceiling] at hlow
    exact hlow

/-! ## Delays -/

theorem asNanos_min (a b : Duration) : (a.min b).asNanos = min a.asNanos b.asNanos := by
  unfold Duration.min
  split
  · rename_i hle
    exact (Nat.min_eq_left hle).symm
  · rename_i hlt
    exact (Nat.min_eq_right (Nat.le_of_not_le hlt)).symm

theorem ActivationPolicy.validate_backoff {policy : ActivationPolicy}
    (h : policy.validate = .ok policy) :
    0 < policy.initialBackoff.asNanos
      ∧ policy.initialBackoff.asNanos ≤ policy.maximumBackoff.asNanos
      ∧ policy.maximumBackoff.asNanos ≤ 300 * 10 ^ 9 := by
  unfold ActivationPolicy.validate at h
  split at h
  · cases h
  · split at h
    · cases h
    · rename_i hrange
      simp only [not_or, not_lt] at hrange
      obtain ⟨hzero, hle, hmax, -, -⟩ := hrange
      refine ⟨Nat.pos_of_ne_zero fun hnanos => hzero ?_, hle, hmax⟩
      rw [Duration.isZero, hnanos]
      rfl

/-- `2_u32.checked_pow(exponent).unwrap_or(u32::MAX)` -/
theorem checkedPow_eq (exponent : Nat) :
    (if exponent < 32 then 2 ^ exponent else 2 ^ 32 - 1) = min (2 ^ exponent) (2 ^ 32 - 1) := by
  split
  · rename_i hlt
    have hpow : 2 ^ exponent < 2 ^ 32 := Nat.pow_lt_pow_right (by decide) hlt
    omega
  · rename_i hge
    have hpow : 2 ^ 32 ≤ 2 ^ exponent := Nat.pow_le_pow_right (by decide) (Nat.not_lt.mp hge)
    omega

/-- The delay of a validated policy; the product never overflows. -/
theorem retryDelay_asNanos {policy : ActivationPolicy} (h : policy.validate = .ok policy)
    (attempt : UInt8) :
    (retryDelay policy attempt).asNanos
      = min (policy.initialBackoff.asNanos * min (2 ^ (attempt.toNat - 1)) (2 ^ 32 - 1))
          policy.maximumBackoff.asNanos := by
  obtain ⟨-, hle, hmax⟩ := ActivationPolicy.validate_backoff h
  unfold retryDelay
  simp only [checkedPow_eq, asNanos_min]
  generalize hmultiplier : min (2 ^ (attempt.toNat - 1)) (2 ^ 32 - 1) = multiplier
  have hmultiplier : multiplier ≤ 2 ^ 32 - 1 := by
    rw [← hmultiplier]
    exact Nat.min_le_right ..
  have hproduct : policy.initialBackoff.asNanos * multiplier < 2 ^ 64 * 10 ^ 9 := by
    calc policy.initialBackoff.asNanos * multiplier
        ≤ 300 * 10 ^ 9 * (2 ^ 32 - 1) := Nat.mul_le_mul (hle.trans hmax) hmultiplier
      _ < 2 ^ 64 * 10 ^ 9 := by decide
  rw [Duration.checkedMul, dif_pos hproduct]

theorem retryDelay_bounds {policy : ActivationPolicy} (h : policy.validate = .ok policy)
    (attempt : UInt8) :
    policy.initialBackoff.asNanos ≤ (retryDelay policy attempt).asNanos
      ∧ (retryDelay policy attempt).asNanos ≤ policy.maximumBackoff.asNanos := by
  obtain ⟨-, hle, -⟩ := ActivationPolicy.validate_backoff h
  rw [retryDelay_asNanos h]
  have hone : 1 ≤ min (2 ^ (attempt.toNat - 1)) (2 ^ 32 - 1) :=
    Nat.le_min.mpr ⟨Nat.one_le_two_pow, by decide⟩
  have hproduct := Nat.mul_le_mul_left policy.initialBackoff.asNanos hone
  rw [Nat.mul_one] at hproduct
  exact ⟨Nat.le_min.mpr ⟨hproduct, hle⟩, Nat.min_le_right ..⟩

theorem retryDelay_mono {policy : ActivationPolicy} (h : policy.validate = .ok policy)
    {a b : UInt8} (hab : a ≤ b) :
    (retryDelay policy a).asNanos ≤ (retryDelay policy b).asNanos := by
  have hexponent : a.toNat - 1 ≤ b.toNat - 1 := Nat.sub_le_sub_right hab 1
  have hpow : 2 ^ (a.toNat - 1) ≤ 2 ^ (b.toNat - 1) := Nat.pow_le_pow_right (by decide) hexponent
  have hmultiplier : min (2 ^ (a.toNat - 1)) (2 ^ 32 - 1) ≤ min (2 ^ (b.toNat - 1)) (2 ^ 32 - 1) := by
    omega
  have hproduct := Nat.mul_le_mul_left policy.initialBackoff.asNanos hmultiplier
  rw [retryDelay_asNanos h, retryDelay_asNanos h]
  omega

/-- The multiplier of the code is the power of two as long as it fits in 32 bits, which only
matters when the product is still below the ceiling there. -/
theorem retryDelay_exponential_iff {policy : ActivationPolicy}
    (h : policy.validate = .ok policy) (attempt : UInt8) :
    (retryDelay policy attempt).asNanos
        = min (policy.initialBackoff.asNanos * 2 ^ (attempt.toNat - 1))
            policy.maximumBackoff.asNanos
      ↔ attempt.toNat ≤ 32
        ∨ policy.maximumBackoff.asNanos ≤ policy.initialBackoff.asNanos * (2 ^ 32 - 1) := by
  obtain ⟨hpos, -, -⟩ := ActivationPolicy.validate_backoff h
  rw [retryDelay_asNanos h]
  by_cases hsmall : attempt.toNat ≤ 32
  · have hpow : 2 ^ (attempt.toNat - 1) ≤ 2 ^ 31 := Nat.pow_le_pow_right (by decide) (by omega)
    rw [Nat.min_eq_left (a := 2 ^ (attempt.toNat - 1)) (hpow.trans (by decide))]
    exact iff_of_true rfl (Or.inl hsmall)
  · have hpow : 2 ^ 32 ≤ 2 ^ (attempt.toNat - 1) := Nat.pow_le_pow_right (by decide) (by omega)
    have hlt : policy.initialBackoff.asNanos * (2 ^ 32 - 1)
        < policy.initialBackoff.asNanos * 2 ^ (attempt.toNat - 1) :=
      Nat.mul_lt_mul_of_pos_left (by omega) hpos
    rw [Nat.min_eq_right (a := 2 ^ (attempt.toNat - 1)) (by omega)]
    -- both sides are the ceiling, or the saturated product is below it and below the other
    omega

/-! ## The machine's delays -/

/-- The machine computes the delay of the loop. -/
theorem ActivationMachine.call_delay {m : ActivationMachine} {c : Call} {delay : Duration}
    (h : (m.call c).1 = .ok (.retryAfter delay)) :
    delay = retryDelay m.policy (UInt8.saturatingSucc m.retryAttempt) := by
  cases c with
  | wakeRetryableFailure =>
      simp only [call, wakeRetryableFailure] at h
      split at h
      · cases h
      · split at h
        · cases h
        · cases h
          rfl
  | observe pending =>
      simp only [call, observe] at h
      split at h <;> cases h
  | wakeStarted =>
      simp only [call, wakeStarted] at h
      split at h <;> cases h
  | wakeAccepted =>
      simp only [call, wakeAccepted] at h
      split at h <;> cases h
  | wakeCompleted =>
      simp only [call, wakeCompleted] at h
      split at h <;> cases h
  | retryDue =>
      simp only [call, retryDue] at h
      split at h
      · cases h
      · split at h <;> cases h
  | wakePermanentFailure =>
      simp only [call, wakePermanentFailure] at h
      split at h <;> cases h
  | stop => cases h
  | block => cases h

/-- `delays` after a call with this result: they start again when a wake is completed. -/
def noteDelay (delays : List Duration) :
    Except ActivationContractError ActivationCommand → List Duration
  | .ok (.retryAfter delay) => delays ++ [delay]
  | .ok .reconcileNow => []
  | _ => delays

/-- A machine with the delays it has returned since it last completed a wake. -/
structure Retries where
  machine : ActivationMachine
  delays : List Duration

def Retries.call (r : Retries) (c : ActivationMachine.Call) : Retries where
  machine := (r.machine.call c).2
  delays := noteDelay r.delays (r.machine.call c).1

/-- A machine without delays yet, after these calls. -/
def Retries.after (m : ActivationMachine) (calls : List ActivationMachine.Call) : Retries :=
  calls.foldl Retries.call ⟨m, []⟩

/-- The law: twice the delay before, up to the ceiling. -/
def exponentialDelays (policy : ActivationPolicy) (count : Nat) : List Nat :=
  (List.range count).map fun n =>
    min (policy.initialBackoff.asNanos * 2 ^ n) policy.maximumBackoff.asNanos

structure Retries.Sound (policy : ActivationPolicy) (r : Retries) : Prop where
  machine : r.machine.Sound
  same : r.machine.policy = policy
  law : r.delays.map Duration.asNanos = exponentialDelays policy r.delays.length
  /-- the machine counts the delays as long as it can still wake its host -/
  count : r.machine.phase ≠ .blocked → r.machine.phase ≠ .stopped →
    r.delays.length = r.machine.retryAttempt.toNat
  left : r.delays.length < policy.maximumAttempts.toNat

/-- One delay more. -/
theorem Retries.Sound.retry {policy : ActivationPolicy} {r : Retries} (h : r.Sound policy)
    {delay : Duration} (hhosting : r.machine.hosting = true)
    (hdelay : delay = retryDelay policy (UInt8.saturatingSucc r.machine.retryAttempt)) :
    (UInt8.saturatingSucc r.machine.retryAttempt).toNat = r.delays.length + 1
      ∧ (r.delays ++ [delay]).map Duration.asNanos
        = exponentialDelays policy (r.delays.length + 1) := by
  have hphase := ActivationMachine.hosting_cases hhosting
  have hblocked : r.machine.phase ≠ .blocked := by
    rcases hphase with hp | hp <;> rw [hp] <;> decide
  have hstopped : r.machine.phase ≠ .stopped := by
    rcases hphase with hp | hp <;> rw [hp] <;> decide
  have hcount := h.count hblocked hstopped
  have hsucc := ActivationMachine.saturatingSucc_of_lt (h.machine.left hblocked hstopped)
  have hvalid : policy.validate = .ok policy := by
    have hvalid := h.machine.policy
    rw [h.same] at hvalid
    exact hvalid
  have hattempt : (UInt8.saturatingSucc r.machine.retryAttempt).toNat = r.delays.length + 1 := by
    omega
  -- at most eight attempts: the multiplier fits
  have hfew : (UInt8.saturatingSucc r.machine.retryAttempt).toNat ≤ 32 := by
    have hmax := (ActivationPolicy.validate_eq_ok hvalid).2.2
    have height : maxBackoffAttempts = 8 := rfl
    have hleft := h.left
    omega
  have hnanos := (retryDelay_exponential_iff hvalid _).mpr (Or.inl hfew)
  rw [← hdelay, hattempt, Nat.add_sub_cancel] at hnanos
  refine ⟨hattempt, ?_⟩
  rw [List.map_append, h.law, List.map_singleton, hnanos]
  unfold exponentialDelays
  rw [List.range_succ, List.map_append, List.map_singleton]

theorem Retries.Sound.moves {policy : ActivationPolicy} {r : Retries} (h : r.Sound policy)
    {result : Except ActivationContractError ActivationCommand} {m : ActivationMachine}
    (hmoves : r.machine.Moves result m)
    (hdelay : ∀ delay, result = .ok (.retryAfter delay) →
      delay = retryDelay r.machine.policy (UInt8.saturatingSucc r.machine.retryAttempt)) :
    Retries.Sound policy ⟨m, noteDelay r.delays result⟩ := by
  have hmachine := h.machine.moves hmoves
  cases hmoves with
  | refuse e => exact ⟨hmachine, h.same, h.law, h.count, h.left⟩
  | ignore => exact ⟨hmachine, h.same, h.law, h.count, h.left⟩
  | wake wake hphase =>
      exact ⟨hmachine, h.same, h.law,
        fun _ _ => h.count (by rw [hphase]; decide) (by rw [hphase]; decide), h.left⟩
  | note wake hbusy => exact ⟨hmachine, h.same, h.law, h.count, h.left⟩
  | issue hphase =>
      exact ⟨hmachine, h.same, h.law,
        fun _ _ => h.count (by rw [hphase]; decide) (by rw [hphase]; decide), h.left⟩
  | accept hphase =>
      exact ⟨hmachine, h.same, h.law,
        fun _ _ => h.count (by rw [hphase]; decide) (by rw [hphase]; decide), h.left⟩
  | complete hhosting =>
      exact ⟨hmachine, h.same, rfl, fun _ _ => rfl, Nat.zero_lt_of_lt h.left⟩
  | retry delay hhosting hleft =>
      have hnext := hdelay delay rfl
      rw [h.same] at hnext
      obtain ⟨hattempt, hlaw⟩ := h.retry hhosting hnext
      have hlength : (r.delays ++ [delay]).length = r.delays.length + 1 := List.length_append
      have hlt := UInt8.lt_iff_toNat_lt.mp (UInt8.not_le.mp hleft)
      rw [h.same, hattempt] at hlt
      refine ⟨hmachine, h.same, ?_, fun _ _ => ?_, ?_⟩
      · show (r.delays ++ [delay]).map Duration.asNanos
          = exponentialDelays policy (r.delays ++ [delay]).length
        rw [hlength, hlaw]
      · show (r.delays ++ [delay]).length
          = (UInt8.saturatingSucc r.machine.retryAttempt).toNat
        rw [hlength, hattempt]
      · show (r.delays ++ [delay]).length < policy.maximumAttempts.toNat
        rw [hlength]
        exact hlt
  | exhaust hhosting hleft =>
      exact ⟨hmachine, h.same, h.law, fun hp => absurd rfl hp, h.left⟩
  | due wake hphase hpending =>
      exact ⟨hmachine, h.same, h.law,
        fun _ _ => h.count (by rw [hphase]; decide) (by rw [hphase]; decide), h.left⟩
  | block hphase => exact ⟨hmachine, h.same, h.law, fun hp => absurd rfl hp, h.left⟩
  | stop => exact ⟨hmachine, h.same, h.law, fun _ hp => absurd rfl hp, h.left⟩

/-- Whatever is called in whatever order. -/
theorem Retries.Sound.run {policy : ActivationPolicy} (calls : List ActivationMachine.Call)
    {r : Retries} (h : r.Sound policy) : (calls.foldl Retries.call r).Sound policy := by
  induction calls generalizing r with
  | nil => exact h
  | cons c rest ih =>
      rw [List.foldl_cons]
      apply ih
      exact h.moves (r.machine.call_moves c) fun _ hresult =>
        ActivationMachine.call_delay hresult

theorem Retries.sound_of_new {policy : ActivationPolicy} {m : ActivationMachine}
    (h : ActivationMachine.new policy = .ok m) : Retries.Sound policy ⟨m, []⟩ := by
  have hsound := ActivationMachine.new_sound h
  obtain ⟨p, hp, hm⟩ := Except.bind_eq_ok.mp h
  obtain ⟨rfl, hpos, -⟩ := ActivationPolicy.validate_eq_ok hp
  cases hm
  exact ⟨hsound, rfl, rfl, fun _ _ => rfl, hpos⟩

theorem exponentialDelays_bounds {policy : ActivationPolicy} (h : policy.validate = .ok policy)
    {count delay : Nat} (hdelay : delay ∈ exponentialDelays policy count) :
    policy.initialBackoff.asNanos ≤ delay ∧ delay ≤ policy.maximumBackoff.asNanos := by
  obtain ⟨-, hle, -⟩ := ActivationPolicy.validate_backoff h
  obtain ⟨n, -, rfl⟩ := List.mem_map.mp hdelay
  have hproduct : policy.initialBackoff.asNanos * 1 ≤ policy.initialBackoff.asNanos * 2 ^ n :=
    Nat.mul_le_mul_left _ Nat.one_le_two_pow
  omega

theorem exponentialDelays_sorted (policy : ActivationPolicy) (count : Nat) :
    (exponentialDelays policy count).Pairwise (· ≤ ·) := by
  unfold exponentialDelays
  rw [List.pairwise_map]
  apply List.Pairwise.imp _ List.pairwise_lt_range
  intro a b hab
  have hpow : 2 ^ a ≤ 2 ^ b := Nat.pow_le_pow_right (by decide) hab.le
  have hproduct := Nat.mul_le_mul_left policy.initialBackoff.asNanos hpow
  omega

/-- **Backoff laws.** For a validated policy the machine's successive delays are the initial one
times the powers of two, cut at the maximum, so they do not decrease and stay within the two; the
loop's delays do not decrease and stay within the two for every attempt, and are the same
powers exactly while the multiplier fits in 32 bits or the maximum is reached by then. The jitter
always succeeds, within the delay and half of it as long as its milliseconds fit in 64 bits. -/
theorem backoff_laws (policy : ActivationPolicy) (hvalid : policy.validate = .ok policy) :
    (∀ m calls, ActivationMachine.new policy = .ok m →
        (Retries.after m calls).delays.map Duration.asNanos
            = exponentialDelays policy (Retries.after m calls).delays.length
          ∧ (Retries.after m calls).delays.length < policy.maximumAttempts.toNat)
      ∧ (∀ count, (exponentialDelays policy count).Pairwise (· ≤ ·)
          ∧ ∀ delay ∈ exponentialDelays policy count,
            policy.initialBackoff.asNanos ≤ delay ∧ delay ≤ policy.maximumBackoff.asNanos)
      ∧ (∀ attempt, policy.initialBackoff.asNanos ≤ (retryDelay policy attempt).asNanos
          ∧ (retryDelay policy attempt).asNanos ≤ policy.maximumBackoff.asNanos
          ∧ ((retryDelay policy attempt).asNanos
              = min (policy.initialBackoff.asNanos * 2 ^ (attempt.toNat - 1))
                  policy.maximumBackoff.asNanos
            ↔ attempt.toNat ≤ 32
              ∨ policy.maximumBackoff.asNanos ≤ policy.initialBackoff.asNanos * (2 ^ 32 - 1)))
      ∧ (∀ a b, a ≤ b → (retryDelay policy a).asNanos ≤ (retryDelay policy b).asNanos)
      ∧ (∀ delay sample, ∃ jittered, jitterDelayFrom delay sample = some jittered
          ∧ jittered.asNanos ≤ delay.asNanos
          ∧ min delay.asMillis (2 ^ 64 - 1) / 2 * 10 ^ 6 ≤ jittered.asNanos)
      ∧ ∀ delay, (∀ sample jittered, jitterDelayFrom delay sample = some jittered →
            delay.asNanos / 2 / 10 ^ 6 * 10 ^ 6 ≤ jittered.asNanos)
          ↔ delay.asMillis < 2 ^ 64 := by
  refine ⟨fun m calls hnew => ?_, fun count => ?_, fun attempt => ?_, ?_, ?_, ?_⟩
  · have hrun : (Retries.after m calls).Sound policy := (Retries.sound_of_new hnew).run calls
    exact ⟨hrun.law, hrun.left⟩
  · exact ⟨exponentialDelays_sorted policy count, fun _ => exponentialDelays_bounds hvalid⟩
  · obtain ⟨hlow, hhigh⟩ := retryDelay_bounds hvalid attempt
    exact ⟨hlow, hhigh, retryDelay_exponential_iff hvalid attempt⟩
  · exact fun a b => retryDelay_mono hvalid
  · exact jitterDelayFrom_bounds
  · exact jitterDelayFrom_half_iff

/-- The default policy: four seconds after the third failure. -/
theorem backoff_laws_default : (retryDelay .default 3).asNanos = 4 * 10 ^ 9 := by
  have hvalid : ActivationPolicy.default.validate = .ok .default := by decide
  have hlaws := ((backoff_laws .default hvalid).2.2.1 3).2.2.mpr (Or.inl (by decide))
  rw [hlaws]
  decide

namespace Sample

/-- The shortest initial delay under the longest maximum. -/
def impatient : ActivationPolicy where
  reconcileInterval := .fromSecs 60
  initialBackoff := .fromNanos 1
  maximumBackoff := .fromSecs 300
  maximumAttempts := 8

/-- The longest duration there is, in whole seconds. -/
def aeons : Duration := .fromSecs 18446744073709551615

end Sample

open Sample in
/-- The multiplier saturates at the 33rd attempt: under an accepted policy the 34th waits 4.3 s,
where the powers of two ask for 8.6 s. The jitter of a delay of `2^64 - 1` seconds is less than its half. -/
theorem backoff_saturates :
    impatient.validate = .ok impatient
      ∧ (retryDelay impatient 34).asNanos
        ≠ min (impatient.initialBackoff.asNanos * 2 ^ 33) impatient.maximumBackoff.asNanos
      ∧ jitterDelayFrom aeons 0 = some (.fromMillis 9223372036854775807)
      ∧ (Duration.fromMillis 9223372036854775807).asNanos < aeons.asNanos / 2 / 10 ^ 6 * 10 ^ 6 := by
  refine ⟨by decide, by decide, by decide, by decide⟩

end Psst
