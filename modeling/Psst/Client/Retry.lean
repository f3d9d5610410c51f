import Psst.Client.Client
import Psst.Lib.Lts
import Psst.Lib.Transaction

/-!
# The retry loop of the client

`execute` and `execute_inner`: a call takes a permit, sends its request and looks at how the
request ended; what may be tried again is tried again after a pause, until the attempts are used
up. A deadline over the whole call can end it at any point. The loop is the same for every
endpoint; only the class of the request decides how many attempts there are.
-/

namespace Psst

/-! ## Configuration -/

structure RetryPolicy where
  /-- Total attempts, including the first request. -/
  maxAttempts : UInt8
  initialBackoff : Duration
  maxBackoff : Duration

structure ClientConfig where
  connectTimeout : Duration
  requestTimeout : Duration
  longPollMargin : Duration
  retry : RetryPolicy
  maxInFlight : Nat

/-- What `Client::new` accepts. -/
def ClientConfig.accepted (c : ClientConfig) : Bool :=
  !(decide (c.connectTimeout.asNanos = 0)
    || decide (c.requestTimeout.asNanos = 0)
    || decide (c.retry.maxAttempts = 0)
    || decide (10 < c.retry.maxAttempts)
    || decide (c.maxInFlight = 0)
    || decide (1024 < c.maxInFlight)
    || decide (c.retry.maxBackoff.asNanos < c.retry.initialBackoff.asNanos))

/-- `RetryClass` -/
inductive RetryClass where
  | never
  | safe
  | deduplicated
  deriving DecidableEq

def RetryClass.attempts (policy : RetryPolicy) : RetryClass → UInt8
  | .never => 1
  | _ => policy.maxAttempts

/-- The class each endpoint is called with. `join` and `resume` go through `execute_issued`,
which has no loop. -/
def StoreCommand.retryClass : StoreCommand → RetryClass
  | .createSquad _ | .join _ | .resume _ | .leave _ _ | .archive _ _ | .heartbeat _ _ _ _ => .never
  | .send _ _ | .acknowledge _ _ => .deduplicated
  | .listSquads | .describeSquad _ | .roster _ _ | .pending _ _ | .transcript _ _ => .safe

theorem ClientConfig.attempts_pos {c : ClientConfig} (h : c.accepted = true) (k : RetryClass) :
    0 < (k.attempts c.retry).toNat := by
  simp only [ClientConfig.accepted, Bool.not_eq_true', Bool.or_eq_false_iff,
    decide_eq_false_iff_not] at h
  have hnonzero : c.retry.maxAttempts ≠ 0 := h.1.1.1.1.2
  have hpos : 0 < c.retry.maxAttempts.toNat :=
    Nat.pos_of_ne_zero fun hzero => hnonzero (UInt8.toNat_inj.mp hzero)
  cases k with
  | never => exact Nat.one_pos
  | safe => exact hpos
  | deduplicated => exact hpos

/-! ## How a request ends -/

/-- An error of one attempt. Of a transport error the client reads whether it is a timeout, or
one of connecting, of the request or of a body. -/
structure Failure where
  error : ClientError
  flagged : Bool

/-- `transport_retryable` -/
def Failure.transportRetryable (f : Failure) : Bool :=
  decide (f.error = .timeout) || (decide (f.error = .transport) && f.flagged)

/-- How one request ended: without a response, or with a status and what `decode` made of it. -/
inductive RequestEnd (α : Type) where
  | failed (failure : Failure)
  | answered (status : Nat) (result : Except Failure α)

def retryableApi {α : Type} : Except Failure α → Bool
  | .error ⟨.api _ _ retryable, _⟩ => retryable
  | _ => false

def retryableTransport {α : Type} : Except Failure α → Bool
  | .error f => f.transportRetryable
  | .ok _ => false

/-! ## The loop -/

inductive CallPhase (α : Type) where
  /-- About to take a permit for this attempt. -/
  | ready (attempt : Nat) (backoff : Duration)
  | waiting (attempt : Nat) (backoff : Duration)
  | sleeping (attempt : Nat) (backoff : Duration)
  | returned (result : Except ClientError α)

/-- What an attempt leads to: the call returns, or sleeps before the next attempt. -/
def afterAttempt {α : Type} (attempts : UInt8) (attempt : Nat) (backoff : Duration) :
    RequestEnd α → CallPhase α
  | .answered status result =>
    let retryable := retryableApi result || retryableTransport result
    if retryable && decide (attempt = attempts.toNat) && decide (1 < attempts) then
      match result with
      | .error last => .returned (.error (.retryExhausted attempts last.error))
      | .ok value => .returned (.ok value)
    else if !retryable || decide (attempt = attempts.toNat) then
      .returned (result.mapError Failure.error)
    else if retryableApi result && !(decide (status = 429) || decide (status = 503)
        || decide (status = 500)) then
      .returned (result.mapError Failure.error)
    else .sleeping attempt backoff
  | .failed f =>
    if decide (attempt = attempts.toNat) && decide (1 < attempts) && f.transportRetryable then
      .returned (.error (.retryExhausted attempts f.error))
    else if decide (attempt = attempts.toNat) || !f.transportRetryable then
      .returned (.error f.error)
    else .sleeping attempt backoff

/-- One call: where it stands, and how many requests it has handed to the transport. -/
structure CallState (α : Type) where
  phase : CallPhase α
  issued : Nat

def CallState.start {α : Type} (policy : RetryPolicy) : CallState α where
  phase := .ready 1 policy.initialBackoff
  issued := 0

inductive CallEvent (α : Type) where
  /-- A permit is free: the request is handed to the transport. -/
  | acquire
  | busy
  | ended (ended : RequestEnd α)
  | wake
  | deadline

/-- `backoff.saturating_mul(2).min(max_backoff)` -/
def RetryPolicy.nextBackoff (policy : RetryPolicy) (backoff : Duration) : Duration where
  asNanos := min (2 * backoff.asNanos) policy.maxBackoff.asNanos
  isLt := Nat.lt_of_le_of_lt (Nat.min_le_right _ _) policy.maxBackoff.isLt

def CallState.step {α : Type} (policy : RetryPolicy) (k : RetryClass) (c : CallState α) :
    CallEvent α → Option (CallState α)
  | .acquire =>
    match c.phase with
    | .ready attempt backoff => some ⟨.waiting attempt backoff, c.issued + 1⟩
    | _ => none
  | .busy =>
    match c.phase with
    | .ready _ _ => some { c with phase := .returned (.error .clientBusy) }
    | _ => none
  | .ended ended =>
    match c.phase with
    | .waiting attempt backoff =>
      some { c with phase := afterAttempt (k.attempts policy) attempt backoff ended }
    | _ => none
  | .wake =>
    match c.phase with
    | .sleeping attempt backoff =>
      some { c with phase := .ready (attempt + 1) (policy.nextBackoff backoff) }
    | _ => none
  | .deadline =>
    match c.phase with
    | .returned _ => none
    | _ => some { c with phase := .returned (.error .timeout) }

def callLts (α : Type) (policy : RetryPolicy) (k : RetryClass) :
    Lts (CallState α) (CallEvent α) where
  init c := c = CallState.start policy
  step c event c' := c.step policy k event = some c'

/-! ## Bounds -/

section Bounds

variable {α : Type} {policy : RetryPolicy} {k : RetryClass} {c c' : CallState α}

/-- **What an attempt leads to.** A call returns a value only if its last request was answered
with it, and sleeps only if the attempt was not the last. -/
theorem afterAttempt_cases (attempts : UInt8) (attempt : Nat) (backoff : Duration)
    (ended : RequestEnd α) :
    (∃ result, afterAttempt attempts attempt backoff ended = .returned result
        ∧ ∀ value, result = .ok value → ∃ status, ended = .answered status (.ok value))
      ∨ (afterAttempt attempts attempt backoff ended = .sleeping attempt backoff
        ∧ attempt ≠ attempts.toNat) := by
  cases ended with
  | answered status result =>
      cases result with
      | ok found =>
          refine Or.inl ⟨.ok found, ?_, ?_⟩
          · simp [afterAttempt, retryableApi, retryableTransport]
          · intro value hvalue
            cases hvalue
            exact ⟨status, rfl⟩
      | error f =>
          simp only [afterAttempt]
          split
          · exact Or.inl ⟨_, rfl, fun value hvalue => by cases hvalue⟩
          split
          · exact Or.inl ⟨_, rfl, fun value hvalue => by cases hvalue⟩
          rename_i hmore
          simp only [Bool.or_eq_true, decide_eq_true_eq, not_or] at hmore
          split
          · exact Or.inl ⟨_, rfl, fun value hvalue => by cases hvalue⟩
          · exact Or.inr ⟨rfl, hmore.2⟩
  | failed f =>
      simp only [afterAttempt]
      split
      · exact Or.inl ⟨_, rfl, fun value hvalue => by cases hvalue⟩
      split
      · exact Or.inl ⟨_, rfl, fun value hvalue => by cases hvalue⟩
      rename_i hmore
      simp only [Bool.or_eq_true, decide_eq_true_eq, not_or] at hmore
      exact Or.inr ⟨rfl, hmore.1⟩

/-- How many requests a call has handed out, by where it stands. -/
def CallState.Counted (attempts : Nat) (c : CallState α) : Prop :=
  match c.phase with
  | .ready attempt _ => c.issued + 1 = attempt ∧ attempt ≤ attempts
  | .waiting attempt _ => c.issued = attempt ∧ attempt ≤ attempts
  | .sleeping attempt _ => c.issued = attempt ∧ attempt < attempts
  | .returned _ => c.issued ≤ attempts

theorem CallState.Counted.issued_le {attempts : Nat} (h : c.Counted attempts) :
    c.issued ≤ attempts := by
  unfold CallState.Counted at h
  split at h <;> omega

/-- **One step of the loop keeps the count.** -/
theorem CallState.Counted.step (h : c.Counted (k.attempts policy).toNat) {event : CallEvent α}
    (hstep : c.step policy k event = some c') : c'.Counted (k.attempts policy).toNat := by
  obtain ⟨phase, issued⟩ := c
  cases event with
  | acquire =>
      cases phase <;> cases hstep
      exact h
  | busy =>
      have hle := h.issued_le
      cases phase <;> cases hstep
      exact hle
  | ended ended =>
      cases phase with
      | waiting attempt backoff =>
          cases hstep
          obtain ⟨hissued, hattempt⟩ : issued = attempt ∧ attempt ≤ (k.attempts policy).toNat := h
          rcases afterAttempt_cases (k.attempts policy) attempt backoff ended with
            ⟨result, hafter, -⟩ | ⟨hafter, hne⟩
          · rw [hafter]
            exact hissued.trans_le hattempt
          · rw [hafter]
            exact ⟨hissued, by omega⟩
      | ready _ _ => cases hstep
      | sleeping _ _ => cases hstep
      | returned _ => cases hstep
  | wake =>
      cases phase with
      | sleeping attempt backoff =>
          cases hstep
          obtain ⟨hissued, hattempt⟩ : issued = attempt ∧ attempt < (k.attempts policy).toNat := h
          exact ⟨by simp [hissued], hattempt⟩
      | ready _ _ => cases hstep
      | waiting _ _ => cases hstep
      | returned _ => cases hstep
  | deadline =>
      have hle := h.issued_le
      cases phase <;> cases hstep <;> exact hle

theorem reach_counted {config : ClientConfig} (haccepted : config.accepted = true)
    (h : (callLts α config.retry k).Reach Lts.always c) :
    c.Counted (k.attempts config.retry).toNat := by
  refine h.invariant (P := CallState.Counted (k.attempts config.retry).toNat) ?_ ?_
  · rintro c rfl
    exact ⟨rfl, ClientConfig.attempts_pos haccepted k⟩
  · intro c event c' hc _ hstep
    exact hc.step hstep

end Bounds

end Psst
