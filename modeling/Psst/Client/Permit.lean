import Psst.Client.Retry
import Psst.Protocol.Message

/-!
# What a busy error says

`send_prepared` and `acknowledge` from the check of the request to the result, for any answers of
the transport, any permits and any deadline. A permit is taken for each attempt anew, so a retry
can be refused one after an earlier attempt went out; the call then ends `ClientBusy`, which says
that nothing was sent.
-/

namespace Psst

/-! ## What an attempt meets -/

/-- How the bytes of a body arrive, and what they parse as: the response the endpoint expects, or
an error envelope. -/
inductive BodyRead (α : Type) where
  | complete (value : Option α) (envelope : Option ErrorBody)
  /-- More than `MAX_RESPONSE_BYTES`, announced or received. -/
  | tooLarge
  /-- The connection failed. -/
  | broken (flagged : Bool)

structure Received (α : Type) where
  status : Nat
  json : Bool
  body : BodyRead α

/-- What `send()` comes back with. -/
inductive Transmission (α : Type) where
  | failed (flagged : Bool)
  | answered (received : Received α)

/-- Where the deadline of the whole call can pass. -/
inductive Await where
  | request
  | pause
  deriving DecidableEq

structure Attempt (α : Type) where
  permit : Bool
  sent : Transmission α
  deadline : Option Await

/-- `decode`: the status, the content type, the size and last the body. -/
def Received.decode {α : Type} (validate : α → Bool) (r : Received α) : Except Failure α :=
  if r.status = 408 then .error ⟨.timeout, false⟩
  else if !r.json then .error ⟨.unexpectedHttp r.status, false⟩
  else
    match r.body with
    | .tooLarge => .error ⟨.responseTooLarge, false⟩
    | .broken flagged => .error ⟨.transport, flagged⟩
    | .complete value envelope =>
      if 200 ≤ r.status ∧ r.status < 300 then
        if r.status ≠ 200 then .error ⟨.unexpectedHttp r.status, false⟩
        else
          match value with
          | none => .error ⟨.malformedResponse r.status, false⟩
          | some value =>
            if validate value then .ok value else .error ⟨.malformedResponse 200, false⟩
      else
        match envelope with
        | none => .error ⟨.unexpectedHttp r.status, false⟩
        | some body =>
          if !body.validate then .error ⟨.unexpectedHttp r.status, false⟩
          else if body.code.httpStatus ≠ r.status then .error ⟨.unexpectedHttp r.status, false⟩
          else .error ⟨.api r.status body.code body.retryable, false⟩

def Transmission.ended {α : Type} (validate : α → Bool) : Transmission α → RequestEnd α
  | .failed flagged => .failed ⟨.transport, flagged⟩
  | .answered received => .answered received.status (received.decode validate)

/-! ## The call -/

/-- How a call ends, and how many requests it has handed to the transport; no result is the
`unreachable!` after the loop. -/
structure CallOutput (α : Type) where
  result : Option (Except ClientError α)
  issued : Nat

section Call

variable {α : Type}

/-- The loop of `execute_inner` under the deadline of `execute`, with `left` attempts to go.
`joins` says that the path joins the base URL, which every attempt does anew. -/
def executeFrom (policy : RetryPolicy) (attempts : UInt8) (joins : Bool) (validate : α → Bool)
    (moments : Nat → Attempt α) : Nat → Nat → Duration → Nat → CallOutput α
  | 0, _, _, issued => ⟨none, issued⟩
  | left + 1, attempt, backoff, issued =>
    let moment := moments attempt
    if !moment.permit then ⟨some (.error .clientBusy), issued⟩
    else
      -- without a URL `request` returns before `send`
      let handed := if joins then issued + 1 else issued
      let ended := if joins then moment.sent.ended validate else .failed ⟨.invalidBaseUrl, false⟩
      if joins && decide (moment.deadline = some .request) then ⟨some (.error .timeout), handed⟩
      else
        match afterAttempt attempts attempt backoff ended with
        | .returned result => ⟨some result, handed⟩
        | _ =>
          if moment.deadline = some .pause then ⟨some (.error .timeout), handed⟩
          else
            executeFrom policy attempts joins validate moments left (attempt + 1)
              (policy.nextBackoff backoff) handed

/-- A call of class `Deduplicated` on a request that is `valid` or not. -/
def executeDeduplicated (policy : RetryPolicy) (joins valid : Bool) (validate : α → Bool)
    (moments : Nat → Attempt α) : CallOutput α :=
  if !valid then ⟨some (.error .invalidRequest), 0⟩
  else
    let attempts := RetryClass.deduplicated.attempts policy
    executeFrom policy attempts joins validate moments attempts.toNat 1 policy.initialBackoff 0

end Call

namespace Client

/-- `Client::send_prepared`; `joins` is `Url::join` on the base, `valid` the check of the
request. -/
def sendPrepared (config : ClientConfig) (joins : String → Bool) (valid : Bool)
    (moments : Nat → Attempt SendMessageResponse) : CallOutput SendMessageResponse :=
  executeDeduplicated config.retry (joins "v1/messages") valid
    (fun response => response.message.validate) moments

/-- `Client::acknowledge` -/
def acknowledge (config : ClientConfig) (joins : String → Bool) (valid : Bool)
    (moments : Nat → Attempt AckMessagesResponse) : CallOutput AckMessagesResponse :=
  executeDeduplicated config.retry (joins "v1/messages/ack") valid AckMessagesResponse.validate
    moments

end Client

/-! ## What an error says -/

/-- The errors a caller takes for a refusal before anything was sent. -/
def ClientError.saysUnsent : ClientError → Bool
  | .clientBusy | .invalidRequest | .invalidBaseUrl => true
  | _ => false

/-- The errors that leave the outcome of an issued request open, or report the relay's answer to
the last one. -/
def ClientError.Reports {α : Type} (e : ClientError) (last : RequestEnd α) : Prop :=
  match e with
  | .timeout | .transport | .retryExhausted _ _ => True
  | .malformedResponse _ | .unexpectedHttp _ | .responseTooLarge => True
  | .api _ _ _ => ∃ status flagged, last = .answered status (.error ⟨e, flagged⟩)
  | _ => False

/-- What an error of a call is taken to say. -/
structure CallOutput.Honest {α : Type} (o : CallOutput α) (ended : Nat → RequestEnd α) : Prop where
  unsent : ∀ e, o.result = some (.error e) → e.saysUnsent = true → o.issued = 0
  reports : ∀ e, o.result = some (.error e) → 1 ≤ o.issued → e.Reports (ended o.issued)

/-! ## When an attempt is followed by another -/

/-- The attempt is not the last and ended in a way that is tried again. -/
def retriedAfter {α : Type} (attempts : UInt8) (attempt : Nat) (ended : RequestEnd α) : Bool :=
  decide (attempt ≠ attempts.toNat) &&
    match ended with
    | .failed f => f.transportRetryable
    | .answered status result =>
      (retryableApi result || retryableTransport result)
        && !(retryableApi result && !(decide (status = 429) || decide (status = 503)
          || decide (status = 500)))

section Permit

variable {α : Type} {policy : RetryPolicy} {attempts : UInt8} {joins valid : Bool}
  {validate : α → Bool} {moments : Nat → Attempt α}

/-- The error a request ended with. -/
def RequestEnd.failure : RequestEnd α → Option Failure
  | .failed f => some f
  | .answered _ (.error f) => some f
  | .answered _ (.ok _) => none

/-- **The errors of one request** are those of the transport and of `decode`. -/
theorem Transmission.failure_reports {sent : Transmission α} {f : Failure}
    (h : (sent.ended validate).failure = some f) :
    f.error.saysUnsent = false ∧ f.error.Reports (sent.ended validate) := by
  cases sent with
  | failed flagged =>
      cases h
      exact ⟨rfl, trivial⟩
  | answered received =>
      show _ ∧ f.error.Reports (.answered received.status (received.decode validate))
      have hdecode : received.decode validate = .error f := by
        simp only [Transmission.ended, RequestEnd.failure] at h
        cases hresult : received.decode validate with
        | ok value => rw [hresult] at h; cases h
        | error g => rw [hresult] at h; cases h; rfl
      rw [hdecode]
      unfold Received.decode at hdecode
      -- every check of `decode` has an error of its own, and only the last is the relay's
      repeat' split at hdecode
      all_goals cases hdecode
      all_goals first | exact ⟨rfl, trivial⟩ | exact ⟨rfl, _, _, rfl⟩

/-- **An attempt is retried or its end is the result**, possibly as the last of several. -/
theorem afterAttempt_retried (attempts : UInt8) (attempt : Nat) (backoff : Duration) (ended : RequestEnd α) :
    (retriedAfter attempts attempt ended = true
        ∧ afterAttempt attempts attempt backoff ended = .sleeping attempt backoff)
      ∨ (retriedAfter attempts attempt ended = false
        ∧ ∃ result, afterAttempt attempts attempt backoff ended = .returned result
          ∧ ∀ e, result = .error e → ∃ f, ended.failure = some f
              ∧ (e = f.error ∨ e = .retryExhausted attempts f.error)) := by
  cases ended with
  | failed f =>
      by_cases hlast : attempt = attempts.toNat
      · refine Or.inr ⟨by simp [retriedAfter, hlast], ?_⟩
        by_cases hexhausted : (decide (1 < attempts) && f.transportRetryable) = true
        · refine ⟨.error (.retryExhausted attempts f.error), ?_, ?_⟩
          · simp [afterAttempt, hlast, hexhausted]
          · rintro _ ⟨⟩
            exact ⟨f, rfl, Or.inr rfl⟩
        · refine ⟨.error f.error, ?_, ?_⟩
          · simp [afterAttempt, hlast, hexhausted]
          · rintro _ ⟨⟩
            exact ⟨f, rfl, Or.inl rfl⟩
      · cases hretry : f.transportRetryable with
        | true => exact Or.inl ⟨by simp [retriedAfter, hlast, hretry],
            by simp [afterAttempt, hlast, hretry]⟩
        | false =>
            refine Or.inr ⟨by simp [retriedAfter, hretry], .error f.error,
              by simp [afterAttempt, hretry], ?_⟩
            rintro _ ⟨⟩
            exact ⟨f, rfl, Or.inl rfl⟩
  | answered status result =>
      cases result with
      | ok value =>
          refine Or.inr ⟨by simp [retriedAfter, retryableTransport, retryableApi], .ok value, ?_,
            fun e he => by cases he⟩
          simp [afterAttempt, retryableTransport, retryableApi]
      | error f =>
          have hreturned : ∀ e, e = f.error ∨ e = .retryExhausted attempts f.error →
              ∀ e', (.error e : Except ClientError α) = .error e' →
                ∃ g, (RequestEnd.answered status (.error f) : RequestEnd α).failure = some g
                  ∧ (e' = g.error ∨ e' = .retryExhausted attempts g.error) := by
            rintro e he _ ⟨⟩
            exact ⟨f, rfl, he⟩
          cases hretry : retryableApi (.error f : Except Failure α)
              || retryableTransport (.error f : Except Failure α) with
          | false =>
              have hparts := Bool.or_eq_false_iff.mp hretry
              refine Or.inr ⟨by simp [retriedAfter, hparts.1, hparts.2], .error f.error, ?_,
                hreturned _ (Or.inl rfl)⟩
              simp [afterAttempt, hparts.1, hparts.2]
          | true =>
              by_cases hlast : attempt = attempts.toNat
              · refine Or.inr ⟨by simp [retriedAfter, hlast], ?_⟩
                by_cases hmany : 1 < attempts
                · refine ⟨.error (.retryExhausted attempts f.error), ?_,
                    hreturned _ (Or.inr rfl)⟩
                  simp [afterAttempt, hretry, hlast, hmany]
                · refine ⟨.error f.error, ?_, hreturned _ (Or.inl rfl)⟩
                  simp [afterAttempt, hretry, hlast, hmany]
              · -- an API error is retried at three statuses only
                cases hreturn : retryableApi (.error f : Except Failure α)
                    && !(decide (status = 429) || decide (status = 503)
                      || decide (status = 500)) with
                | true =>
                    refine Or.inr ⟨?_, .error f.error, ?_, hreturned _ (Or.inl rfl)⟩
                    · simp only [retriedAfter, hretry, hreturn, Bool.not_true, Bool.and_false]
                    · simp only [afterAttempt, hretry, hreturn, hlast, decide_false, Bool.and_false,
                        Bool.false_and, Bool.not_true, Bool.or_false, Bool.false_eq_true, if_false,
                        if_true]
                      rfl
                | false =>
                    refine Or.inl ⟨?_, ?_⟩
                    · rw [retriedAfter, decide_eq_true hlast]
                      simp only [hretry, hreturn, Bool.not_false, Bool.and_true]
                    · simp only [afterAttempt, hretry, hreturn, hlast, decide_false, Bool.and_false,
                        Bool.false_and, Bool.not_true, Bool.or_false, Bool.false_eq_true, if_false]

/-! ## The loop -/

/-- Attempt `n` goes out and is followed by another. -/
structure Retried (attempts : UInt8) (joins : Bool) (validate : α → Bool)
    (moments : Nat → Attempt α) (n : Nat) : Prop where
  permit : (moments n).permit = true
  joins : joins = true
  inTime : (moments n).deadline = none
  retried : retriedAfter attempts n ((moments n).sent.ended validate) = true

/-- How a call with attempt `n` as its last ends. -/
inductive EndsAt (joins : Bool) (validate : α → Bool) (moments : Nat → Attempt α) (n : Nat) :
    CallOutput α → Prop where
  | busy (permit : (moments n).permit = false) :
      EndsAt joins validate moments n ⟨some (.error .clientBusy), n - 1⟩
  | unjoined (permit : (moments n).permit = true) (unjoined : joins = false) :
      EndsAt joins validate moments n ⟨some (.error .invalidBaseUrl), n - 1⟩
  | issued (permit : (moments n).permit = true) (result : Except ClientError α)
      (error : ∀ e, result = .error e → e.saysUnsent = false
        ∧ e.Reports ((moments n).sent.ended validate)) :
      EndsAt joins validate moments n ⟨some result, n⟩

variable (policy attempts joins validate moments) in
/-- **The loop ends at the first attempt that is not retried.** -/
theorem executeFrom_endsAt (left attempt issued : Nat) (backoff : Duration)
    (hleft : 1 ≤ left) (hcount : attempt + left = attempts.toNat + 1)
    (hissued : issued + 1 = attempt) :
    ∃ n, attempt ≤ n ∧ (∀ j, attempt ≤ j → j < n → Retried attempts joins validate moments j)
      ∧ ¬ Retried attempts joins validate moments n
      ∧ EndsAt joins validate moments n
          (executeFrom policy attempts joins validate moments left attempt backoff issued) := by
  induction left generalizing attempt issued backoff with
  | zero => omega
  | succ left ih =>
      -- an end at this very attempt
      have hhere : ∀ o, ¬ Retried attempts joins validate moments attempt →
          EndsAt joins validate moments attempt o → ∃ n, attempt ≤ n
            ∧ (∀ j, attempt ≤ j → j < n → Retried attempts joins validate moments j)
            ∧ ¬ Retried attempts joins validate moments n ∧ EndsAt joins validate moments n o :=
        fun o hnot hends => ⟨attempt, le_refl _, fun j hj hlt => absurd hlt (by omega), hnot, hends⟩
      have hlast : issued = attempt - 1 := by omega
      rw [executeFrom]
      cases hpermit : (moments attempt).permit with
      | false =>
          refine hhere _ (fun h => ?_) (hlast ▸ .busy hpermit)
          cases hpermit.symm.trans h.permit
      | true =>
          cases joins with
          | false =>
              have hfailed : afterAttempt attempts attempt backoff
                  (.failed ⟨.invalidBaseUrl, false⟩ : RequestEnd α)
                    = .returned (.error .invalidBaseUrl) := by
                simp [afterAttempt, Failure.transportRetryable]
              simp only [Bool.not_true, Bool.false_and, Bool.false_eq_true, if_false, hfailed]
              refine hhere _ (fun h => ?_) (hlast ▸ .unjoined hpermit rfl)
              cases h.joins
          | true =>
              simp only [Bool.not_true, Bool.false_eq_true, if_false, if_true, Bool.true_and,
                decide_eq_true_eq]
              have hsuccessor : attempt = issued + 1 := hissued.symm
              by_cases hrequest : (moments attempt).deadline = some .request
              · rw [if_pos hrequest, hissued]
                refine hhere _ (fun h => ?_) (.issued hpermit _ ?_)
                · cases hrequest.symm.trans h.inTime
                · rintro _ ⟨⟩
                  exact ⟨rfl, trivial⟩
              · rw [if_neg hrequest]
                rcases afterAttempt_retried attempts attempt backoff ((moments attempt).sent.ended validate)
                  with ⟨hretried, hafter⟩ | ⟨hretried, result, hafter, herror⟩
                · simp only [hafter]
                  by_cases hpause : (moments attempt).deadline = some .pause
                  · rw [if_pos hpause, hissued]
                    refine hhere _ (fun h => ?_) (.issued hpermit _ ?_)
                    · cases hpause.symm.trans h.inTime
                    · rintro _ ⟨⟩
                      exact ⟨rfl, trivial⟩
                  · rw [if_neg hpause]
                    have hintime : (moments attempt).deadline = none := by
                      cases hdeadline : (moments attempt).deadline with
                      | none => rfl
                      | some await => cases await <;> contradiction
                    have hthis : Retried attempts true validate moments attempt :=
                      ⟨hpermit, rfl, hintime, hretried⟩
                    -- the attempt was not the last, so there is one more
                    have hmore : attempt ≠ attempts.toNat := by
                      have := hretried
                      simp only [retriedAfter, Bool.and_eq_true, decide_eq_true_eq] at this
                      exact this.1
                    obtain ⟨n, hn, hbefore, hends⟩ := ih (attempt + 1) (issued + 1)
                      (policy.nextBackoff backoff) (by omega) (by omega) (by omega)
                    refine ⟨n, by omega, fun j hj hlt => ?_, hends⟩
                    by_cases hfirst : j = attempt
                    · rw [hfirst]
                      exact hthis
                    · exact hbefore j (by omega) hlt
                · simp only [hafter]
                  rw [hissued]
                  refine hhere _ (fun h => ?_) (.issued hpermit _ ?_)
                  · cases hretried.symm.trans h.retried
                  · intro e he
                    obtain ⟨f, hf, rfl | rfl⟩ := herror e he
                    · exact Transmission.failure_reports hf
                    · exact ⟨rfl, trivial⟩

/-- **The loop is a run of the retry system**, which sees permits, answers and the deadline as
events. -/
theorem executeFrom_steps {k : RetryClass} {left attempt issued : Nat} {backoff : Duration}
    {result : Except ClientError α}
    (h : (executeFrom policy (k.attempts policy) true validate moments left attempt backoff
      issued).result = some result) :
    (callLts α policy k).Steps Lts.always ⟨.ready attempt backoff, issued⟩
      ⟨.returned result, (executeFrom policy (k.attempts policy) true validate moments left attempt
        backoff issued).issued⟩ := by
  induction left generalizing attempt issued backoff with
  | zero => cases h
  | succ left ih =>
      have hone : ∀ {c c' : CallState α} (event : CallEvent α),
          c.step policy k event = some c' → (callLts α policy k).Steps Lts.always c c' :=
        fun event hstep => (Lts.Steps.refl _).tail (l := event) trivial hstep
      rw [executeFrom] at h ⊢
      cases hpermit : (moments attempt).permit with
      | false =>
          simp only [hpermit, Bool.not_false, if_true] at h ⊢
          cases h
          exact hone .busy rfl
      | true =>
          simp only [hpermit, Bool.not_true, Bool.false_eq_true, if_false, if_true, Bool.true_and,
            decide_eq_true_eq] at h ⊢
          have hacquire : (callLts α policy k).Steps Lts.always ⟨.ready attempt backoff, issued⟩
              ⟨.waiting attempt backoff, issued + 1⟩ := hone .acquire rfl
          refine hacquire.trans ?_
          by_cases hrequest : (moments attempt).deadline = some .request
          · rw [if_pos hrequest] at h ⊢
            cases h
            exact hone .deadline rfl
          · rw [if_neg hrequest] at h ⊢
            have hended := hone (c := ⟨.waiting attempt backoff, issued + 1⟩)
              (.ended ((moments attempt).sent.ended validate)) rfl
            refine hended.trans ?_
            rcases afterAttempt_retried (k.attempts policy) attempt backoff
              ((moments attempt).sent.ended validate) with ⟨-, hafter⟩ | ⟨-, r, hafter, -⟩
            · simp only [hafter] at h ⊢
              by_cases hpause : (moments attempt).deadline = some .pause
              · rw [if_pos hpause] at h ⊢
                cases h
                exact hone .deadline rfl
              · rw [if_neg hpause] at h ⊢
                exact (hone .wake rfl).trans (ih h)
            · simp only [hafter] at h ⊢
              cases h
              exact .refl _

/-! ## Busy calls -/

/-- Every attempt that follows one that went out finds a permit. -/
def PermitsHeld (attempts : UInt8) (joins : Bool) (validate : α → Bool)
    (moments : Nat → Attempt α) : Prop :=
  ∀ n, 1 ≤ n → (∀ j, 1 ≤ j → j ≤ n → Retried attempts joins validate moments j) →
    (moments (n + 1)).permit = true

/-- **A call is honest exactly when no retry is refused a permit.** -/
theorem executeDeduplicated_honest_iff {config : ClientConfig} (haccepted : config.accepted = true) :
    (executeDeduplicated config.retry joins valid validate moments).Honest
        (fun n => (moments n).sent.ended validate)
      ↔ (valid = true →
          PermitsHeld (RetryClass.deduplicated.attempts config.retry) joins validate moments) := by
  cases valid with
  | false =>
      refine iff_of_true ⟨fun _ _ _ => rfl, ?_⟩ nofun
      intro e _ hissued
      cases hissued
  | true =>
      have hpos := ClientConfig.attempts_pos haccepted .deduplicated
      obtain ⟨n, hn, hbefore, hnot, hends⟩ := executeFrom_endsAt config.retry
        (RetryClass.deduplicated.attempts config.retry) joins validate moments
        (RetryClass.deduplicated.attempts config.retry).toNat 1 0 config.retry.initialBackoff
        hpos (by omega) rfl
      rw [executeDeduplicated, if_neg (by simp)]
      generalize executeFrom config.retry (RetryClass.deduplicated.attempts config.retry) joins
        validate moments (RetryClass.deduplicated.attempts config.retry).toNat 1
        config.retry.initialBackoff 0 = output at hends
      constructor
      · intro hhonest _ k hk hretried
        -- the call ends after the attempts that were retried
        have hlt : k < n := by
          by_contra hle
          exact hnot (hretried n hn (by omega))
        by_cases hnext : n = k + 1
        · rw [← hnext]
          cases hends with
          | busy hpermit =>
              have hnone : n - 1 = 0 := hhonest.unsent .clientBusy rfl rfl
              omega
          | unjoined hpermit _ => exact hpermit
          | issued hpermit _ _ => exact hpermit
        · exact (hbefore (k + 1) (by omega) (by omega)).permit
      · intro hheld
        cases hends with
        | busy hpermit =>
            have hfirst : n = 1 := by
              by_contra hne
              have hfree := hheld rfl (n - 1) (by omega) fun j hj hle => hbefore j hj (by omega)
              rw [Nat.sub_add_cancel hn, hpermit] at hfree
              cases hfree
            subst hfirst
            exact ⟨fun _ _ _ => rfl, fun _ _ hissued => absurd hissued (by simp)⟩
        | unjoined hpermit hjoins =>
            have hfirst : n = 1 := by
              by_contra hne
              cases hjoins.symm.trans (hbefore 1 (le_refl _) (by omega)).joins
            subst hfirst
            exact ⟨fun _ _ _ => rfl, fun _ _ hissued => absurd hissued (by simp)⟩
        | issued hpermit result herror =>
            refine ⟨fun e he hunsent => ?_, fun e he _ => ?_⟩
            · cases (herror e (Option.some.inj he)).1.symm.trans hunsent
            · exact (herror e (Option.some.inj he)).2

/-- **When a busy error means that nothing was sent.** For every configuration the client accepts
and all permits, answers and deadlines: an error of `send_prepared` or `acknowledge` that says
nothing was sent says so truly, and every error after a request went out reports the open outcome
or the relay's last answer, exactly when each attempt that follows one that went out finds a
permit. -/
theorem busy_means_unsent_iff {config : ClientConfig} (haccepted : config.accepted = true)
    (joins : String → Bool) (valid : Bool) (sends : Nat → Attempt SendMessageResponse)
    (acks : Nat → Attempt AckMessagesResponse) :
    ((Client.sendPrepared config joins valid sends).Honest
        (fun n => (sends n).sent.ended fun response => response.message.validate)
      ↔ (valid = true → PermitsHeld (RetryClass.deduplicated.attempts config.retry)
          (joins "v1/messages") (fun response => response.message.validate) sends))
    ∧ ((Client.acknowledge config joins valid acks).Honest
        (fun n => (acks n).sent.ended AckMessagesResponse.validate)
      ↔ (valid = true → PermitsHeld (RetryClass.deduplicated.attempts config.retry)
          (joins "v1/messages/ack") AckMessagesResponse.validate acks)) :=
  ⟨executeDeduplicated_honest_iff haccepted, executeDeduplicated_honest_iff haccepted⟩

end Permit

namespace Sample

/-- Three attempts, ten calls at a time. -/
def threeAttempts : ClientConfig where
  connectTimeout := .fromSecs 1
  requestTimeout := .fromSecs 10
  longPollMargin := .fromSecs 5
  retry := ⟨3, .fromNanos 50000000, .fromNanos 500000000⟩
  maxInFlight := 10

/-- The connection breaks after the request went out; then every permit is taken. -/
def brokenThenBusy (n : Nat) : Attempt SendMessageResponse :=
  ⟨decide (n = 1), .failed true, none⟩

/-- The connection breaks three times, and a permit is free each time. -/
def brokenThrice (_ : Nat) : Attempt SendMessageResponse := ⟨true, .failed true, none⟩

end Sample

open Sample in
/-- A send that found a permit for each of its attempts. -/
theorem busy_means_unsent_iff_brokenThrice :
    (Client.sendPrepared threeAttempts (fun _ => true) true brokenThrice).Honest
      (fun n => (brokenThrice n).sent.ended fun response => response.message.validate) :=
  (@busy_means_unsent_iff threeAttempts (by decide) (fun _ => true) true brokenThrice
    fun _ => ⟨true, .failed true, none⟩).1.mpr fun _ _ _ _ => rfl

open Sample in
/-- **A busy error after a request went out.** -/
theorem busy_hides_sent_request :
    threeAttempts.accepted = true
      ∧ (Client.sendPrepared threeAttempts (fun _ => true) true brokenThenBusy).result
          = some (.error .clientBusy)
      ∧ (Client.sendPrepared threeAttempts (fun _ => true) true brokenThenBusy).issued = 1
      ∧ ¬ (Client.sendPrepared threeAttempts (fun _ => true) true brokenThenBusy).Honest
          (fun n => (brokenThenBusy n).sent.ended fun response => response.message.validate) := by
  have hresult : (Client.sendPrepared threeAttempts (fun _ => true) true brokenThenBusy).result
      = some (.error .clientBusy) := by rfl
  have hissued : (Client.sendPrepared threeAttempts (fun _ => true) true brokenThenBusy).issued
      = 1 := by rfl
  refine ⟨by decide, hresult, hissued, fun hhonest => ?_⟩
  cases hissued.symm.trans (hhonest.unsent _ hresult rfl)

end Psst
