import Psst.Relay.Calendar
import Psst.Relay.Schedule

/-!
# Definite errors of session-issuing calls

Clients join and resume over a network that may lose either direction, against the relay's
worker, its request deadline and its dispatch timer. An API error promises that the command
has no effect, now or later. The dispatch timer breaks the promise: its `Timeout` is reported
as `database_busy`, like a refusal, while the command stays in the queue. So does a clock past
the calendar, whose responses fail after the commit. Nothing else does.
-/

namespace Psst

/-- A relay with its clients, and what each session-issuing call has returned. -/
structure Exchange where
  relay : Relay
  outcomes : List (Nat × Except ClientError Session)

/-- An action of the relay, or a client call that returns: with the relay's answer, or
without one. -/
inductive ExchangeStep where
  | relay (step : RelayStep)
  | receive (call : Nat)
  | lose (call : Nat) (timedOut : Bool)

namespace Exchange

/-- The call issues a session and its client is still waiting. -/
def waiting (x : Exchange) (i : Nat) (c : Call) : Bool :=
  c.command.issues && x.outcomes.all fun o => decide (o.1 ≠ i)

variable [Sha256]

def step (x : Exchange) : ExchangeStep → Option Exchange
  | .relay l => (x.relay.step l).map fun r => { x with relay := r }
  | .receive i => do
    let c ← x.relay.calls[i]?
    let response ← c.response
    if x.waiting i c then
      some { x with outcomes := x.outcomes ++ [(i, Client.issued (.response response))] }
    else none
  | .lose i timedOut => do
    let c ← x.relay.calls[i]?
    if x.waiting i c then
      let arrival := if timedOut then Arrival.timeout else .transport
      some { x with outcomes := x.outcomes ++ [(i, Client.issued arrival)] }
    else none

end Exchange

/-- An empty relay and no calls. -/
def Exchange.fresh (capacity : Nat) : Exchange := ⟨Relay.fresh capacity, []⟩

def exchangeLts [Sha256] : Lts Exchange ExchangeStep :=
  .ofStep (fun x => ∃ capacity, x = Exchange.fresh capacity) Exchange.step

/-! ## The condition -/

/-- The dispatch timer of no session-issuing call fires before its reply, and the clock stays
inside the calendar. -/
def Prompt (x : Exchange) : ExchangeStep → Prop
  | .relay l =>
    (∀ i ∈ l.expired, ∀ c ∈ x.relay.calls[i]?, c.command.issues = false)
      ∧ ∀ now ∈ l.clock, now.InCalendar
  | .receive _ | .lose _ _ => True

instance (x : Exchange) (l : ExchangeStep) : Decidable (Prompt x l) :=
  match l with
  | .relay _ => inferInstanceAs (Decidable (_ ∧ _))
  | .receive _ | .lose _ _ => inferInstanceAs (Decidable True)

/-! ## What an outcome says -/

/-- An outcome is `OutcomeUnknown`, or what the client makes of an answer that stays. -/
def Exchange.Explains (x : Exchange) (i : Nat) (outcome : Except ClientError Session) : Prop :=
  outcome = .error .outcomeUnknown
    ∨ ∃ c response, x.relay.calls[i]? = some c ∧ c.command.issues = true
        ∧ c.response = some response ∧ outcome = Client.issued (.response response)

structure Exchange.Sound [Sha256] (x : Exchange) : Prop where
  relay : x.relay.Sound
  timely : x.relay.Timely
  prompt : ∀ (i : Nat) (c : Call), x.relay.calls[i]? = some c → c.command.issues = true →
    c.stage ≠ .returned (.error .timeout)
  outcomes : ∀ i outcome, (i, outcome) ∈ x.outcomes → x.Explains i outcome

/-- A handler that has answered is through. -/
theorem Call.final_of_response {c : Call} {response : HttpResponse}
    (h : c.response = some response) : c.stage.final = true := by
  cases hstage : c.stage with
  | inFlight => simp [Call.response, hstage] at h
  | admitted => simp [Call.response, hstage] at h
  | awaiting => simp [Call.response, hstage] at h
  | rejected _ => rfl
  | returned _ => rfl
  | timedOut => rfl
  | dropped => rfl

section Exchange

variable [Sha256] {x y : Exchange}

/-- An answer stays what it is, so the outcomes it explains stay explained. -/
theorem Exchange.Explains.relay {i : Nat} {outcome : Except ClientError Session} {l : RelayStep}
    {r : Relay} (h : x.Explains i outcome) (hstep : x.relay.step l = some r) :
    Exchange.Explains { x with relay := r } i outcome := by
  rcases h with h | ⟨c, response, hc, hissues, hresponse, hout⟩
  · exact Or.inl h
  · obtain ⟨c', hc', hmoves⟩ := Relay.step_call hstep hc
    have hstage : c'.stage = c.stage := by
      rcases hmoves.stage with hstage | ⟨hwork, -⟩
      · exact hstage
      · rw [Call.final_of_response hresponse] at hwork
        cases hwork
    refine Or.inr ⟨c', response, hc', hmoves.command ▸ hissues, ?_, hout⟩
    rw [← hresponse]
    unfold Call.response
    rw [hstage, hmoves.command]

theorem Exchange.step_receive {i : Nat} (h : x.step (.receive i) = some y) :
    ∃ c response, x.relay.calls[i]? = some c ∧ c.response = some response
      ∧ c.command.issues = true
      ∧ y = { x with outcomes := x.outcomes ++ [(i, Client.issued (.response response))] } := by
  simp only [Exchange.step, Option.bind_eq_bind, Option.bind_eq_some_iff,
    Option.ite_none_right_eq_some, Option.some.injEq, Exchange.waiting, Bool.and_eq_true] at h
  obtain ⟨c, hc, response, hresponse, ⟨hissues, -⟩, rfl⟩ := h
  exact ⟨c, response, hc, hresponse, hissues, rfl⟩

theorem Exchange.step_lose {i : Nat} {timedOut : Bool} (h : x.step (.lose i timedOut) = some y) :
    y = { x with outcomes := x.outcomes ++ [(i, .error .outcomeUnknown)] } := by
  simp only [Exchange.step, Option.bind_eq_bind, Option.bind_eq_some_iff,
    Option.ite_none_right_eq_some, Option.some.injEq] at h
  obtain ⟨c, -, -, rfl⟩ := h
  cases timedOut <;> rfl

theorem Exchange.Sound.step (hx : x.Sound) {l : ExchangeStep} (hl : Prompt x l)
    (h : x.step l = some y) : y.Sound := by
  cases l with
  | relay l =>
      obtain ⟨r, hr, rfl⟩ := Option.map_eq_some_iff.mp h
      refine ⟨hx.relay.step hr, hx.timely.step hx.relay hl.2 hr, ?_,
        fun i o ho => (hx.outcomes i o ho).relay hr⟩
      intro i c' hc' hissues htimeout
      rcases Relay.step_call_inv hr hc' with ⟨c, hc, hmoves⟩ | ⟨-, -, -, hstage, -⟩
      · rcases hmoves.stage with hstage | ⟨-, hexpire⟩
        · exact hx.prompt i c hc (hmoves.command ▸ hissues) (hstage ▸ htimeout)
        · -- only the timer brings a timeout, and it did not fire on this call
          rw [htimeout] at hexpire
          cases hexpire
          have hother := hl.1 i rfl c hc
          rw [← hmoves.command, hissues] at hother
          cases hother
      · rw [hstage] at htimeout
        cases htimeout
  | receive i =>
      obtain ⟨c, response, hc, hresponse, hissues, rfl⟩ := Exchange.step_receive h
      refine ⟨hx.relay, hx.timely, hx.prompt, fun j o ho => ?_⟩
      rcases List.mem_append.mp ho with ho | ho
      · exact hx.outcomes j o ho
      · cases List.mem_singleton.mp ho
        exact Or.inr ⟨c, response, hc, hissues, hresponse, rfl⟩
  | lose i timedOut =>
      obtain rfl := Exchange.step_lose h
      refine ⟨hx.relay, hx.timely, hx.prompt, fun j o ho => ?_⟩
      rcases List.mem_append.mp ho with ho | ho
      · exact hx.outcomes j o ho
      · cases List.mem_singleton.mp ho
        exact Or.inl rfl

theorem reach_exchange_sound (h : exchangeLts.Reach Prompt x) : x.Sound := by
  refine h.invariant ?_ fun _ _ _ hx hl hstep => hx.step hl hstep
  rintro _ ⟨capacity, rfl⟩
  exact ⟨Relay.fresh_sound capacity,
    ⟨fun q hq => absurd hq List.not_mem_nil, fun e he => absurd he List.not_mem_nil⟩,
    (fun i c hc => by cases hc), fun i o ho => absurd ho List.not_mem_nil⟩

/-- Outcomes are never taken back. -/
theorem steps_outcomes {ok : Exchange → ExchangeStep → Prop} (h : exchangeLts.Steps ok x y)
    {o : Nat × Except ClientError Session} (ho : o ∈ x.outcomes) : o ∈ y.outcomes := by
  refine h.keeps (P := fun z => o ∈ z.outcomes) ?_ ho
  intro z l z' hz _ hstep
  cases l with
  | relay l =>
      obtain ⟨r, -, rfl⟩ := Option.map_eq_some_iff.mp hstep
      exact hz
  | receive i =>
      obtain ⟨c, response, -, -, -, rfl⟩ := Exchange.step_receive hstep
      exact List.mem_append_left _ hz
  | lose i timedOut =>
      obtain rfl := Exchange.step_lose hstep
      exact List.mem_append_left _ hz

/-! ## Definite errors -/

/-- **What the outcome of a call says about its command.** Held commands have unknown
outcomes; committed ones have unknown or successful outcomes. -/
theorem Exchange.Sound.outcome (hx : x.Sound) {i : Nat} {outcome : Except ClientError Session}
    (ho : (i, outcome) ∈ x.outcomes) :
    (i ∈ x.relay.held → outcome = .error .outcomeUnknown)
      ∧ (x.relay.Effective i →
          outcome = .error .outcomeUnknown ∨ ∃ session, outcome = .ok session) := by
  rcases hx.outcomes i outcome ho with hunknown | ⟨c, response, hc, hissues, hresponse, hout⟩
  · exact ⟨fun _ => hunknown, fun _ => Or.inl hunknown⟩
  have hok := hx.relay.call i c hc
  have hran : ∀ {result}, x.relay.Answered i result → i ∉ x.relay.held :=
    fun ha hi => hx.relay.heldFresh i hi ha.ran
  have huntouched : x.relay.Untouched i →
      (i ∈ x.relay.held → outcome = .error .outcomeUnknown)
        ∧ (x.relay.Effective i →
            outcome = .error .outcomeUnknown ∨ ∃ session, outcome = .ok session) :=
    fun hu => ⟨fun hi => absurd hi hu.1, fun ⟨e, he, hcall, _⟩ => absurd ⟨e, he, hcall⟩ hu.2⟩
  have hstage := hok.stage
  cases hs : c.stage with
  | inFlight => simp [Call.response, hs] at hresponse
  | admitted => simp [Call.response, hs] at hresponse
  | awaiting => simp [Call.response, hs] at hresponse
  | dropped => simp [Call.response, hs] at hresponse
  | rejected code => rw [hs] at hstage; exact huntouched hstage
  | timedOut =>
      simp only [Call.response, hs, Option.some.injEq] at hresponse
      have hunknown : outcome = .error .outcomeUnknown := by rw [hout, ← hresponse]; rfl
      exact ⟨fun _ => hunknown, fun _ => Or.inl hunknown⟩
  | returned result =>
      rw [hs] at hstage
      cases result with
      | ok reply =>
          -- the one result of the command is its reply, and the client took it
          obtain ⟨e, he, rfl, hresult⟩ := hstage
          refine ⟨fun hi => absurd hi (hran ⟨e, he, rfl, hresult⟩), fun _ => Or.inr ?_⟩
          obtain ⟨d, hd, hcommand⟩ := hx.relay.ranCall e he
          obtain rfl : c = d := Option.some.inj (hc.symm.trans hd)
          obtain ⟨response', session, hrespond, hclient⟩ :=
            hx.timely.log e he reply hresult (hcommand ▸ hissues)
          rw [← hcommand] at hrespond
          simp only [Call.response, hs, hrespond, Option.map_some, Option.some.injEq] at hresponse
          exact ⟨session, by rw [hout, ← hresponse, hclient]⟩
      | error e =>
          cases e with
          | timeout => exact absurd hs (hx.prompt i c hc hissues)
          | rateLimited => exact huntouched hstage
          | unavailable => exact huntouched hstage
          | store error =>
              refine ⟨fun hi => absurd hi (hran hstage), fun ⟨f, hf, hfi, hfok⟩ => ?_⟩
              rw [hx.relay.answered_unique ⟨f, hf, hfi, rfl⟩ hstage] at hfok
              cases hfok

/-- **Definite errors are definite.** As long as no dispatch timer fires on a session-issuing
command before its reply and the clock stays inside the calendar: once such a call has
returned an API error, its command is not in the worker's hands, has not committed and never
will, and the store is what the other commands made; and a call whose command is still in the
worker's hands returned `OutcomeUnknown`. -/
theorem definite_errors_definite (hx : exchangeLts.Reach Prompt x) {i : Nat}
    {outcome : Except ClientError Session} (hout : (i, outcome) ∈ x.outcomes)
    (hrun : exchangeLts.Steps Prompt x y) :
    (∀ status code retryable, outcome = .error (.api status code retryable) →
        i ∉ y.relay.held ∧ ¬ y.relay.Effective i
          ∧ y.relay.store = replay (y.relay.log.filter fun e => decide (e.call ≠ i)))
      ∧ (i ∈ y.relay.held → outcome = .error .outcomeUnknown) := by
  have hy : y.Sound := reach_exchange_sound (hx.steps hrun)
  obtain ⟨hheld, heffective⟩ := hy.outcome (steps_outcomes hrun hout)
  refine ⟨?_, hheld⟩
  rintro status code retryable rfl
  have hnone : ¬ y.relay.Effective i := by
    intro heff
    rcases heffective heff with hunknown | ⟨session, hok⟩
    · cases hunknown
    · cases hok
  refine ⟨(fun hi => by cases hheld hi), hnone, ?_⟩
  rw [hy.relay.history.store_eq, replay_filter]
  intro e he hok
  rw [decide_eq_true_eq]
  exact fun hcall => hnone ⟨e, he, hcall, hok⟩

end Exchange

/-! ## A refused name, and a timeout that commits -/

namespace Sample

/-- The handler's command for a request to join `alpha`. -/
def joinCommand (name : MemberName) (agent : AgentId) (member : MembershipId) (id : InstanceId) :
    StoreCommand :=
  let request := joinAlpha name agent member id (instant 0)
  .join
    { membership := request.membership
      instanceId := request.instanceId
      mode := request.mode
      clientKind := request.clientKind
      hostname := request.hostname
      availability := request.availability
      availabilitySource := request.availabilitySource
      leasePolicy := request.leasePolicy }

def aliceCommand : StoreCommand :=
  joinCommand aliceName aliceAgent alice aliceInstance

/-- Somebody else asks for Alice's name. -/
def impostorCommand : StoreCommand :=
  joinCommand aliceName bobAgent bob bobInstance

/-- Call `i` is issued, queued, run at `now` and answered, and its client returns. -/
def served (i : Nat) (command : StoreCommand) (now : UnixMillis) (token : ResumeToken) :
    List ExchangeStep :=
  [.relay (.issue command), .relay (.arrive i), .relay (.trySend i), .relay .receive,
    .relay .inspect, .relay (.execute now (some token)), .relay .reply, .relay (.deliver i),
    .receive i]

/-- Alice joins; the impostor is refused. -/
def refused : List ExchangeStep :=
  served 0 aliceCommand (instant 100) aliceToken
    ++ served 1 impostorCommand (instant 101) bobToken

/-- Alice's join is taken from the queue when its dispatch timer fires; her client returns
`database_busy`. -/
def timedOut : List ExchangeStep :=
  [.relay (.issue aliceCommand), .relay (.arrive 0), .relay (.trySend 0), .relay .receive,
    .relay .inspect, .relay (.expire 0), .receive 0]

end Sample

open Sample in
/-- The impostor's name is in use, and its command left nothing behind. -/
theorem definite_errors_definite_refused :
    ∃ x, exchangeLts.Reach Prompt x ∧ (1, .error (.api 409 .nameInUse false)) ∈ x.outcomes
      ∧ x.relay.store = replay (x.relay.log.filter fun e => decide (e.call ≠ 1)) := by
  have hrun : (Lts.follow Exchange.step Prompt (Exchange.fresh 4) refused).any (fun x =>
      decide ((1, .error (.api 409 .nameInUse false)) ∈ x.outcomes)) = true := by
    decide
  obtain ⟨x, hx, hout⟩ := Lts.exists_steps_of_follow refused hrun
  have hreach : exchangeLts.Reach Prompt x := ⟨_, ⟨4, rfl⟩, hx⟩
  have hout' := of_decide_eq_true hout
  obtain ⟨-, -, hstore⟩ := (definite_errors_definite hreach hout' (.refl x)).1 _ _ _ rfl
  exact ⟨x, hreach, hout', hstore⟩

open Sample in
/-- **A definite error that is not.** Alice's client has returned `database_busy`, and then
her join commits. -/
theorem timed_out_join_commits :
    ¬ ∀ (x y : Exchange) (i status : Nat) (code : ApiErrorCode) (retryable : Bool),
        exchangeLts.Reach Lts.always x →
        (i, .error (.api status code retryable)) ∈ x.outcomes →
        exchangeLts.Steps Lts.always x y → ¬ y.relay.Effective i := by
  intro hclaim
  have hrun : (Lts.follow Exchange.step Lts.always (Exchange.fresh 4) timedOut).any (fun x =>
      decide ((0, .error (.api 503 .databaseBusy true)) ∈ x.outcomes)
        && (Lts.follow Exchange.step Lts.always x
          [.relay (.execute ⟨100, by decide⟩ (some aliceToken))]).any fun y =>
            y.relay.log.any fun e => decide (e.call = 0) && e.result.isOk) = true := by
    decide
  obtain ⟨x, hx, hcheck⟩ := Lts.exists_steps_of_follow timedOut hrun
  rw [Bool.and_eq_true] at hcheck
  obtain ⟨y, hy, heffective⟩ := Lts.exists_steps_of_follow _ hcheck.2
  obtain ⟨e, he, hresult⟩ := List.any_eq_true.mp heffective
  rw [Bool.and_eq_true, decide_eq_true_eq] at hresult
  exact hclaim x y 0 503 .databaseBusy true ⟨_, ⟨4, rfl⟩, hx⟩ (of_decide_eq_true hcheck.1) hy
    ⟨e, he, hresult⟩

end Psst
