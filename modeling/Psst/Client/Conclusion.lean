import Psst.Client.Exchange
import Psst.Relay.Evidence

/-!
# What a client may conclude

From the result of a client call back to what the relay did with its command. A success is an
answer the worker gave; an API error is a refusal that left the command alone, an error the
worker answered, a dispatch timeout, or a response that could not be built. Anything else says
nothing.
-/

namespace Psst

/-! ## Responses that carry an error code -/

theorem decode_intoResponse {α : Type} (expected : Body → Option α) (validate : α → Bool)
    (code : ApiErrorCode) :
    decode expected validate code.intoResponse
      = .error (.api code.httpStatus code code.retryable) := by
  cases code <;> rfl

namespace Client

@[simp] theorem leave_intoResponse (code : ApiErrorCode) :
    leave (.response code.intoResponse)
      = .error (.api code.httpStatus code code.retryable) := by
  simp only [leave, executeOnce, decode_intoResponse]
  rfl

@[simp] theorem heartbeat_intoResponse (code : ApiErrorCode) :
    heartbeat (.response code.intoResponse)
      = .error (.api code.httpStatus code code.retryable) := by
  simp only [heartbeat, executeOnce, decode_intoResponse]

@[simp] theorem issued_intoResponse (code : ApiErrorCode) :
    issued (.response code.intoResponse)
      = .error (.api code.httpStatus code code.retryable) := by
  have hstatus : code.intoResponse.status ≠ 200 := by cases code <;> decide
  simp only [issued, executeIssued, decode_intoResponse, if_pos hstatus]
  rfl

/-- A leave the handler answered is what the client returns. -/
@[simp] theorem leave_okResponse (body : LeaveSquadResponse) :
    leave (.response (okResponse none (.left body))) = .ok body := rfl

end Client

/-! ## Responses that cannot be built -/

/-- The computation fails with an internal error, if at all. -/
def FailsInternally {α : Type} (x : Except ApiErrorCode α) : Prop :=
  ∀ code, x = .error code → code = .internalError

namespace FailsInternally

variable {α β : Type}

theorem ok (a : α) : FailsInternally (.ok a) := fun _ h => by cases h

theorem bind {x : Except ApiErrorCode α} {f : α → Except ApiErrorCode β}
    (hx : FailsInternally x) (hf : ∀ a, FailsInternally (f a)) : FailsInternally (x >>= f) := by
  cases x with
  | error code => exact fun code' h => hx code' (by cases h; rfl)
  | ok a => exact hf a

theorem timestamp (value : UnixMillis) : FailsInternally (Psst.timestamp value) := by
  intro code h
  unfold Psst.timestamp at h
  split at h
  · cases h
  · cases h
    rfl

theorem seconds (value : Duration) : FailsInternally (Psst.seconds value) := by
  intro code h
  unfold Psst.seconds at h
  split at h
  · cases h
  · cases h
    rfl

theorem squadDto (q : SquadRecord) : FailsInternally (Psst.squadDto q) := by
  refine (timestamp _).bind fun createdAt => bind ?_ fun _ => ok _
  cases q.archivedAt with
  | none => exact ok _
  | some t => exact (timestamp t).bind fun _ => ok _

theorem sessionResponse (membership : MembershipRecord) (q : SquadRecord)
    (record : InstanceRecord) : FailsInternally (Psst.sessionResponse membership q record) :=
  (squadDto q).bind fun _ => (seconds _).bind fun _ => (seconds _).bind fun _ =>
    (timestamp _).bind fun _ => ok _

end FailsInternally

/-- A reply whose response cannot be built is answered with an internal error. -/
theorem StoreCommand.respond_error {command : StoreCommand} {reply : Reply}
    {code : ApiErrorCode} (h : command.respond reply = some (.error code)) :
    code = .internalError := by
  unfold StoreCommand.respond at h
  split at h
  · exact ((FailsInternally.sessionResponse _ _ _).bind fun _ => .ok _) code (Option.some.inj h)
  · exact ((FailsInternally.sessionResponse _ _ _).bind fun _ => .ok _) code (Option.some.inj h)
  · exact ((FailsInternally.timestamp _).bind fun _ => .ok _) code (Option.some.inj h)
  · exact ((FailsInternally.timestamp _).bind fun _ => (FailsInternally.seconds _).bind fun _ =>
      .ok _) code (Option.some.inj h)
  · cases h

/-! ## From the response to the worker -/

/-- The errors a session takes for a statement about its membership. -/
def ApiErrorCode.denies : ApiErrorCode → Bool
  | .notMember | .squadArchived => true
  | _ => false

namespace Relay

/-- What an error code on the wire says about call `i`, whose handler is through. -/
def Refuses (r : Relay) (i : Nat) (code : ApiErrorCode) : Prop :=
  (code.denies = false ∧ r.Untouched i)
    ∨ (∃ e : RepositoryError, r.Answered i (.error e) ∧ e.code = code)
    ∨ (code = .databaseBusy ∧ ∃ c, r.calls[i]? = some c ∧ c.stage = .returned (.error .timeout))
    ∨ (code = .internalError ∧ ∃ c reply, r.calls[i]? = some c ∧ r.Answered i (.ok reply)
        ∧ c.command.respond reply = some (.error code))

/-- The response is on the wire for call `i`. -/
def Sends (r : Relay) (i : Nat) (response : HttpResponse) : Prop :=
  ∃ c, r.calls[i]? = some c ∧ c.response = some response

variable [Sha256] {r : Relay} {i : Nat} {response : HttpResponse}

/-- **What is behind a response**: an error code, the request deadline, or a reply. -/
theorem Sound.sends_cases (hr : r.Sound) (h : r.Sends i response) :
    (∃ code, response = ApiErrorCode.intoResponse code ∧ r.Refuses i code)
      ∨ response = requestTimeout
      ∨ ∃ c reply, r.calls[i]? = some c ∧ r.Answered i (.ok reply)
          ∧ c.command.respond reply = some (.ok response) := by
  obtain ⟨c, hc, hresponse⟩ := h
  have hstage := (hr.call i c hc).stage
  cases hs : c.stage with
  | inFlight => simp [Call.response, hs] at hresponse
  | admitted => simp [Call.response, hs] at hresponse
  | awaiting => simp [Call.response, hs] at hresponse
  | dropped => simp [Call.response, hs] at hresponse
  | timedOut =>
      simp only [Call.response, hs, Option.some.injEq] at hresponse
      exact Or.inr (Or.inl hresponse.symm)
  | rejected code =>
      simp only [Call.response, hs, Option.some.injEq] at hresponse
      rw [hs] at hstage
      have hcode := hr.refusal c (List.mem_of_getElem? hc) code hs
      refine Or.inl ⟨code, hresponse.symm, Or.inl ⟨?_, hstage⟩⟩
      cases code <;> first | rfl | cases hcode
  | returned result =>
      rw [hs] at hstage
      cases result with
      | ok reply =>
          simp only [Call.response, hs, Option.map_eq_some_iff] at hresponse
          obtain ⟨answer, hrespond, hresponse⟩ := hresponse
          cases answer with
          | ok response' =>
              cases hresponse
              exact Or.inr (Or.inr ⟨c, reply, hc, hstage, hrespond⟩)
          | error code =>
              exact Or.inl ⟨code, hresponse.symm,
                Or.inr (Or.inr (Or.inr ⟨StoreCommand.respond_error hrespond, c, reply, hc,
                  hstage, hrespond⟩))⟩
      | error e =>
          simp only [Call.response, hs, Option.some.injEq] at hresponse
          refine Or.inl ⟨e.apiFailure, hresponse.symm, ?_⟩
          cases e with
          | rateLimited => exact Or.inl ⟨rfl, hstage⟩
          | unavailable => exact Or.inl ⟨rfl, hstage⟩
          | timeout => exact Or.inr (Or.inr (Or.inl ⟨rfl, c, hc, hs⟩))
          | store error => exact Or.inr (Or.inl ⟨error, hstage, rfl⟩)

omit [Sha256] in
/-- A denial is the worker's own. -/
theorem Refuses.denied {code : ApiErrorCode} (h : r.Refuses i code) (hcode : code.denies = true) :
    ∃ e : RepositoryError, (e = .notMember ∨ e = .squadArchived) ∧ r.Answered i (.error e) := by
  rcases h with ⟨hother, -⟩ | ⟨e, hanswer, rfl⟩ | ⟨rfl, -⟩ | ⟨rfl, -⟩
  · rw [hcode] at hother
    cases hother
  · refine ⟨e, ?_, hanswer⟩
    cases e <;> first | exact Or.inl rfl | exact Or.inr rfl | cases hcode
  · cases hcode
  · cases hcode

/-! ## From the result to the worker -/

/-- What came back for call `i`, if anything did, is what the relay sent. -/
def Delivers (r : Relay) (i : Nat) (arrival : Arrival) : Prop :=
  ∀ response, arrival = .response response → r.Sends i response

variable {arrival : Arrival}

/-- The results of the three kinds of call, for the part they share: a code comes from a
refusal, and a value from a reply. -/
theorem Sound.delivers_cases (hr : r.Sound) (h : r.Delivers i arrival) :
    (∃ code, arrival = .response (ApiErrorCode.intoResponse code) ∧ r.Refuses i code)
      ∨ (arrival = .transport ∨ arrival = .timeout ∨ arrival = .response requestTimeout)
      ∨ ∃ c reply response, arrival = .response response ∧ r.calls[i]? = some c
          ∧ r.Answered i (.ok reply) ∧ c.command.respond reply = some (.ok response) := by
  cases arrival with
  | transport => exact Or.inr (Or.inl (Or.inl rfl))
  | timeout => exact Or.inr (Or.inl (Or.inr (Or.inl rfl)))
  | response response =>
      rcases hr.sends_cases (h response rfl) with ⟨code, rfl, hrefuses⟩ | rfl
        | ⟨c, reply, hc, hanswer, hrespond⟩
      · exact Or.inl ⟨code, rfl, hrefuses⟩
      · exact Or.inr (Or.inl (Or.inr (Or.inr rfl)))
      · exact Or.inr (Or.inr ⟨c, reply, response, rfl, hc, hanswer, hrespond⟩)

/-- What was sent stays sent. -/
theorem Delivers.step {r' : Relay} (h : r.Delivers i arrival) {l : RelayStep}
    (hstep : r.step l = some r') : r'.Delivers i arrival := by
  intro response harrival
  obtain ⟨c, hc, hresponse⟩ := h response harrival
  obtain ⟨c', hc', hmoves⟩ := step_call hstep hc
  refine ⟨c', hc', ?_⟩
  rcases hmoves.stage with hstage | ⟨hworking, -⟩
  · unfold Call.response at hresponse ⊢
    rw [hstage, hmoves.command, hresponse]
  · rw [Call.final_of_response hresponse] at hworking
    cases hworking

omit [Sha256] in
theorem respond_left {command : StoreCommand} {reply : Reply} {response : HttpResponse}
    {credential : Credential} {squad : SquadName} (hcommand : command = .leave credential squad)
    (h : command.respond reply = some (.ok response)) :
    ∃ outcome body, reply = .left outcome ∧ body.membershipId = outcome.membershipId
      ∧ response = okResponse none (.left body) := by
  subst hcommand
  cases reply with
  | left outcome =>
      obtain ⟨leftAt, -, hok⟩ := Except.bind_eq_ok.mp (Option.some.inj h)
      cases hok
      exact ⟨outcome, ⟨outcome.membershipId, leftAt⟩, rfl, rfl, rfl⟩
  | _ => cases h

/-- **What a leave's result says.** -/
theorem Sound.leave_result (hr : r.Sound) (h : r.Delivers i arrival) {credential : Credential}
    {squad : SquadName} (hasked : r.Asked i (.leave credential squad)) :
    (∃ body outcome, Client.leave arrival = .ok body ∧ r.Answered i (.ok (.left outcome))
        ∧ body.membershipId = outcome.membershipId)
      ∨ (∃ code, Client.leave arrival = .error (.api code.httpStatus code code.retryable)
          ∧ r.Refuses i code)
      ∨ Client.leave arrival = .error .outcomeUnknown := by
  rcases hr.delivers_cases h with ⟨code, rfl, hrefuses⟩ | hlost
    | ⟨c, reply, response, rfl, hc, hanswer, hrespond⟩
  · exact Or.inr (Or.inl ⟨code, Client.leave_intoResponse code, hrefuses⟩)
  · refine Or.inr (Or.inr ?_)
    rcases hlost with rfl | rfl | rfl <;> rfl
  · obtain ⟨d, hd, hcommand⟩ := hasked
    obtain rfl : c = d := Option.some.inj (hc.symm.trans hd)
    obtain ⟨outcome, body, rfl, hmember, rfl⟩ := respond_left hcommand hrespond
    exact Or.inl ⟨body, outcome, rfl, hanswer, hmember⟩

/-- **A refused leave did not happen**, unless its timer fired or its time cannot be written. -/
theorem Sound.refused_leave (hr : r.Sound) {credential : Credential} {squad : SquadName}
    (hasked : r.Asked i (.leave credential squad)) {code : ApiErrorCode}
    (hrefuses : r.Refuses i code)
    (htimely : ∀ c, r.calls[i]? = some c → c.stage ≠ .returned (.error .timeout))
    (hcalendar : ∀ e ∈ r.log, e.result.isOk = true → e.now.InCalendar) :
    i ∉ r.held ∧ ¬ r.Effective i := by
  rcases hrefuses with ⟨-, hheld, hran⟩ | ⟨e, hanswer, -⟩ | ⟨-, c, hc, hstage⟩
    | ⟨-, c, reply, hc, hanswer, hrespond⟩
  · refine ⟨hheld, ?_⟩
    rintro ⟨f, hf, hcall, -⟩
    exact hran ⟨f, hf, hcall⟩
  · refine ⟨fun hheld => hr.heldFresh i hheld hanswer.ran, ?_⟩
    rintro ⟨f, hf, hcall, hok⟩
    rw [hr.answered_unique ⟨f, hf, hcall, rfl⟩ hanswer] at hok
    cases hok
  · exact absurd hstage (htimely c hc)
  · -- the time it left at is the worker's reading
    exfalso
    obtain ⟨d, hd, hcommand⟩ := hasked
    obtain rfl : c = d := Option.some.inj (hc.symm.trans hd)
    obtain ⟨f, before, after, t, t', hf, rfl, hresult, -, -, -, hrun, -⟩ :=
      hr.answered_run hanswer
    have hnow := hcalendar f hf (by rw [hresult]; rfl)
    rcases hrun with ⟨hok, -⟩ | ⟨hfault, -⟩
    · rw [hr.command_eq hf ⟨c, hc, rfl⟩, hcommand] at hok
      obtain ⟨outcome, hleave, rfl⟩ := Store.answer_eq_ok.mp hok.symm
      obtain ⟨j, m, -, rfl, -⟩ := authenticatedLeave_eq_ok hleave
      rw [hcommand] at hrespond
      have hleft : leaveSquad ⟨m.id, f.now⟩ = .error code := Option.some.inj hrespond
      rw [leaveSquad, show (LeaveOutcome.mk m.id f.now).leftAt = f.now from rfl,
        timestamp_eq_ok hnow.le] at hleft
      cases hleft
    · rcases hfault with hfault | hfault <;> cases hfault

omit [Sha256] in
theorem respond_status {command : StoreCommand} {reply : Reply} {response : HttpResponse}
    (h : command.respond reply = some (.ok response)) :
    response.status = 200 := by
  unfold StoreCommand.respond at h
  split at h
  · obtain ⟨_, -, hok⟩ := Except.bind_eq_ok.mp (Option.some.inj h)
    cases hok
    rfl
  · obtain ⟨_, -, hok⟩ := Except.bind_eq_ok.mp (Option.some.inj h)
    cases hok
    rfl
  · obtain ⟨_, -, hok⟩ := Except.bind_eq_ok.mp (Option.some.inj h)
    cases hok
    rfl
  · obtain ⟨_, -, hrest⟩ := Except.bind_eq_ok.mp (Option.some.inj h)
    obtain ⟨_, -, hok⟩ := Except.bind_eq_ok.mp hrest
    cases hok
    rfl
  · cases h

omit [Sha256] in
theorem decode_ne_api {α : Type} {expected : Body → Option α} {validate : α → Bool}
    (hstatus : response.status = 200) (status : Nat) (code : ApiErrorCode) (retryable : Bool) :
    decode expected validate response ≠ .error (.api status code retryable) := by
  unfold decode
  rw [hstatus]
  intro h
  split at h
  · cases h
  · split at h
    · cases h
    · split at h
      · split at h
        · cases h
        · split at h
          · cases h
          · split at h <;> cases h
      · next hrange => exact hrange ⟨by decide, by decide⟩

omit [Sha256] in
/-- A decoded value is the body. -/
theorem decode_eq_ok {α : Type} {expected : Body → Option α} {validate : α → Bool} {value : α}
    (h : decode expected validate response = .ok value) : expected response.body = some value := by
  unfold decode at h
  split at h
  · cases h
  · split at h
    · cases h
    · split at h
      · split at h
        · cases h
        · split at h
          · cases h
          · next found hfound =>
              split at h
              · cases h
                exact hfound
              · cases h
      · split at h
        · split at h
          · cases h
          · split at h <;> cases h
        · cases h

/-- **What a heartbeat's result says.** -/
theorem Sound.heartbeat_result (hr : r.Sound) (h : r.Delivers i arrival) :
    (∀ body, Client.heartbeat arrival = .ok body → ∃ reply, r.Answered i (.ok reply))
      ∧ ∀ status code retryable, Client.heartbeat arrival = .error (.api status code retryable) →
          r.Refuses i code := by
  rcases hr.delivers_cases h with ⟨code, rfl, hrefuses⟩ | hlost
    | ⟨c, reply, response, rfl, hc, hanswer, hrespond⟩
  · rw [Client.heartbeat_intoResponse]
    refine ⟨(fun body hbody => by cases hbody), fun status code' retryable hapi => ?_⟩
    cases hapi
    exact hrefuses
  · rcases hlost with rfl | rfl | rfl
    · exact ⟨(fun body hbody => by cases hbody), fun _ _ _ hapi => by cases hapi⟩
    · exact ⟨(fun body hbody => by cases hbody), fun _ _ _ hapi => by cases hapi⟩
    · exact ⟨(fun body hbody => by cases hbody), fun _ _ _ hapi => by cases hapi⟩
  · exact ⟨fun _ _ => ⟨reply, hanswer⟩, fun status code retryable hapi =>
      absurd hapi (decode_ne_api (respond_status hrespond) status code retryable)⟩

/-- A session the client accepted comes with the credential the handler issued. -/
theorem Sound.issued_result (hr : r.Sound) (h : r.Delivers i arrival) {value : Session}
    (hok : Client.issued arrival = .ok value) :
    ∃ c reply response, r.calls[i]? = some c ∧ r.Answered i (.ok reply)
      ∧ c.command.respond reply = some (.ok response) ∧ response.issued = some value.credential
      ∧ response.body = .session value.response := by
  rcases hr.delivers_cases h with ⟨code, rfl, hrefuses⟩ | hlost
    | ⟨c, reply, response, rfl, hc, hanswer, hrespond⟩
  · rw [Client.issued_intoResponse] at hok
    cases hok
  · rcases hlost with rfl | rfl | rfl <;> cases hok
  · refine ⟨c, reply, response, hc, hanswer, hrespond, ?_⟩
    have hexecuted : executeIssued (.response response) = .ok value := Tx.mapError_eq_ok.mp hok
    simp only [executeIssued, if_neg (not_not.mpr (respond_status hrespond))] at hexecuted
    split at hexecuted
    · cases hexecuted
    · next credential hissued =>
        obtain ⟨body, hbody, hchecked⟩ := Except.bind_eq_ok.mp hexecuted
        split at hchecked
        · cases hchecked
          refine ⟨hissued, ?_⟩
          have hsession := decode_eq_ok hbody
          cases hresponse : response.body with
          | session body' =>
              rw [hresponse] at hsession
              cases hsession
              rfl
          | _ =>
              rw [hresponse] at hsession
              cases hsession
        · cases hchecked

omit [Sha256] in
theorem sessionResponse_eq_ok {membership : MembershipRecord} {q : SquadRecord}
    {record : InstanceRecord} {body : SessionResponse}
    (h : sessionResponse membership q record = .ok body) :
    body.membershipId = membership.id ∧ body.squad.id = q.id := by
  obtain ⟨summary, hsummary, h⟩ := Except.bind_eq_ok.mp h
  obtain ⟨_, -, h⟩ := Except.bind_eq_ok.mp h
  obtain ⟨_, -, h⟩ := Except.bind_eq_ok.mp h
  obtain ⟨_, -, h⟩ := Except.bind_eq_ok.mp h
  cases h
  obtain ⟨_, -, hsummary⟩ := Except.bind_eq_ok.mp hsummary
  obtain ⟨_, -, hsummary⟩ := Except.bind_eq_ok.mp hsummary
  cases hsummary
  exact ⟨rfl, rfl⟩

/-- **What a joined session says.** -/
theorem Sound.join_result (hr : r.Sound) (h : r.Delivers i arrival) {request : WorkerJoin}
    (hasked : r.Asked i (.join request)) {value : Session}
    (hok : Client.issued arrival = .ok value) :
    ∃ outcome, r.Answered i (.ok (.joined outcome))
      ∧ value.credential = ⟨outcome.claim.record.id, outcome.claim.resumeToken⟩
      ∧ value.response.membershipId = outcome.membership.id
      ∧ value.response.squad.id = outcome.squad.id := by
  obtain ⟨c, reply, response, hc, hanswer, hrespond, hissued, hbody⟩ := hr.issued_result h hok
  obtain ⟨d, hd, hcommand⟩ := hasked
  obtain rfl : c = d := Option.some.inj (hc.symm.trans hd)
  rw [hcommand] at hrespond
  cases reply with
  | joined outcome =>
      obtain ⟨body, hsession, hresponse⟩ := Except.bind_eq_ok.mp (Option.some.inj hrespond)
      cases hresponse
      cases hbody
      exact ⟨outcome, hanswer, (Option.some.inj hissued).symm, sessionResponse_eq_ok hsession⟩
  | _ => cases hrespond

/-- **What a resumed session says.** -/
theorem Sound.resume_result (hr : r.Sound) (h : r.Delivers i arrival) {request : WorkerResume}
    (hasked : r.Asked i (.resume request)) {value : Session}
    (hok : Client.issued arrival = .ok value) :
    ∃ context, r.Answered i (.ok (.resumed context))
      ∧ value.credential = ⟨context.record.id, request.prior.resumeToken⟩
      ∧ value.response.membershipId = context.membership.id := by
  obtain ⟨c, reply, response, hc, hanswer, hrespond, hissued, hbody⟩ := hr.issued_result h hok
  obtain ⟨d, hd, hcommand⟩ := hasked
  obtain rfl : c = d := Option.some.inj (hc.symm.trans hd)
  rw [hcommand] at hrespond
  cases reply with
  | resumed context =>
      obtain ⟨body, hsession, hresponse⟩ := Except.bind_eq_ok.mp (Option.some.inj hrespond)
      cases hresponse
      cases hbody
      exact ⟨context, hanswer, (Option.some.inj hissued).symm,
        (sessionResponse_eq_ok hsession).1⟩
  | _ => cases hrespond

end Relay

end Psst
