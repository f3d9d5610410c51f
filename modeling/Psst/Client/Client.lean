import Psst.Relay.Handler

/-!
# The typed client

How a relay response, or the lack of one, becomes the result of `join`, `resume`, `leave`
and `heartbeat`. All four send one request and never retry. The first three turn a lost
answer into `OutcomeUnknown`; `heartbeat` reports it as it is.
-/

namespace Psst

inductive ClientError where
  | invalidBaseUrl
  | invalidConfiguration
  | invalidRequest
  | malformedCredential
  | transport
  | timeout
  | outcomeUnknown
  | api (status : Nat) (code : ApiErrorCode) (retryable : Bool)
  | malformedResponse (status : Nat)
  | responseTooLarge
  | unexpectedHttp (status : Nat)
  | clientBusy
  | retryExhausted (attempts : UInt8) (last : ClientError)
  deriving DecidableEq

/-- What became of a request that was handed to the transport. -/
inductive Arrival where
  | response (response : HttpResponse)
  /-- The connection failed, before or after the relay saw the request. -/
  | transport
  /-- The client's own deadline passed. -/
  | timeout

/-- `decode`: the status decides first, then the content type, then the body. -/
def decode {α : Type} (expected : Body → Option α) (validate : α → Bool)
    (response : HttpResponse) : Except ClientError α :=
  if response.status = 408 then .error .timeout
  else if !response.json then .error (.unexpectedHttp response.status)
  else if 200 ≤ response.status ∧ response.status < 300 then
    if response.status ≠ 200 then .error (.unexpectedHttp response.status)
    else
      match expected response.body with
      | none => .error (.malformedResponse response.status)
      | some value => if validate value then .ok value else .error (.malformedResponse 200)
  else
    match response.body with
    | .error body =>
      if !body.validate then .error (.unexpectedHttp response.status)
      else if body.code.httpStatus ≠ response.status then .error (.unexpectedHttp response.status)
      else .error (.api response.status body.code body.retryable)
    | _ => .error (.unexpectedHttp response.status)

/-! ## Response validation -/

/-- `ResponseValidate for SessionResponse`, beyond the identifiers. -/
def SessionResponse.validate (r : SessionResponse) : Bool :=
  r.squad.validate
    && decide (1 ≤ r.heartbeatIntervalSeconds ∧ r.heartbeatIntervalSeconds ≤ 300)
    && decide (2 ≤ r.leaseSeconds ∧ r.leaseSeconds ≤ 900)
    && decide (r.heartbeatIntervalSeconds < r.leaseSeconds)

def HeartbeatResponse.validate (r : HeartbeatResponse) : Bool :=
  decide (1 ≤ r.heartbeatIntervalSeconds ∧ r.heartbeatIntervalSeconds ≤ 300)

def Body.session? : Body → Option SessionResponse
  | .session body => some body
  | _ => none

def Body.heartbeat? : Body → Option HeartbeatResponse
  | .heartbeat body => some body
  | _ => none

def Body.left? : Body → Option LeaveSquadResponse
  | .left body => some body
  | _ => none

/-! ## The calls -/

/-- `Session`: what a join or a resume hands to the application. -/
structure Session where
  response : SessionResponse
  credential : Credential
  deriving DecidableEq

/-- `execute_issued`: an answer that issues a session must carry its credential, for the
instance it names. -/
def executeIssued : Arrival → Except ClientError Session
  | .transport => .error .transport
  | .timeout => .error .timeout
  | .response response =>
    if response.status ≠ 200 then
      match decode Body.session? SessionResponse.validate response with
      | .error error => .error error
      | .ok _ => .error (.unexpectedHttp 200)
    else
      match response.issued with
      | none => .error .malformedCredential
      | some credential => do
        let value ← decode Body.session? SessionResponse.validate response
        if value.instanceId = credential.instanceId then .ok ⟨value, credential⟩
        else .error .malformedCredential

/-- `execute` for a request of class `Never`. -/
def executeOnce {α : Type} (expected : Body → Option α) (validate : α → Bool) :
    Arrival → Except ClientError α
  | .transport => .error .transport
  | .timeout => .error .timeout
  | .response response => decode expected validate response

/-- The error mapping `join`, `resume` and `leave` share. -/
def ClientError.ambiguous : ClientError → ClientError
  | .transport | .timeout => .outcomeUnknown
  | other => other

namespace Client

/-- `Client::join` and `Client::resume` past their request checks. -/
def issued (arrival : Arrival) : Except ClientError Session :=
  (executeIssued arrival).mapError ClientError.ambiguous

def leave (arrival : Arrival) : Except ClientError LeaveSquadResponse :=
  (executeOnce Body.left? (fun _ => true) arrival).mapError ClientError.ambiguous

def heartbeat (arrival : Arrival) : Except ClientError HeartbeatResponse :=
  executeOnce Body.heartbeat? HeartbeatResponse.validate arrival

/-- The client accepts a valid session body that comes with its own credential. -/
theorem issued_okResponse {credential : Credential} {body : SessionResponse}
    (hinstance : body.instanceId = credential.instanceId) (hvalid : body.validate = true) :
    issued (.response (okResponse (some credential) (.session body))) = .ok ⟨body, credential⟩ := by
  have hdecode : decode Body.session? SessionResponse.validate
      (okResponse (some credential) (.session body)) = .ok body := by
    simp [decode, okResponse, Body.session?, hvalid]
  have hexecute : executeIssued (.response (okResponse (some credential) (.session body)))
      = if body.instanceId = credential.instanceId then .ok ⟨body, credential⟩
        else .error .malformedCredential := by
    simp only [executeIssued, hdecode]
    rfl
  rw [issued, hexecute, if_pos hinstance]
  rfl

end Client

end Psst
