import Psst.Client.Client
import Psst.Lib.Program
import Psst.Session.Disk

/-!
# The session runtime

`session.rs` as interaction programs: every access to a file, to the network, to the clock or
to the supervisor's shared state is one action, and between two actions of a program anything
else may happen. The same texts are run against an answering relay, against the files alone,
and as threads of a process that may die at any point.

A program that holds the profile lock, the operation gate or the heartbeat gate does so for
its whole life, so those three are rules about which programs run together and not actions;
`leave` takes the heartbeat gate half way and `lockHeartbeat` says where.
-/

namespace Psst

/-! ## Requests -/

structure ClientMetadata where
  kind : String
  hostname : Option String

structure JoinSquadRequest where
  name : MemberName
  role : Role
  mode : AgentMode
  client : ClientMetadata
  mission : Option Mission

structure ResumeSquadRequest where
  mode : AgentMode
  client : ClientMetadata

structure HeartbeatRequest where
  availability : Availability
  availabilitySource : AvailabilitySource

/-- What the session asks the relay. -/
inductive Request where
  | join (squad : SquadName) (request : JoinSquadRequest)
  | resume (squad : SquadName) (request : ResumeSquadRequest) (credential : Credential)
  | heartbeat (request : HeartbeatRequest) (credential : Credential)
  | leave (squad : SquadName) (credential : Credential)

/-- The identifiers a relay handler draws before it dispatches. -/
structure Drawn where
  squadId : SquadId
  agentId : AgentId
  membershipId : MembershipId
  instanceId : InstanceId

/-- The command the handler of a request dispatches. -/
def Request.command (drawn : Drawn) : Request → StoreCommand
  | .join squad request =>
    .join
      { membership :=
          { squadName := squad
            missionIfMissing := request.mission
            squadIdIfMissing := drawn.squadId
            agentId := drawn.agentId
            membershipId := drawn.membershipId
            memberName := request.name
            role := request.role
            joinedAt := ⟨0, by decide⟩ }
        instanceId := drawn.instanceId
        mode := request.mode
        clientKind := request.client.kind
        hostname := request.client.hostname
        availability := .unknown
        availabilitySource := .unknown
        leasePolicy := .default }
  | .resume squad request credential =>
    .resume
      { prior := credential
        squad := squad
        newInstance := drawn.instanceId
        mode := request.mode
        clientKind := request.client.kind
        hostname := request.client.hostname
        availability := .unknown
        availabilitySource := .unknown
        leasePolicy := .default }
  | .heartbeat request credential =>
    .heartbeat credential request.availability request.availabilitySource .default
  | .leave squad credential => .leave credential squad

/-- The errors a client call returns before anything is sent. -/
def ClientError.beforeSend : ClientError → Bool
  | .invalidBaseUrl | .invalidConfiguration | .invalidRequest | .clientBusy => true
  | _ => false

/-! ## Actions -/

inductive LifecycleState where
  | starting
  | ready
  | leaving
  | left
  | recovering
  | rotationFailed
  | outcomeUnknown
  deriving DecidableEq

/-- What `leave` waits for, within the shutdown bound. -/
inductive Drained where
  | reports
  | sends
  | scheduler

inductive Action where
  | metadataExists
  | credentialExists
  | loadProfile
  | loadJournal
  | loadCredential
  | storeCredential (record : CredentialRecord)
  | storeProfile (binding : ProfileBinding)
  | storeJournal (journal : LeaveJournal)
  | clearCredential
  | clearProfile
  | removeJournal
  | now
  | random
  | send (request : Request)
  | await (call : Nat)
  /-- Wait for the answer unless the cancellation token fires first. -/
  | awaitUnlessCancelled (call : Nat)
  | lifecycle
  | setLifecycle (state : LifecycleState)
  /-- Under the write lock: read the state, and replace it if it is the expected one. -/
  | exchangeLifecycle (expected next : LifecycleState)
  /-- The credential the supervisor shares. -/
  | credential
  | publish (credential : Credential)
  | lockHeartbeat
  | drain (what : Drained)
  | shutdownRequested

/-- What an action is answered with; `none` is a failure. -/
abbrev Answer : Action → Type
  | .metadataExists | .credentialExists | .shutdownRequested => Bool
  | .loadProfile => Option (Option ProfileBinding)
  | .loadJournal => Option (Option LeaveJournal)
  | .loadCredential => Option (Option CredentialRecord)
  | .storeCredential _ | .storeProfile _ | .storeJournal _ => Option Unit
  | .clearCredential | .clearProfile | .removeJournal | .drain _ => Option Unit
  | .now => Option ApiTimestamp
  | .random => Option (Fin 16 → UInt8)
  | .send _ => Except ClientError Nat
  | .await _ => Arrival
  | .awaitUnlessCancelled _ => Option Arrival
  | .lifecycle | .exchangeLifecycle _ _ => LifecycleState
  | .credential => Credential
  | .setLifecycle _ | .publish _ | .lockHeartbeat => Unit

abbrev Run := Prog Action Answer

abbrev perform (a : Action) : Run (Answer a) := Prog.perform a

inductive SessionError where
  | local (error : IoError)
  | relay (error : ClientError)
  | shutdownTimedOut
  | notReady
  | unbound
  | recoveryOutcomeUnknown
  deriving DecidableEq

/-! ## Transport -/

/-- Send a request and wait for what becomes of it. -/
def transport (request : Request) : Run (Except ClientError Arrival) := do
  match ← perform (.send request) with
  | .error e => return .error e
  | .ok call => return .ok (← perform (.await call))

namespace Transport

def join (squad : SquadName) (request : JoinSquadRequest) : Run (Except ClientError Session) := do
  return (← transport (.join squad request)).bind Client.issued

def resume (squad : SquadName) (request : ResumeSquadRequest) (credential : Credential) :
    Run (Except ClientError Session) := do
  return (← transport (.resume squad request credential)).bind Client.issued

def heartbeat (request : HeartbeatRequest) (credential : Credential) :
    Run (Except ClientError HeartbeatResponse) := do
  return (← transport (.heartbeat request credential)).bind Client.heartbeat

def leave (squad : SquadName) (credential : Credential) :
    Run (Except ClientError LeaveSquadResponse) := do
  return (← transport (.leave squad credential)).bind Client.leave

end Transport

/-! ## The leave journal -/

/-- `LeaveJournalStore::store`: the record is checked before it is written. -/
def storeJournal (journal : LeaveJournal) : Run (Except IoError Unit) := do
  match journal.validateRecord with
  | .error e => return .error e
  | .ok () =>
    let some () ← perform (.storeJournal journal) | return .error .os
    return .ok ()

/-- `JournalIssuer::intent`, then `store`. -/
def journalIntent (profile : ProfileBinding) : Run (Except IoError LeaveJournal) := do
  let some random ← perform .random | return .error .os
  let some now ← perform .now | return .error .os
  match LeaveJournal.intent profile (drawOperationId random) now with
  | .error e => return .error e
  | .ok intent =>
    match ← storeJournal intent with
    | .error e => return .error e
    | .ok () => return .ok intent

/-- `JournalIssuer::confirm`, then `store`. -/
def journalConfirmation (intent : LeaveJournal) : Run (Except IoError Unit) := do
  let some now ← perform .now | return .error .os
  match intent.confirmed now with
  | .error e => return .error e
  | .ok confirmed => storeJournal confirmed

/-- The credential goes first, the journal last. -/
def cleanupConfirmedLeave : Run (Except IoError Unit) := do
  let some () ← perform .clearCredential | return .error .os
  let some () ← perform .clearProfile | return .error .os
  let some () ← perform .removeJournal | return .error .os
  return .ok ()

/-! ## Recovery and start -/

def recoverOrphanedLeave (key : ProfileKey) : Run (Except SessionError Bool) := do
  let some bound ← perform .loadProfile | return .error (.local .os)
  if bound.isSome then return .ok false
  let some stored ← perform .loadJournal | return .error (.local .os)
  match LeaveJournal.loadForProfileKey stored key with
  | .error e => return .error (.local e)
  | .ok none => return .ok false
  | .ok (some (pending, _)) =>
    if pending.phase ≠ .confirmed then return .error .recoveryOutcomeUnknown
    match ← cleanupConfirmedLeave with
    | .error e => return .error (.local e)
    | .ok () => return .ok true

inductive ResumeTransactionError where
  | relay (error : ClientError)
  | persist (error : IoError)
  deriving DecidableEq

def resumeSessionError : ResumeTransactionError → SessionError
  | .relay error => .relay error
  | .persist error => .local error

/-- A resumed session must be the profile's own, and is persisted before anyone sees it. -/
def resumeTransaction (profile : ProfileBinding) (request : ResumeSquadRequest)
    (credential : Credential) : Run (Except ResumeTransactionError Session) := do
  match ← Transport.resume profile.squadName request credential with
  | .error e => return .error (.relay e)
  | .ok session =>
    if session.response.squad.id ≠ profile.squadId
        ∨ session.response.squad.name ≠ profile.squadName
        ∨ session.response.membershipId ≠ profile.memberId then
      return .error (.relay (.malformedResponse 200))
    let some () ← perform (.storeCredential ⟨profile.credentialBinding, session.credential⟩)
      | return .error (.persist .os)
    return .ok session

structure RuntimeSpec where
  profile : ProfileBinding
  mode : AgentMode
  clientMetadata : ClientMetadata

/-- What a started session is made of. -/
structure Runtime where
  profile : ProfileBinding
  credential : Credential

/-- The relay still knows the session, so a pending leave did not happen. -/
def dropPending (pending : Option LeaveJournal) (runtime : Runtime) :
    Run (Except SessionError Runtime) := do
  if pending.isSome then
    let some () ← perform .removeJournal | return .error (.local .os)
    return .ok runtime
  return .ok runtime

/-- The relay no longer knows the session, so a pending leave did happen. -/
def completePending (intent : LeaveJournal) : Run (Except SessionError Runtime) := do
  match ← journalConfirmation intent with
  | .error e => return .error (.local e)
  | .ok () =>
    match ← cleanupConfirmedLeave with
    | .error e => return .error (.local e)
    | .ok () => return .error .unbound

/-- What `start_locked_with` makes of the first heartbeat. -/
def classifyHeartbeat (spec : RuntimeSpec) (pending : Option LeaveJournal)
    (credential : Credential) :
    Except ClientError HeartbeatResponse → Run (Except SessionError Runtime)
  | .ok _ => dropPending pending ⟨spec.profile, credential⟩
  | .error (.api status code retryable) => do
    if code = .leaseExpired then
      match ← resumeTransaction spec.profile ⟨spec.mode, spec.clientMetadata⟩ credential with
      | .error e => return .error (resumeSessionError e)
      | .ok session => dropPending pending ⟨spec.profile, session.credential⟩
    else if code = .notMember ∨ code = .squadArchived then
      match pending with
      | some intent => completePending intent
      | none => return .error (.relay (.api status code retryable))
    else return .error (.relay (.api status code retryable))
  | .error e => return .error (.relay e)

/-- `start_locked_with`. -/
def startLocked (spec : RuntimeSpec) : Run (Except SessionError Runtime) := do
  let some stored ← perform .loadJournal | return .error (.local .os)
  match LeaveJournal.load stored spec.profile with
  | .error e => return .error (.local e)
  | .ok pending =>
    if pending.any fun journal => decide (journal.phase = .confirmed) then
      match ← cleanupConfirmedLeave with
      | .error e => return .error (.local e)
      | .ok () => return .error .unbound
    let some held ← perform .loadCredential | return .error (.local .os)
    match CredentialRecord.load held spec.profile.credentialBinding with
    | .error e => return .error (.local e)
    | .ok credential =>
      let heartbeat ← Transport.heartbeat ⟨.unknown, .unknown⟩ credential
      classifyHeartbeat spec pending credential heartbeat

def start (spec : RuntimeSpec) : Run (Except SessionError Runtime) := do
  let some found ← perform .loadProfile | return .error (.local .os)
  if found ≠ some spec.profile then return .error .unbound
  startLocked spec

/-! ## Joining -/

structure UnboundRuntimeSpec where
  key : ProfileKey
  squad : SquadName

/-- The binding a joined session makes. -/
def UnboundRuntimeSpec.binding (spec : UnboundRuntimeSpec) (response : SessionResponse) :
    ProfileBinding where
  toProfileKey := spec.key
  squadName := response.squad.name
  squadId := response.squad.id
  memberId := response.membershipId

/-- The two records of a new binding: the credential, then the metadata, scrubbing the
credential when the metadata cannot be stored. -/
def bindProfile (profile : ProfileBinding) (credential : Credential) :
    Run (Except SessionError Unit) := do
  let some () ← perform (.storeCredential ⟨profile.credentialBinding, credential⟩)
    | return .error (.local .os)
  match ← perform (.storeProfile profile) with
  | some () => return .ok ()
  | none =>
    let some () ← perform .clearCredential | return .error (.local .os)
    return .error (.local .os)

def joinAndBind (spec : UnboundRuntimeSpec) (request : JoinSquadRequest) :
    Run (Except SessionError Runtime) := do
  if ← perform .metadataExists then return .error (.local .alreadyExists)
  if ← perform .credentialExists then return .error (.local .alreadyExists)
  match ← Transport.join spec.squad request with
  | .error e => return .error (.relay e)
  | .ok session =>
    if session.response.squad.name ≠ spec.squad ∨ session.response.memberName ≠ request.name
        ∨ session.response.role ≠ request.role then
      return .error (.relay (.malformedResponse 200))
    match ← bindProfile (spec.binding session.response) session.credential with
    | .error e => return .error e
    | .ok () => startLocked ⟨spec.binding session.response, request.mode, request.client⟩

/-! ## Leaving -/

def beginLeave : Run (Except SessionError Unit) := do
  match ← perform (.exchangeLifecycle .ready .leaving) with
  | .ready => return .ok ()
  | .left =>
    match ← cleanupConfirmedLeave with
    | .error e => return .error (.local e)
    | .ok () => return .error .unbound
  | _ => return .error .notReady

def rollbackLeave : Run Unit := do
  if ← perform .shutdownRequested then return ()
  if ← perform .shutdownRequested then return ()
  perform (.setLifecycle .ready)

/-- Leave with an error and an outcome nobody knows. -/
def giveUpLeave {α : Type} (error : SessionError) : Run (Except SessionError α) := do
  perform (.setLifecycle .outcomeUnknown)
  return .error error

/-- The leave is confirmed: record that, clean up, and report what the relay said. -/
def finishLeave (intent : LeaveJournal) (response : Except ClientError LeaveSquadResponse) :
    Run (Except SessionError LeaveSquadResponse) := do
  match ← journalConfirmation intent with
  | .error e => giveUpLeave (.local e)
  | .ok () =>
    let cleanup ← cleanupConfirmedLeave
    perform (.setLifecycle .left)
    let some () ← perform (.drain .scheduler) | return .error .shutdownTimedOut
    match cleanup with
    | .error e => return .error (.local e)
    | .ok () => return response.mapError .relay

/-- What `leave` makes of the relay's answer. -/
def classifyLeave (profile : ProfileBinding) (intent : LeaveJournal) :
    Except ClientError LeaveSquadResponse → Run (Except SessionError LeaveSquadResponse)
  | .ok response =>
    if response.membershipId = profile.memberId then finishLeave intent (.ok response)
    else giveUpLeave (.relay (.malformedResponse 200))
  | .error (.api status code retryable) => do
    if code = .notMember ∨ code = .squadArchived then
      finishLeave intent (.error (.api status code retryable))
    else
      let some () ← perform .removeJournal | giveUpLeave (.local .os)
      rollbackLeave
      return .error (.relay (.api status code retryable))
  | .error e => giveUpLeave (.relay e)

def leaveSession (profile : ProfileBinding) : Run (Except SessionError LeaveSquadResponse) := do
  let some () ← perform (.drain .reports) | return .error .shutdownTimedOut
  match ← beginLeave with
  | .error e => return .error e
  | .ok () =>
    match ← perform (.drain .sends) with
    | none =>
      rollbackLeave
      return .error .shutdownTimedOut
    | some () =>
      perform .lockHeartbeat
      let credential ← perform .credential
      match ← journalIntent profile with
      | .error e =>
        rollbackLeave
        return .error (.local e)
      | .ok intent =>
        let response ← Transport.leave profile.squadName credential
        classifyLeave profile intent response

/-! ## Heartbeats -/

/-- Where a failed resume leaves the session. -/
def ResumeTransactionError.lifecycle : ResumeTransactionError → LifecycleState
  | .relay .outcomeUnknown => .outcomeUnknown
  | .relay _ => .ready
  | .persist _ => .rotationFailed

/-- The lease ran out: resume under `Recovering`, which nobody else may leave. -/
def recoverLease (profile : ProfileBinding) (request : ResumeSquadRequest)
    (credential : Credential) : Run (Except SessionError Unit) := do
  match ← perform (.exchangeLifecycle .ready .recovering) with
  | .ready =>
    match ← resumeTransaction profile request credential with
    | .error e =>
      let _ ← perform (.exchangeLifecycle .recovering e.lifecycle)
      return .error (resumeSessionError e)
    | .ok session =>
      perform (.publish session.credential)
      match ← perform (.exchangeLifecycle .recovering .ready) with
      | .recovering => return .ok ()
      | _ => return .error .notReady
  | _ => return .error .notReady

/-- A heartbeat is sent; it counts only if the session is still ready when its answer comes. -/
def hearBeat (profile : ProfileBinding) (resume : ResumeSquadRequest) (credential : Credential)
    (call : Nat) : Run (Except SessionError Unit) := do
  let some arrival ← perform (.awaitUnlessCancelled call) | return .error .notReady
  match ← perform .lifecycle with
  | .ready =>
    match Client.heartbeat arrival with
    | .ok _ => return .ok ()
    | .error (.api status code retryable) =>
      if code = .leaseExpired then recoverLease profile resume credential
      else return .error (.relay (.api status code retryable))
    | .error e => return .error (.relay e)
  | _ => return .error .notReady

/-- One heartbeat of a ready session, by the scheduler or for `report_availability`. -/
def beat (profile : ProfileBinding) (request : HeartbeatRequest) (resume : ResumeSquadRequest) :
    Run (Except SessionError Unit) := do
  match ← perform .lifecycle with
  | .ready =>
    let credential ← perform .credential
    match ← perform (.send (.heartbeat request credential)) with
    | .error e => return .error (.relay e)
    | .ok call => hearBeat profile resume credential call
  | _ => return .error .notReady

/-- One round of `run_heartbeat`, past its sleep; the round's error only shows in the health. -/
def heartbeatRound (profile : ProfileBinding) (request : HeartbeatRequest)
    (resume : ResumeSquadRequest) : Run Unit := do
  let _ ← beat profile request resume
  return ()

/-- `report_availability_owned`. -/
def reportAvailability (profile : ProfileBinding) (availability : Availability)
    (resume : ResumeSquadRequest) : Run (Except SessionError Unit) :=
  let source := if availability = .unknown then AvailabilitySource.unknown else .agentReported
  beat profile ⟨availability, source⟩ resume

end Psst
