import Psst.Protocol.Api
import Psst.Store.Run

/-!
# Commands of the store worker

What a request handler hands to the worker thread, and what the worker runs for it. The
worker reads the clock once per command, after it took the command from the queue; the
handlers supply everything else, the freshly drawn identifiers included.
-/

namespace Psst

structure WorkerJoin where
  membership : JoinMembership
  instanceId : InstanceId
  mode : AgentMode
  clientKind : String
  hostname : Option String
  availability : Availability
  availabilitySource : AvailabilitySource
  leasePolicy : LeasePolicy

structure WorkerCreateSquad where
  id : SquadId
  name : SquadName
  mission : Mission

structure WorkerResume where
  prior : Credential
  squad : SquadName
  newInstance : InstanceId
  mode : AgentMode
  clientKind : String
  hostname : Option String
  availability : Availability
  availabilitySource : AvailabilitySource
  leasePolicy : LeasePolicy

/-- The commands of the queue, without the two that only probe the database file. -/
inductive StoreCommand where
  | join (request : WorkerJoin)
  | listSquads
  | createSquad (request : WorkerCreateSquad)
  | describeSquad (name : SquadName)
  | roster (credential : Credential) (name : SquadName)
  | heartbeat (credential : Credential) (availability : Availability)
      (source : AvailabilitySource) (policy : LeasePolicy)
  | send (credential : Credential) (request : SendByName)
  | pending (credential : Credential) (limit : Nat)
  | acknowledge (credential : Credential) (ids : List MessageId)
  | transcript (credential : Credential) (query : TranscriptByName)
  | leave (credential : Credential) (squad : SquadName)
  | archive (credential : Credential) (squad : SquadName)
  | resume (request : WorkerResume)

/-- The lease policy a command carries. -/
def StoreCommand.policy : StoreCommand → Option LeasePolicy
  | .join request => some request.leasePolicy
  | .heartbeat _ _ _ policy => some policy
  | .resume request => some request.leasePolicy
  | _ => none

/-- What the worker sends back when a command succeeds. -/
inductive Reply where
  | joined (outcome : JoinAndClaimOutcome)
  | squads (records : List SquadRecord)
  | squad (record : SquadRecord)
  | roster (members : List RosterMember)
  | heartbeat (record : InstanceRecord)
  | sent (outcome : SendOutcome)
  | page (page : InboxPage)
  | acknowledged
  | transcript (views : List MessageView)
  | left (outcome : LeaveOutcome)
  | resumed (context : SessionContext)

def session (credential : Credential) (now : UnixMillis) : AuthenticatedSession where
  instanceId := credential.instanceId
  resumeToken := credential.resumeToken
  now := now

/-- The store request of a join: the handler's placeholder time is replaced by the clock. -/
def WorkerJoin.atNow (request : WorkerJoin) (now : UnixMillis) : JoinAndClaim where
  membership := { request.membership with joinedAt := now }
  instanceId := request.instanceId
  mode := request.mode
  clientKind := request.clientKind
  hostname := request.hostname
  availability := request.availability
  availabilitySource := request.availabilitySource
  leasePolicy := request.leasePolicy

def WorkerCreateSquad.atNow (request : WorkerCreateSquad) (now : UnixMillis) : CreateSquad where
  id := request.id
  name := request.name
  mission := request.mission
  createdAt := now

def WorkerResume.atNow (request : WorkerResume) (now : UnixMillis) : AuthenticatedResume where
  priorInstance := request.prior.instanceId
  token := request.prior.resumeToken
  newInstance := request.newInstance
  mode := request.mode
  clientKind := request.clientKind
  hostname := request.hostname
  availability := request.availability
  source := request.availabilitySource
  now := now
  policy := request.leasePolicy
  expectedSquad := request.squad

/-- The store operation a command runs when the clock reads `now`; `generated` is the token a
join draws. -/
def StoreCommand.op (now : UnixMillis) (generated : Option ResumeToken) : StoreCommand → Op
  | .join request => .joinAndClaim (request.atNow now) generated
  | .listSquads => .listSquads
  | .createSquad request => .createSquad (request.atNow now)
  | .describeSquad name => .describeSquad name
  | .roster credential name => .authenticatedRoster (session credential now) name
  | .heartbeat credential availability source policy =>
    .authenticatedHeartbeat (session credential now) availability source policy
  | .send credential request => .authenticatedSendByName (session credential now) request
  | .pending credential limit => .authenticatedPendingPage (session credential now) limit
  | .acknowledge credential ids => .authenticatedAcknowledge (session credential now) ids
  | .transcript credential query =>
    .authenticatedTranscriptViews (session credential now) query
  | .leave credential squad => .authenticatedLeave (session credential now) squad
  | .archive credential squad => .authenticatedArchiveByName (session credential now) squad
  | .resume request => .authenticatedResume (request.atNow now)

/-- The store operation of a command carries the command's policy. -/
theorem StoreCommand.op_policy (command : StoreCommand) (now : UnixMillis)
    (generated : Option ResumeToken) : (command.op now generated).policy = command.policy := by
  cases command <;> rfl

/-- Run one transaction and wrap its result for the reply channel. -/
def Store.answer {α : Type} (s : Store) (x : StoreTx α) (reply : α → Reply) :
    Except RepositoryError Reply × Store :=
  ((Tx.commit x s).1.map reply, (Tx.commit x s).2)

theorem Store.answer_of_error {α : Type} {s : Store} {x : StoreTx α} {reply : α → Reply}
    {e : RepositoryError} (h : (s.answer x reply).1 = .error e) : (s.answer x reply).2 = s := by
  rcases Tx.commit_cases x s with ⟨e', -, hc⟩ | ⟨a, t, -, hc⟩
  · simp only [Store.answer, hc]
  · simp only [Store.answer, hc] at h
    cases h

variable [Sha256]

/-- Run a command as one transaction: what the worker replies and the store it leaves. -/
def Store.execute (s : Store) (command : StoreCommand) (now : UnixMillis)
    (generated : Option ResumeToken) : Except RepositoryError Reply × Store :=
  match command with
  | .join request => s.answer (joinAndClaim (request.atNow now) generated) .joined
  | .listSquads => s.answer listSquads .squads
  | .createSquad request => s.answer (createSquad (request.atNow now)) .squad
  | .describeSquad name => s.answer (describeSquad name) .squad
  | .roster credential name => s.answer (authenticatedRoster (session credential now) name) .roster
  | .heartbeat credential availability source policy =>
    s.answer (authenticatedHeartbeat (session credential now) availability source policy) .heartbeat
  | .send credential request =>
    s.answer (authenticatedSendByName (session credential now) request) .sent
  | .pending credential limit =>
    s.answer (authenticatedPendingPage (session credential now) limit) .page
  | .acknowledge credential ids =>
    s.answer (authenticatedAcknowledge (session credential now) ids) fun _ => .acknowledged
  | .transcript credential query =>
    s.answer (authenticatedTranscriptViews (session credential now) query) .transcript
  | .leave credential squad => s.answer (authenticatedLeave (session credential now) squad) .left
  | .archive credential squad =>
    s.answer (authenticatedArchiveByName (session credential now) squad) .squad
  | .resume request => s.answer (authenticatedResume (request.atNow now)) .resumed

/-- A command leaves the store its store operation leaves. -/
theorem Store.execute_snd (s : Store) (command : StoreCommand) (now : UnixMillis)
    (generated : Option ResumeToken) :
    (s.execute command now generated).2 = s.exec (command.op now generated) := by
  cases command <;> rfl

/-- A command that fails leaves the store alone. -/
theorem Store.execute_of_error {s : Store} {command : StoreCommand} {now : UnixMillis}
    {generated : Option ResumeToken} {e : RepositoryError}
    (h : (s.execute command now generated).1 = .error e) :
    (s.execute command now generated).2 = s := by
  cases command <;> exact Store.answer_of_error h

end Psst
