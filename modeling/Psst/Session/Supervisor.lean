import Psst.Session.Program
import Psst.Store.Run

/-!
# The supervisor and its tasks

`SupervisorState` and the tasks that share it: the heartbeat scheduler, availability reports,
sends, leaves and shutdowns. A task is the point its text has reached, and every step is one
access to the shared state or one answer from outside: a file that was written or not, what the
relay replied, a bound that ran out. Between two steps of a task every other task may move.

The leave journal, the profile metadata and the responses of sends decide nothing here beyond
success or failure, so they are answers and not state.
-/

namespace Psst

/-! ## Shared state -/

inductive SessionHealth where
  | ready
  | degraded
  | outcomeUnknown
  | rotationFailed
  | stopped
  deriving DecidableEq

/-- `u64::MAX` -/
def maxGeneration : Nat := 2 ^ 64 - 1

structure Shared where
  credential : Credential
  generation : Nat
  health : SessionHealth

/-- The part of `authority` that can change. -/
structure AuthoritySnapshot where
  credential : Credential
  generation : Nat
  deriving DecidableEq

def Shared.snapshot (shared : Shared) : AuthoritySnapshot :=
  ⟨shared.credential, shared.generation⟩

structure ReportTracker where
  active : Nat
  /-- The current cancellation token. -/
  cancel : Nat
  permanentlyClosed : Bool

def maxActiveReports : Nat := 8

/-- The gate of the send ledger, without its entries. -/
structure SendAdmission where
  accepting : Bool
  inflight : Nat
  admissionOpen : Bool
  permanentlyClosed : Bool

/-- The state all tasks share. A cancellation token is a number, and `tokens` says which are
cancelled; a gate is the task that holds it. The credential file belongs to the supervisor as
long as it has the profile lock. `published` is what an observer remembers: every credential
and generation that was ever shared. -/
structure Supervisor where
  profile : ProfileBinding
  lifecycle : LifecycleState
  shared : Shared
  persisted : Option Credential
  operationGate : Option Nat
  heartbeatGate : Option Nat
  tokens : Nat → Bool
  nextToken : Nat
  readCancel : Nat
  reports : ReportTracker
  sends : SendAdmission
  shutdownRequested : Bool
  operationCancel : Bool
  cancel : Bool
  published : List AuthoritySnapshot

namespace Supervisor

def setLifecycle (s : Supervisor) (lifecycle : LifecycleState) : Supervisor :=
  { s with lifecycle := lifecycle }

def setHealth (s : Supervisor) (health : SessionHealth) : Supervisor :=
  { s with shared := { s.shared with health := health } }

/-- A rotated credential becomes the shared one. -/
def publish (s : Supervisor) (credential : Credential) : Supervisor :=
  let shared : Shared :=
    { credential := credential
      generation := min (s.shared.generation + 1) maxGeneration
      health := .ready }
  { s with shared := shared, published := s.published ++ [shared.snapshot] }

def setPersisted (s : Supervisor) (credential : Option Credential) : Supervisor :=
  { s with persisted := credential }

def setOperationGate (s : Supervisor) (holder : Option Nat) : Supervisor :=
  { s with operationGate := holder }

def setHeartbeatGate (s : Supervisor) (holder : Option Nat) : Supervisor :=
  { s with heartbeatGate := holder }

def setSends (s : Supervisor) (sends : SendAdmission) : Supervisor := { s with sends := sends }

def setReports (s : Supervisor) (reports : ReportTracker) : Supervisor :=
  { s with reports := reports }

/-- `CancellationToken::cancel` -/
def cancelToken (s : Supervisor) (token : Nat) : Supervisor :=
  { s with tokens := Function.update s.tokens token true }

/-- `read_cancel` gets a new token. -/
def renewReads (s : Supervisor) : Supervisor :=
  { s with
    readCancel := s.nextToken
    tokens := Function.update s.tokens s.nextToken false
    nextToken := s.nextToken + 1 }

/-- `ReportTracker::register`; a report that is refused leaves no trace. -/
def register (s : Supervisor) : Option (Nat × Supervisor) :=
  if s.reports.permanentlyClosed ∨ s.tokens s.reports.cancel then none
  else if maxActiveReports ≤ s.reports.active then none
  else some (s.reports.cancel, s.setReports { s.reports with active := s.reports.active + 1 })

/-- `ReportTracker::reopen` -/
def reopenReports (s : Supervisor) : Supervisor :=
  if s.reports.permanentlyClosed then s
  else
    { s with
      reports := { s.reports with cancel := s.nextToken }
      tokens := Function.update s.tokens s.nextToken false
      nextToken := s.nextToken + 1 }

end Supervisor

/-! ## Points of the texts -/

/-- `resume_transaction`, which runs in a task of its own. -/
inductive ResumePoint where
  | asking (credential : Credential)
  | persisting (session : Session)

/-- `report_availability_owned`, then `finish`. -/
inductive ReportPoint where
  | awaitingGate (cancel : Nat)
  | checkingOperations (cancel : Nat)
  | checkingLifecycle (cancel : Nat)
  | readingCredential (cancel : Nat)
  | beating (cancel : Nat) (credential : Credential)
  | answered (credential : Credential) (response : Except ClientError HeartbeatResponse)
  | expired (credential : Credential)
  | resuming (point : ResumePoint)
  | resumed (error : ResumeTransactionError)
  | failing (error : ResumeTransactionError)
  | failed (error : ResumeTransactionError)
  | publishing (session : Session)
  | published
  | noting (error : ClientError)
  | degrading (health : SessionHealth)
  | recording
  | finishing
  | done

/-- One round of `run_heartbeat` after the other. -/
inductive BeatPoint where
  | sleeping
  | awaitingGate
  | checkingCancel
  | checkingLifecycle
  | readingCredential
  | beating (credential : Credential)
  | answered (credential : Credential) (response : Except ClientError HeartbeatResponse)
  | reviewing (credential : Credential) (response : Except ClientError HeartbeatResponse)
  | expired (credential : Credential)
  | resuming (point : ResumePoint)
  | failing (error : ResumeTransactionError)
  | failed (error : ResumeTransactionError)
  | publishing (session : Session)
  | published
  | recovered
  | degrading (health : SessionHealth)
  | recording
  /-- Sleeping after a failure, with the gate in hand. -/
  | backingOff
  /-- Aborted while its resume transaction goes on without it. -/
  | orphaned (point : ResumePoint)
  | stopped

/-- `authority`, and then the rest of `send_prepared` and the task it spawns. -/
inductive SendPoint where
  | checkingShutdown
  | checkingLifecycle
  | readingShared
  | recheckingLifecycle (snapshot : AuthoritySnapshot)
  | recheckingShutdown (snapshot : AuthoritySnapshot)
  /-- `authority` has returned. -/
  | authorized (snapshot : AuthoritySnapshot)
  | reserving (snapshot : AuthoritySnapshot)
  | awaitingGate (snapshot : AuthoritySnapshot)
  | readingLifecycle (snapshot : AuthoritySnapshot)
  | comparing (snapshot : AuthoritySnapshot) (lifecycle : LifecycleState)
  /-- The request is with the transport. -/
  | sending (snapshot : AuthoritySnapshot)
  | finishing
  | done

/-- `rollback_leave` -/
inductive RollbackPoint where
  | reads
  | sends
  | sendsLocked
  | admission
  | admissionAgain
  | reports
  | checkingShutdown
  | lifecycle

/-- The task of `leave`. A rollback keeps the heartbeat gate if the leave had got it. -/
inductive LeavePoint where
  | locking
  | cancellingReports
  | drainingReports
  | undrained
  | undrainedReady
  | reopeningReports
  | cloningReads
  | beginning (cancel : Nat)
  | replayingCleanup
  | stoppingSends
  | closingSends
  | drainingSends
  | awaitingGate
  | readingCredential
  | issuing (credential : Credential)
  | asking (credential : Credential)
  | removingJournal
  | confirming
  | cancellingScheduler
  | cancellingOperations
  | clearingCredential
  | clearingRest
  | stopping
  | departing
  | reaping
  | losing
  | lost
  | rollingBack (gated : Bool) (point : RollbackPoint)
  | done

/-- `request_shutdown`, and `shutdown`, which also drains and reaps. -/
inductive ShutdownPoint where
  | requesting
  | closingSends
  | stoppingSends
  | closingReports
  | cancellingReports
  | drainingReports
  | stoppingAgain
  | refusingSends
  | drainingSends
  | cancellingReads
  | cancellingOperations
  | cancellingScheduler
  | reaping
  | locking
  | stopping
  | done

inductive SupervisedTask where
  | beat (point : BeatPoint)
  | report (point : ReportPoint)
  | send (point : SendPoint)
  | leave (point : LeavePoint)
  | shutdown (graceful : Bool) (point : ShutdownPoint)

/-- What comes from outside with a step. -/
inductive Outcome where
  | go
  /-- A file operation failed, or a bound ran out. -/
  | fail
  | cancelled
  | heartbeat (response : Except ClientError HeartbeatResponse)
  | resume (result : Except ClientError Session)
  | persist (effect : Effect)
  | leave (result : Except ClientError LeaveSquadResponse)

/-! ## Steps -/

def ResumeTransactionError.health : ResumeTransactionError → SessionHealth
  | .relay .outcomeUnknown => .outcomeUnknown
  | .relay _ => .degraded
  | .persist _ => .rotationFailed

/-- Where a failed heartbeat leaves the health. -/
def ClientError.health : ClientError → SessionHealth
  | .outcomeUnknown => .outcomeUnknown
  | _ => .degraded

/-- The relay says the lease is over. -/
def ClientError.leaseExpired : ClientError → Bool
  | .api _ .leaseExpired _ => true
  | _ => false

/-- The resumed session is the profile's own. -/
def ProfileBinding.owns (profile : ProfileBinding) (session : Session) : Prop :=
  session.response.squad.id = profile.squadId
    ∧ session.response.squad.name = profile.squadName
    ∧ session.response.membershipId = profile.memberId

instance (profile : ProfileBinding) (session : Session) : Decidable (profile.owns session) :=
  inferInstanceAs (Decidable (_ ∧ _ ∧ _))

/-- A transaction goes on, or is over. -/
abbrev ResumeStep := ResumePoint ⊕ Except ResumeTransactionError Session

def ResumePoint.step (s : Supervisor) : ResumePoint → Outcome → Option (ResumeStep × Supervisor)
  | .asking _, .resume (.error e) => some (.inr (.error (.relay e)), s)
  | .asking _, .resume (.ok session) =>
    if s.profile.owns session then some (.inl (.persisting session), s)
    else some (.inr (.error (.relay (.malformedResponse 200))), s)
  | .persisting session, .persist effect =>
    some (.inr (if effect.reported = some () then .ok session else .error (.persist .os)),
      if effect.applied then s.setPersisted (some session.credential) else s)
  | _, _ => none

/-- Take a free gate. -/
def Supervisor.lockHeartbeat (s : Supervisor) (i : Nat) : Option Supervisor :=
  if s.heartbeatGate = none then some (s.setHeartbeatGate (some i)) else none

def Supervisor.lockOperation (s : Supervisor) (i : Nat) : Option Supervisor :=
  if s.operationGate = none then some (s.setOperationGate (some i)) else none

def ReportPoint.step (i : Nat) (s : Supervisor) :
    ReportPoint → Outcome → Option (ReportPoint × Supervisor)
  | .awaitingGate cancel, .cancelled => if s.tokens cancel then some (.finishing, s) else none
  | .awaitingGate cancel, .go => (s.lockHeartbeat i).map (.checkingOperations cancel, ·)
  | .checkingOperations cancel, .go =>
    if s.operationCancel then some (.finishing, s.setHeartbeatGate none)
    else some (.checkingLifecycle cancel, s)
  | .checkingLifecycle cancel, .go =>
    if s.lifecycle = .ready then some (.readingCredential cancel, s)
    else some (.finishing, s.setHeartbeatGate none)
  | .readingCredential cancel, .go => some (.beating cancel s.shared.credential, s)
  | .beating cancel _, .cancelled =>
    if s.tokens cancel then some (.finishing, s.setHeartbeatGate none) else none
  | .beating _ credential, .heartbeat response => some (.answered credential response, s)
  | .answered credential response, .go =>
    if s.lifecycle = .ready then
      match response with
      | .ok _ => some (.recording, s)
      | .error e =>
        if e.leaseExpired then some (.expired credential, s) else some (.noting e, s)
    else some (.finishing, s.setHeartbeatGate none)
  | .expired credential, .go =>
    if s.lifecycle = .ready then
      some (.resuming (.asking credential), s.setLifecycle .recovering)
    else some (.finishing, s.setHeartbeatGate none)
  | .resuming point, outcome =>
    (point.step s outcome).map fun
      | (.inl point, s) => (.resuming point, s)
      | (.inr (.ok session), s) => (.publishing session, s)
      | (.inr (.error e), s) => (.resumed e, s)
  | .resumed e, .go =>
    if s.lifecycle = .leaving then some (.finishing, s.setHeartbeatGate none)
    else some (.failing e, s)
  -- `publish_resume_failure`: the health first, then the lifecycle
  | .failing e, .go =>
    if s.lifecycle = .recovering then some (.failed e, s.setHealth e.health)
    else some (.finishing, s.setHeartbeatGate none)
  | .failed e, .go => some (.finishing, (s.setLifecycle e.lifecycle).setHeartbeatGate none)
  | .publishing session, .go => some (.published, s.publish session.credential)
  | .published, .go =>
    if s.lifecycle = .recovering then
      some (.finishing, (s.setLifecycle .ready).setHeartbeatGate none)
    else some (.finishing, s.setHeartbeatGate none)
  | .noting e, .go =>
    if s.lifecycle = .ready then some (.degrading e.health, s)
    else some (.finishing, s.setHeartbeatGate none)
  | .degrading health, .go => some (.finishing, (s.setHealth health).setHeartbeatGate none)
  | .recording, .go => some (.finishing, (s.setHealth .ready).setHeartbeatGate none)
  | .finishing, .go =>
    some (.done, s.setReports { s.reports with active := s.reports.active - 1 })
  | _, _ => none

def BeatPoint.step (i : Nat) (s : Supervisor) :
    BeatPoint → Outcome → Option (BeatPoint × Supervisor)
  | .sleeping, .cancelled => if s.cancel then some (.stopped, s) else none
  | .sleeping, .go => some (.awaitingGate, s)
  | .awaitingGate, .cancelled => if s.cancel then some (.stopped, s) else none
  | .awaitingGate, .go => (s.lockHeartbeat i).map (.checkingCancel, ·)
  | .checkingCancel, .go =>
    if s.cancel then some (.stopped, s.setHeartbeatGate none) else some (.checkingLifecycle, s)
  | .checkingLifecycle, .go =>
    match s.lifecycle with
    | .leaving => some (.sleeping, s.setHeartbeatGate none)
    | .ready => some (.readingCredential, s)
    | _ => some (.stopped, s.setHeartbeatGate none)
  | .readingCredential, .go => some (.beating s.shared.credential, s)
  | .beating _, .cancelled => if s.cancel then some (.stopped, s.setHeartbeatGate none) else none
  | .beating credential, .heartbeat response => some (.answered credential response, s)
  | .answered credential response, .go =>
    if s.cancel then some (.stopped, s.setHeartbeatGate none)
    else some (.reviewing credential response, s)
  | .reviewing credential response, .go =>
    match s.lifecycle with
    | .leaving => some (.sleeping, s.setHeartbeatGate none)
    | .ready =>
      match response with
      | .ok _ => some (.recording, s)
      | .error e =>
        if e.leaseExpired then some (.expired credential, s) else some (.degrading e.health, s)
    | _ => some (.stopped, s.setHeartbeatGate none)
  | .expired credential, .go =>
    if s.lifecycle = .ready then
      some (.resuming (.asking credential), s.setLifecycle .recovering)
    else some (.sleeping, s.setHeartbeatGate none)
  | .resuming point, outcome =>
    (point.step s outcome).map fun
      | (.inl point, s) => (.resuming point, s)
      | (.inr (.ok session), s) => (.publishing session, s)
      | (.inr (.error e), s) => (.failing e, s)
  | .failing e, .go =>
    if s.lifecycle = .recovering then some (.failed e, s.setHealth e.health)
    else some (.stopped, s.setHeartbeatGate none)
  | .failed e, .go => some (.recovered, s.setLifecycle e.lifecycle)
  | .publishing session, .go => some (.published, s.publish session.credential)
  | .published, .go =>
    if s.lifecycle = .recovering then some (.recovered, s.setLifecycle .ready)
    else some (.stopped, s.setHeartbeatGate none)
  | .recovered, .go =>
    if s.cancel then some (.stopped, s.setHeartbeatGate none)
    else some (.sleeping, s.setHeartbeatGate none)
  | .degrading .outcomeUnknown, .go =>
    some (.sleeping, (s.setHealth .outcomeUnknown).setHeartbeatGate none)
  | .degrading health, .go => some (.backingOff, s.setHealth health)
  | .backingOff, .cancelled => if s.cancel then some (.stopped, s.setHeartbeatGate none) else none
  | .backingOff, .go => some (.sleeping, s.setHeartbeatGate none)
  | .recording, .go => some (.sleeping, (s.setHealth .ready).setHeartbeatGate none)
  | .orphaned point, outcome =>
    (point.step s outcome).map fun
      | (.inl point, s) => (.orphaned point, s)
      | (.inr _, s) => (.stopped, s)
  | _, _ => none

def SendPoint.step (i : Nat) (s : Supervisor) :
    SendPoint → Outcome → Option (SendPoint × Supervisor)
  | .checkingShutdown, .go =>
    if s.shutdownRequested then some (.done, s) else some (.checkingLifecycle, s)
  | .checkingLifecycle, .go =>
    if s.lifecycle = .ready then some (.readingShared, s) else some (.done, s)
  | .readingShared, .go =>
    if s.shared.health = .ready then some (.recheckingLifecycle s.shared.snapshot, s)
    else some (.done, s)
  | .recheckingLifecycle snapshot, .go =>
    if s.lifecycle = .ready then some (.recheckingShutdown snapshot, s) else some (.done, s)
  | .recheckingShutdown snapshot, .go =>
    if s.shutdownRequested then some (.done, s) else some (.authorized snapshot, s)
  | .authorized snapshot, .go =>
    if s.sends.permanentlyClosed ∨ ¬ s.sends.admissionOpen then some (.done, s)
    else some (.reserving snapshot, s)
  | .reserving snapshot, .go =>
    if s.sends.permanentlyClosed ∨ ¬ s.sends.accepting ∨ ¬ s.sends.admissionOpen then
      some (.done, s)
    else
      some (.awaitingGate snapshot,
        s.setSends { s.sends with inflight := s.sends.inflight + 1 })
  -- the same send is already on its way, or there is no room
  | .reserving _, .fail => some (.done, s)
  | .awaitingGate snapshot, .go => (s.lockHeartbeat i).map (.readingLifecycle snapshot, ·)
  | .readingLifecycle snapshot, .go => some (.comparing snapshot s.lifecycle, s)
  | .comparing snapshot lifecycle, .go =>
    if s.shared.generation = snapshot.generation ∧ s.shared.health = .ready
        ∧ (lifecycle = .ready ∨ lifecycle = .leaving) then
      some (.sending snapshot, s)
    else some (.finishing, s)
  | .sending _, .go => some (.finishing, s)
  | .finishing, .go =>
    some (.done,
      (s.setSends { s.sends with inflight := s.sends.inflight - 1 }).setHeartbeatGate none)
  | _, _ => none

/-- The task of a leave ends. -/
def Supervisor.endLeave (s : Supervisor) (gated : Bool) : Supervisor :=
  let s := s.setOperationGate none
  if gated then s.setHeartbeatGate none else s

/-- Where the relay's answer takes a leave. -/
def LeavePoint.classify (profile : ProfileBinding) :
    Except ClientError LeaveSquadResponse → LeavePoint
  | .ok response => if response.membershipId = profile.memberId then .confirming else .losing
  | .error (.api _ code _) =>
    if code = .notMember ∨ code = .squadArchived then .confirming else .removingJournal
  | .error _ => .losing

def RollbackPoint.step (gated : Bool) (s : Supervisor) :
    RollbackPoint → Outcome → Option (LeavePoint × Supervisor)
  | .reads, .go =>
    if s.shutdownRequested then some (.done, s.endLeave gated)
    else some (.rollingBack gated .sends, s.renewReads)
  | .sends, .go =>
    if s.sends.permanentlyClosed then some (.rollingBack gated .reports, s)
    else some (.rollingBack gated .sendsLocked, s)
  | .sendsLocked, .go =>
    if s.sends.permanentlyClosed then some (.rollingBack gated .reports, s)
    else some (.rollingBack gated .admission, s.setSends { s.sends with accepting := true })
  | .admission, .go =>
    some (.rollingBack gated .admissionAgain, s.setSends { s.sends with admissionOpen := true })
  | .admissionAgain, .go =>
    if s.sends.permanentlyClosed then
      some (.rollingBack gated .reports, s.setSends { s.sends with admissionOpen := false })
    else some (.rollingBack gated .reports, s)
  | .reports, .go => some (.rollingBack gated .checkingShutdown, s.reopenReports)
  | .checkingShutdown, .go =>
    if s.shutdownRequested then some (.done, s.endLeave gated)
    else some (.rollingBack gated .lifecycle, s)
  | .lifecycle, .go => some (.done, (s.setLifecycle .ready).endLeave gated)
  | _, _ => none

def LeavePoint.step (i : Nat) (s : Supervisor) :
    LeavePoint → Outcome → Option (LeavePoint × Supervisor)
  | .locking, .go => (s.lockOperation i).map (.cancellingReports, ·)
  | .cancellingReports, .go => some (.drainingReports, s.cancelToken s.reports.cancel)
  | .drainingReports, .go => if s.reports.active = 0 then some (.cloningReads, s) else none
  | .drainingReports, .fail => some (.undrained, s)
  | .undrained, .go =>
    if s.shutdownRequested then some (.done, s.endLeave false) else some (.undrainedReady, s)
  | .undrainedReady, .go =>
    if s.lifecycle = .ready then some (.reopeningReports, s)
    else some (.done, s.endLeave false)
  | .reopeningReports, .go => some (.done, s.reopenReports.endLeave false)
  | .cloningReads, .go => some (.beginning s.readCancel, s)
  | .beginning cancel, .go =>
    match s.lifecycle with
    | .ready => some (.stoppingSends, (s.cancelToken cancel).setLifecycle .leaving)
    | .left => some (.replayingCleanup, s)
    | _ => some (.done, s.endLeave false)
  | .replayingCleanup, .persist effect =>
    some (.done, (if effect.applied then s.setPersisted none else s).endLeave false)
  | .stoppingSends, .go => some (.closingSends, s.setSends { s.sends with admissionOpen := false })
  | .closingSends, .go =>
    some (if s.sends.inflight = 0 then .awaitingGate else .drainingSends,
      s.setSends { s.sends with accepting := false })
  | .drainingSends, .go => if s.sends.inflight = 0 then some (.awaitingGate, s) else none
  | .drainingSends, .fail => some (.rollingBack false .reads, s)
  | .awaitingGate, .go => (s.lockHeartbeat i).map (.readingCredential, ·)
  | .readingCredential, .go => some (.issuing s.shared.credential, s)
  | .issuing credential, .go => some (.asking credential, s)
  | .issuing _, .fail => some (.rollingBack true .reads, s)
  | .asking _, .leave result => some (.classify s.profile result, s)
  | .removingJournal, .go => some (.rollingBack true .reads, s)
  | .removingJournal, .fail => some (.losing, s)
  | .confirming, .go => some (.cancellingScheduler, s)
  | .confirming, .fail => some (.losing, s)
  | .cancellingScheduler, .go => some (.cancellingOperations, { s with cancel := true })
  | .cancellingOperations, .go => some (.clearingCredential, { s with operationCancel := true })
  | .clearingCredential, .persist effect =>
    some (if effect.reported = some () then .clearingRest else .stopping,
      if effect.applied then s.setPersisted none else s)
  | .clearingRest, .go => some (.stopping, s)
  | .clearingRest, .fail => some (.stopping, s)
  | .stopping, .go => some (.departing, s.setHealth .stopped)
  | .departing, .go => some (.reaping, s.setLifecycle .left)
  | .reaping, .go => some (.done, s.endLeave true)
  | .reaping, .fail => some (.done, s.endLeave true)
  | .losing, .go => some (.lost, s.setHealth .outcomeUnknown)
  | .lost, .go => some (.done, (s.setLifecycle .outcomeUnknown).endLeave true)
  | .rollingBack gated point, outcome => point.step gated s outcome
  | _, _ => none

def ShutdownPoint.step (i : Nat) (graceful : Bool) (s : Supervisor) :
    ShutdownPoint → Outcome → Option (ShutdownPoint × Supervisor)
  | .requesting, .go => some (.closingSends, { s with shutdownRequested := true })
  | .closingSends, .go =>
    some (.stoppingSends, s.setSends { s.sends with permanentlyClosed := true })
  | .stoppingSends, .go =>
    some (.closingReports, s.setSends { s.sends with admissionOpen := false })
  | .closingReports, .go =>
    some (.cancellingReports, s.setReports { s.reports with permanentlyClosed := true })
  | .cancellingReports, .go =>
    some (if graceful then .drainingReports else .cancellingReads, s.cancelToken s.reports.cancel)
  | .drainingReports, .go => if s.reports.active = 0 then some (.stoppingAgain, s) else none
  | .drainingReports, .fail => some (.done, s)
  | .stoppingAgain, .go =>
    some (.refusingSends, s.setSends { s.sends with admissionOpen := false })
  | .refusingSends, .go =>
    some (if s.sends.inflight = 0 then .cancellingOperations else .drainingSends,
      s.setSends { s.sends with accepting := false })
  | .drainingSends, .go => if s.sends.inflight = 0 then some (.cancellingOperations, s) else none
  | .drainingSends, .fail => some (.done, s)
  -- the two functions cancel the reads and the operations in different orders
  | .cancellingReads, .go =>
    some (if graceful then .cancellingScheduler else .cancellingOperations,
      s.cancelToken s.readCancel)
  | .cancellingOperations, .go =>
    some (if graceful then .cancellingReads else .cancellingScheduler,
      { s with operationCancel := true })
  | .cancellingScheduler, .go =>
    some (if graceful then .reaping else .done, { s with cancel := true })
  | .reaping, .go => some (.locking, s)
  | .reaping, .fail => some (.done, s)
  | .locking, .go => (s.lockOperation i).map (.stopping, ·)
  | .locking, .fail => some (.done, s)
  | .stopping, .go => some (.done, (s.setHealth .stopped).setOperationGate none)
  | _, _ => none

def SupervisedTask.step (i : Nat) (s : Supervisor) (outcome : Outcome) :
    SupervisedTask → Option (SupervisedTask × Supervisor)
  | .beat point => (point.step i s outcome).map fun (point, s) => (.beat point, s)
  | .report point => (point.step i s outcome).map fun (point, s) => (.report point, s)
  | .send point => (point.step i s outcome).map fun (point, s) => (.send point, s)
  | .leave point => (point.step i s outcome).map fun (point, s) => (.leave point, s)
  | .shutdown graceful point =>
    (point.step i graceful s outcome).map fun (point, s) => (.shutdown graceful point, s)

/-! ## Gates -/

def BeatPoint.holdsHeartbeat : BeatPoint → Bool
  | .sleeping | .awaitingGate | .orphaned _ | .stopped => false
  | _ => true

/-- What is left of an aborted scheduler: its resume transaction is a task of its own. -/
def BeatPoint.aborted : BeatPoint → BeatPoint
  | .resuming point | .orphaned point => .orphaned point
  | _ => .stopped

/-! ## The whole -/

structure Supervised where
  supervisor : Supervisor
  tasks : List SupervisedTask

inductive SupervisedStep where
  | report
  | send
  | leave
  | shutdown (graceful : Bool)
  /-- The scheduler, which is the first task, is aborted. -/
  | abort
  | act (task : Nat) (outcome : Outcome)

namespace Supervised

/-- A session as `start_locked_with` returns it. -/
def started (profile : ProfileBinding) (credential : Credential) (generation : Nat) :
    Supervised where
  supervisor :=
    { profile := profile
      lifecycle := .ready
      shared := ⟨credential, generation, .ready⟩
      persisted := some credential
      operationGate := none
      heartbeatGate := none
      tokens := fun _ => false
      nextToken := 2
      readCancel := 0
      reports := ⟨0, 1, false⟩
      sends := ⟨true, 0, true, false⟩
      shutdownRequested := false
      operationCancel := false
      cancel := false
      published := [⟨credential, generation⟩] }
  tasks := [.beat .sleeping]

def spawn (w : Supervised) (task : SupervisedTask) : Supervised :=
  { w with tasks := w.tasks ++ [task] }

def step (w : Supervised) : SupervisedStep → Option Supervised
  | .report =>
    match w.supervisor.register with
    | some (cancel, s) => some (spawn { w with supervisor := s } (.report (.awaitingGate cancel)))
    | none => some w
  | .send => some (w.spawn (.send .checkingShutdown))
  | .leave => some (w.spawn (.leave .locking))
  | .shutdown graceful => some (w.spawn (.shutdown graceful .requesting))
  | .abort =>
    match w.supervisor.cancel, w.tasks.head? with
    | true, some (.beat point) =>
      some
        { supervisor :=
            if point.holdsHeartbeat then w.supervisor.setHeartbeatGate none else w.supervisor
          tasks := w.tasks.set 0 (.beat point.aborted) }
    | _, _ => none
  | .act i outcome =>
    (w.tasks[i]?).bind fun task =>
      (task.step i w.supervisor outcome).map fun (task, s) => ⟨s, w.tasks.set i task⟩

end Supervised

/-- One session runtime as a transition system. -/
def supervisedLts : Lts Supervised SupervisedStep :=
  .ofStep (fun w => ∃ profile credential generation, generation ≤ 1
    ∧ w = Supervised.started profile credential generation) Supervised.step

/-! ## A session of Alice's -/

namespace Sample

/-- Alice's profile. -/
def aliceProfile : ProfileBinding where
  relayOrigin := "https://relay.test"
  profile := "default"
  squadName := alpha
  squadId := alphaId
  memberId := alice

/-- Alice's session after a resume that drew `token`. -/
def aliceSession (token : ResumeToken) : Session where
  response :=
    { agentId := aliceAgent
      membershipId := alice
      instanceId := aliceInstance
      squad :=
        { id := alphaId
          name := alpha
          mission := collaboration
          state := .active
          createdAt := ⟨instant 100, by decide⟩
          archivedAt := none }
      memberName := aliceName
      role := engineer
      heartbeatIntervalSeconds := 30
      leaseSeconds := 90
      leaseExpiresAt := ⟨instant 90100, by decide⟩ }
  credential := ⟨aliceInstance, token⟩

/-- The lease is over. -/
def leaseOver : Except ClientError HeartbeatResponse :=
  .error (.api 409 .leaseExpired false)

/-- The scheduler wakes up, finds the lease expired and asks to resume. -/
def expires : List SupervisedStep :=
  [.act 0 .go, .act 0 .go, .act 0 .go, .act 0 .go, .act 0 .go,
    .act 0 (.heartbeat leaseOver), .act 0 .go, .act 0 .go, .act 0 .go]

theorem aliceProfile_owns (token : ResumeToken) : aliceProfile.owns (aliceSession token) :=
  ⟨rfl, rfl, rfl⟩

end Sample

end Psst
