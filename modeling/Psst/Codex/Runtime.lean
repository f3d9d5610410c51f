import Psst.Activation.Wake
import Psst.Codex.Host

/-!
# The Codex activation at work

The task of the activation loop, the source with its slot for a session, the host with its App
Server, and any number of calls that shut them down, each one a future that can be dropped where
it waits. The task goes from one `await` to the next. Nothing but this order of waits and two
locks keeps the session and the App Server apart.
-/

namespace Psst

open Json

/-! ## The task -/

/-- Where the task of `run_activation` stands. -/
inductive TaskSite where
  /-- at the top of the loop -/
  | head
  /-- `observe` waits for the slot -/
  | locking
  /-- `ensure_runtime` starts a session -/
  | opening
  /-- the inbox is polled -/
  | polling
  /-- there is mail, and the session is shut down -/
  | releasing (wake : WakeMetadata)
  | observed (result : Except ObservationFailure (Option WakeMetadata))
  | pausing
  /-- at the top of the loop of `drive_wake` -/
  | waking (wake : WakeMetadata)
  /-- before the host is asked -/
  | entering (wake : WakeMetadata)
  /-- `start` waits for the host -/
  | hosting
  | launching
  | turning
  /-- `start_turn` has failed, and the App Server is shut down -/
  | abandoning (error : AppServerError)
  /-- `launch` or `start_turn` waits for what does not come -/
  | hanging
  | started (result : Except HostFailure String)
  | backoff
  | retrying
  | accepted (turnId : String)
  | completing (turnId : String)
  /-- `wait_completed` waits for what does not come -/
  | stalled
  /-- the turn is over, and the App Server is shut down -/
  | reaping (completion : Except AppServerError Unit)
  | completed (result : Except HostFailure Unit)
  /-- `drive_wake` has returned -/
  | checking
  | over

namespace TaskSite

/-- `start` of the host is executing. -/
def inStart : TaskSite → Bool
  | hosting | launching | turning | abandoning _ | hanging => true
  | _ => false

/-- The task has the slot's lock. -/
def hasSlot : TaskSite → Bool
  | opening | polling | releasing _ => true
  | _ => false

/-- The task has the host's lock, in `start` or in the turn that `start` has returned. -/
def hasHost : TaskSite → Bool
  | launching | turning | abandoning _ | hanging | started (.ok _) | accepted _ | completing _
  | stalled | reaping _ => true
  | _ => false

/-- The task waits in a `select!` whose other branch is the cancellation. -/
def selects : TaskSite → Bool
  | locking | opening | polling | releasing _ | pausing | hosting | launching | turning
  | abandoning _ | hanging | backoff | completing _ | stalled | reaping _ => true
  | _ => false

end TaskSite

/-! ## Shutting down -/

/-- `CodexActivation::shutdown`, or the end of a `start_from_environment` that could not publish
its status. -/
inductive Closing where
  | shutdown
  | bootstrap
  deriving DecidableEq

/-- Where a call that shuts down stands, with the results it has. -/
inductive CloserSite where
  | cancelling
  | handle
  /-- it has the task's handle and waits for the task -/
  | joining
  | stopping
  | status
  | host (status : Except AppServerError Unit)
  | reaping (status : Except AppServerError Unit)
  | source (status host : Except AppServerError Unit)
  | retiring (status host : Except AppServerError Unit)
  | closed (status host source : Except AppServerError Unit)
  | dropped

structure Closer where
  closing : Closing
  site : CloserSite

namespace Closer

def hasHandle (c : Closer) : Bool :=
  match c.site with
  | .joining => true
  | _ => false

def hasHost (c : Closer) : Bool :=
  match c.site with
  | .reaping _ => true
  | _ => false

def hasSlot (c : Closer) : Bool :=
  match c.site with
  | .retiring _ _ => true
  | _ => false

def finished (c : Closer) : Bool :=
  match c.site with
  | .closed _ _ _ | .dropped => true
  | _ => false

end Closer

/-! ## The state -/

/-- What has become of a session of the source. -/
inductive SessionFate where
  | live
  /-- its shutdown has returned `Ok` -/
  | released
  /-- its shutdown has failed -/
  | failed
  /-- its shutdown was dropped, and the session with it -/
  | dropped
  deriving DecidableEq

/-- What has become of an App Server of the host. -/
inductive ServerFate where
  | up
  | reaped (result : Except AppServerError Unit)
  deriving DecidableEq

/-- `CyclingSessionSource`. The newest session is the first of the list, and the slot's, if the
slot is not `None`. -/
structure CyclingSource where
  profile : String
  squad : String
  slot : Bool
  sessions : List SessionFate

/-- `HostState`, with the record file, what became of the App Servers, the newest first, and what
went over the pipes of each process that is gone. -/
structure HostState where
  config : AppServerConfig
  client : Option AppServerClient
  record : Option String
  servers : List ServerFate
  gone : List (List Traffic)

structure CodexSystem where
  policy : ActivationPolicy
  machine : ActivationMachine
  observationFailures : UInt8
  cancelled : Bool
  /-- the task's handle has not been taken -/
  task : Bool
  site : TaskSite
  source : CyclingSource
  host : HostState
  closers : List Closer

/-- What went over the pipes of each App Server process. -/
def HostState.wire (h : HostState) : List (List Traffic) :=
  h.gone ++ h.client.toList.map fun c => c.protocol.transcript

/-- What the surroundings of the task answer where it waits. -/
inductive TaskEvent where
  | plain
  | session (started : Except ObservationFailure Unit)
  | inbox (response : Except ObservationFailure InboxResponse)
  | released (ok : Bool)
  | launch (env : Launching)
  | turn (sink : Sink)
  | message (forward answer : Sink)
  | reap (result : Except AppServerError Unit)

inductive CodexStep where
  | task (event : TaskEvent)
  /-- the cancellation wins the `select!` -/
  | notice
  /-- the runtime is dropped, and its task with it, if the handle is still there -/
  | abort
  | close (closing : Closing)
  | closer (i : Nat) (result : Except AppServerError Unit)
  | drop (i : Nat)

/-! ## The host -/

namespace HostState

/-- `state.client.take()` after a shutdown. -/
def take (h : HostState) (result : Except AppServerError Unit) : HostState :=
  { h with
    client := none
    servers := .reaped result :: h.servers.tail
    gone := h.wire }

/-- A launch that has put no client into the state. -/
def lose (h : HostState) (traffic : List Traffic) (record : Option String) : HostState :=
  { h with record := record, gone := h.gone ++ [traffic] }

/-- `start`, from the launch on: the client is installed, and a created thread is resumed from
now on. -/
def install (h : HostState) (client : AppServerClient) (record : Option String) : HostState :=
  { h with
    config :=
      match h.config.thread with
      | .create => { h.config with thread := .resume client.threadId }
      | .resume _ => h.config
    client := some client
    record := record
    servers := .up :: h.servers }

end HostState

namespace CodexSystem

def slotFree (w : CodexSystem) : Bool := !w.site.hasSlot && !w.closers.any Closer.hasSlot

def hostFree (w : CodexSystem) : Bool := !w.site.hasHost && !w.closers.any Closer.hasHost

def handleFree (w : CodexSystem) : Bool := !w.closers.any Closer.hasHandle

def go (w : CodexSystem) (site : TaskSite) : CodexSystem := { w with site := site }

/-- The machine moves, and the task goes on. -/
def moved (w : CodexSystem) (machine : ActivationMachine) (site : TaskSite) : CodexSystem :=
  { w with machine := machine, site := site }

/-! ### Observing -/

/-- `machine.write().await.observe(pending)`, or what an error leads to. -/
def digest (w : CodexSystem) (result : Except ObservationFailure (Option WakeMetadata)) :
    CodexSystem :=
  match Activation.observed w.policy ⟨w.machine, w.observationFailures⟩ result with
  | (a, round) =>
    { w with
      machine := a.machine
      observationFailures := a.observationFailures
      site :=
        match round with
        | .again => .head
        | .waitThenAgain _ => .pausing
        | .drive wake => .waking wake
        | .leave => .over }

/-- `CyclingSessionSource::observe`, from the inbox on. -/
def polled (w : CodexSystem) (response : Except ObservationFailure InboxResponse) : CodexSystem :=
  match response.bind (Bootstrap.wakeFromInbox w.source.profile w.source.squad) with
  | .ok (some wake) => w.go (.releasing wake)
  | .ok none => w.go (.observed (.ok none))
  | .error e => w.go (.observed (.error e))

/-! ### Driving a wake -/

/-- What `drive_wake` makes of the result of `start`. -/
def begun (w : CodexSystem) : Except HostFailure String → CodexSystem
  | .ok turnId =>
    match w.machine.wakeAccepted with
    | (.ok (), machine) => w.moved machine (.accepted turnId)
    | (.error _, machine) => w.moved machine.block .checking
  | .error .retryableBeforeStart =>
    match w.machine.wakeRetryableFailure with
    | (.ok (.retryAfter _), machine) => w.moved machine .backoff
    | (.ok _, machine) => w.moved machine .checking
    | (.error _, machine) => w.moved machine.block .checking
  | .error .outcomeUnknown | .error .permanent =>
    w.moved w.machine.wakePermanentFailure.2 .checking

/-- What `drive_wake` makes of the result of `completed`. -/
def finished (w : CodexSystem) : Except HostFailure Unit → CodexSystem
  | .ok () => w.moved w.machine.wakeCompleted.2 .checking
  | .error _ => w.moved w.machine.wakePermanentFailure.2 .checking

/-- The retry is due. -/
def due (w : CodexSystem) : CodexSystem :=
  match w.machine.retryDue with
  | (.ok (.activate wake), machine) => w.moved machine (.waking wake)
  | (_, machine) => w.moved machine.block .checking

section Codec

variable [SerdeJson]

/-- The launch of `start`. -/
def launched (w : CodexSystem) (env : Launching) : CodexSystem :=
  match AppServerClient.launch w.host.config w.host.record env with
  | (none, traffic, record) => { w with site := .hanging, host := w.host.lose traffic record }
  | (some (.error e), traffic, record) =>
    { w with site := .started (.error (classifyStart e)), host := w.host.lose traffic record }
  | (some (.ok client), _, record) =>
    { w with site := .turning, host := w.host.install client record }

/-- The `start_turn` of `start`. -/
def turned (w : CodexSystem) (client : AppServerClient) (sink : Sink) : CodexSystem :=
  match client.startTurn sink with
  | (none, client) => { w with site := .hanging, host := { w.host with client := some client } }
  | (some (.error e), client) =>
    { w with site := .abandoning e, host := { w.host with client := some client } }
  | (some (.ok turnId), client) =>
    { w with site := .started (.ok turnId), host := { w.host with client := some client } }

/-- A round of `wait_completed`. -/
def waited (w : CodexSystem) (turnId : String) (client : AppServerClient) (forward answer : Sink) :
    CodexSystem :=
  match client.waitCompleted turnId forward answer with
  | (.hanging, client) => { w with site := .stalled, host := { w.host with client := some client } }
  | (.again, client) =>
    { w with site := .completing turnId, host := { w.host with client := some client } }
  | (.ended result, client) =>
    { w with site := .reaping result, host := { w.host with client := some client } }

/-- One step of the task. -/
def goOn (w : CodexSystem) : TaskSite → TaskEvent → Option CodexSystem
  | .head, .plain => some (w.go (if w.cancelled then .over else .locking))
  | .locking, .plain =>
    if w.slotFree then some (w.go (if w.source.slot then .polling else .opening)) else none
  | .opening, .session (.ok ()) =>
    some { w with
      site := .polling
      source := { w.source with slot := true, sessions := .live :: w.source.sessions } }
  | .opening, .session (.error e) => some (w.go (.observed (.error e)))
  | .polling, .inbox response => some (w.polled response)
  | .releasing wake, .released true =>
    some { w with
      site := .observed (.ok (some wake))
      source :=
        { w.source with slot := false, sessions := .released :: w.source.sessions.tail } }
  | .releasing _, .released false => some (w.go (.observed (.error .permanent)))
  | .observed result, .plain => some (w.digest result)
  | .pausing, .plain => some (w.go .head)
  | .waking wake, .plain =>
    match w.machine.wakeStarted with
    | (.ok (), machine) => some (w.moved machine (.entering wake))
    | (.error _, machine) => some (w.moved machine.block .checking)
  | .entering _, .plain => some (w.go (if w.cancelled then .over else .hosting))
  | .hosting, .plain =>
    if w.hostFree then
      some (w.go (if w.host.client.isSome then .started (.error .retryableBeforeStart)
        else .launching))
    else none
  | .launching, .launch env => some (w.launched env)
  | .turning, .turn sink => w.host.client.map fun client => w.turned client sink
  | .abandoning e, .reap result =>
    some { w with site := .started (.error (classifyStart e)), host := w.host.take result }
  | .started result, .plain => some (w.begun result)
  | .backoff, .plain => some (w.go .retrying)
  | .retrying, .plain => some w.due
  | .accepted turnId, .plain => some (w.go (if w.cancelled then .over else .completing turnId))
  | .completing turnId, .message forward answer =>
    w.host.client.map fun client => w.waited turnId client forward answer
  | .reaping completion, .reap result =>
    some { w with
      site := .completed
        ((completion.bind fun _ => result).mapError fun _ => HostFailure.outcomeUnknown)
      host := w.host.take result }
  | .completed result, .plain => some (w.finished result)
  | .checking, .plain =>
    some (w.go (if w.machine.snapshot.phase = .blocked then .over else .head))
  | _, _ => none

end Codec

/-! ### Shutting down -/

def setCloser (w : CodexSystem) (i : Nat) (c : Closer) : CodexSystem :=
  { w with closers := w.closers.set i c }

/-- One step of a call that shuts down. -/
def shut (w : CodexSystem) (i : Nat) (c : Closer) (result : Except AppServerError Unit) :
    Option CodexSystem :=
  let go (site : CloserSite) : CodexSystem := w.setCloser i { c with site := site }
  match c.site with
  | .cancelling => some { go .handle with cancelled := true }
  | .handle =>
    if w.handleFree then
      some { go (if w.task then .joining else .stopping) with task := false }
    else none
  | .joining =>
    match w.site with
    | .over => some (go .stopping)
    | _ => none
  | .stopping =>
    some { go (match c.closing with
        | .shutdown => .status
        | .bootstrap => .source (.ok ()) (.ok ())) with
      machine := w.machine.stop }
  | .status => some (go (.host result))
  | .host status =>
    if w.hostFree then
      some (go (if w.host.client.isSome then .reaping status else .source status (.ok ())))
    else none
  | .reaping status =>
    match result with
    | .ok () => some { go (.source status (.ok ())) with host := w.host.take (.ok ()) }
    | .error e => some (go (.source status (.error e)))
  | .source status host =>
    if w.slotFree then
      if w.source.slot then
        some { go (.retiring status host) with source := { w.source with slot := false } }
      else some (go (.closed status host (.ok ())))
    else none
  | .retiring status host =>
    let fate : SessionFate := match result with
      | .ok () => .released
      | .error _ => .failed
    some { go (.closed status host result) with
      source := { w.source with sessions := fate :: w.source.sessions.tail } }
  | .closed _ _ _ | .dropped => none

/-- A call that shuts down is dropped. A session it has taken out of the slot goes with it. -/
def forget (w : CodexSystem) (i : Nat) (c : Closer) : Option CodexSystem :=
  match c.site with
  | .closed _ _ _ | .dropped => none
  | .retiring _ _ =>
    some { w.setCloser i { c with site := .dropped } with
      source := { w.source with sessions := .dropped :: w.source.sessions.tail } }
  | _ => some (w.setCloser i { c with site := .dropped })

/-- Without a status there is no activation that another call could shut down. -/
def mayClose (w : CodexSystem) : Closing → Bool
  | .shutdown => w.closers.all fun c => decide (c.closing = .shutdown)
  | .bootstrap => w.closers.isEmpty

/-! ### Steps -/

variable [SerdeJson]

def step (w : CodexSystem) : CodexStep → Option CodexSystem
  | .task event => w.goOn w.site event
  | .notice => if w.cancelled && w.site.selects then some (w.go .over) else none
  | .abort =>
    if w.closers.all Closer.finished then
      some { w with cancelled := true, site := if w.task then .over else w.site }
    else none
  | .close closing =>
    if w.mayClose closing then some { w with closers := w.closers ++ [⟨closing, .cancelling⟩] }
    else none
  | .closer i result => (w.closers[i]?).bind fun c => w.shut i c result
  | .drop i => (w.closers[i]?).bind fun c => w.forget i c

/-- Just started. -/
def fresh (policy : ActivationPolicy) (machine : ActivationMachine) (profile squad : String)
    (config : AppServerConfig) (record : Option String) : CodexSystem where
  policy := policy
  machine := machine
  observationFailures := 0
  cancelled := false
  task := true
  site := .head
  source := ⟨profile, squad, false, []⟩
  host := ⟨config, none, record, [], []⟩
  closers := []

end CodexSystem

/-- The Codex activation under every policy and configuration. -/
def codexLts [SerdeJson] : Lts CodexSystem CodexStep :=
  .ofStep (fun w => ∃ policy machine profile squad config record,
    ActivationMachine.new policy = .ok machine
      ∧ w = .fresh policy machine profile squad config record) CodexSystem.step

end Psst
