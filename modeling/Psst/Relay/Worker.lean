import Psst.Relay.Command

/-!
# The store worker

One thread owns the database and takes commands from a bounded queue. A request handler
dispatches its command and waits for the reply, but only for a while: a command whose
handler gave up stays in the queue and is executed all the same.

Every step below is one atomic action of one party: a handler, the worker thread, the
shutdown sequence, or the network under them. A call is named by its place in `calls`.
-/

namespace Psst

inductive DispatchError where
  | rateLimited
  | unavailable
  | timeout
  | store (error : RepositoryError)
  deriving DecidableEq

/-- The one-shot channel a command carries its reply in. -/
inductive Channel where
  | unsent
  | sent (result : Except RepositoryError Reply)
  | closed

/-- Where a request and its handler are. -/
inductive Stage where
  /-- On the wire, not yet at its handler. -/
  | inFlight
  /-- Refused by the handler before it dispatched anything. -/
  | rejected (code : ApiErrorCode)
  /-- The dispatcher has seen `accepting` and not yet locked the sender. -/
  | admitted
  /-- The command is sent; the dispatcher waits for its reply. -/
  | awaiting
  | returned (result : Except DispatchError Reply)
  /-- The request deadline answered in the handler's place. -/
  | timedOut
  /-- The handler is gone and nothing was answered. -/
  | dropped

structure Call where
  command : StoreCommand
  stage : Stage
  channel : Channel

/-- What the worker thread is doing. -/
inductive Thread where
  | idle
  /-- Took the command from the queue; has not looked at the shutdown flag. -/
  | received (call : Nat)
  | executing (call : Nat)
  /-- Committed or rolled back; the reply is not sent yet. -/
  | replying (call : Nat) (result : Except RepositoryError Reply)
  /-- Saw the shutdown flag and cancels what is left in the queue. -/
  | draining
  | stopped

/-- One command the worker ran, in the order it ran them. -/
structure Execution where
  call : Nat
  command : StoreCommand
  now : UnixMillis
  generated : Option ResumeToken
  result : Except RepositoryError Reply

structure Relay where
  capacity : Nat
  store : Store
  accepting : Bool
  shutdown : Bool
  /-- Whether the sending half of the queue is still there. -/
  sender : Bool
  queue : List Nat
  thread : Thread
  calls : List Call
  log : List Execution

namespace Relay

/-- A relay just started on an empty database. -/
def fresh (capacity : Nat) : Relay where
  capacity := capacity
  store := Store.empty
  accepting := true
  shutdown := false
  sender := true
  queue := []
  thread := .idle
  calls := []
  log := []

def setStage (r : Relay) (i : Nat) (stage : Stage) : Relay :=
  { r with calls := r.calls.modify i fun c => { c with stage := stage } }

def setChannel (r : Relay) (i : Nat) (channel : Channel) : Relay :=
  { r with calls := r.calls.modify i fun c => { c with channel := channel } }

/-- Drop the reply senders of all the given commands. -/
def closeAll (r : Relay) (ids : List Nat) : Relay :=
  ids.foldl (fun r i => r.setChannel i .closed) r

/-- The receiver goes away with everything still buffered in it. -/
def stop (r : Relay) : Relay :=
  { r.closeAll r.queue with queue := [], thread := .stopped }

/-- `try_send` under the sender lock. -/
def trySend (r : Relay) (i : Nat) : Relay :=
  match r.sender, r.thread with
  | false, _ | true, .stopped => r.setStage i (.returned (.error .unavailable))
  | true, _ =>
    if r.capacity ≤ r.queue.length then r.setStage i (.returned (.error .rateLimited))
    else { r.setStage i .awaiting with queue := r.queue ++ [i] }

/-- What the handlers of a relay process become when the process dies: requests on the wire
may still reach its successor, and answers already given may still arrive. -/
def Call.abandon (c : Call) : Call :=
  match c.stage with
  | .admitted | .awaiting => { c with stage := .dropped }
  | _ => c

/-- A new process on the same database. -/
def restart (r : Relay) : Relay where
  capacity := r.capacity
  store := r.store
  accepting := true
  shutdown := false
  sender := true
  queue := []
  thread := .idle
  calls := r.calls.map Call.abandon
  log := r.log

end Relay

/-- The codes a handler answers without dispatching anything: a request that does not parse, a
missing credential, a failing random source, or no room for another waiter. -/
def ApiErrorCode.beforeDispatch : ApiErrorCode → Bool
  | .invalidRequest | .payloadTooLarge | .notFound | .internalError | .rateLimited => true
  | _ => false

/-- The atomic actions. -/
inductive RelayStep where
  | issue (command : StoreCommand)
  | reject (call : Nat) (code : ApiErrorCode)
  | arrive (call : Nat)
  | trySend (call : Nat)
  | receive
  | inspect
  | cancel
  | stop
  | execute (now : UnixMillis) (generated : Option ResumeToken)
  /-- The database is busy or failing; the transaction is rolled back. -/
  | fault (now : UnixMillis) (error : RepositoryError)
  | panic
  | reply
  | deliver (call : Nat)
  | expire (call : Nat)
  | deadline (call : Nat)
  | disconnect (call : Nat)
  | stopAccepting
  | raiseShutdown
  | dropSender
  | restart

/-- The call whose dispatch timer a step lets fire. -/
def RelayStep.expired : RelayStep → Option Nat
  | .expire i => some i
  | _ => none

/-- The call a step puts in the queue, if there is room. -/
def RelayStep.enqueues : RelayStep → Option Nat
  | .trySend i => some i
  | _ => none

/-- The clock reading a step logs. -/
def RelayStep.reading : RelayStep → Option UnixMillis
  | .execute now _ | .fault now _ => some now
  | _ => none

namespace Relay

variable [Sha256]

def step (r : Relay) : RelayStep → Option Relay
  | .issue command =>
    -- the handlers pass `LeasePolicy::default()` and no other
    if ∀ policy ∈ command.policy, policy = .default then
      some { r with calls := r.calls ++ [⟨command, .inFlight, .unsent⟩] }
    else none
  | .reject i code =>
    match code.beforeDispatch, (r.calls[i]?).map Call.stage with
    | true, some .inFlight => some (r.setStage i (.rejected code))
    | _, _ => none
  | .arrive i =>
    match (r.calls[i]?).map Call.stage with
    | some .inFlight =>
      some (r.setStage i (if r.accepting then .admitted else .returned (.error .unavailable)))
    | _ => none
  | .trySend i =>
    match (r.calls[i]?).map Call.stage with
    | some .admitted => some (r.trySend i)
    | _ => none
  | .receive =>
    match r.thread, r.queue with
    | .idle, i :: queue => some { r with queue := queue, thread := .received i }
    | .idle, [] => if r.sender then none else some { r with thread := .stopped }
    | _, _ => none
  | .inspect =>
    match r.thread with
    | .received i =>
      some (if r.shutdown then { r.setChannel i .closed with thread := .draining }
        else { r with thread := .executing i })
    | _ => none
  | .cancel =>
    match r.thread, r.queue with
    | .draining, i :: queue => some { r.setChannel i .closed with queue := queue }
    | _, _ => none
  | .stop =>
    match r.thread with
    | .draining => some r.stop
    | _ => none
  | .execute now generated =>
    match r.thread with
    | .executing i =>
      (r.calls[i]?).map fun c =>
        let (result, store) := r.store.execute c.command now generated
        { r with
          store := store
          thread := .replying i result
          log := r.log ++ [⟨i, c.command, now, generated, result⟩] }
    | _ => none
  | .fault now error =>
    match r.thread with
    | .executing i =>
      if error = .databaseBusy ∨ error = .internal then
        (r.calls[i]?).map fun c =>
          { r with
            thread := .replying i (.error error)
            log := r.log ++ [⟨i, c.command, now, none, .error error⟩] }
      else none
    | _ => none
  | .panic =>
    match r.thread with
    | .executing i => some (Relay.stop { r.setChannel i .closed with thread := .stopped })
    | _ => none
  | .reply =>
    match r.thread with
    | .replying i result => some { r.setChannel i (.sent result) with thread := .idle }
    | _ => none
  | .deliver i =>
    match r.calls[i]? with
    | some ⟨_, .awaiting, .sent result⟩ =>
      some (r.setStage i (.returned (result.mapError .store)))
    | some ⟨_, .awaiting, .closed⟩ => some (r.setStage i (.returned (.error .unavailable)))
    | _ => none
  | .expire i =>
    match r.calls[i]? with
    | some ⟨_, .awaiting, .unsent⟩ => some (r.setStage i (.returned (.error .timeout)))
    | _ => none
  | .deadline i =>
    match (r.calls[i]?).map Call.stage with
    | some .inFlight | some .awaiting => some (r.setStage i .timedOut)
    | _ => none
  | .disconnect i =>
    match (r.calls[i]?).map Call.stage with
    | some .inFlight | some .awaiting => some (r.setStage i .dropped)
    | _ => none
  | .stopAccepting => some { r with accepting := false }
  | .raiseShutdown => if r.accepting then none else some { r with shutdown := true }
  | .dropSender => if r.shutdown then some { r with sender := false } else none
  | .restart => some r.restart

end Relay

/-- The relay as a transition system. -/
def relayLts [Sha256] : Lts Relay RelayStep :=
  .ofStep (fun r => ∃ capacity, r = Relay.fresh capacity) Relay.step

end Psst
