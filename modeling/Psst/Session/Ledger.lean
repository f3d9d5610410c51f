import Psst.Client.Delivery
import Psst.Lib.Lts

/-!
# The send ledger

A session keeps the sends it has started, with the results they ended with, so that a caller that
comes back with the same prepared send gets the result of the first. A task of its own finishes
each send, whatever becomes of the caller. The books are kept under a lock; two flags that close
admission are not.
-/

namespace Psst

/-! ## Sizes -/

def usizeMax : Nat := 2 ^ 64 - 1

def saturatingAdd (a b : Nat) : Nat := min (a + b) usizeMax

def saturatingMul (a b : Nat) : Nat := min (a * b) usizeMax

def maxOwnedSends : Nat := 64

def maxOwnedSendBytes : Nat := 1024 * 1024

def ownedSendFixedBytes : Nat := 1024

/-- `PreparedSend`: the request, which has the key it is known by. -/
abbrev PreparedSend := SendMessageRequest

/-- `operation_identity` -/
def SendMessageRequest.operationIdentity (request : PreparedSend) : DedupeKey := request.dedupeKey

/-- `map_or(0, String::len)` -/
def lenOrZero : Option String → Nat
  | none => 0
  | some s => s.utf8ByteSize

/-- The bytes that `reserve` accounts for: the request twice, and room for the entry. -/
def SendMessageRequest.reservedBytes (request : PreparedSend) : Nat :=
  let strings := saturatingAdd request.recipient.val.utf8ByteSize request.body.val.utf8ByteSize
  let strings := saturatingAdd strings request.dedupeKey.val.utf8ByteSize
  let strings := saturatingAdd strings (lenOrZero (request.replyTo.map Validated.val))
  let strings := saturatingAdd strings (lenOrZero (request.correlationId.map Validated.val))
  saturatingAdd (saturatingMul strings 2) ownedSendFixedBytes

/-! ## Results -/

/-- An error that is kept: `StoredClientError::capture`, and `restore` afterwards. -/
def ClientError.captured : ClientError → ClientError
  | .transport => .outcomeUnknown
  | .retryExhausted attempts last => .retryExhausted attempts last.captured
  | e => e

inductive StoredSendFailure where
  | relay (e : ClientError)
  | notReady

abbrev SendTerminal := Except StoredSendFailure SendMessageResponse

/-- `validate_owned_send_response` -/
def validateOwnedSendResponse (request : PreparedSend) (squadName : SquadName)
    (response : SendMessageResponse) : SendTerminal :=
  let message := response.message
  if message.squad ≠ squadName ∨ message.recipient ≠ request.recipient
      ∨ message.body ≠ request.body ∨ message.priority ≠ request.priority
      ∨ message.replyTo ≠ request.replyTo ∨ message.correlationId ≠ request.correlationId then
    .error (.relay (.malformedResponse 200))
  else .ok response

/-- What the task makes of the transport's result. -/
def terminalOf (request : PreparedSend) (squadName : SquadName) :
    Except ClientError SendMessageResponse → SendTerminal
  | .error e => .error (.relay e.captured)
  | .ok response => validateOwnedSendResponse request squadName response

/-- `send_terminal_retained_bytes` -/
def SendTerminal.retainedBytes : SendTerminal → Nat
  | .ok response =>
    let message := response.message
    let bytes := saturatingAdd ownedSendFixedBytes message.id.val.utf8ByteSize
    let bytes := saturatingAdd bytes message.squad.val.utf8ByteSize
    let bytes := saturatingAdd bytes message.sender.val.utf8ByteSize
    let bytes := saturatingAdd bytes message.recipient.val.utf8ByteSize
    let bytes := saturatingAdd bytes message.body.val.utf8ByteSize
    let bytes := saturatingAdd bytes (lenOrZero (message.replyTo.map Validated.val))
    saturatingAdd bytes (lenOrZero (message.correlationId.map Validated.val))
  | .error _ => ownedSendFixedBytes

/-! ## The books -/

/-- A shared entry. Its result is in a cell of its own. -/
structure SendEntry where
  cell : Nat
  retainedBytes : Nat
  deriving DecidableEq

structure SendLedgerInner where
  accepting : Bool
  retainedBytes : Nat
  inflight : Nat
  entries : List (DedupeKey × SendEntry)
  terminalFifo : List DedupeKey

structure SendLedger where
  inner : SendLedgerInner
  admissionOpen : Bool
  permanentlyClosed : Bool
  /-- The cell of every entry that was ever made. -/
  terminals : List (Option SendTerminal)

namespace SendLedgerInner

def get (s : SendLedgerInner) (key : DedupeKey) : Option SendEntry :=
  (s.entries.find? fun p => decide (p.1 = key)).map Prod.snd

def remove (s : SendLedgerInner) (key : DedupeKey) : SendLedgerInner :=
  { s with entries := s.entries.filter fun p => decide (p.1 ≠ key) }

/-- There is no room for a send. -/
def full (s : SendLedgerInner) (bytes : Nat) : Bool :=
  decide (maxOwnedSends ≤ s.entries.length
    ∨ maxOwnedSendBytes < saturatingAdd s.retainedBytes bytes)

/-- The oldest result is forgotten. -/
def evict (s : SendLedgerInner) (key : DedupeKey) (rest : List DedupeKey) : SendLedgerInner :=
  let s := { s with terminalFifo := rest }
  match s.get key with
  | some entry =>
    { s.remove key with retainedBytes := s.retainedBytes - entry.retainedBytes }
  | none => s

/-- The loop of `reserve` over the results, the oldest first. -/
def makeRoom (bytes : Nat) (s : SendLedgerInner) : List DedupeKey → SendLedgerInner
  | [] => s
  | key :: rest => if s.full bytes then makeRoom bytes (s.evict key rest) rest else s

def insert (s : SendLedgerInner) (key : DedupeKey) (entry : SendEntry) : SendLedgerInner :=
  { s with
    retainedBytes := s.retainedBytes + entry.retainedBytes
    inflight := s.inflight + 1
    entries := s.entries ++ [(key, entry)] }

/-- What `finish` does after it has published the result. -/
def settle (s : SendLedgerInner) (key : DedupeKey) (entry : SendEntry) (result : SendTerminal) :
    SendLedgerInner :=
  let s := { s with inflight := s.inflight - 1 }
  if result.retainedBytes ≤ entry.retainedBytes then
    { s with terminalFifo := s.terminalFifo ++ [key] }
  else if (s.get key).isSome then
    { s.remove key with retainedBytes := s.retainedBytes - entry.retainedBytes }
  else s

end SendLedgerInner

def SendLedger.new : SendLedger where
  inner := ⟨true, 0, 0, [], []⟩
  admissionOpen := true
  permanentlyClosed := false
  terminals := []

namespace SendLedger

def setInner (s : SendLedger) (inner : SendLedgerInner) : SendLedger := { s with inner := inner }

def setAccepting (s : SendLedger) (accepting : Bool) : SendLedger :=
  s.setInner { s.inner with accepting := accepting }

inductive Reservation where
  | existing (entry : SendEntry)
  | new (entry : SendEntry)

/-- `reserve` after its checks; `none` is `SendCapacity`. -/
def reserveEntry (s : SendLedger) (request : PreparedSend) : Option Reservation × SendLedger :=
  match s.inner.get request.operationIdentity with
  | some entry => (some (.existing entry), s)
  | none =>
    let bytes := request.reservedBytes
    let inner := s.inner.makeRoom bytes s.inner.terminalFifo
    if inner.full bytes then (none, s.setInner inner)
    else
      let entry : SendEntry := ⟨s.terminals.length, bytes⟩
      (some (.new entry),
        { s with
          inner := inner.insert request.operationIdentity entry
          terminals := s.terminals ++ [none] })

end SendLedger

/-! ## Calls -/

/-- The session errors of the ledger. -/
inductive LedgerError where
  | notReady
  | sendCapacity

/-- Where `reserve` is. The last three are reached with the lock. -/
inductive ReserveStage where
  /-- `permanently_closed` is loaded next. -/
  | flag
  /-- `admission_open` is loaded next. -/
  | admission
  /-- The lock is taken next. -/
  | lock
  | lockedFlag
  | lockedOpen
  | insert
  deriving DecidableEq

/-- Where the task of a send is. The last two are reached with the lock. -/
inductive SendStage where
  /-- It waits for the heartbeat and looks whether its authority is current. -/
  | waiting
  /-- The transport has the request. -/
  | sending
  | finishing (result : SendTerminal)
  | publishing (result : SendTerminal)
  | settling (result : SendTerminal)

/-- Where `reopen_admission` is. The last five are reached with the lock. -/
inductive ReopenStage where
  | flag
  | lock
  | lockedFlag
  | accept
  | openAdmission
  | recheck
  | shut
  deriving DecidableEq

inductive LedgerCall where
  | reserving (stage : ReserveStage) (squadName : SquadName) (request : PreparedSend)
  | refused (e : LedgerError)
  /-- The caller looks for the result, having registered for the notification or not yet. -/
  | awaiting (entry : SendEntry)
  | looking (entry : SendEntry) (woken : Bool)
  | parked (entry : SendEntry) (woken : Bool)
  | answered (entry : SendEntry) (result : SendTerminal)
  | owning (stage : SendStage) (squadName : SquadName) (request : PreparedSend)
      (entry : SendEntry)
  | finished
  /-- `stop_and_drain`: before the flag, before the lock, and in its loop. -/
  | stopping
  | draining
  | polling
  | checking (woken : Bool)
  | dozing (woken : Bool)
  | drained
  | timedOut
  | reopening (stage : ReopenStage)
  | reopened
  /-- `close_permanently`, before its first and its second store. -/
  | closing
  | shutting
  | closed
  | dropped

/-- What a call meets. -/
inductive LedgerChoice where
  | plain
  /-- The authority is not current any more. -/
  | stale
  | replied (result : Except ClientError SendMessageResponse)
  | timeout
  /-- The future is dropped where it waits. -/
  | drop

namespace LedgerCall

/-- The call has the lock of the books. -/
def locks : LedgerCall → Bool
  | reserving stage _ _ => stage = .lockedFlag || stage = .lockedOpen || stage = .insert
  | owning stage _ _ _ =>
    match stage with
    | .publishing _ | .settling _ => true
    | _ => false
  | reopening stage => !(stage = .flag || stage = .lock)
  | _ => false

/-- The reservation was made. -/
def admitted : LedgerCall → Bool
  | awaiting _ | looking _ _ | parked _ _ | answered _ _ => true
  | _ => false

/-- `notify_waiters` of an entry. -/
def notify (cell : Nat) : LedgerCall → LedgerCall
  | looking entry woken => looking entry (woken || entry.cell == cell)
  | parked entry woken => parked entry (woken || entry.cell == cell)
  | c => c

/-- `notify_waiters` of the drain. -/
def notifyDrained : LedgerCall → LedgerCall
  | checking _ => checking true
  | dozing _ => dozing true
  | c => c

end LedgerCall

structure Ledgering where
  ledger : SendLedger
  calls : List LedgerCall

namespace Ledgering

/-- Nobody has the lock. -/
def free (w : Ledgering) : Bool := w.calls.all fun c => !c.locks

/-- Call `i` goes on as `c`, and the ledger is `s`. -/
def put (w : Ledgering) (i : Nat) (c : LedgerCall) (s : SendLedger) : Ledgering :=
  ⟨s, w.calls.set i c⟩

def reserveStep (w : Ledgering) (i : Nat) (squadName : SquadName) (request : PreparedSend) :
    ReserveStage → LedgerChoice → Option Ledgering
  | .flag, .plain =>
    some (w.put i (if w.ledger.permanentlyClosed then .refused .notReady
      else .reserving .admission squadName request) w.ledger)
  | .admission, .plain =>
    some (w.put i (if w.ledger.admissionOpen then .reserving .lock squadName request
      else .refused .notReady) w.ledger)
  | .lock, .plain =>
    if w.free then some (w.put i (.reserving .lockedFlag squadName request) w.ledger) else none
  | .lock, .drop => some (w.put i .dropped w.ledger)
  | .lockedFlag, .plain =>
    some (w.put i (if w.ledger.permanentlyClosed then .refused .notReady
      else .reserving .lockedOpen squadName request) w.ledger)
  | .lockedOpen, .plain =>
    some (w.put i (if w.ledger.inner.accepting && w.ledger.admissionOpen
      then .reserving .insert squadName request else .refused .notReady) w.ledger)
  | .insert, .plain =>
    match w.ledger.reserveEntry request with
    | (none, s) => some (w.put i (.refused .sendCapacity) s)
    | (some (.existing entry), s) => some (w.put i (.awaiting entry) s)
    | (some (.new entry), s) =>
      some ⟨s, w.calls.set i (.awaiting entry) ++ [.owning .waiting squadName request entry]⟩
  | _, _ => none

/-- The entry's waiters are woken, and those of the drain when no send is left. -/
def wake (w : Ledgering) (entry : SendEntry) : Ledgering :=
  let calls := w.calls.map (LedgerCall.notify entry.cell)
  { w with
    calls := if w.ledger.inner.inflight = 0 then calls.map LedgerCall.notifyDrained else calls }

def ownStep (w : Ledgering) (i : Nat) (squadName : SquadName) (request : PreparedSend)
    (entry : SendEntry) : SendStage → LedgerChoice → Option Ledgering
  | .waiting, .plain => some (w.put i (.owning .sending squadName request entry) w.ledger)
  | .waiting, .stale =>
    some (w.put i (.owning (.finishing (.error .notReady)) squadName request entry) w.ledger)
  | .sending, .replied result =>
    some (w.put i (.owning (.finishing (terminalOf request squadName result)) squadName request
      entry) w.ledger)
  | .finishing result, .plain =>
    if w.free then
      some (w.put i (.owning (.publishing result) squadName request entry) w.ledger)
    else none
  | .publishing result, .plain =>
    some (w.put i (.owning (.settling result) squadName request entry)
      { w.ledger with terminals := w.ledger.terminals.set entry.cell (some result) })
  | .settling result, .plain =>
    let inner := w.ledger.inner.settle request.operationIdentity entry result
    some ((w.put i .finished (w.ledger.setInner inner)).wake entry)
  | _, _ => none

def reopenStep (w : Ledgering) (i : Nat) : ReopenStage → LedgerChoice → Option Ledgering
  | .flag, .plain =>
    some (w.put i (if w.ledger.permanentlyClosed then .reopened else .reopening .lock) w.ledger)
  | .lock, .plain => if w.free then some (w.put i (.reopening .lockedFlag) w.ledger) else none
  | .lock, .drop => some (w.put i .dropped w.ledger)
  | .lockedFlag, .plain =>
    some (w.put i (if w.ledger.permanentlyClosed then .reopened else .reopening .accept) w.ledger)
  | .accept, .plain => some (w.put i (.reopening .openAdmission) (w.ledger.setAccepting true))
  | .openAdmission, .plain =>
    some (w.put i (.reopening .recheck) { w.ledger with admissionOpen := true })
  | .recheck, .plain =>
    some (w.put i (if w.ledger.permanentlyClosed then .reopening .shut else .reopened) w.ledger)
  | .shut, .plain => some (w.put i .reopened { w.ledger with admissionOpen := false })
  | _, _ => none

def callStep (w : Ledgering) (i : Nat) : LedgerCall → LedgerChoice → Option Ledgering
  | .reserving stage squadName request, choice => w.reserveStep i squadName request stage choice
  | .awaiting entry, .plain => some (w.put i (.looking entry false) w.ledger)
  | .looking entry woken, .plain =>
    match (w.ledger.terminals[entry.cell]?).join with
    | some result => some (w.put i (.answered entry result) w.ledger)
    | none => some (w.put i (.parked entry woken) w.ledger)
  | .parked entry true, .plain => some (w.put i (.awaiting entry) w.ledger)
  | .parked _ _, .drop => some (w.put i .dropped w.ledger)
  | .owning stage squadName request entry, choice =>
    w.ownStep i squadName request entry stage choice
  | .stopping, .plain => some (w.put i .draining { w.ledger with admissionOpen := false })
  | .draining, .plain =>
    if w.free then
      some (w.put i (if w.ledger.inner.inflight = 0 then .drained else .polling)
        (w.ledger.setAccepting false))
    else none
  | .draining, .drop => some (w.put i .dropped w.ledger)
  | .polling, .plain => some (w.put i (.checking false) w.ledger)
  | .checking woken, .plain =>
    if w.free then
      some (w.put i (if w.ledger.inner.inflight = 0 then .drained else .dozing woken) w.ledger)
    else none
  | .dozing true, .plain => some (w.put i .polling w.ledger)
  | .checking _, .timeout | .dozing _, .timeout => some (w.put i .timedOut w.ledger)
  | .checking _, .drop | .dozing _, .drop => some (w.put i .dropped w.ledger)
  | .reopening stage, choice => w.reopenStep i stage choice
  | .closing, .plain => some (w.put i .shutting { w.ledger with permanentlyClosed := true })
  | .shutting, .plain => some (w.put i .closed { w.ledger with admissionOpen := false })
  | _, _ => none

end Ledgering

inductive LedgerStep where
  | send (squadName : SquadName) (request : PreparedSend)
  | stopAndDrain
  | reopenAdmission
  | closePermanently
  | run (call : Nat) (choice : LedgerChoice)

def LedgerStep.entry : LedgerStep → Option LedgerCall
  | send squadName request => some (.reserving .flag squadName request)
  | stopAndDrain => some .stopping
  | reopenAdmission => some (.reopening .flag)
  | closePermanently => some .closing
  | run _ _ => none

def Ledgering.step (w : Ledgering) : LedgerStep → Option Ledgering
  | .run i choice => (w.calls[i]?).bind fun c => w.callStep i c choice
  | l => l.entry.map fun c => { w with calls := w.calls ++ [c] }

/-- One ledger, with all calls interleaved. -/
def ledgerLts : Lts Ledgering LedgerStep := .ofStep (fun w => w = ⟨.new, []⟩) Ledgering.step

end Psst
