import Psst.Relay.Calendar
import Psst.Session.Program

/-!
# One profile and its relay

A process that runs the session programs of one profile, the profile's files, and the relay
with everybody else's requests. The process has two threads that matter: the operation in
progress (`start`, `join_and_bind`, `recover_orphaned_leave` or `leave`, one at a time under
the profile lock and the operation gate) and the holder of the heartbeat gate. It may die
between any two actions.
-/

namespace Psst

/-! ## The shared state -/

inductive Slot where
  | operation
  | pulse
  deriving DecidableEq

/-- The other thread. -/
def Slot.other : Slot → Slot
  | .operation => .pulse
  | .pulse => .operation

inductive Operation where
  | start
  | joinAndBind
  | recover
  | leave
  deriving DecidableEq

/-- A started session, as its threads share it. -/
structure LiveSession where
  profile : ProfileBinding
  credential : Credential
  lifecycle : LifecycleState

/-- Everything but the threads. The last three fields are what an observer remembers: which
calls were leaves of which membership, which of them its client still waits for, and the
memberships whose metadata `store_profile` has reported stored. -/
structure Site where
  key : ProfileKey
  relay : Relay
  disk : Disk
  session : Option LiveSession
  running : Option Operation
  gate : Option Slot
  leaves : List (Nat × MembershipId)
  waiting : Option Nat
  bound : List MembershipId

/-- How the world answers an action. -/
inductive Choice where
  | plain
  | effect (effect : Effect)
  | fail
  | clock (now : ApiTimestamp)
  | random (bytes : Fin 16 → UInt8)
  | flag (value : Bool)
  | refuse (error : ClientError)
  | issue (drawn : Drawn)
  | answered
  | lost (timedOut : Bool)
  | cancelled

/-- A request that got no answer. -/
def Arrival.lost (timedOut : Bool) : Arrival := if timedOut then .timeout else .transport

namespace Site

def setDisk (w : Site) (disk : Disk) : Site := { w with disk := disk }

def setCredential (w : Site) (record : Option CredentialRecord) : Site :=
  w.setDisk { w.disk with credential := record }

def setMetadata (w : Site) (binding : Option ProfileBinding) : Site :=
  w.setDisk { w.disk with metadata := binding }

def setJournal (w : Site) (journal : Option LeaveJournal) : Site :=
  w.setDisk { w.disk with journal := journal }

def setLifecycle (w : Site) (live : LiveSession) (state : LifecycleState) : Site :=
  { w with session := some { live with lifecycle := state } }

/-- Remember a leave of the running session. -/
def noteLeave (w : Site) (i : Nat) : Request → Site
  | .leave _ _ =>
    match w.session with
    | some live =>
      { w with leaves := w.leaves ++ [(i, live.profile.memberId)], waiting := some i }
    | none => w
  | _ => w

/-- The wait for call `i` is over. -/
def stopWaiting (w : Site) (i : Nat) : Site :=
  { w with waiting := if w.waiting = some i then none else w.waiting }

/-- What has arrived for call `i`. -/
def arrived (w : Site) (i : Nat) : Option Arrival := do
  let c ← w.relay.calls[i]?
  let response ← c.response
  some (.response response)

variable [Sha256]

/-- One action of the thread in `slot`. -/
def perform (w : Site) (slot : Slot) : (a : Action) → Choice → Option (Answer a × Site)
  | .metadataExists, .plain => some (w.disk.metadata.isSome, w)
  | .credentialExists, .plain => some (w.disk.credential.isSome, w)
  | .loadProfile, .plain => some (some w.disk.metadata, w)
  | .loadProfile, .fail => some (none, w)
  | .loadJournal, .plain => some (some w.disk.journal, w)
  | .loadJournal, .fail => some (none, w)
  | .loadCredential, .plain => some (some w.disk.credential, w)
  | .loadCredential, .fail => some (none, w)
  | .storeCredential record, .effect e =>
    some (e.reported, if e.applied then w.setCredential (some record) else w)
  | .storeProfile binding, .effect e =>
    let stored := if e.applied then w.setMetadata (some binding) else w
    some (e.reported, if e = .done then { stored with bound := w.bound ++ [binding.memberId] }
      else stored)
  | .storeJournal journal, .effect e =>
    some (e.reported, if e.applied then w.setJournal (some journal) else w)
  | .clearCredential, .effect e =>
    some (e.reported, if e.applied then w.setCredential none else w)
  | .clearProfile, .effect e => some (e.reported, if e.applied then w.setMetadata none else w)
  | .removeJournal, .effect e => some (e.reported, if e.applied then w.setJournal none else w)
  | .now, .clock t => some (some t, w)
  | .now, .fail => some (none, w)
  | .random, .random bytes => some (some bytes, w)
  | .random, .fail => some (none, w)
  | .send _, .refuse e => if e.beforeSend then some (.error e, w) else none
  | .send request, .issue drawn =>
    (w.relay.step (.issue (request.command drawn))).map fun r =>
      (.ok w.relay.calls.length, noteLeave { w with relay := r } w.relay.calls.length request)
  | .await i, .answered => (w.arrived i).map (·, w.stopWaiting i)
  | .await i, .lost timedOut => some (.lost timedOut, w.stopWaiting i)
  | .awaitUnlessCancelled i, .answered => (w.arrived i).map (some ·, w)
  | .awaitUnlessCancelled _, .lost timedOut => some (some (.lost timedOut), w)
  | .awaitUnlessCancelled _, .cancelled => some (none, w)
  | .lifecycle, .plain => w.session.map (LiveSession.lifecycle · , w)
  | .setLifecycle state, .plain => w.session.map fun live => ((), w.setLifecycle live state)
  | .exchangeLifecycle expected next, .plain =>
    w.session.map fun live =>
      (live.lifecycle, if live.lifecycle = expected then w.setLifecycle live next else w)
  | .credential, .plain => w.session.map (LiveSession.credential · , w)
  | .publish credential, .plain =>
    w.session.map fun live =>
      ((), { w with session := some { live with credential := credential } })
  | .lockHeartbeat, .plain => if w.gate = none then some ((), { w with gate := some slot }) else none
  | .drain _, .plain => some (some (), w)
  | .drain _, .fail => some (none, w)
  | .shutdownRequested, .flag value => some (value, w)
  | _, _ => none

end Site

/-! ## The threads -/

structure World where
  site : Site
  operation : Option (Run (Except SessionError (Option Runtime)))
  pulse : Option (Run Unit)

inductive WorldStep where
  | relay (step : RelayStep)
  | start (spec : RuntimeSpec)
  | joinAndBind (squad : SquadName) (request : JoinSquadRequest)
  | recover
  | leave
  | heartbeat (request : HeartbeatRequest) (resume : ResumeSquadRequest)
  | reportAvailability (availability : Availability) (resume : ResumeSquadRequest)
  | act (slot : Slot) (choice : Choice)
  | finish (slot : Slot)
  | crash

namespace World

/-- Nothing on disk, nothing running, an empty relay. -/
def fresh (key : ProfileKey) (capacity : Nat) : World where
  site :=
    { key := key
      relay := Relay.fresh capacity
      disk := Disk.unbound
      session := none
      running := none
      gate := none
      leaves := []
      waiting := none
      bound := [] }
  operation := none
  pulse := none

/-- Begin an operation that takes the profile lock; a running session holds it. -/
def launch (w : World) (operation : Operation)
    (program : Run (Except SessionError (Option Runtime))) : Option World :=
  match w.site.session, w.operation with
  | none, none =>
    some { w with site := { w.site with running := some operation }, operation := some program }
  | _, _ => none

/-- Begin a heartbeat under the gate. -/
def launchPulse (w : World) (program : ProfileBinding → Run Unit) : Option World :=
  match w.site.session, w.site.gate, w.pulse with
  | some live, none, none =>
    some { w with site := { w.site with gate := some .pulse }, pulse := some (program live.profile) }
  | _, _, _ => none

/-- A process that is gone takes its threads and its locks with it. -/
def crash (w : World) : World where
  site := { w.site with session := none, running := none, gate := none, waiting := none }
  operation := none
  pulse := none

/-- The session an operation ends with, if it started one. -/
def install (w : Site) : Except SessionError (Option Runtime) → Option LiveSession
  | .ok (some runtime) => some ⟨runtime.profile, runtime.credential, .ready⟩
  | _ => w.session

variable [Sha256]

def step (w : World) : WorldStep → Option World
  | .relay l =>
    (w.site.relay.step l).map fun r => { w with site := { w.site with relay := r } }
  | .start spec => w.launch .start ((·.map some) <$> start spec)
  | .joinAndBind squad request =>
    w.launch .joinAndBind ((·.map some) <$> joinAndBind ⟨w.site.key, squad⟩ request)
  | .recover => w.launch .recover ((·.map fun _ => none) <$> recoverOrphanedLeave w.site.key)
  | .leave =>
    match w.site.session, w.operation with
    | some live, none =>
      some
        { w with
          site := { w.site with running := some .leave }
          operation := some ((·.map fun _ => none) <$> leaveSession live.profile) }
    | _, _ => none
  | .heartbeat request resume =>
    w.launchPulse fun profile => heartbeatRound profile request resume
  | .reportAvailability availability resume =>
    w.launchPulse fun profile => (fun _ => ()) <$> reportAvailability profile availability resume
  | .act .operation choice =>
    match w.operation with
    | some (.act a k) =>
      (w.site.perform .operation a choice).map fun (r, site) =>
        { w with site := site, operation := some (k r) }
    | _ => none
  | .act .pulse choice =>
    match w.pulse with
    | some (.act a k) =>
      (w.site.perform .pulse a choice).map fun (r, site) =>
        { w with site := site, pulse := some (k r) }
    | _ => none
  | .finish .operation =>
    match w.operation with
    | some (.ret result) =>
      some
        { w with
          site :=
            { w.site with
              session := install w.site result
              running := none
              gate := if w.site.gate = some .operation then none else w.site.gate }
          operation := none }
    | _ => none
  | .finish .pulse =>
    match w.pulse with
    | some (.ret _) =>
      some
        { w with
          site :=
            { w.site with gate := if w.site.gate = some .pulse then none else w.site.gate }
          pulse := none }
    | _ => none
  | .crash => some w.crash

variable {w w' : World} {l : WorldStep}

/-- An action of the operation in progress. -/
theorem step_actOperation {choice : Choice} (h : w.step (.act .operation choice) = some w') :
    ∃ a k r site, w.operation = some (.act a k)
      ∧ w.site.perform .operation a choice = some (r, site)
      ∧ w' = { w with site := site, operation := some (k r) } := by
  simp only [step] at h
  split at h
  · next a k hop =>
      simp only [Option.map_eq_some_iff, Prod.exists] at h
      obtain ⟨r, site, hperform, rfl⟩ := h
      exact ⟨a, k, r, site, hop, hperform, rfl⟩
  · cases h

/-- An action of the holder of the heartbeat gate. -/
theorem step_actPulse {choice : Choice} (h : w.step (.act .pulse choice) = some w') :
    ∃ a k r site, w.pulse = some (.act a k)
      ∧ w.site.perform .pulse a choice = some (r, site)
      ∧ w' = { w with site := site, pulse := some (k r) } := by
  simp only [step] at h
  split at h
  · next a k hpulse =>
      simp only [Option.map_eq_some_iff, Prod.exists] at h
      obtain ⟨r, site, hperform, rfl⟩ := h
      exact ⟨a, k, r, site, hpulse, hperform, rfl⟩
  · cases h

/-- Only actions touch the files. -/
theorem step_disk (h : w.step l = some w') (hl : ∀ slot choice, l ≠ .act slot choice) :
    w'.site.disk = w.site.disk := by
  have hlaunch : ∀ {operation program}, w.launch operation program = some w' →
      w'.site.disk = w.site.disk := by
    intro operation program hstep
    unfold launch at hstep
    split at hstep <;> cases hstep
    rfl
  have hpulse : ∀ {program}, w.launchPulse program = some w' →
      w'.site.disk = w.site.disk := by
    intro program hstep
    unfold launchPulse at hstep
    split at hstep <;> cases hstep
    rfl
  cases l with
  | relay l =>
      obtain ⟨r, -, rfl⟩ := Option.map_eq_some_iff.mp h
      rfl
  | start spec => exact hlaunch h
  | joinAndBind squad request => exact hlaunch h
  | recover => exact hlaunch h
  | leave =>
      simp only [step] at h
      split at h <;> cases h
      rfl
  | heartbeat request resume =>
      simp only [step] at h
      exact hpulse h
  | reportAvailability availability resume =>
      simp only [step] at h
      exact hpulse h
  | act slot choice => exact absurd rfl (hl slot choice)
  | finish slot =>
      cases slot <;> simp only [step] at h <;> split at h <;> cases h <;> rfl
  | crash =>
      cases h
      rfl

end World

def worldLts [Sha256] : Lts World WorldStep :=
  .ofStep (fun w => ∃ key capacity, w = World.fresh key capacity) World.step

/-! ## Conditions on runs -/

/-- The clock reading of a relay step is no earlier than the ones before. -/
def Site.Forward (w : Site) (l : RelayStep) : Prop :=
  ∀ now ∈ l.reading, ∀ e ∈ w.relay.log, e.now ≤ now

/-- The relay's clock never goes back. -/
def Monotone (w : World) : WorldStep → Prop
  | .relay l => w.site.Forward l
  | _ => True

/-- Call `i` is a leave of this profile. -/
def Site.IsLeave (w : Site) (i : Nat) : Prop := i ∈ w.leaves.map Prod.fst

/-- The step fires no dispatch timer on a leave of this profile before its reply, queues such a
leave only while its client waits, and reads a clock inside the calendar. -/
def Site.OnTime (w : Site) (l : RelayStep) : Prop :=
  (∀ i ∈ l.expired, ¬ w.IsLeave i)
    ∧ (∀ i ∈ l.enqueues, w.IsLeave i → w.waiting = some i)
    ∧ ∀ now ∈ l.clock, now.InCalendar

def Punctual (w : World) : WorldStep → Prop
  | .relay l => w.site.OnTime l
  | _ => True

/-- A credential without metadata is on disk. -/
def Disk.HalfBound (d : Disk) : Prop := d.credential.isSome = true ∧ d.metadata = none

/-- An answer that does not leave a credential without metadata behind a returning
operation. -/
def Site.TidyAct (w : Site) : Action → Choice → Prop
  | .storeCredential _, .effect .unsynced => w.disk.metadata ≠ none
  | .storeProfile _, .effect .unsynced => False
  | .clearCredential, .effect .failed => ¬ w.disk.HalfBound
  | _, _ => True

/-- The process does not stop while it is binding a profile, and joins only when no journal is
left on disk. -/
def Tidy (w : World) : WorldStep → Prop
  | .joinAndBind _ _ => w.site.disk.journal = none
  | .crash => ¬ w.site.disk.HalfBound
  | .act .operation choice =>
    match w.operation with
    | some (.act a _) => w.site.TidyAct a choice
    | _ => True
  | .act .pulse choice =>
    match w.pulse with
    | some (.act a _) => w.site.TidyAct a choice
    | _ => True
  | _ => True

end Psst
