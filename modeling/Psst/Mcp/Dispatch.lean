import Psst.Session.System

/-!
# Tool calls and the runtime slot

`DispatchState`: one slot for the profile's session, and tool calls that find it, fill it and
empty it. Every look at the slot is one step under its lock; what happens in between, the texts
of `join_and_bind`, `start` and `leave`, goes action by action against the files, with whatever
the relay, the clock and the disk answer. Calls run side by side.
-/

namespace Psst

/-! ## The profile and its sessions -/

/-- What the sessions of one process act on: the files of the profile, the runtimes it has
started, and the requests they made, a call being the position of its request. -/
structure ProfileSite where
  disk : Disk
  runtimes : List LiveSession
  requests : List Request

/-- How the world answers an action. -/
inductive Fate where
  | plain
  | effect (effect : Effect)
  | fail
  | clock (now : ApiTimestamp)
  | random (bytes : Fin 16 → UInt8)
  | flag (value : Bool)
  | refuse (error : ClientError)
  | arrives (arrival : Arrival)

namespace ProfileSite

def setDisk (s : ProfileSite) (disk : Disk) : ProfileSite := { s with disk := disk }

/-- The runtime an operation works on, if it has one. -/
def live (s : ProfileSite) (runtime : Option Nat) : Option LiveSession :=
  runtime.bind fun r => s.runtimes[r]?

def setLifecycle (s : ProfileSite) (runtime : Option Nat) (live : LiveSession)
    (state : LifecycleState) : ProfileSite :=
  match runtime with
  | some r => { s with runtimes := s.runtimes.set r { live with lifecycle := state } }
  | none => s

/-- One action of an operation; the operations that run under the slot never publish. -/
def perform (s : ProfileSite) (runtime : Option Nat) :
    (a : Action) → Fate → Option (Answer a × ProfileSite)
  | .metadataExists, .plain => some (s.disk.metadata.isSome, s)
  | .credentialExists, .plain => some (s.disk.credential.isSome, s)
  | .loadProfile, .plain => some (some s.disk.metadata, s)
  | .loadProfile, .fail => some (none, s)
  | .loadJournal, .plain => some (some s.disk.journal, s)
  | .loadJournal, .fail => some (none, s)
  | .loadCredential, .plain => some (some s.disk.credential, s)
  | .loadCredential, .fail => some (none, s)
  | .storeCredential record, .effect e =>
    some (e.reported, if e.applied then s.setDisk { s.disk with credential := some record } else s)
  | .storeProfile binding, .effect e =>
    some (e.reported, if e.applied then s.setDisk { s.disk with metadata := some binding } else s)
  | .storeJournal journal, .effect e =>
    some (e.reported, if e.applied then s.setDisk { s.disk with journal := some journal } else s)
  | .clearCredential, .effect e =>
    some (e.reported, if e.applied then s.setDisk { s.disk with credential := none } else s)
  | .clearProfile, .effect e =>
    some (e.reported, if e.applied then s.setDisk { s.disk with metadata := none } else s)
  | .removeJournal, .effect e =>
    some (e.reported, if e.applied then s.setDisk { s.disk with journal := none } else s)
  | .now, .clock t => some (some t, s)
  | .now, .fail => some (none, s)
  | .random, .random bytes => some (some bytes, s)
  | .random, .fail => some (none, s)
  | .send _, .refuse e => if e.beforeSend then some (.error e, s) else none
  | .send request, .plain =>
    some (.ok s.requests.length, { s with requests := s.requests ++ [request] })
  | .await _, .arrives arrival => some (arrival, s)
  | .lifecycle, .plain => (s.live runtime).map (LiveSession.lifecycle · , s)
  | .setLifecycle state, .plain =>
    (s.live runtime).map fun live => ((), s.setLifecycle runtime live state)
  | .exchangeLifecycle expected next, .plain =>
    (s.live runtime).map fun live =>
      (live.lifecycle,
        if live.lifecycle = expected then s.setLifecycle runtime live next else s)
  | .credential, .plain => (s.live runtime).map (LiveSession.credential · , s)
  | .lockHeartbeat, .plain => some ((), s)
  | .drain _, .plain => some (some (), s)
  | .drain _, .fail => some (none, s)
  | .shutdownRequested, .flag value => some (value, s)
  | _, _ => none

/-- A request that is refused before it is sent leaves no trace. -/
theorem perform_refuse {s u : ProfileSite} {runtime : Option Nat} {request : Request}
    {e : ClientError} {x : Answer (.send request)}
    (h : s.perform runtime (.send request) (.refuse e) = some (x, u)) :
    e.beforeSend = true ∧ x = .error e ∧ u = s := by
  obtain ⟨hbefore, heq⟩ := Option.ite_none_right_eq_some.mp h
  cases heq
  exact ⟨hbefore, rfl, rfl⟩

end ProfileSite

/-! ## The slot -/

inductive RuntimeSlot where
  | unbound
  | dormant (binding : ProfileBinding)
  | transition
  | bound (runtime : Nat)
  deriving DecidableEq

/-- The codes the slot's own logic gives or looks at; every other code is `other`. -/
inductive LocalErrorCode where
  | profileAlreadyBound
  | profileUnbound
  | localLock
  | invalidSession
  | other
  deriving DecidableEq

def mapSessionError : SessionError → LocalErrorCode
  | .notReady => .invalidSession
  | .unbound => .profileUnbound
  | _ => .other

structure DispatchState where
  key : ProfileKey
  mode : AgentMode
  client : ClientMetadata
  slot : RuntimeSlot
  site : ProfileSite

/-- Who asks `active` for the runtime. -/
inductive Asker where
  | tool
  | leave
  /-- `activation_runtime` -/
  | channel

inductive DispatchPoint where
  | joining (squad : SquadName) (request : JoinSquadRequest)
  | binding (program : Run (Except SessionError Runtime))
  | checkingStatus
  | readingStatus
  | activating (asker : Asker)
  | starting (asker : Asker) (binding : ProfileBinding)
      (program : Run (Except SessionError Runtime))
  | taking
  | leaving (runtime : Nat) (program : Run (Except SessionError LeaveSquadResponse))
  /-- A tool works with the runtime, or with the client alone. -/
  | working
  | authorizing (runtime : Nat)
  | locating (runtime : Nat)
  | returned (result : Except LocalErrorCode (Option Nat))

namespace DispatchState

def setSlot (s : DispatchState) (slot : RuntimeSlot) : DispatchState := { s with slot := slot }

def setSite (s : DispatchState) (site : ProfileSite) : DispatchState := { s with site := site }

/-- A started runtime goes into the slot. -/
def install (s : DispatchState) (runtime : Runtime) : DispatchState :=
  { s with
    slot := .bound s.site.runtimes.length
    site :=
      { s.site with
        runtimes := s.site.runtimes ++ [⟨runtime.profile, runtime.credential, .ready⟩] } }

/-- The membership a runtime leaves. -/
def leaveProgram (s : DispatchState) (runtime : Nat) :
    Option (Run (Except SessionError LeaveSquadResponse)) :=
  (s.site.runtimes[runtime]?).map fun live => leaveSession live.profile

end DispatchState

/-- Where a call goes on with the runtime it asked for. -/
def Asker.next (runtime : Nat) : Asker → DispatchPoint
  | .tool => .working
  | .leave => .taking
  | .channel => .authorizing runtime

/-! ## Steps -/

def DispatchPoint.step (s : DispatchState) :
    DispatchPoint → Fate → Option (DispatchPoint × DispatchState)
  | .joining squad request, .plain =>
    match s.slot with
    | .unbound => some (.binding (joinAndBind ⟨s.key, squad⟩ request), s.setSlot .transition)
    | .dormant _ | .bound _ => some (.returned (.error .profileAlreadyBound), s)
    | .transition => some (.returned (.error .localLock), s)
  -- somebody else has the profile lock
  | .joining _ _, .fail =>
    if s.slot = .unbound then some (.binding (.ret (.error (.local .os))), s.setSlot .transition)
    else none
  | .binding (.act a k), fate =>
    (s.site.perform none a fate).map fun (r, site) => (.binding (k r), s.setSite site)
  | .binding (.ret (.ok runtime)), .plain => some (.returned (.ok none), s.install runtime)
  | .binding (.ret (.error e)), .plain =>
    some (.returned (.error (mapSessionError e)), s.setSlot .unbound)
  | .checkingStatus, .plain =>
    match s.slot with
    | .dormant _ => some (.activating .tool, s)
    | .bound _ | .unbound => some (.readingStatus, s)
    | .transition => some (.returned (.error .localLock), s)
  | .readingStatus, .plain =>
    match s.slot with
    | .bound _ => some (.working, s)
    | .unbound => some (.returned (.ok none), s)
    | .dormant _ | .transition => some (.returned (.error .localLock), s)
  | .activating asker, .plain =>
    match s.slot with
    | .dormant profile =>
      some (.starting asker profile (start ⟨profile, s.mode, s.client⟩), s.setSlot .transition)
    | .bound runtime => some (asker.next runtime, s)
    | .unbound => some (.returned (.error .profileUnbound), s)
    | .transition => some (.returned (.error .localLock), s)
  | .activating asker, .fail =>
    match s.slot with
    | .dormant profile =>
      some (.starting asker profile (.ret (.error (.local .os))), s.setSlot .transition)
    | _ => none
  | .starting asker profile (.act a k), fate =>
    (s.site.perform none a fate).map fun (r, site) =>
      (.starting asker profile (k r), s.setSite site)
  | .starting asker _ (.ret (.ok runtime)), .plain =>
    some (asker.next s.site.runtimes.length, s.install runtime)
  | .starting _ profile (.ret (.error e)), .plain =>
    some (.returned (.error (mapSessionError e)), s.setSlot (.dormant profile))
  | .taking, .plain =>
    match s.slot with
    | .bound runtime =>
      (s.leaveProgram runtime).map fun program =>
        (.leaving runtime program, s.setSlot .transition)
    | .dormant _ | .transition => some (.returned (.error .localLock), s)
    | .unbound => some (.returned (.error .profileUnbound), s)
  | .leaving runtime (.act a k), fate =>
    (s.site.perform (some runtime) a fate).map fun (r, site) =>
      (.leaving runtime (k r), s.setSite site)
  | .leaving _ (.ret (.ok _)), .plain => some (.returned (.ok none), s.setSlot .unbound)
  | .leaving runtime (.ret (.error e)), .plain =>
    some (.returned (.error (mapSessionError e)), s.setSlot (.bound runtime))
  | .working, .plain => some (.returned (.ok none), s)
  | .working, .fail => some (.returned (.error .other), s)
  -- `authority`, which may also fail for the session's health
  | .authorizing runtime, .plain =>
    match s.site.live (some runtime) with
    | some ⟨_, _, .ready⟩ => some (.locating runtime, s)
    | _ => some (.returned (.error .invalidSession), s)
  | .authorizing _, .fail => some (.returned (.error .invalidSession), s)
  | .locating runtime, .plain =>
    match s.site.disk.metadata with
    | some _ => some (.returned (.ok (some runtime)), s)
    | none => some (.returned (.error .profileUnbound), s)
  | .locating _, .fail => some (.returned (.error .other), s)
  | _, _ => none

/-- How a tool call enters the dispatcher. -/
def DispatchPoint.entry : DispatchPoint → Bool
  | .joining _ _ | .checkingStatus | .activating _ | .working => true
  | _ => false

/-! ## What a step can do -/

/-- The call has put the slot into `Transition` and will put something else there. -/
def DispatchPoint.owns : DispatchPoint → Bool
  | .binding _ | .starting _ _ _ | .leaving _ _ => true
  | _ => false

/-- The runtime `activation_runtime` is about to return, or has returned. -/
def DispatchPoint.carries : DispatchPoint → Option Nat
  | .authorizing runtime | .locating runtime | .returned (.ok (some runtime)) => some runtime
  | _ => none

/-- Everything a step of a call can do. -/
inductive DispatchPoint.Move (s : DispatchState) (fate : Fate) :
    DispatchPoint → DispatchPoint → DispatchState → Prop where
  | idle {p p' : DispatchPoint} (before : p.owns = false) (after : p'.owns = false)
      (carries : ∀ r, p'.carries = some r → p.carries = some r ∨ s.slot = .bound r) :
      Move s fate p p' s
  | joins {squad : SquadName} {request : JoinSquadRequest}
      {program : Run (Except SessionError Runtime)} (slot : s.slot = .unbound)
      (text : program = joinAndBind ⟨s.key, squad⟩ request
        ∨ program = .ret (.error (.local .os))) :
      Move s fate (.joining squad request) (.binding program) (s.setSlot .transition)
  | starts {asker : Asker} {profile : ProfileBinding}
      {program : Run (Except SessionError Runtime)} (slot : s.slot = .dormant profile)
      (text : program = start ⟨profile, s.mode, s.client⟩
        ∨ program = .ret (.error (.local .os))) :
      Move s fate (.activating asker) (.starting asker profile program) (s.setSlot .transition)
  | takes {runtime : Nat} {live : LiveSession} (slot : s.slot = .bound runtime)
      (found : s.site.runtimes[runtime]? = some live) :
      Move s fate .taking (.leaving runtime (leaveSession live.profile)) (s.setSlot .transition)
  | binds {a : Action} {k : Answer a → Run (Except SessionError Runtime)} {r : Answer a}
      {site : ProfileSite} (act : s.site.perform none a fate = some (r, site)) :
      Move s fate (.binding (.act a k)) (.binding (k r)) (s.setSite site)
  | boots {asker : Asker} {profile : ProfileBinding} {a : Action}
      {k : Answer a → Run (Except SessionError Runtime)} {r : Answer a} {site : ProfileSite}
      (act : s.site.perform none a fate = some (r, site)) :
      Move s fate (.starting asker profile (.act a k)) (.starting asker profile (k r))
        (s.setSite site)
  | departs {runtime : Nat} {a : Action}
      {k : Answer a → Run (Except SessionError LeaveSquadResponse)} {r : Answer a}
      {site : ProfileSite} (act : s.site.perform (some runtime) a fate = some (r, site)) :
      Move s fate (.leaving runtime (.act a k)) (.leaving runtime (k r)) (s.setSite site)
  | joined {runtime : Runtime} :
      Move s fate (.binding (.ret (.ok runtime))) (.returned (.ok none)) (s.install runtime)
  | unjoined {e : SessionError} :
      Move s fate (.binding (.ret (.error e))) (.returned (.error (mapSessionError e)))
        (s.setSlot .unbound)
  | started {asker : Asker} {profile : ProfileBinding} {runtime : Runtime} :
      Move s fate (.starting asker profile (.ret (.ok runtime)))
        (asker.next s.site.runtimes.length) (s.install runtime)
  | unstarted {asker : Asker} {profile : ProfileBinding} {e : SessionError} :
      Move s fate (.starting asker profile (.ret (.error e)))
        (.returned (.error (mapSessionError e))) (s.setSlot (.dormant profile))
  | left {runtime : Nat} {response : LeaveSquadResponse} :
      Move s fate (.leaving runtime (.ret (.ok response))) (.returned (.ok none))
        (s.setSlot .unbound)
  | unleft {runtime : Nat} {e : SessionError} :
      Move s fate (.leaving runtime (.ret (.error e))) (.returned (.error (mapSessionError e)))
        (s.setSlot (.bound runtime))

theorem Asker.owns_next (asker : Asker) (runtime : Nat) : (asker.next runtime).owns = false := by
  cases asker <;> rfl

theorem Asker.carries_next {asker : Asker} {runtime r : Nat}
    (h : (asker.next runtime).carries = some r) : r = runtime := by
  cases asker with
  | tool => cases h
  | leave => cases h
  | channel => exact (Option.some.inj h).symm

/-- **The inversion of a call's step.** -/
theorem DispatchPoint.step_move {s s' : DispatchState} {fate : Fate} {p p' : DispatchPoint}
    (h : p.step s fate = some (p', s')) : Move s fate p p' s' := by
  unfold DispatchPoint.step at h
  split at h
  case h_3 | h_10 | h_14 =>
    obtain ⟨⟨r, site⟩, hact, heq⟩ := Option.map_eq_some_iff.mp h
    cases heq
    constructor
    exact hact
  case h_1 =>
    split at h
    · rename_i hslot
      cases h
      exact .joins hslot (Or.inl rfl)
    all_goals
      cases h
      exact .idle rfl rfl nofun
  case h_2 =>
    split at h
    · rename_i hslot
      cases h
      exact .joins hslot (Or.inr rfl)
    · cases h
  case h_8 asker =>
    split at h
    · rename_i hslot
      cases h
      exact .starts hslot (Or.inl rfl)
    · rename_i runtime hslot
      cases h
      refine .idle rfl (asker.owns_next runtime) fun r hr => Or.inr ?_
      rw [Asker.carries_next hr, hslot]
    all_goals
      cases h
      exact .idle rfl rfl nofun
  case h_9 =>
    split at h
    · rename_i hslot
      cases h
      exact .starts hslot (Or.inr rfl)
    · cases h
  case h_13 =>
    split at h
    · rename_i hslot
      simp only [DispatchState.leaveProgram, Option.map_map, Option.map_eq_some_iff] at h
      obtain ⟨live, hfound, heq⟩ := h
      cases heq
      exact .takes hslot hfound
    all_goals
      cases h
      exact .idle rfl rfl nofun
  case h_4 =>
    cases h
    exact .joined
  case h_5 =>
    cases h
    exact .unjoined
  case h_11 =>
    cases h
    exact .started
  case h_12 =>
    cases h
    exact .unstarted
  case h_15 =>
    cases h
    exact .left
  case h_16 =>
    cases h
    exact .unleft
  all_goals (try split at h)
  all_goals cases h
  all_goals first
    | exact .idle rfl rfl fun _ hr => Or.inl hr
    | exact .idle rfl rfl fun _ hr => by cases hr

/-! ## Heartbeats -/

/-- What heartbeats and availability reports make of a lifecycle that is theirs to move. -/
def LifecycleState.beats (before after : LifecycleState) : Bool :=
  match before, after with
  | .ready, .ready | .ready, .recovering | .ready, .outcomeUnknown | .ready, .rotationFailed => true
  | .recovering, .ready | .recovering, .recovering => true
  | .recovering, .outcomeUnknown | .recovering, .rotationFailed => true
  | _, _ => false

/-- A heartbeat of runtime `r` moved its lifecycle, and stored the credential it shares now. -/
def ProfileSite.pulse (s : ProfileSite) (r : Nat) (after : LifecycleState)
    (rotated : Option Credential) : Option ProfileSite :=
  (s.runtimes[r]?).bind fun live =>
    if live.lifecycle.beats after then
      let credential := rotated.getD live.credential
      let record : Option CredentialRecord :=
        if rotated.isSome then some ⟨live.profile.credentialBinding, credential⟩
        else s.disk.credential
      some
        { s with
          disk := { s.disk with credential := record }
          runtimes := s.runtimes.set r ⟨live.profile, credential, after⟩ }
    else none

end Psst
