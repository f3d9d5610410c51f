import Psst.Mcp.Cancel

/-!
# The wake channel

A process that was started for wakes keeps a controller beside the slot, and the controller observes
one session. Three cells with a lock each: the slot, the controller and the client's peer. Tool
calls start the controller after the fact, a leave and a shutdown stop it before, and the client
announces itself when it likes.
-/

namespace Psst

/-! ## The server -/

/-- `ClaudeChannelController`: the runtime it observes, and whether its host was given the peer. -/
structure ChannelController where
  runtime : Nat
  connected : Bool

/-- Where `ensure_channel_started` stands. -/
inductive EnsureSite where
  | reading
  /-- it has looked for the peer, and waits for the controller's lock -/
  | locking (peer : Bool)
  /-- in `activation_runtime`, with the lock -/
  | seeking (peer : Bool) (point : DispatchPoint)
  /-- in `ClaudeChannelController::start`, with the lock -/
  | starting (peer : Bool) (runtime : Nat)

/-- Who calls `stop_channel`. -/
inductive Stopper where
  | leave
  | shutdown

/-- A future of the server. -/
inductive ServerTask where
  /-- `stop_channel` waits for the lock -/
  | stopping (stopper : Stopper)
  /-- it shuts the controller down, with the lock -/
  | halting (stopper : Stopper)
  | calling (leave : Bool) (point : DispatchPoint)
  /-- `ensure_channel_started`, after a tool call or before the server is there -/
  | ensuring (boot : Bool) (site : EnsureSite)
  /-- `on_initialized`, before the peer is stored -/
  | writing
  /-- before it looks for a controller -/
  | looking
  | initialized
  /-- `shutdown`, before the peer is taken -/
  | retracting
  | closing (future : CallFuture)
  | done

/-- `CooperativeServer` with its channel enabled, over the dispatcher. -/
structure ChannelServer where
  dispatch : DispatchState
  peer : Bool
  channel : Option ChannelController
  /-- `from_environment` has returned the server -/
  serving : Bool
  tasks : List ServerTask

inductive ChannelStep where
  | call (point : DispatchPoint)
  | leave
  | initialized
  | shutdown
  | act (task : Nat) (fate : Fate)
  | pulse (runtime : Nat) (after : LifecycleState) (rotated : Option Credential)

/-- What `stop_channel` is called for. -/
def Stopper.next : Stopper → ServerTask
  | .leave => .calling true (.activating .leave)
  | .shutdown => .retracting

/-- Every tool but `squad_leave`. -/
def DispatchPoint.tool : DispatchPoint → Bool
  | .joining _ _ | .checkingStatus | .activating .tool | .working => true
  | _ => false

namespace ServerTask

/-- The task has the controller's lock. -/
def holds : ServerTask → Bool
  | halting _ | ensuring _ (.seeking _ _) | ensuring _ (.starting _ _) => true
  | _ => false

/-- It has put the slot into `Transition`. -/
def owns : ServerTask → Bool
  | calling _ point | ensuring _ (.seeking _ point) => point.owns
  | closing future => future.owns
  | _ => false

def finished : ServerTask → Bool
  | initialized | done => true
  | closing future => future.finished
  | _ => false

end ServerTask

namespace ChannelServer

def channelFree (w : ChannelServer) : Bool := !w.tasks.any ServerTask.holds

def setDispatch (w : ChannelServer) (s : DispatchState) : ChannelServer := { w with dispatch := s }

/-- The first `ensure_channel_started` was successful. -/
def served (w : ChannelServer) (boot : Bool) : ChannelServer :=
  { w with serving := w.serving || boot }

/-- One step of `ensure_channel_started`. -/
def ensure (w : ChannelServer) (boot : Bool) :
    EnsureSite → Fate → Option (ServerTask × ChannelServer)
  | .reading, .plain => some (.ensuring boot (.locking w.peer), w)
  | .locking peer, .plain =>
    if w.channelFree then
      if w.channel.isSome then some (.done, w.served boot)
      else some (.ensuring boot (.seeking peer (.activating .channel)), w)
    else none
  | .seeking peer (.returned (.ok (some runtime))), .plain =>
    some (.ensuring boot (.starting peer runtime), w)
  | .seeking _ (.returned (.error .profileUnbound)), .plain => some (.done, w.served boot)
  | .seeking _ (.returned (.error _)), .plain => some (.done, w)
  | .seeking peer point, fate =>
    (point.step w.dispatch fate).map fun (point, s) =>
      (.ensuring boot (.seeking peer point), w.setDispatch s)
  | .starting peer runtime, .plain =>
    some (.done, { w.served boot with channel := some ⟨runtime, peer⟩ })
  | .starting _ _, .fail => some (.done, w)
  | _, _ => none

/-- One step of a task. -/
def advance (w : ChannelServer) : ServerTask → Fate → Option (ServerTask × ChannelServer)
  | .stopping stopper, .plain =>
    if w.channelFree then
      some (if w.channel.isSome then .halting stopper else stopper.next,
        { w with channel := none })
    else none
  | .halting stopper, .plain => some (stopper.next, w)
  -- a leave that fails starts the controller again, every other tool does when it succeeds
  | .calling leave (.returned (.ok _)), .plain =>
    some (if leave then .done else .ensuring false .reading, w)
  | .calling leave (.returned (.error _)), .plain =>
    some (if leave then .ensuring false .reading else .done, w)
  | .calling leave point, fate =>
    (point.step w.dispatch fate).map fun (point, s) => (.calling leave point, w.setDispatch s)
  | .ensuring boot site, fate => w.ensure boot site fate
  | .writing, .plain => some (.looking, { w with peer := true })
  | .looking, .plain =>
    if w.channelFree then
      some (.initialized,
        { w with channel := w.channel.map fun c => { c with connected := true } })
    else none
  | .retracting, .plain => some (.closing .closing, { w with peer := false })
  | .closing future, fate =>
    (future.close w.dispatch fate).map fun (future, s) => (.closing future, w.setDispatch s)
  | _, _ => none

def spawn (w : ChannelServer) (task : ServerTask) : Option ChannelServer :=
  if w.serving then some { w with tasks := w.tasks ++ [task] } else none

def step (w : ChannelServer) : ChannelStep → Option ChannelServer
  | .call point => if point.tool then w.spawn (.calling false point) else none
  | .leave => w.spawn (.stopping .leave)
  | .initialized => w.spawn .writing
  | .shutdown => w.spawn (.stopping .shutdown)
  | .act i fate =>
    (w.tasks[i]?).bind fun task =>
      (w.advance task fate).map fun (task, u) => { u with tasks := w.tasks.set i task }
  | .pulse r after rotated =>
    (w.dispatch.site.pulse r after rotated).map fun site => w.setDispatch (w.dispatch.setSite site)

/-- `from_environment`, before it ensures that the channel is started. -/
def opened (key : ProfileKey) (mode : AgentMode) (client : ClientMetadata) (disk : Disk) :
    ChannelServer where
  dispatch := .opened key mode client disk
  peer := false
  channel := none
  serving := false
  tasks := [.ensuring true .reading]

end ChannelServer

/-- One MCP process with its channel enabled. -/
def channelLts : Lts ChannelServer ChannelStep :=
  .ofStep (fun w => ∃ key mode client disk, w = .opened key mode client disk) ChannelServer.step

/-! ## What a step can do -/

/-- **What a step of a task can do**, its own site first. -/
inductive ServerTask.Move (w : ChannelServer) (fate : Fate) :
    ServerTask → ServerTask → ChannelServer → Prop where
  | stop {stopper : Stopper} {task : ServerTask} (free : w.channelFree = true)
      (next : task = .halting stopper ∨ task = stopper.next) :
      Move w fate (.stopping stopper) task { w with channel := none }
  | halted {stopper : Stopper} : Move w fate (.halting stopper) stopper.next w
  | called {leave : Bool} {result : Except LocalErrorCode (Option Nat)} {task : ServerTask}
      (next : task = .done ∨ task = .ensuring false .reading) :
      Move w fate (.calling leave (.returned result)) task w
  | calls {leave : Bool} {point point' : DispatchPoint} {s : DispatchState}
      (step : point.step w.dispatch fate = some (point', s)) :
      Move w fate (.calling leave point) (.calling leave point') (w.setDispatch s)
  | read {boot : Bool} :
      Move w fate (.ensuring boot .reading) (.ensuring boot (.locking w.peer)) w
  | present {boot peer : Bool} :
      Move w fate (.ensuring boot (.locking peer)) .done (w.served boot)
  | lock {boot peer : Bool} (free : w.channelFree = true) (empty : w.channel = none) :
      Move w fate (.ensuring boot (.locking peer))
        (.ensuring boot (.seeking peer (.activating .channel))) w
  | seeks {boot peer : Bool} {point point' : DispatchPoint} {s : DispatchState}
      (step : point.step w.dispatch fate = some (point', s)) :
      Move w fate (.ensuring boot (.seeking peer point)) (.ensuring boot (.seeking peer point'))
        (w.setDispatch s)
  | found {boot peer : Bool} {runtime : Nat} :
      Move w fate (.ensuring boot (.seeking peer (.returned (.ok (some runtime)))))
        (.ensuring boot (.starting peer runtime)) w
  | unfound {boot peer : Bool} {e : LocalErrorCode} (served : Bool) :
      Move w fate (.ensuring boot (.seeking peer (.returned (.error e)))) .done (w.served served)
  | started {boot peer : Bool} {runtime : Nat} :
      Move w fate (.ensuring boot (.starting peer runtime)) .done
        { w.served boot with channel := some ⟨runtime, peer⟩ }
  | unstarted {boot peer : Bool} {runtime : Nat} :
      Move w fate (.ensuring boot (.starting peer runtime)) .done w
  | wrote : Move w fate .writing .looking { w with peer := true }
  | looked (free : w.channelFree = true) :
      Move w fate .looking .initialized
        { w with channel := w.channel.map fun c => { c with connected := true } }
  | retracted : Move w fate .retracting (.closing .closing) { w with peer := false }
  | closes {future future' : CallFuture} {s : DispatchState}
      (step : future.close w.dispatch fate = some (future', s)) :
      Move w fate (.closing future) (.closing future') (w.setDispatch s)

namespace ChannelServer

variable {w u : ChannelServer} {fate : Fate} {task task' : ServerTask}

theorem served_false (w : ChannelServer) : w.served false = w := by
  simp [served]

theorem ensure_move {boot : Bool} {site : EnsureSite}
    (h : w.ensure boot site fate = some (task', u)) :
    ServerTask.Move w fate (.ensuring boot site) task' u := by
  unfold ensure at h
  split at h
  next =>
    cases h
    exact .read
  next =>
    split_ifs at h with hfree hchannel
    · cases h
      exact .present
    · cases h
      exact .lock hfree (by simpa using hchannel)
  next =>
    cases h
    exact .found
  next =>
    cases h
    exact .unfound boot
  next peer e hother =>
    cases h
    have hmove : ServerTask.Move w .plain (.ensuring boot (.seeking peer (.returned (.error e))))
        .done (w.served false) := .unfound false
    rw [served_false] at hmove
    exact hmove
  next =>
    obtain ⟨⟨point', s⟩, hstep, heq⟩ := Option.map_eq_some_iff.mp h
    cases heq
    exact .seeks hstep
  next =>
    cases h
    exact .started
  next =>
    cases h
    exact .unstarted
  next => cases h

/-- **The inversion of a task's step.** -/
theorem advance_move (h : w.advance task fate = some (task', u)) :
    ServerTask.Move w fate task task' u := by
  unfold advance at h
  split at h
  next =>
    split_ifs at h with hfree hchannel
    all_goals cases h
    · exact .stop hfree (Or.inl rfl)
    · exact .stop hfree (Or.inr rfl)
  next =>
    cases h
    exact .halted
  next leave result =>
    cases h
    apply ServerTask.Move.called
    cases leave with
    | true => exact Or.inl rfl
    | false => exact Or.inr rfl
  next leave e =>
    cases h
    apply ServerTask.Move.called
    cases leave with
    | true => exact Or.inr rfl
    | false => exact Or.inl rfl
  next =>
    obtain ⟨⟨point', s⟩, hstep, heq⟩ := Option.map_eq_some_iff.mp h
    cases heq
    exact .calls hstep
  next => exact ensure_move h
  next =>
    cases h
    exact .wrote
  next =>
    split_ifs at h with hfree
    cases h
    exact .looked hfree
  next =>
    cases h
    exact .retracted
  next =>
    obtain ⟨⟨future', s⟩, hstep, heq⟩ := Option.map_eq_some_iff.mp h
    cases heq
    exact .closes hstep
  next => cases h

end ChannelServer

end Psst
