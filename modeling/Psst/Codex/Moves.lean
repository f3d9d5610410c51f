import Psst.Codex.Runtime

/-!
# What a step of the activation can do

A step of the task moves nothing but the task itself, or the machine with it, or the source, or
the host. Each kind has its own relation, with the guards under which the step is taken, so that
an invariant is looked at for the steps that touch it and no others.
-/

namespace Psst

/-- Where `start_turn` leads to. -/
def TaskSite.ofTurn : Option (Except AppServerError String) → TaskSite
  | none => .hanging
  | some (.error e) => .abandoning e
  | some (.ok turnId) => .started (.ok turnId)

/-- Where a round of `wait_completed` leads to. -/
def TaskSite.ofWaited (turnId : String) : Waited → TaskSite
  | .hanging => .stalled
  | .again => .completing turnId
  | .ended result => .reaping result

theorem TaskSite.ofTurn_cases (result : Option (Except AppServerError String)) :
    TaskSite.ofTurn result = .hanging ∨ (∃ e, TaskSite.ofTurn result = .abandoning e)
      ∨ ∃ turnId, TaskSite.ofTurn result = .started (.ok turnId) := by
  cases result with
  | none => exact Or.inl rfl
  | some result =>
      cases result with
      | error e => exact Or.inr (Or.inl ⟨e, rfl⟩)
      | ok turnId => exact Or.inr (Or.inr ⟨turnId, rfl⟩)

theorem TaskSite.ofWaited_cases (turnId : String) (waited : Waited) :
    TaskSite.ofWaited turnId waited = .stalled
      ∨ TaskSite.ofWaited turnId waited = .completing turnId
      ∨ ∃ result, TaskSite.ofWaited turnId waited = .reaping result := by
  cases waited with
  | hanging => exact Or.inl rfl
  | again => exact Or.inr (Or.inl rfl)
  | ended result => exact Or.inr (Or.inr ⟨result, rfl⟩)

namespace CodexSystem

/-! ## The relations -/

/-- Only the task moves. -/
inductive Passes (w : CodexSystem) : TaskSite → Prop where
  | observe (hsite : w.site = .head) (hcancelled : w.cancelled = false) : Passes w .locking
  | leave (hsite : w.site = .head ∨ (∃ wake, w.site = .entering wake)
      ∨ ∃ turnId, w.site = .accepted turnId) (hcancelled : w.cancelled = true) : Passes w .over
  | reuse (hsite : w.site = .locking) (hslot : w.source.slot = true) : Passes w .polling
  | lock (hsite : w.site = .locking) (hslot : w.source.slot = false) : Passes w .opening
  | mail (wake : WakeMetadata) (hsite : w.site = .polling) : Passes w (.releasing wake)
  | unseen (result : Except ObservationFailure (Option WakeMetadata))
      (hsite : w.site = .opening ∨ w.site = .polling ∨ ∃ wake, w.site = .releasing wake)
      (hresult : ∀ wake, result ≠ .ok (some wake)) : Passes w (.observed result)
  | waited (hsite : w.site = .pausing) : Passes w .head
  | ask (wake : WakeMetadata) (hsite : w.site = .entering wake) (hcancelled : w.cancelled = false) :
      Passes w .hosting
  | taken (hsite : w.site = .hosting) (hclient : w.host.client.isSome = true) :
      Passes w (.started (.error .retryableBeforeStart))
  | launch (hsite : w.site = .hosting) (hclient : w.host.client = none) : Passes w .launching
  | elapsed (hsite : w.site = .backoff) : Passes w .retrying
  | wait (turnId : String) (hsite : w.site = .accepted turnId) : Passes w (.completing turnId)
  | blocked (hsite : w.site = .checking) (hphase : w.machine.phase = .blocked) : Passes w .over
  | again (hsite : w.site = .checking) (hphase : w.machine.phase ≠ .blocked) : Passes w .head

/-- The machine moves with the task. -/
inductive Decides (w : CodexSystem) : ActivationMachine → TaskSite → Prop where
  | wake (wake : WakeMetadata) (hsite : w.site = .observed (.ok (some wake)))
      (hphase : w.machine.phase = .quiet) :
      Decides w { w.machine with phase := .pending, pending := some wake } (.waking wake)
  | ignore (result : Except ObservationFailure (Option WakeMetadata))
      (hsite : w.site = .observed result) : Decides w w.machine .head
  | note (wake : WakeMetadata) (hsite : w.site = .observed (.ok (some wake)))
      (hphase : w.machine.phase ≠ .quiet) :
      Decides w { w.machine with pending := some wake, reconcileNeeded := true } .head
  | pause (hsite : w.site = .observed (.error .retryable)) : Decides w w.machine .pausing
  | stop (e : ObservationFailure) (hsite : w.site = .observed (.error e)) :
      Decides w w.machine.block .over
  | issue (wake : WakeMetadata) (hsite : w.site = .waking wake)
      (hphase : w.machine.phase = .pending) :
      Decides w { w.machine with phase := .waking } (.entering wake)
  | accept (turnId : String) (hsite : w.site = .started (.ok turnId))
      (hphase : w.machine.phase = .waking) :
      Decides w { w.machine with phase := .running } (.accepted turnId)
  | retry (hsite : w.site = .started (.error .retryableBeforeStart))
      (hhosting : w.machine.hosting = true)
      (hleft : ¬ w.machine.policy.maximumAttempts ≤ UInt8.saturatingSucc w.machine.retryAttempt) :
      Decides w { w.machine with
        retryAttempt := UInt8.saturatingSucc w.machine.retryAttempt, phase := .backoff } .backoff
  | exhaust (hsite : w.site = .started (.error .retryableBeforeStart))
      (hhosting : w.machine.hosting = true) :
      Decides w { w.machine with
        retryAttempt := UInt8.saturatingSucc w.machine.retryAttempt, phase := .blocked } .checking
  | due (wake : WakeMetadata) (hsite : w.site = .retrying) (hphase : w.machine.phase = .backoff) :
      Decides w { w.machine with phase := .pending, reconcileNeeded := false } (.waking wake)
  | complete (hsite : w.site = .completed (.ok ())) (hhosting : w.machine.hosting = true) :
      Decides w { w.machine with
        phase := .quiet, pending := none, reconcileNeeded := false, retryAttempt := 0 } .checking
  | fail (hsite : (∃ e, w.site = .started (.error e)) ∨ ∃ e, w.site = .completed (.error e))
      (hhosting : w.machine.hosting = true) :
      Decides w { w.machine with phase := .blocked } .checking
  /-- a failure the machine did not expect blocks nothing -/
  | ignored (hsite : (∃ e, w.site = .started (.error e)) ∨ ∃ result, w.site = .completed result)
      (hhosting : w.machine.hosting = false) : Decides w w.machine .checking
  /-- a transition that is refused -/
  | refuse (hsite : (∃ wake, w.site = .waking wake) ∨ w.site = .retrying
      ∨ ∃ result, w.site = .started result) : Decides w w.machine.block .checking

variable [SerdeJson]

/-- The host moves with the task. -/
inductive Hosts (w : CodexSystem) : HostState → TaskSite → Prop where
  | hang {env : Launching} {traffic : List Traffic} {record : Option String}
      (hsite : w.site = .launching)
      (hlaunch : AppServerClient.launch w.host.config w.host.record env
        = (none, traffic, record)) : Hosts w (w.host.lose traffic record) .hanging
  | fail {env : Launching} {e : AppServerError} {traffic : List Traffic} {record : Option String}
      (hsite : w.site = .launching)
      (hlaunch : AppServerClient.launch w.host.config w.host.record env
        = (some (.error e), traffic, record)) :
      Hosts w (w.host.lose traffic record) (.started (.error (classifyStart e)))
  | install {env : Launching} {client : AppServerClient} {traffic : List Traffic}
      {record : Option String} (hsite : w.site = .launching)
      (hlaunch : AppServerClient.launch w.host.config w.host.record env
        = (some (.ok client), traffic, record)) : Hosts w (w.host.install client record) .turning
  | turn {c client : AppServerClient} {sink : Sink}
      {result : Option (Except AppServerError String)} (hsite : w.site = .turning)
      (hclient : w.host.client = some c) (hturn : c.startTurn sink = (result, client)) :
      Hosts w { w.host with client := some client } (.ofTurn result)
  | abandon {e : AppServerError} {result : Except AppServerError Unit}
      (hsite : w.site = .abandoning e) :
      Hosts w (w.host.take result) (.started (.error (classifyStart e)))
  | waited {turnId : String} {c client : AppServerClient} {forward answer : Sink} {waited : Waited}
      (hsite : w.site = .completing turnId) (hclient : w.host.client = some c)
      (hwaited : c.waitCompleted turnId forward answer = (waited, client)) :
      Hosts w { w.host with client := some client } (.ofWaited turnId waited)
  | reap {completion result : Except AppServerError Unit} (hsite : w.site = .reaping completion) :
      Hosts w (w.host.take result) (.completed
        ((completion.bind fun _ => result).mapError fun _ => HostFailure.outcomeUnknown))

/-- **What a step of the task can do.** -/
inductive TaskMove (w : CodexSystem) : CodexSystem → Prop where
  | pass {site : TaskSite} (h : w.Passes site) : TaskMove w (w.go site)
  | decide {machine : ActivationMachine} {site : TaskSite} (failures : UInt8)
      (h : w.Decides machine site) :
      TaskMove w { w with machine := machine, site := site, observationFailures := failures }
  | host {host : HostState} {site : TaskSite} (h : w.Hosts host site) :
      TaskMove w { w with host := host, site := site }
  | opened (hsite : w.site = .opening) :
      TaskMove w { w with
        site := .polling
        source := { w.source with slot := true, sessions := .live :: w.source.sessions } }
  | released {wake : WakeMetadata} (hsite : w.site = .releasing wake) :
      TaskMove w { w with
        site := .observed (.ok (some wake))
        source :=
          { w.source with slot := false, sessions := .released :: w.source.sessions.tail } }

/-! ## The steps are in the relations -/

variable {w w' : CodexSystem}

omit [SerdeJson] in
theorem moved_of_decides {machine : ActivationMachine} {site : TaskSite} [SerdeJson]
    (h : w.Decides machine site) : TaskMove w (w.moved machine site) :=
  .decide w.observationFailures h

theorem digest_move {result : Except ObservationFailure (Option WakeMetadata)}
    (hsite : w.site = .observed result) : TaskMove w (w.digest result) := by
  unfold digest
  cases result with
  | ok pending =>
      simp only [Activation.observed]
      cases pending with
      | none =>
          have hnone : w.machine.observe none = (.none, w.machine) := by
            unfold ActivationMachine.observe
            split <;> simp_all
          rw [hnone]
          exact .decide 0 (.ignore _ hsite)
      | some wake =>
          by_cases hquiet : w.machine.phase = .quiet
          · have hwake : w.machine.observe (some wake)
                = (.activate wake, { w.machine with phase := .pending, pending := some wake }) := by
              simp [ActivationMachine.observe, hquiet]
            rw [hwake]
            exact .decide 0 (.wake wake hsite hquiet)
          · -- a machine that is not quiet is left alone, or takes a note
            have hother : w.machine.observe (some wake) = (.none, w.machine)
                ∨ w.machine.observe (some wake)
                  = (.none, { w.machine with pending := some wake, reconcileNeeded := true }) := by
              unfold ActivationMachine.observe
              split <;> simp_all
            rcases hother with hsame | hnote
            · rw [hsame]
              exact .decide 0 (.ignore _ hsite)
            · rw [hnote]
              exact .decide 0 (.note wake hsite hquiet)
  | error e =>
      cases e with
      | retryable =>
          simp only [Activation.observed]
          split_ifs with hmax
          · exact .decide _ (.stop _ hsite)
          · exact .decide _ (.pause hsite)
      | permanent => exact .decide _ (.stop _ hsite)

theorem polled_move {response : Except ObservationFailure InboxResponse}
    (hsite : w.site = .polling) : TaskMove w (w.polled response) := by
  unfold polled
  split
  next wake h => exact .pass (.mail wake hsite)
  next h => exact .pass (.unseen _ (Or.inr (Or.inl hsite)) (by simp))
  next e h => exact .pass (.unseen _ (Or.inr (Or.inl hsite)) (by simp))

theorem permanent_move (hsite : (∃ e, w.site = .started (.error e))
    ∨ ∃ e, w.site = .completed (.error e)) :
    TaskMove w (w.moved w.machine.wakePermanentFailure.2 .checking) := by
  unfold ActivationMachine.wakePermanentFailure
  split_ifs with hhosting
  · apply moved_of_decides
    refine .ignored (hsite.imp id ?_) hhosting
    intro ⟨e, he⟩
    exact ⟨_, he⟩
  · exact moved_of_decides (.fail hsite (by simpa using hhosting))

theorem begun_move {result : Except HostFailure String} (hsite : w.site = .started result) :
    TaskMove w (w.begun result) := by
  cases result with
  | ok turnId =>
      simp only [begun, ActivationMachine.wakeAccepted]
      split_ifs with hphase
      · exact moved_of_decides (.refuse (Or.inr (Or.inr ⟨_, hsite⟩)))
      · exact moved_of_decides (.accept turnId hsite (not_not.mp hphase))
  | error e =>
      have hstarted : (∃ e, w.site = .started (.error e)) ∨ ∃ e, w.site = .completed (.error e) :=
        Or.inl ⟨e, hsite⟩
      cases e with
      | retryableBeforeStart =>
          simp only [begun, ActivationMachine.wakeRetryableFailure]
          by_cases hhosting : w.machine.hosting = false
          · rw [if_pos hhosting]
            exact moved_of_decides (.refuse (Or.inr (Or.inr ⟨_, hsite⟩)))
          · have hhosts : w.machine.hosting = true := by simpa using hhosting
            rw [if_neg hhosting]
            by_cases hmax : w.machine.policy.maximumAttempts
                ≤ UInt8.saturatingSucc w.machine.retryAttempt
            · simp only [if_pos hmax]
              exact moved_of_decides (.exhaust hsite hhosts)
            · simp only [if_neg hmax]
              exact moved_of_decides (.retry hsite hhosts hmax)
      | outcomeUnknown => exact permanent_move hstarted
      | permanent => exact permanent_move hstarted

theorem finished_move {result : Except HostFailure Unit} (hsite : w.site = .completed result) :
    TaskMove w (w.finished result) := by
  cases result with
  | ok u =>
      simp only [finished, ActivationMachine.wakeCompleted]
      split_ifs with hhosting
      · exact moved_of_decides (.ignored (Or.inr ⟨_, hsite⟩) hhosting)
      · exact moved_of_decides (.complete hsite (by simpa using hhosting))
  | error e => exact permanent_move (Or.inr ⟨e, hsite⟩)

theorem due_move (hsite : w.site = .retrying) : TaskMove w w.due := by
  have hrefuse : TaskMove w (w.moved w.machine.block .checking) :=
    moved_of_decides (.refuse (Or.inr (Or.inl hsite)))
  unfold due ActivationMachine.retryDue
  by_cases hphase : w.machine.phase ≠ .backoff
  · rw [if_pos hphase]
    exact hrefuse
  · rw [if_neg hphase]
    cases hpending : w.machine.pending with
    | none => exact hrefuse
    | some wake =>
        have hdue := Decides.due wake hsite (not_not.mp hphase)
        dsimp only at hdue
        rw [hpending] at hdue
        exact moved_of_decides hdue

theorem goOn_move {event : TaskEvent} (h : w.goOn w.site event = some w') : TaskMove w w' := by
  unfold goOn at h
  split at h
  next hsite =>
    cases h
    cases hcancelled : w.cancelled with
    | true => exact .pass (.leave (Or.inl hsite) hcancelled)
    | false => exact .pass (.observe hsite hcancelled)
  next hsite =>
    split_ifs at h with hfree hslot
    · cases h
      exact .pass (.reuse hsite hslot)
    · cases h
      exact .pass (.lock hsite (by simpa using hslot))
  next hsite =>
    cases h
    exact .opened hsite
  next e hsite =>
    cases h
    exact .pass (.unseen _ (Or.inl hsite) (by simp))
  next response hsite =>
    cases h
    exact polled_move hsite
  next wake hsite =>
    cases h
    exact .released hsite
  next wake hsite =>
    cases h
    exact .pass (.unseen _ (Or.inr (Or.inr ⟨wake, hsite⟩)) (by simp))
  next result hsite =>
    cases h
    exact digest_move hsite
  next hsite =>
    cases h
    exact .pass (.waited hsite)
  next wake hsite =>
    unfold ActivationMachine.wakeStarted at h
    split_ifs at h with hphase
    · cases h
      exact moved_of_decides (.refuse (Or.inl ⟨wake, hsite⟩))
    · cases h
      rw [not_or] at hphase
      exact moved_of_decides (.issue wake hsite (not_not.mp hphase.1))
  next wake hsite =>
    cases h
    cases hcancelled : w.cancelled with
    | true => exact .pass (.leave (Or.inr (Or.inl ⟨wake, hsite⟩)) hcancelled)
    | false => exact .pass (.ask wake hsite hcancelled)
  next hsite =>
    split_ifs at h with hfree hclient
    · cases h
      exact .pass (.taken hsite hclient)
    · cases h
      exact .pass (.launch hsite (by simpa using hclient))
  next env hsite =>
    cases h
    unfold launched
    split
    next traffic record hlaunch => exact .host (.hang hsite hlaunch)
    next e traffic record hlaunch => exact .host (.fail hsite hlaunch)
    next client traffic record hlaunch => exact .host (.install hsite hlaunch)
  next sink hsite =>
    obtain ⟨c, hclient, rfl⟩ := Option.map_eq_some_iff.mp h
    unfold turned
    split
    next client hturn => exact .host (.turn hsite hclient hturn)
    next e client hturn => exact .host (.turn hsite hclient hturn)
    next turnId client hturn => exact .host (.turn hsite hclient hturn)
  next e result hsite =>
    cases h
    exact .host (.abandon hsite)
  next result hsite =>
    cases h
    exact begun_move hsite
  next hsite =>
    cases h
    exact .pass (.elapsed hsite)
  next hsite =>
    cases h
    exact due_move hsite
  next turnId hsite =>
    cases h
    cases hcancelled : w.cancelled with
    | true => exact .pass (.leave (Or.inr (Or.inr ⟨turnId, hsite⟩)) hcancelled)
    | false => exact .pass (.wait turnId hsite)
  next turnId forward answer hsite =>
    obtain ⟨c, hclient, rfl⟩ := Option.map_eq_some_iff.mp h
    unfold waited
    split
    next client hwaited => exact .host (.waited hsite hclient hwaited)
    next client hwaited => exact .host (.waited hsite hclient hwaited)
    next result client hwaited => exact .host (.waited hsite hclient hwaited)
  next completion result hsite =>
    cases h
    exact .host (.reap hsite)
  next result hsite =>
    cases h
    exact finished_move hsite
  next hsite =>
    cases h
    by_cases hphase : w.machine.snapshot.phase = .blocked
    · rw [if_pos hphase]
      exact .pass (.blocked hsite hphase)
    · rw [if_neg hphase]
      exact .pass (.again hsite hphase)
  next => cases h

/-- Where a turn is about to be asked for, the task does nothing else. -/
theorem goOn_turning {event : TaskEvent} (hsite : w.site = .turning)
    (h : w.goOn w.site event = some w') :
    ∃ sink c, event = .turn sink ∧ w.host.client = some c ∧ w' = { w with
      host := { w.host with client := some (c.startTurn sink).2 }
      site := .ofTurn (c.startTurn sink).1 } := by
  rw [hsite] at h
  cases event with
  | turn sink =>
      obtain ⟨c, hclient, rfl⟩ := Option.map_eq_some_iff.mp h
      refine ⟨sink, c, rfl, hclient, ?_⟩
      unfold turned
      split
      all_goals
        next heq =>
          rw [heq]
          rfl
  | _ => cases h

/-! ## Shutting down -/

omit [SerdeJson] in
/-- **What a step of a call that shuts down can do**, with the rest of the state first and then
the call's own site. -/
inductive CloserMove (w : CodexSystem) (c : Closer) : CodexSystem → CloserSite → Prop where
  | cancel (hsite : c.site = .cancelling) : CloserMove w c { w with cancelled := true } .handle
  | handle (hsite : c.site = .handle) :
      CloserMove w c { w with task := false } (if w.task then .joining else .stopping)
  | join (hsite : c.site = .joining) (hover : w.site = .over) : CloserMove w c w .stopping
  | stop (site : CloserSite) (hsite : c.site = .stopping)
      (hnext : c.closing = .shutdown ∧ site = .status
        ∨ c.closing = .bootstrap ∧ site = .source (.ok ()) (.ok ())) :
      CloserMove w c { w with machine := w.machine.stop } site
  | status (status : Except AppServerError Unit) (hsite : c.site = .status) :
      CloserMove w c w (.host status)
  | spared (status : Except AppServerError Unit) (hsite : c.site = .host status)
      (hclient : w.host.client = none) : CloserMove w c w (.source status (.ok ()))
  | begin (status : Except AppServerError Unit) (hsite : c.site = .host status)
      (hfree : w.hostFree = true) : CloserMove w c w (.reaping status)
  | reap (status : Except AppServerError Unit) (hsite : c.site = .reaping status) :
      CloserMove w c { w with host := w.host.take (.ok ()) } (.source status (.ok ()))
  | keep (status : Except AppServerError Unit) (e : AppServerError)
      (hsite : c.site = .reaping status) : CloserMove w c w (.source status (.error e))
  | vacant (status host : Except AppServerError Unit) (hsite : c.site = .source status host)
      (hslot : w.source.slot = false) : CloserMove w c w (.closed status host (.ok ()))
  | take (status host : Except AppServerError Unit) (hsite : c.site = .source status host)
      (hfree : w.slotFree = true) (hslot : w.source.slot = true) :
      CloserMove w c { w with source := { w.source with slot := false } } (.retiring status host)
  | retire (status host result : Except AppServerError Unit) (fate : SessionFate)
      (hsite : c.site = .retiring status host) (hfate : result = .ok () → fate = .released) :
      CloserMove w c
        { w with source := { w.source with sessions := fate :: w.source.sessions.tail } }
        (.closed status host result)
  | drop (hsite : c.hasSlot = false) : CloserMove w c w .dropped
  | forget (hsite : c.hasSlot = true) :
      CloserMove w c
        { w with source := { w.source with sessions := .dropped :: w.source.sessions.tail } }
        .dropped

omit [SerdeJson] in
theorem shut_move {i : Nat} {c : Closer} {result : Except AppServerError Unit}
    (h : w.shut i c result = some w') :
    ∃ u site, CloserMove w c u site ∧ w' = u.setCloser i { c with site := site } := by
  unfold shut at h
  dsimp only at h
  split at h
  next hsite =>
    cases h
    exact ⟨_, _, .cancel hsite, rfl⟩
  next hsite =>
    obtain ⟨-, h⟩ := Option.ite_none_right_eq_some.mp h
    cases h
    exact ⟨_, _, .handle hsite, rfl⟩
  next hsite =>
    split at h
    next hover =>
      cases h
      exact ⟨_, _, .join hsite hover, rfl⟩
    next => cases h
  next hsite =>
    cases h
    refine ⟨_, _, .stop _ hsite ?_, rfl⟩
    cases hclosing : c.closing with
    | shutdown => exact Or.inl ⟨rfl, rfl⟩
    | bootstrap => exact Or.inr ⟨rfl, rfl⟩
  next hsite =>
    cases h
    exact ⟨_, _, .status result hsite, rfl⟩
  next status hsite =>
    split_ifs at h with hfree hclient
    · cases h
      exact ⟨_, _, .begin status hsite hfree, rfl⟩
    · cases h
      exact ⟨_, _, .spared status hsite (by simpa using hclient), rfl⟩
  next status hsite =>
    split at h
    next =>
      cases h
      exact ⟨_, _, .reap status hsite, rfl⟩
    next e =>
      cases h
      exact ⟨_, _, .keep status e hsite, rfl⟩
  next status host hsite =>
    split_ifs at h with hfree hslot
    · cases h
      exact ⟨_, _, .take status host hsite hfree hslot, rfl⟩
    · cases h
      exact ⟨_, _, .vacant status host hsite (by simpa using hslot), rfl⟩
  next status host hsite =>
    cases h
    refine ⟨_, _, .retire status host result _ hsite ?_, rfl⟩
    intro hok
    rw [hok]
  next => cases h
  next => cases h

omit [SerdeJson] in
theorem forget_move {i : Nat} {c : Closer} (h : w.forget i c = some w') :
    ∃ u, CloserMove w c u .dropped ∧ w' = u.setCloser i { c with site := .dropped } := by
  unfold forget at h
  split at h
  next => cases h
  next => cases h
  next hsite =>
    cases h
    exact ⟨_, .forget (by simp [Closer.hasSlot, hsite]), rfl⟩
  next hother =>
    cases h
    refine ⟨_, .drop ?_, rfl⟩
    unfold Closer.hasSlot
    split
    next status host hsite => exact absurd hsite (hother status host)
    next => rfl

/-- **What a step can do.** -/
inductive Moves (w : CodexSystem) : CodexStep → CodexSystem → Prop where
  | task {event : TaskEvent} {w' : CodexSystem} (hgo : w.goOn w.site event = some w')
      (h : w.TaskMove w') : Moves w (.task event) w'
  | notice (hcancelled : w.cancelled = true) (hselects : w.site.selects = true) :
      Moves w .notice (w.go .over)
  | abort (site : TaskSite) (hsite : site = .over ∨ site = w.site) :
      Moves w .abort { w with cancelled := true, site := site }
  | close (closing : Closing) :
      Moves w (.close closing) { w with closers := w.closers ++ [⟨closing, .cancelling⟩] }
  | closer {l : CodexStep} {i : Nat} {c : Closer} {u : CodexSystem} {site : CloserSite}
      (hcloser : w.closers[i]? = some c) (h : w.CloserMove c u site) :
      Moves w l (u.setCloser i { c with site := site })

theorem step_moves {l : CodexStep} (h : w.step l = some w') : w.Moves l w' := by
  cases l with
  | task event => exact .task h (goOn_move h)
  | notice =>
      simp only [step, Bool.and_eq_true, Option.ite_none_right_eq_some, Option.some.injEq] at h
      obtain ⟨⟨hcancelled, hselects⟩, rfl⟩ := h
      exact .notice hcancelled hselects
  | abort =>
      simp only [step, Option.ite_none_right_eq_some, Option.some.injEq] at h
      obtain ⟨-, rfl⟩ := h
      apply Moves.abort
      split_ifs
      · exact Or.inl rfl
      · exact Or.inr rfl
  | close closing =>
      simp only [step, Option.ite_none_right_eq_some, Option.some.injEq] at h
      obtain ⟨-, rfl⟩ := h
      exact .close closing
  | closer i result =>
      obtain ⟨c, hcloser, hshut⟩ := Option.bind_eq_some_iff.mp h
      obtain ⟨u, site, hmove, rfl⟩ := shut_move hshut
      exact .closer hcloser hmove
  | drop i =>
      obtain ⟨c, hcloser, hforget⟩ := Option.bind_eq_some_iff.mp h
      obtain ⟨u, hmove, rfl⟩ := forget_move hforget
      exact .closer hcloser hmove

end CodexSystem

end Psst
