import Psst.Codex.Moves

/-!
# The hand-off of the profile

The session of the observer and the App Server both own the profile while they run. No lock keeps
them apart: the loop asks the host only after the session's shutdown has returned, and observes
again only after the App Server's has. Whoever cancels the loop leaves things where they are, and
the phase of the machine tells how far the loop is.
-/

namespace Psst

open Json

/-! ## The phase tells the site -/

namespace TaskSite

/-- The phase of the machine, as long as nobody has stopped it. -/
def phase : TaskSite → Option ActivationPhase
  | head | locking | opening | polling | releasing _ | observed _ | pausing => some .quiet
  | waking _ => some .pending
  | entering _ | hosting | launching | turning | abandoning _ | hanging | started _ => some .waking
  | accepted _ | completing _ | stalled | reaping _ | completed _ => some .running
  | backoff | retrying => some .backoff
  | checking | .over => none

/-- In `observe`, or past it without a wake. -/
def observing : TaskSite → Bool
  | locking | opening | polling | releasing _ | observed _ | pausing => true
  | _ => false

/-- A session has been given up for a wake, or is about to be started. -/
def driving : TaskSite → Bool
  | opening | observed (.ok (some _)) | waking _ | entering _ | hosting | launching | turning
  | abandoning _ | hanging | started _ | backoff | retrying | accepted _ | completing _ | stalled
  | reaping _ | completed _ => true
  | _ => false

end TaskSite

/-- The call has set the cancellation, and goes on. -/
def Closer.begun (c : Closer) : Bool :=
  match c.site with
  | .cancelling | .dropped => false
  | _ => true

/-- **The phase tells where the task is**, unless the activation was stopped. -/
structure Phased (w : CodexSystem) : Prop where
  site : ∀ p, w.site.phase = some p → w.machine.phase = p ∨ w.machine.phase = .stopped
  checking : w.site = .checking →
    w.machine.phase = .quiet ∨ w.machine.phase = .blocked ∨ w.machine.phase = .stopped
  stopped : w.machine.phase = .stopped → w.cancelled = true
  begun : ∀ c ∈ w.closers, c.begun = true → w.cancelled = true

namespace Phased

variable {w w' : CodexSystem}

/-- A machine that does not host anything where it should has been stopped. -/
theorem stopped_of_idle (h : Phased w) {p : ActivationPhase} (hsite : w.site.phase = some p)
    (hp : p = .waking ∨ p = .running) (hidle : w.machine.hosting = false) :
    w.cancelled = true := by
  apply h.stopped
  rcases h.site p hsite with hphase | hstopped
  · -- a machine in that phase does host something
    rcases hp with rfl | rfl <;> simp [ActivationMachine.hosting, hphase] at hidle
  · exact hstopped

theorem pass {site : TaskSite} (h : Phased w) (hpass : w.Passes site) : Phased (w.go site) := by
  refine ⟨?_, ?_, h.stopped, h.begun⟩
  · intro p hp
    show w.machine.phase = p ∨ w.machine.phase = .stopped
    cases hpass with
    | observe hsite hcancelled => exact h.site p (by rw [hsite]; exact hp)
    | leave hsite hcancelled => cases hp
    | reuse hsite hslot => exact h.site p (by rw [hsite]; exact hp)
    | lock hsite hslot => exact h.site p (by rw [hsite]; exact hp)
    | mail wake hsite => exact h.site p (by rw [hsite]; exact hp)
    | unseen result hsite hresult =>
        apply h.site p
        rcases hsite with hsite | hsite | ⟨wake, hsite⟩ <;> rw [hsite] <;> exact hp
    | waited hsite => exact h.site p (by rw [hsite]; exact hp)
    | ask wake hsite hcancelled => exact h.site p (by rw [hsite]; exact hp)
    | taken hsite hclient => exact h.site p (by rw [hsite]; exact hp)
    | launch hsite hclient => exact h.site p (by rw [hsite]; exact hp)
    | elapsed hsite => exact h.site p (by rw [hsite]; exact hp)
    | wait turnId hsite => exact h.site p (by rw [hsite]; exact hp)
    | blocked hsite hphase => cases hp
    | again hsite hphase =>
        cases hp
        rcases h.checking hsite with hquiet | hblocked | hstopped
        · exact Or.inl hquiet
        · exact absurd hblocked hphase
        · exact Or.inr hstopped
  · intro hchecking
    cases hpass <;> cases hchecking

/-- `block` blocks what was not stopped. -/
theorem block_phase (m : ActivationMachine) :
    m.block.phase = .blocked ∨ (m.block.phase = .stopped ∧ m.phase = .stopped) := by
  unfold ActivationMachine.block
  split_ifs with hstopped
  · exact Or.inl rfl
  · have hphase := not_not.mp hstopped
    exact Or.inr ⟨hphase, hphase⟩

theorem decide {machine : ActivationMachine} {site : TaskSite} {failures : UInt8} (h : Phased w)
    (hdecide : w.Decides machine site) :
    Phased { w with machine := machine, site := site, observationFailures := failures } := by
  have hblock : w.machine.block.phase = .stopped → w.cancelled = true := by
    intro hstopped
    rcases block_phase w.machine with hblocked | ⟨-, hphase⟩
    · rw [hblocked] at hstopped
      cases hstopped
    · exact h.stopped hphase
  refine ⟨?_, ?_, ?_, h.begun⟩
  · intro p hp
    show machine.phase = p ∨ machine.phase = .stopped
    cases hdecide with
    | wake wake hsite hphase | issue wake hsite hphase | accept turnId hsite hphase
    | due wake hsite hphase =>
        cases hp
        exact Or.inl rfl
    | ignore result hsite => exact h.site p (by rw [hsite]; exact hp)
    | note wake hsite hphase => exact h.site p (by rw [hsite]; exact hp)
    | pause hsite => exact h.site p (by rw [hsite]; exact hp)
    | retry hsite hhosting hleft =>
        cases hp
        exact Or.inl rfl
    | stop e hsite => cases hp
    | exhaust hsite hhosting => cases hp
    | complete hsite hhosting => cases hp
    | fail hsite hhosting => cases hp
    | ignored hsite hhosting => cases hp
    | refuse hsite => cases hp
  · intro hchecking
    show machine.phase = .quiet ∨ machine.phase = .blocked ∨ machine.phase = .stopped
    cases hdecide with
    | exhaust hsite hhosting => exact Or.inr (Or.inl rfl)
    | complete hsite hhosting => exact Or.inl rfl
    | fail hsite hhosting => exact Or.inr (Or.inl rfl)
    | ignored hsite hhosting =>
        -- only a machine that was stopped does not expect the failure
        right
        right
        have hphase : ∃ p, w.site.phase = some p ∧ (p = .waking ∨ p = .running) := by
          rcases hsite with ⟨e, hsite⟩ | ⟨result, hsite⟩
          · exact ⟨.waking, by rw [hsite]; rfl, Or.inl rfl⟩
          · exact ⟨.running, by rw [hsite]; rfl, Or.inr rfl⟩
        obtain ⟨p, hp, hcases⟩ := hphase
        rcases h.site p hp with hphase | hstopped
        · rcases hcases with rfl | rfl <;> simp [ActivationMachine.hosting, hphase] at hhosting
        · exact hstopped
    | refuse hsite =>
        right
        exact (block_phase w.machine).imp id And.left
    | _ => cases hchecking
  · show machine.phase = .stopped → w.cancelled = true
    cases hdecide with
    | ignore result hsite => exact h.stopped
    | note wake hsite hphase => exact h.stopped
    | pause hsite => exact h.stopped
    | stop e hsite => exact hblock
    | ignored hsite hhosting => exact h.stopped
    | refuse hsite => exact hblock
    | _ => exact fun hstopped => by cases hstopped

theorem host [SerdeJson] {host : HostState} {site : TaskSite} (h : Phased w)
    (hhost : w.Hosts host site) : Phased { w with host := host, site := site } := by
  refine ⟨?_, ?_, h.stopped, h.begun⟩
  · intro p hp
    show w.machine.phase = p ∨ w.machine.phase = .stopped
    apply h.site p
    cases hhost with
    | hang hsite hlaunch | fail hsite hlaunch | install hsite hlaunch | abandon hsite
    | reap hsite =>
        rw [hsite]
        exact hp
    | @turn _ _ _ result hsite hclient hturn =>
        rw [hsite]
        rcases TaskSite.ofTurn_cases result with heq | ⟨e, heq⟩ | ⟨turnId, heq⟩ <;>
          rw [heq] at hp <;> exact hp
    | @waited turnId _ _ _ _ waited hsite hclient hwaited =>
        rw [hsite]
        rcases TaskSite.ofWaited_cases turnId waited with heq | heq | ⟨result, heq⟩ <;>
          rw [heq] at hp <;> exact hp
  · intro hchecking
    cases hhost with
    | @turn _ _ _ result hsite hclient hturn =>
        rcases TaskSite.ofTurn_cases result with heq | ⟨e, heq⟩ | ⟨turnId, heq⟩ <;>
          rw [heq] at hchecking <;> cases hchecking
    | @waited turnId _ _ _ _ waited hsite hclient hwaited =>
        rcases TaskSite.ofWaited_cases turnId waited with heq | heq | ⟨result, heq⟩ <;>
          rw [heq] at hchecking <;> cases hchecking
    | _ => cases hchecking

theorem closer {c : Closer} {u : CodexSystem} {site : CloserSite} {i : Nat} (h : Phased w)
    (hcloser : w.closers[i]? = some c) (hmove : w.CloserMove c u site) :
    Phased (u.setCloser i { c with site := site }) := by
  have hc := List.mem_of_getElem? hcloser
  -- what was cancelled stays so, and a call beyond its first step has cancelled
  have hbegun : c.begun = true → w.cancelled = true := h.begun c hc
  have hset : ∀ d ∈ w.closers.set i { c with site := site }, d.begun = true →
      w.cancelled = true ∨ c.site = .cancelling := by
    intro d hd hstarted
    rcases List.mem_or_eq_of_mem_set hd with hold | rfl
    · exact Or.inl (h.begun d hold hstarted)
    · by_cases hsite : c.site = .cancelling
      · exact Or.inr hsite
      · left
        apply hbegun
        cases hmove <;> simp_all [Closer.begun]
  have hkept : c.site ≠ .cancelling → ∀ d ∈ w.closers.set i { c with site := site },
      d.begun = true → w.cancelled = true := by
    intro hne d hd hstarted
    exact (hset d hd hstarted).resolve_right hne
  cases hmove with
  | cancel hsite => exact ⟨h.site, h.checking, fun _ => rfl, fun _ _ _ => rfl⟩
  | stop site hsite hnext =>
      have hcancelled : w.cancelled = true := hbegun (by simp [Closer.begun, hsite])
      exact ⟨fun p hp => Or.inr rfl, fun _ => Or.inr (Or.inr rfl), fun _ => hcancelled,
        fun _ _ _ => hcancelled⟩
  | drop hsite =>
      refine ⟨h.site, h.checking, h.stopped, ?_⟩
      intro d hd hstarted
      rcases List.mem_or_eq_of_mem_set hd with hold | rfl
      · exact h.begun d hold hstarted
      · cases hstarted
  | forget hsite =>
      refine ⟨h.site, h.checking, h.stopped, hkept ?_⟩
      intro hne
      simp [Closer.hasSlot, hne] at hsite
  | handle hsite | join hsite | status _ hsite | spared _ hsite | begin _ hsite | reap _ hsite
  | keep _ _ hsite | vacant _ _ hsite | take _ _ hsite | retire _ _ _ _ hsite =>
      exact ⟨h.site, h.checking, h.stopped, hkept (by rw [hsite]; simp)⟩

theorem step [SerdeJson] (h : Phased w) {l : CodexStep} (hmove : w.Moves l w') : Phased w' := by
  cases hmove with
  | task hgo htask =>
      cases htask with
      | pass hpass => exact h.pass hpass
      | decide failures hdecide => exact h.decide hdecide
      | host hhost => exact h.host hhost
      | opened hsite =>
          exact ⟨fun p hp => h.site p (by rw [hsite]; exact hp), nofun, h.stopped, h.begun⟩
      | released hsite =>
          exact ⟨fun p hp => h.site p (by rw [hsite]; exact hp), nofun, h.stopped, h.begun⟩
  | notice hcancelled hselects => exact ⟨nofun, nofun, h.stopped, h.begun⟩
  | abort site hsite =>
      rcases hsite with rfl | rfl
      · exact ⟨nofun, nofun, fun _ => rfl, fun _ _ _ => rfl⟩
      · exact ⟨h.site, h.checking, fun _ => rfl, fun _ _ _ => rfl⟩
  | close closing =>
      refine ⟨h.site, h.checking, h.stopped, ?_⟩
      intro c hc hbegun
      rcases List.mem_append.mp hc with hold | hnew
      · exact h.begun c hold hbegun
      · rw [List.mem_singleton.mp hnew] at hbegun
        cases hbegun
  | closer hcloser hcmove => exact h.closer hcloser hcmove

end Phased

/-! ## HostCustody of the profile -/

/-- No App Server is there, and the last one's shutdown has returned `Ok`. -/
structure HostState.Idle (h : HostState) : Prop where
  client : h.client = none
  reaped : ∀ fate ∈ h.servers.head?, fate = .reaped (.ok ())

/-- The sessions that are not in the slot. -/
def CyclingSource.past (s : CyclingSource) : List SessionFate :=
  if s.slot then s.sessions.tail else s.sessions

/-- Who has the profile. -/
structure HostCustody (w : CodexSystem) : Prop where
  /-- an App Server, or `start`, has no session beside it -/
  apart : w.host.client.isSome = true ∨ w.site.inStart = true →
    w.source.slot = false ∧ ∀ fate ∈ w.source.sessions, fate = .released
  observing : w.site.observing = true → w.host.Idle
  /-- the loop goes round only if nothing is left of the last wake -/
  between : w.site = .head ∨ w.site = .checking →
    w.cancelled = true ∨ w.machine.phase = .blocked ∨ w.host.Idle
  completed : w.site = .completed (.ok ()) → w.host.Idle
  driving : w.site.driving = true → w.source.slot = false
  past : w.cancelled = true ∨ ∀ fate ∈ w.source.past, fate = .released
  retiring : ∀ c ∈ w.closers, c.hasSlot = true →
    w.host.client = none ∧ w.site.inStart = false

theorem HostState.idle_take (h : HostState) : (h.take (.ok ())).Idle where
  client := rfl
  reaped := by simp [HostState.take]

namespace HostCustody

variable {w w' : CodexSystem}

/-- Whoever has taken the slot has found no App Server. -/
theorem not_apart (h : HostCustody w) (hslot : w.source.slot = true) :
    w.host.client = none ∧ w.site.inStart = false := by
  have hnot : ¬ (w.host.client.isSome = true ∨ w.site.inStart = true) := by
    intro happ
    have hfalse := (h.apart happ).1
    rw [hslot] at hfalse
    cases hfalse
  simpa using hnot

theorem pass {site : TaskSite} (h : HostCustody w) (hphased : Phased w) (hpass : w.Passes site) :
    HostCustody (w.go site) := by
  refine ⟨?_, ?_, ?_, ?_, ?_, h.past, ?_⟩
  · intro happ
    have happ : w.host.client.isSome = true ∨ site.inStart = true := happ
    show w.source.slot = false ∧ ∀ fate ∈ w.source.sessions, fate = .released
    cases hpass with
    | ask wake hsite hcancelled =>
        -- the one way into `start`: nobody has cancelled, so every session was released
        have hslot : w.source.slot = false := h.driving (by rw [hsite]; rfl)
        have hpast := h.past.resolve_left (by simp [hcancelled])
        rw [CyclingSource.past, if_neg (by simp [hslot])] at hpast
        exact ⟨hslot, hpast⟩
    | launch hsite hclient => exact h.apart (Or.inr (by rw [hsite]; rfl))
    | _ => exact h.apart (Or.inl (happ.resolve_right (by simp [TaskSite.inStart])))
  · intro hobserving
    show w.host.Idle
    cases hpass with
    | observe hsite hcancelled =>
        rcases h.between (Or.inl hsite) with hstop | hblocked | hidle
        · rw [hcancelled] at hstop
          cases hstop
        · -- a blocked machine is not at the top of the loop
          rcases hphased.site .quiet (by rw [hsite]; rfl) with hquiet | hstopped
          · rw [hblocked] at hquiet
            cases hquiet
          · rw [hblocked] at hstopped
            cases hstopped
        · exact hidle
    | reuse hsite hslot => exact h.observing (by rw [hsite]; rfl)
    | lock hsite hslot => exact h.observing (by rw [hsite]; rfl)
    | mail wake hsite => exact h.observing (by rw [hsite]; rfl)
    | unseen result hsite hresult =>
        apply h.observing
        rcases hsite with hsite | hsite | ⟨wake, hsite⟩ <;> rw [hsite] <;> rfl
    | _ => cases hobserving
  · intro hbetween
    show w.cancelled = true ∨ w.machine.phase = .blocked ∨ w.host.Idle
    cases hpass with
    | waited hsite => exact Or.inr (Or.inr (h.observing (by rw [hsite]; rfl)))
    | again hsite hphase => exact h.between (Or.inr hsite)
    | _ => rcases hbetween with hhead | hchecking <;> contradiction
  · intro hcompleted
    cases hpass <;> cases hcompleted
  · intro hdriving
    show w.source.slot = false
    cases hpass with
    | lock hsite hslot => exact hslot
    | unseen result hsite hresult =>
        -- no wake was observed
        rcases result with e | pending
        · cases hdriving
        · cases pending with
          | none => cases hdriving
          | some wake => exact absurd rfl (hresult wake)
    | ask wake hsite hcancelled => exact h.driving (by rw [hsite]; rfl)
    | taken hsite hclient => exact h.driving (by rw [hsite]; rfl)
    | launch hsite hclient => exact h.driving (by rw [hsite]; rfl)
    | elapsed hsite => exact h.driving (by rw [hsite]; rfl)
    | wait turnId hsite => exact h.driving (by rw [hsite]; rfl)
    | _ => cases hdriving
  · intro c hc hslot
    show w.host.client = none ∧ site.inStart = false
    obtain ⟨hclient, hstart⟩ := h.retiring c hc hslot
    refine ⟨hclient, ?_⟩
    cases hpass with
    | ask wake hsite hcancelled =>
        have hbegun : c.begun = true := by
          unfold Closer.hasSlot at hslot
          unfold Closer.begun
          split at hslot <;> simp_all
        rw [hphased.begun c hc hbegun] at hcancelled
        cases hcancelled
    | launch hsite hnone =>
        rw [hsite] at hstart
        cases hstart
    | _ => rfl

theorem decide {machine : ActivationMachine} {site : TaskSite} {failures : UInt8}
    (h : HostCustody w) (hphased : Phased w) (hdecide : w.Decides machine site) :
    HostCustody { w with machine := machine, site := site, observationFailures := failures } := by
  have hblock : w.cancelled = true ∨ w.machine.block.phase = .blocked ∨ w.host.Idle := by
    rcases Phased.block_phase w.machine with hblocked | ⟨-, hstopped⟩
    · exact Or.inr (Or.inl hblocked)
    · exact Or.inl (hphased.stopped hstopped)
  have hstart : site.inStart = false := by cases hdecide <;> rfl
  refine ⟨?_, ?_, ?_, ?_, ?_, h.past, ?_⟩
  · intro happ
    exact h.apart (Or.inl (happ.resolve_right (by simp [hstart])))
  · intro hobserving
    show w.host.Idle
    cases hdecide with
    | pause hsite => exact h.observing (by rw [hsite]; rfl)
    | _ => cases hobserving
  · intro hbetween
    show w.cancelled = true ∨ machine.phase = .blocked ∨ w.host.Idle
    cases hdecide with
    | ignore result hsite => exact Or.inr (Or.inr (h.observing (by rw [hsite]; rfl)))
    | note wake hsite hphase => exact Or.inr (Or.inr (h.observing (by rw [hsite]; rfl)))
    | exhaust hsite hhosting => exact Or.inr (Or.inl rfl)
    | complete hsite hhosting => exact Or.inr (Or.inr (h.completed hsite))
    | fail hsite hhosting => exact Or.inr (Or.inl rfl)
    | ignored hsite hhosting =>
        left
        rcases hsite with ⟨e, hsite⟩ | ⟨result, hsite⟩
        · exact hphased.stopped_of_idle (by rw [hsite]; rfl) (Or.inl rfl) hhosting
        · exact hphased.stopped_of_idle (by rw [hsite]; rfl) (Or.inr rfl) hhosting
    | refuse hsite => exact hblock
    | _ => rcases hbetween with hhead | hchecking <;> contradiction
  · intro hcompleted
    cases hdecide <;> cases hcompleted
  · intro hdriving
    show w.source.slot = false
    cases hdecide with
    | wake wake hsite hphase => exact h.driving (by rw [hsite]; rfl)
    | issue wake hsite hphase => exact h.driving (by rw [hsite]; rfl)
    | accept turnId hsite hphase => exact h.driving (by rw [hsite]; rfl)
    | retry hsite hhosting hleft => exact h.driving (by rw [hsite]; rfl)
    | due wake hsite hphase => exact h.driving (by rw [hsite]; rfl)
    | _ => cases hdriving
  · intro c hc hslot
    exact ⟨(h.retiring c hc hslot).1, hstart⟩

theorem host [SerdeJson] {host : HostState} {site : TaskSite} (h : HostCustody w)
    (hhost : w.Hosts host site) : HostCustody { w with host := host, site := site } := by
  -- every such step starts in `start` or in the turn, with the slot empty
  have hbefore : w.site.driving = true := by
    cases hhost <;> rename_i hsite <;> first | rw [hsite]; rfl | skip
    all_goals simp_all [TaskSite.driving]
  have hslot := h.driving hbefore
  refine ⟨?_, ?_, ?_, ?_, fun _ => hslot, h.past, ?_⟩
  · intro happ
    show w.source.slot = false ∧ ∀ fate ∈ w.source.sessions, fate = .released
    apply h.apart
    cases hhost with
    | hang hsite hlaunch | fail hsite hlaunch | install hsite hlaunch | abandon hsite =>
        right
        rw [hsite]
        rfl
    | turn hsite hclient hturn =>
        right
        rw [hsite]
        rfl
    | waited hsite hclient hwaited =>
        left
        rw [hclient]
        rfl
    | reap hsite =>
        have hnone : (none : Option AppServerClient).isSome = true ∨ false = true := happ
        simp at hnone
  · intro hobserving
    cases hhost with
    | @turn _ _ _ result hsite hclient hturn =>
        rcases TaskSite.ofTurn_cases result with heq | ⟨e, heq⟩ | ⟨turnId, heq⟩ <;>
          rw [heq] at hobserving <;> cases hobserving
    | @waited turnId _ _ _ _ waited hsite hclient hwaited =>
        rcases TaskSite.ofWaited_cases turnId waited with heq | heq | ⟨result, heq⟩ <;>
          rw [heq] at hobserving <;> cases hobserving
    | _ => cases hobserving
  · intro hbetween
    cases hhost with
    | @turn _ _ _ result hsite hclient hturn =>
        rcases TaskSite.ofTurn_cases result with heq | ⟨e, heq⟩ | ⟨turnId, heq⟩ <;>
          rw [heq] at hbetween <;> simp at hbetween
    | @waited turnId _ _ _ _ waited hsite hclient hwaited =>
        rcases TaskSite.ofWaited_cases turnId waited with heq | heq | ⟨result, heq⟩ <;>
          rw [heq] at hbetween <;> simp at hbetween
    | _ => simp at hbetween
  · intro hcompleted
    cases hhost with
    | @reap completion result hsite =>
        -- the turn counts as completed only if the App Server's shutdown did succeed
        have hok : result = .ok () := by
          simp only [TaskSite.completed.injEq] at hcompleted
          cases completion with
          | error e => cases hcompleted
          | ok u =>
              cases result with
              | error e => cases hcompleted
              | ok u => rfl
        rw [hok]
        exact w.host.idle_take
    | @turn _ _ _ result hsite hclient hturn =>
        rcases TaskSite.ofTurn_cases result with heq | ⟨e, heq⟩ | ⟨turnId, heq⟩ <;>
          rw [heq] at hcompleted <;> cases hcompleted
    | @waited turnId _ _ _ _ waited hsite hclient hwaited =>
        rcases TaskSite.ofWaited_cases turnId waited with heq | heq | ⟨result, heq⟩ <;>
          rw [heq] at hcompleted <;> cases hcompleted
    | _ => cases hcompleted
  · intro c hc hretiring
    obtain ⟨hnone, hstart⟩ := h.retiring c hc hretiring
    -- nobody takes the slot while the host is busy
    cases hhost with
    | hang hsite hlaunch | fail hsite hlaunch | install hsite hlaunch | abandon hsite =>
        rw [hsite] at hstart
        cases hstart
    | turn hsite hclient hturn =>
        rw [hsite] at hstart
        cases hstart
    | waited hsite hclient hwaited =>
        rw [hclient] at hnone
        cases hnone
    | reap hsite => exact ⟨rfl, rfl⟩

theorem closer {c : Closer} {u : CodexSystem} {site : CloserSite} {i : Nat} (h : HostCustody w)
    (hphased : Phased w) (hcloser : w.closers[i]? = some c) (hmove : w.CloserMove c u site) :
    HostCustody (u.setCloser i { c with site := site }) := by
  have hc := List.mem_of_getElem? hcloser
  have hcancelled : c.begun = true → w.cancelled = true := hphased.begun c hc
  -- only `take` puts a call where it has the slot
  have hset : (∀ status host, site ≠ .retiring status host) →
      ∀ d ∈ w.closers.set i { c with site := site }, d.hasSlot = true →
        w.host.client = none ∧ w.site.inStart = false := by
    intro hne d hd hslot
    rcases List.mem_or_eq_of_mem_set hd with hold | rfl
    · exact h.retiring d hold hslot
    · unfold Closer.hasSlot at hslot
      split at hslot
      next status host hsite => exact absurd hsite (hne status host)
      next => cases hslot
  have hsame : (∀ status host, site ≠ .retiring status host) →
      HostCustody (w.setCloser i { c with site := site }) := fun hne =>
    ⟨h.apart, h.observing, h.between, h.completed, h.driving, h.past, hset hne⟩
  cases hmove with
  | cancel hsite =>
      exact ⟨h.apart, h.observing, fun _ => Or.inl rfl, h.completed, h.driving, Or.inl rfl,
        hset (by simp)⟩
  | handle hsite =>
      refine ⟨h.apart, h.observing, h.between, h.completed, h.driving, h.past, hset ?_⟩
      intro status host
      split_ifs <;> simp
  | stop site hsite hnext =>
      refine ⟨h.apart, h.observing, ?_, h.completed, h.driving, h.past, hset ?_⟩
      · exact fun _ => Or.inl (hcancelled (by simp [Closer.begun, hsite]))
      · intro status host
        rcases hnext with ⟨-, rfl⟩ | ⟨-, rfl⟩ <;> simp
  | reap status hsite =>
      refine ⟨?_, fun _ => w.host.idle_take, ?_, fun _ => w.host.idle_take, h.driving, h.past, ?_⟩
      · intro happ
        have happ : (none : Option AppServerClient).isSome = true ∨ w.site.inStart = true := happ
        exact h.apart (Or.inr (happ.resolve_left (by simp)))
      · exact fun _ => Or.inr (Or.inr w.host.idle_take)
      · intro d hd hslot
        exact ⟨rfl, (hset (by simp) d hd hslot).2⟩
  | take status host hsite hfree hslot =>
      have hnone := h.not_apart hslot
      refine ⟨?_, h.observing, h.between, h.completed, fun _ => rfl, ?_, fun _ _ _ => hnone⟩
      · intro happ
        exact ⟨rfl, (h.apart happ).2⟩
      · exact Or.inl (hcancelled (by simp [Closer.begun, hsite]))
  | retire status host result fate hsite hfate =>
      have hnone := h.retiring c hc (by simp [Closer.hasSlot, hsite])
      refine ⟨?_, h.observing, h.between, h.completed, h.driving, ?_, hset (by simp)⟩
      · intro happ
        have happ : w.host.client.isSome = true ∨ w.site.inStart = true := happ
        simp [hnone.1, hnone.2] at happ
      · exact Or.inl (hcancelled (by simp [Closer.begun, hsite]))
  | forget hsite =>
      have hnone := h.retiring c hc hsite
      refine ⟨?_, h.observing, h.between, h.completed, h.driving, ?_, hset (by simp)⟩
      · intro happ
        have happ : w.host.client.isSome = true ∨ w.site.inStart = true := happ
        simp [hnone.1, hnone.2] at happ
      · left
        apply hcancelled
        unfold Closer.hasSlot at hsite
        unfold Closer.begun
        split at hsite <;> simp_all
  | _ => exact hsame (by simp)

theorem step [SerdeJson] (h : HostCustody w) (hphased : Phased w) {l : CodexStep}
    (hmove : w.Moves l w') :
    HostCustody w' := by
  cases hmove with
  | task hgo htask =>
      cases htask with
      | pass hpass => exact h.pass hphased hpass
      | decide failures hdecide => exact h.decide hphased hdecide
      | host hhost => exact h.host hhost
      | opened hsite =>
          have hslot : w.source.slot = false := h.driving (by rw [hsite]; rfl)
          have hidle := h.observing (by rw [hsite]; rfl)
          have hpast := h.past
          rw [CyclingSource.past, if_neg (by simp [hslot])] at hpast
          refine ⟨?_, fun _ => hidle, nofun, nofun, nofun, hpast, ?_⟩
          · intro happ
            have happ : w.host.client.isSome = true ∨ TaskSite.polling.inStart = true := happ
            simp [hidle.client, TaskSite.inStart] at happ
          · exact fun c hc hretiring => ⟨hidle.client, rfl⟩
      | released hsite =>
          have hidle := h.observing (by rw [hsite]; rfl)
          refine ⟨?_, fun _ => hidle, nofun, nofun, fun _ => rfl, ?_, ?_⟩
          · intro happ
            have happ : w.host.client.isSome = true
                ∨ (TaskSite.observed (.ok (some _))).inStart = true := happ
            simp [hidle.client, TaskSite.inStart] at happ
          · -- every other session had been released before
            refine h.past.imp id ?_
            intro hpast fate hfate
            rcases List.mem_cons.mp hfate with rfl | htail
            · rfl
            · apply hpast
              unfold CyclingSource.past
              split_ifs
              · exact htail
              · exact List.mem_of_mem_tail htail
          · exact fun c hc hretiring => ⟨hidle.client, rfl⟩
  | notice hcancelled hselects =>
      refine ⟨?_, nofun, nofun, nofun, nofun, h.past, ?_⟩
      · intro happ
        exact h.apart (Or.inl (happ.resolve_right (by simp [CodexSystem.go, TaskSite.inStart])))
      · exact fun c hc hretiring => ⟨(h.retiring c hc hretiring).1, rfl⟩
  | abort site hsite =>
      rcases hsite with rfl | rfl
      · refine ⟨?_, nofun, nofun, nofun, nofun, Or.inl rfl, ?_⟩
        · intro happ
          exact h.apart (Or.inl (happ.resolve_right (by simp [TaskSite.inStart])))
        · exact fun c hc hretiring => ⟨(h.retiring c hc hretiring).1, rfl⟩
      · exact ⟨h.apart, h.observing, fun _ => Or.inl rfl, h.completed, h.driving, Or.inl rfl,
          h.retiring⟩
  | close closing =>
      refine ⟨h.apart, h.observing, h.between, h.completed, h.driving, h.past, ?_⟩
      intro c hc hslot
      rcases List.mem_append.mp hc with hold | hnew
      · exact h.retiring c hold hslot
      · rw [List.mem_singleton.mp hnew] at hslot
        cases hslot
  | closer hcloser hcmove => exact h.closer hphased hcloser hcmove

end HostCustody

/-- A new machine is quiet. -/
theorem ActivationMachine.new_phase {policy : ActivationPolicy} {machine : ActivationMachine}
    (h : ActivationMachine.new policy = .ok machine) :
    machine.phase = .quiet ∧ machine.retryAttempt = 0 := by
  unfold ActivationMachine.new at h
  obtain ⟨p, -, hmachine⟩ := Except.bind_eq_ok.mp h
  cases hmachine
  exact ⟨rfl, rfl⟩

theorem CodexSystem.custody_of_reach [SerdeJson] {ok : CodexSystem → CodexStep → Prop}
    {w : CodexSystem} (h : codexLts.Reach ok w) : Phased w ∧ HostCustody w := by
  refine h.invariant (P := fun w => Phased w ∧ HostCustody w) ?_ ?_
  · intro w ⟨policy, machine, profile, squad, config, record, hnew, hw⟩
    have hquiet := (ActivationMachine.new_phase hnew).1
    rw [hw]
    have hidle : (CodexSystem.fresh policy machine profile squad config record).host.Idle :=
      ⟨rfl, nofun⟩
    have hnobody : ∀ c : Closer, c ∉ (CodexSystem.fresh policy machine profile squad config
        record).closers := fun c => List.not_mem_nil
    constructor
    · refine ⟨?_, nofun, ?_, fun c hc => absurd hc (hnobody c)⟩
      · intro p hp
        cases hp
        exact Or.inl hquiet
      · intro hstopped
        cases hquiet.symm.trans hstopped
    · refine ⟨?_, nofun, fun _ => Or.inr (Or.inr hidle), nofun, nofun, ?_,
        fun c hc => absurd hc (hnobody c)⟩
      · intro happ
        simp [CodexSystem.fresh, TaskSite.inStart] at happ
      · exact Or.inr fun fate hfate => absurd hfate List.not_mem_nil
  · intro w l w' hw hok hstep
    have hmove := CodexSystem.step_moves hstep
    exact ⟨hw.1.step hmove, hw.2.step hw.1 hmove⟩

/-! ## The hand-off -/

/-- **The hand-off.** -/
structure Handoff (w : CodexSystem) : Prop where
  /-- An App Server client is there, or `start` is executing, only while the source holds no
  session and the shutdown of every session it had has returned `Ok`. -/
  host : w.host.client.isSome = true ∨ w.site.inStart = true →
    w.source.slot = false ∧ ∀ fate ∈ w.source.sessions, fate = .released
  /-- A session is started only when no App Server client is left, and the shutdown of the last
  one has returned `Ok`. -/
  session : w.site = .opening → w.host.client = none
    ∧ ∀ fate ∈ w.host.servers.head?, fate = .reaped (.ok ())
  /-- The two never have the profile at once. -/
  apart : ¬ ((w.source.slot = true ∨ w.site = .opening)
    ∧ (w.host.client.isSome = true ∨ w.site.inStart = true))

/-- **Observer and App Server never own the profile at the same time**, whatever is cancelled or
dropped at whatever `await`. -/
theorem profile_handed_off [SerdeJson] {w : CodexSystem} (h : codexLts.Reach Lts.always w) :
    Handoff w := by
  have hcustody := (CodexSystem.custody_of_reach h).2
  have hsession : w.site = .opening → w.host.Idle :=
    fun hsite => hcustody.observing (by rw [hsite]; rfl)
  refine ⟨hcustody.apart, fun hsite => ⟨(hsession hsite).client, (hsession hsite).reaped⟩, ?_⟩
  intro hboth
  rcases hboth with ⟨hslot | hopening, happ⟩
  · have hempty := (hcustody.apart happ).1
    rw [hslot] at hempty
    cases hempty
  · rw [(hsession hopening).client, hopening] at happ
    simp [TaskSite.inStart] at happ

namespace Sample

def codexConfig : AppServerConfig := ⟨some "psst-mcp", [], .resume "thr_1", "/work"⟩

def codexStart : CodexSystem :=
  .fresh .default quietMachine "alice" alpha.val codexConfig none

theorem codexStart_init [SerdeJson] : codexLts.init codexStart :=
  ⟨.default, quietMachine, "alice", alpha.val, codexConfig, none, by decide, rfl⟩

/-- A session is started, finds mail and is shut down; the host is asked. -/
def wakesHost : List CodexStep :=
  [.task .plain, .task .plain, .task (.session (.ok ())), .task (.inbox (.ok (waitingPage 1))),
    .task (.released true), .task .plain, .task .plain, .task .plain, .task .plain]

/-- No message is ever read. -/
@[reducible] def silentJson : SerdeJson where
  fromSlice _ := none
  toVec _ := []

end Sample

open Sample in
/-- Alice's session has been released when her host is asked for a turn. -/
theorem profile_handed_off_alice :
    letI : SerdeJson := silentJson
    ∃ w, codexLts.Reach Lts.always w ∧ w.site.inStart = true
      ∧ w.source.sessions = [.released] ∧ w.source.slot = false := by
  let _ : SerdeJson := silentJson
  have hrun : (Lts.follow CodexSystem.step Lts.always codexStart wakesHost).any (fun w =>
      w.site.inStart && decide (w.source.sessions = [.released])) = true := by
    decide
  obtain ⟨w, hw, hcheck⟩ := Lts.exists_steps_of_follow _ hrun
  rw [Bool.and_eq_true, decide_eq_true_eq] at hcheck
  have hreach : codexLts.Reach Lts.always w := ⟨_, codexStart_init, hw⟩
  exact ⟨w, hreach, hcheck.1, hcheck.2, ((profile_handed_off hreach).host (Or.inr hcheck.1)).1⟩

/-- **The phase tells where the task is**, in every run: what a status record says of the activation
is what the task is doing, until it is stopped. -/
theorem phase_follows_task [SerdeJson] {w : CodexSystem} (h : codexLts.Reach Lts.always w) :
    Phased w :=
  (CodexSystem.custody_of_reach h).1

open Sample in
/-- Alice's machine is waking when her host is asked. -/
theorem phase_follows_task_alice :
    letI : SerdeJson := silentJson
    ∃ w, codexLts.Reach Lts.always w ∧ w.site.phase = some .waking ∧ w.cancelled = false
      ∧ w.machine.phase = .waking := by
  let _ : SerdeJson := silentJson
  have hrun : (Lts.follow CodexSystem.step Lts.always codexStart wakesHost).any (fun w =>
      decide (w.site.phase = some .waking) && !w.cancelled) = true := by
    decide
  obtain ⟨w, hw, hcheck⟩ := Lts.exists_steps_of_follow _ hrun
  rw [Bool.and_eq_true, decide_eq_true_eq, Bool.not_eq_true'] at hcheck
  obtain ⟨hsite, hrunning⟩ := hcheck
  have hphased := phase_follows_task ⟨_, codexStart_init, hw⟩
  refine ⟨w, ⟨_, codexStart_init, hw⟩, hsite, hrunning, ?_⟩
  rcases hphased.site .waking hsite with hphase | hstopped
  · exact hphase
  · rw [hphased.stopped hstopped] at hrunning
    cases hrunning

end Psst
