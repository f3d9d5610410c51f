import Psst.Mcp.Channel

/-!
# The channel follows the session

The controller observes what the slot holds, if nobody starts one on a session that a leave or a
shutdown is about to take. The peer reaches it on one of two ways: with the start, or afterwards
from the client's announcement. Each has a gap that the other does not cover.
-/

namespace Psst

/-! ## Gaps -/

/-- A leave whose controller has been stopped, before it takes the slot. -/
def DispatchPoint.departs : DispatchPoint → Bool
  | .activating .leave | .starting .leave _ _ | .taking => true
  | _ => false

/-- `activation_runtime` is about to be handed a session. -/
def DispatchPoint.handed (s : DispatchState) : DispatchPoint → Bool
  | .activating .channel =>
    match s.slot with
    | .bound _ => true
    | _ => false
  | .starting .channel _ (.ret (.ok _)) => true
  | _ => false

namespace ServerTask

/-- The controller has been stopped for a leave or a shutdown that has not taken the slot yet. -/
def departs : ServerTask → Bool
  | calling _ point | ensuring _ (.seeking _ point) => point.departs
  | retracting | closing .closing => true
  | _ => false

/-- The session a controller is about to be started on. -/
def carries : ServerTask → Option Nat
  | ensuring _ (.seeking _ point) => point.carries
  | ensuring _ (.starting _ runtime) => some runtime
  | _ => none

/-- The peer that was found, or not, for a controller to come. -/
def snapshot : ServerTask → Option Bool
  | ensuring _ (.locking peer) | ensuring _ (.seeking peer _)
  | ensuring _ (.starting peer _) => some peer
  | _ => none

/-- The client has announced itself, and the peer is stored. -/
def written : ServerTask → Bool
  | looking | initialized => true
  | _ => false

/-- Without a peer it waits for the controller's lock. -/
def unpeered : ServerTask → Bool
  | ensuring _ (.locking false) => true
  | _ => false

/-- **The task fits in no gap.** A session is not handed out for a controller while a leave or a
shutdown is about to take it; the peer is not looked for after a shutdown has taken it; and the
client does not look for a controller while one is to be started without a peer. -/
def orderly (w : ChannelServer) : ServerTask → Bool
  | ensuring _ (.seeking _ point) => !point.handed w.dispatch || !w.tasks.any departs
  | ensuring _ .reading => w.peer || !w.tasks.any written
  | looking => !w.tasks.any unpeered
  | _ => true

end ServerTask

/-- The task that acts fits in no gap. -/
def Gapless (w : ChannelServer) : ChannelStep → Prop
  | .act i _ => (w.tasks[i]?).all (ServerTask.orderly w) = true
  | _ => True

instance (w : ChannelServer) (l : ChannelStep) : Decidable (Gapless w l) := by
  unfold Gapless
  split <;> infer_instance

/-! ## What a call does to a session in the slot -/

namespace DispatchPoint

variable {s s' : DispatchState} {fate : Fate} {p p' : DispatchPoint}

/-- A session stays in the slot, unless the call is a leave. -/
theorem Move.slot_kept {r : Nat} (h : p.Move s fate p' s')
    (howns : p.owns = true → s.slot = .transition) (hdeparts : p.departs = false)
    (hslot : s.slot = .bound r) : s'.slot = .bound r := by
  have hnot : p.owns = false := by
    by_contra hne
    rw [howns (by simpa using hne)] at hslot
    cases hslot
  cases h with
  | idle => exact hslot
  | joins slot => cases hslot.symm.trans slot
  | starts slot => cases hslot.symm.trans slot
  | takes => cases hdeparts
  | _ => cases hnot

/-- What `activation_runtime` carries is in the slot. -/
theorem Move.carries_bound {r : Nat} (h : p.Move s fate p' s')
    (hp : ∀ r, p.carries = some r → s.slot = .bound r) (hr : p'.carries = some r) :
    s'.slot = .bound r := by
  cases h with
  | idle before after carries => exact (carries r hr).elim (hp r) id
  | started =>
      rw [Asker.carries_next hr]
      rfl
  | _ => cases hr

/-- It has been handed over in one step. -/
theorem step_handed {r : Nat} (h : p.step s fate = some (p', s')) (hr : p'.carries = some r) :
    p.carries = some r ∨ p.handed s = true := by
  unfold step at h
  split at h
  case h_3 | h_10 | h_14 =>
    obtain ⟨⟨x, site⟩, -, heq⟩ := Option.map_eq_some_iff.mp h
    cases heq
    cases hr
  case h_8 asker =>
    split at h
    · cases h
      cases hr
    · next runtime hslot =>
        right
        cases h
        cases asker with
        | channel => simp [handed, hslot]
        | _ => cases hr
    all_goals
      cases h
      cases hr
  case h_11 asker profile runtime =>
    right
    cases h
    cases asker with
    | channel => rfl
    | _ => cases hr
  case h_13 =>
    split at h
    · simp only [DispatchState.leaveProgram, Option.map_map, Option.map_eq_some_iff] at h
      obtain ⟨live, -, heq⟩ := h
      cases heq
      cases hr
    all_goals
      cases h
      cases hr
  all_goals (try split at h)
  all_goals cases h
  all_goals first
    | exact Or.inl hr
    | cases hr

/-- A call is a leave from its first step on. -/
theorem step_departs (h : p.step s fate = some (p', s')) (hp' : p'.departs = true) :
    p.departs = true := by
  unfold step at h
  split at h
  case h_3 | h_14 =>
    obtain ⟨⟨x, site⟩, -, heq⟩ := Option.map_eq_some_iff.mp h
    cases heq
    cases hp'
  case h_10 asker profile a k =>
    obtain ⟨⟨x, site⟩, -, heq⟩ := Option.map_eq_some_iff.mp h
    cases heq
    cases asker with
    | leave => rfl
    | _ => cases hp'
  case h_8 asker | h_9 asker =>
    split at h
    all_goals cases h
    all_goals
      cases asker with
      | leave => rfl
      | _ => cases hp'
  case h_11 asker profile runtime =>
    cases h
    cases asker with
    | leave => rfl
    | _ => cases hp'
  case h_13 => rfl
  all_goals (try split at h)
  all_goals cases h
  all_goals cases hp'

/-- A call that begins is no leave, and carries nothing. -/
theorem tool_owns (h : p.tool = true) : p.owns = false ∧ p.departs = false := by
  unfold tool at h
  split at h
  all_goals first
    | exact ⟨rfl, rfl⟩
    | cases h

end DispatchPoint

/-! ## What a shutdown does to it -/

namespace CallFuture

variable {s s' : DispatchState} {fate : Fate} {future future' : CallFuture}

/-- Only the shutdown that has not taken the slot yet takes a session out of it. -/
theorem close_slot_kept {r : Nat} (h : future.close s fate = some (future', s'))
    (howns : future.owns = true → s.slot = .transition) (hdeparts : future ≠ .closing)
    (hslot : s.slot = .bound r) : s'.slot = .bound r := by
  unfold close at h
  split at h
  · exact absurd rfl hdeparts
  · exact absurd rfl hdeparts
  · rw [howns rfl] at hslot
    cases hslot
  · cases h

/-- A shutdown that goes on is past its first step. -/
theorem close_ne_closing (h : future.close s fate = some (future', s')) :
    future' ≠ .closing := by
  unfold close at h
  split at h
  · split at h <;> cases h <;> simp
  · split_ifs at h
    cases h
    simp
  · cases h
    simp
  · cases h

end CallFuture

/-! ## The invariant -/

/-- **The controller observes what the slot holds**, as far as it goes on the way there. -/
structure ChannelServer.Watching (w : ChannelServer) : Prop where
  owner : ∃ gate, Gated ServerTask.owns w.tasks gate
    ∧ (w.dispatch.slot = .transition ↔ gate.isSome = true)
  lock : ∃ gate, Gated ServerTask.holds w.tasks gate ∧ (gate.isSome = true → w.channel = none)
  observed : ∀ c ∈ w.channel, w.dispatch.slot = .bound c.runtime
  carried : ∀ task ∈ w.tasks, ∀ r, task.carries = some r → w.dispatch.slot = .bound r
  fenced : ∀ task ∈ w.tasks, task.departs = true →
    w.channel = none ∧ ∀ other ∈ w.tasks, other.carries = none
  greeted : .initialized ∈ w.tasks →
    (∀ c ∈ w.channel, c.connected = true) ∧ ∀ task ∈ w.tasks, task.snapshot ≠ some false

namespace ServerTask

theorem holds_of_carries {task : ServerTask} {r : Nat} (h : task.carries = some r) :
    task.holds = true := by
  cases task with
  | ensuring boot site =>
      cases site with
      | seeking peer point => rfl
      | starting peer runtime => rfl
      | _ => cases h
  | _ => cases h

end ServerTask

namespace ChannelServer.Watching

variable {w u : ChannelServer} {i : Nat} {fate : Fate} {task task' : ServerTask}

/-! ### One owner, one lock -/

theorem owner_move (hmove : task.Move w fate task' u) {gate : Option Nat}
    (hslot : w.dispatch.slot = .transition ↔ gate.isSome = true) :
    ∃ gate', GateMove i gate task.owns gate' task'.owns
      ∧ (u.dispatch.slot = .transition ↔ gate'.isSome = true) := by
  cases hmove with
  | @stop stopper _ free next =>
      refine ⟨gate, ?_, hslot⟩
      rcases next with rfl | rfl
      · exact .same _ _
      · cases stopper <;> exact .same _ _
  | @halted stopper =>
      refine ⟨gate, ?_, hslot⟩
      cases stopper <;> exact .same _ _
  | called next =>
      refine ⟨gate, ?_, hslot⟩
      rcases next with rfl | rfl <;> exact .same _ _
  | calls step => exact (DispatchPoint.step_move step).owned hslot
  | seeks step => exact (DispatchPoint.step_move step).owned hslot
  | closes step => exact CallFuture.close_gate step hslot
  | _ => exact ⟨gate, .same _ _, hslot⟩

theorem lock_move (hmove : task.Move w fate task' u) {gate : Option Nat}
    (hgated : Gated ServerTask.holds w.tasks gate)
    (hempty : gate.isSome = true → w.channel = none) :
    ∃ gate', GateMove i gate task.holds gate' task'.holds
      ∧ (gate'.isSome = true → u.channel = none) := by
  have hfree : w.channelFree = true → gate = none := by
    intro hfree
    apply hgated.free
    simpa [channelFree] using hfree
  cases hmove with
  | @stop stopper _ free next =>
      rcases next with rfl | rfl
      · exact ⟨some i, .take (hfree free), fun _ => rfl⟩
      · refine ⟨gate, ?_, fun _ => rfl⟩
        cases stopper <;> exact .same _ _
  | @halted stopper =>
      refine ⟨none, ?_, nofun⟩
      cases stopper <;> exact .release _
  | called next =>
      refine ⟨gate, ?_, hempty⟩
      rcases next with rfl | rfl <;> exact .same _ _
  | lock free empty => exact ⟨some i, .take (hfree free), fun _ => empty⟩
  | unfound served => exact ⟨none, .release _, nofun⟩
  | started => exact ⟨none, .release _, nofun⟩
  | unstarted => exact ⟨none, .release _, nofun⟩
  | looked free =>
      refine ⟨gate, .same _ _, ?_⟩
      rw [hfree free]
      nofun
  | _ => exact ⟨gate, .same _ _, hempty⟩

/-! ### The session -/

theorem transition_of_owns (h : w.Watching) (htask : w.tasks[i]? = some task)
    (howns : task.owns = true) : w.dispatch.slot = .transition := by
  obtain ⟨gate, hgated, hslot⟩ := h.owner
  apply hslot.mpr
  rw [(hgated i).mpr ⟨task, htask, howns⟩]
  rfl

/-- The slot keeps its session when any task acts that does not depart. -/
theorem slot_kept {r : Nat} (h : w.Watching) (htask : w.tasks[i]? = some task)
    (hmove : task.Move w fate task' u) (hdeparts : task.departs = false)
    (hslot : w.dispatch.slot = .bound r) : u.dispatch.slot = .bound r := by
  have howns := h.transition_of_owns htask
  cases hmove with
  | calls step => exact (DispatchPoint.step_move step).slot_kept howns hdeparts hslot
  | seeks step => exact (DispatchPoint.step_move step).slot_kept howns hdeparts hslot
  | closes step =>
      apply CallFuture.close_slot_kept step howns _ hslot
      rintro rfl
      cases hdeparts
  | _ => exact hslot

/-- What a task comes to carry is in the slot. -/
theorem carries_bound {r : Nat} (h : w.Watching) (htask : w.tasks[i]? = some task)
    (hmove : task.Move w fate task' u) (hr : task'.carries = some r) :
    u.dispatch.slot = .bound r := by
  have hcarried := h.carried task (List.mem_of_getElem? htask)
  cases hmove with
  | @stop stopper _ free next =>
      rcases next with rfl | rfl
      · cases hr
      · cases stopper <;> cases hr
  | @halted stopper => cases stopper <;> cases hr
  | called next => rcases next with rfl | rfl <;> cases hr
  | seeks step => exact (DispatchPoint.step_move step).carries_bound hcarried hr
  | found => exact hcarried r hr
  | _ => cases hr

/-- A controller that comes, or has been there, observes what is carried or was observed. -/
theorem channel_from (hmove : task.Move w fate task' u) {c : ChannelController}
    (hc : c ∈ u.channel) :
    task.carries = some c.runtime ∨ ∃ d ∈ w.channel, d.runtime = c.runtime := by
  have hsame : c ∈ w.channel → ∃ d ∈ w.channel, d.runtime = c.runtime := fun hd => ⟨c, hd, rfl⟩
  cases hmove with
  | stop => cases hc
  | started =>
      cases hc
      exact Or.inl rfl
  | looked free =>
      obtain ⟨d, hd, rfl⟩ := Option.map_eq_some_iff.mp hc
      exact Or.inr ⟨d, hd, rfl⟩
  | _ => exact Or.inr (hsame hc)

/-- What a task comes to carry it has carried before, or it is just handed to it. -/
theorem carries_from (hmove : task.Move w fate task' u) {r : Nat} (hr : task'.carries = some r) :
    task.carries = some r ∨ ∃ boot peer point, task = .ensuring boot (.seeking peer point)
      ∧ point.handed w.dispatch = true := by
  cases hmove with
  | @stop stopper _ free next =>
      rcases next with rfl | rfl
      · cases hr
      · cases stopper <;> cases hr
  | @halted stopper => cases stopper <;> cases hr
  | called next => rcases next with rfl | rfl <;> cases hr
  | @seeks boot peer point point' s step =>
      rcases DispatchPoint.step_handed step hr with hcarries | hhanded
      · exact Or.inl hcarries
      · exact Or.inr ⟨boot, peer, point, rfl, hhanded⟩
  | found => exact Or.inl hr
  | _ => cases hr

/-- Behind a controller that has just been stopped there is none, and none on the way. -/
theorem stopped (h : w.Watching) (htask : w.tasks[i]? = some task)
    (hmove : task.Move w fate task' u) (hdeparts : task'.departs = true)
    (hnew : task.departs = false) :
    u.channel = none ∧ ∀ other ∈ w.tasks.set i task', other.holds = false := by
  obtain ⟨gate, hgated, hempty⟩ := h.lock
  have hgate : gate = none → task'.holds = false →
      ∀ other ∈ w.tasks.set i task', other.holds = false := by
    intro hnone hfree other hother
    rw [hnone] at hgated
    rcases List.mem_or_eq_of_mem_set hother with hold | rfl
    · exact hgated.not_holds other hold
    · exact hfree
  cases hmove with
  | @stop stopper _ free next =>
      have hfree : gate = none := hgated.free (by simpa [channelFree] using free)
      refine ⟨rfl, hgate hfree ?_⟩
      rcases next with rfl | rfl
      · cases hdeparts
      · cases stopper <;> rfl
  | @halted stopper =>
      -- the lock was this task's, and is free now
      have hself : gate = some i := (hgated i).mpr ⟨_, htask, rfl⟩
      refine ⟨hempty (by rw [hself]; rfl), ?_⟩
      have hrelease : GateMove i gate (ServerTask.halting stopper).holds none
          stopper.next.holds := by
        cases stopper <;> exact .release gate
      exact (hgated.move htask hrelease).not_holds
  | called next => rcases next with rfl | rfl <;> cases hdeparts
  | calls step => cases hnew.symm.trans (DispatchPoint.step_departs step hdeparts)
  | seeks step => cases hnew.symm.trans (DispatchPoint.step_departs step hdeparts)
  | retracted => cases hnew
  | @closes future future' s step =>
      cases future' with
      | closing => exact absurd rfl (CallFuture.close_ne_closing step)
      | _ => cases hdeparts
  | _ => cases hdeparts

/-- Where somebody departs nothing is started, if nothing is handed out there. -/
theorem fenced_move (h : w.Watching) (htask : w.tasks[i]? = some task)
    (hmove : task.Move w fate task' u) (hok : task.orderly w = true) :
    ∀ t ∈ w.tasks.set i task', t.departs = true →
      u.channel = none ∧ ∀ other ∈ w.tasks.set i task', other.carries = none := by
  have hmem := List.mem_of_getElem? htask
  have hbefore : ∀ d ∈ w.tasks, d.departs = true →
      u.channel = none ∧ ∀ other ∈ w.tasks.set i task', other.carries = none := by
    intro d hd hdeparts
    obtain ⟨hchannel, hnone⟩ := h.fenced d hd hdeparts
    constructor
    · rw [Option.eq_none_iff_forall_not_mem]
      intro c hc
      rcases channel_from hmove hc with hcarries | ⟨old, hold, -⟩
      · rw [hnone task hmem] at hcarries
        cases hcarries
      · rw [hchannel] at hold
        cases hold
    · intro other hother
      rcases List.mem_or_eq_of_mem_set hother with hold | rfl
      · exact hnone other hold
      · rw [Option.eq_none_iff_forall_not_mem]
        intro r hr
        rcases carries_from hmove hr with hcarries | ⟨boot, peer, point, rfl, hhanded⟩
        · rw [hnone task hmem] at hcarries
          cases hcarries
        · -- a session is handed out in the gap
          have hany : w.tasks.any ServerTask.departs = true :=
            List.any_eq_true.mpr ⟨d, hd, hdeparts⟩
          simp [ServerTask.orderly, hhanded, hany] at hok
  intro t ht hdeparts
  rcases List.mem_or_eq_of_mem_set ht with hold | rfl
  · exact hbefore t hold hdeparts
  · by_cases hdeparted : task.departs = true
    · exact hbefore task hmem hdeparted
    · obtain ⟨hchannel, hfree⟩ := h.stopped htask hmove hdeparts (by simpa using hdeparted)
      refine ⟨hchannel, ?_⟩
      intro other hother
      rw [Option.eq_none_iff_forall_not_mem]
      intro r hr
      have hholds := ServerTask.holds_of_carries hr
      rw [hfree other hother] at hholds
      cases hholds

/-- What is observed or carried stays in the slot. -/
theorem session_move (h : w.Watching) (htask : w.tasks[i]? = some task)
    (hmove : task.Move w fate task' u) :
    (∀ c ∈ u.channel, u.dispatch.slot = .bound c.runtime)
      ∧ ∀ t ∈ w.tasks.set i task', ∀ r, t.carries = some r → u.dispatch.slot = .bound r := by
  have hmem := List.mem_of_getElem? htask
  -- a task that departs finds nothing observed and nothing carried
  have hkept : ∀ r, (∃ t ∈ w.tasks, t.carries = some r) ∨ (∃ c ∈ w.channel, c.runtime = r) →
      w.dispatch.slot = .bound r → u.dispatch.slot = .bound r := by
    intro r hclaim hslot
    apply h.slot_kept htask hmove _ hslot
    by_contra hne
    obtain ⟨hchannel, hnone⟩ := h.fenced task hmem (by simpa using hne)
    rcases hclaim with ⟨t, ht, hr⟩ | ⟨c, hc, -⟩
    · rw [hnone t ht] at hr
      cases hr
    · rw [hchannel] at hc
      cases hc
  constructor
  · intro c hc
    rcases channel_from hmove hc with hcarries | ⟨d, hd, hsame⟩
    · exact hkept _ (Or.inl ⟨task, hmem, hcarries⟩) (h.carried task hmem _ hcarries)
    · rw [← hsame]
      exact hkept _ (Or.inr ⟨d, hd, rfl⟩) (h.observed d hd)
  · intro t ht r hr
    rcases List.mem_or_eq_of_mem_set ht with hold | rfl
    · exact hkept r (Or.inl ⟨t, hold, hr⟩) (h.carried t hold r hr)
    · exact h.carries_bound htask hmove hr

/-! ### The peer -/

/-- A peer that is not found is not found on the way either. -/
theorem snapshot_from (hmove : task.Move w fate task' u) (hpeer : task'.snapshot = some false) :
    task.snapshot = some false ∨ ∃ boot, task = .ensuring boot .reading ∧ w.peer = false := by
  cases hmove with
  | @stop stopper _ free next =>
      rcases next with rfl | rfl
      · cases hpeer
      · cases stopper <;> cases hpeer
  | @halted stopper => cases stopper <;> cases hpeer
  | called next => rcases next with rfl | rfl <;> cases hpeer
  | read => exact Or.inr ⟨_, rfl, Option.some.inj hpeer⟩
  | lock free empty => exact Or.inl hpeer
  | seeks step => exact Or.inl hpeer
  | found => exact Or.inl hpeer
  | _ => cases hpeer

/-- Once the client has announced itself nothing is started without its peer. -/
theorem greeted_move (h : w.Watching) (htask : w.tasks[i]? = some task)
    (hmove : task.Move w fate task' u) (hok : task.orderly w = true)
    (hgreeted : .initialized ∈ w.tasks.set i task') :
    (∀ c ∈ u.channel, c.connected = true)
      ∧ ∀ t ∈ w.tasks.set i task', t.snapshot ≠ some false := by
  have hmem := List.mem_of_getElem? htask
  by_cases hbefore : .initialized ∈ w.tasks
  · obtain ⟨hconnected, hsnapshot⟩ := h.greeted hbefore
    constructor
    · intro c hc
      cases hmove with
      | stop => cases hc
      | @started boot peer runtime =>
          cases hc
          cases peer with
          | true => rfl
          | false => exact absurd rfl (hsnapshot _ hmem)
      | looked free =>
          obtain ⟨d, -, rfl⟩ := Option.map_eq_some_iff.mp hc
          rfl
      | _ => exact hconnected c hc
    · intro t ht hpeer
      rcases List.mem_or_eq_of_mem_set ht with hold | rfl
      · exact hsnapshot t hold hpeer
      · rcases snapshot_from hmove hpeer with hpeer | ⟨boot, rfl, hnone⟩
        · exact hsnapshot task hmem hpeer
        · -- the peer has been taken back
          have hany : w.tasks.any ServerTask.written = true :=
            List.any_eq_true.mpr ⟨_, hbefore, rfl⟩
          simp [ServerTask.orderly, hnone, hany] at hok
  · -- it announces itself right now
    have hnow : task' = .initialized := by
      rcases List.mem_or_eq_of_mem_set hgreeted with hold | heq
      · exact absurd hold hbefore
      · exact heq.symm
    cases hmove with
    | looked free =>
        obtain ⟨gate, hgated, -⟩ := h.lock
        rw [hgated.free (by simpa [channelFree] using free)] at hgated
        constructor
        · intro c hc
          obtain ⟨d, -, rfl⟩ := Option.map_eq_some_iff.mp hc
          rfl
        · intro t ht hpeer
          rcases List.mem_or_eq_of_mem_set ht with hold | rfl
          · have hholds := hgated.not_holds t hold
            have hunpeered : t.unpeered = false := by
              simp only [ServerTask.orderly, Bool.not_eq_true', List.any_eq_false] at hok
              simpa using hok t hold
            cases t with
            | ensuring boot site =>
                cases site with
                | locking peer =>
                    cases hpeer
                    cases hunpeered
                | reading => cases hpeer
                | _ => cases hholds
            | _ => cases hpeer
          · cases hpeer
    | @stop stopper _ free next =>
        rcases next with rfl | rfl
        · cases hnow
        · cases stopper <;> cases hnow
    | @halted stopper => cases stopper <;> cases hnow
    | called next => rcases next with rfl | rfl <;> cases hnow
    | _ => cases hnow

/-! ### Steps -/

theorem act (h : w.Watching) (htask : w.tasks[i]? = some task)
    (hmove : task.Move w fate task' u) (hok : task.orderly w = true) :
    Watching { u with tasks := w.tasks.set i task' } := by
  obtain ⟨gate, hgated, hslot⟩ := h.owner
  obtain ⟨gate', howner, hslot'⟩ := owner_move (i := i) hmove hslot
  obtain ⟨key, hlocked, hempty⟩ := h.lock
  obtain ⟨key', hlock, hempty'⟩ := lock_move (i := i) hmove hlocked hempty
  obtain ⟨hobserved, hcarried⟩ := h.session_move htask hmove
  have hfenced := h.fenced_move htask hmove hok
  have hgreeted := h.greeted_move htask hmove hok
  exact ⟨⟨gate', hgated.move htask howner, hslot'⟩, ⟨key', hlocked.move htask hlock, hempty'⟩,
    hobserved, hcarried, hfenced, hgreeted⟩

/-- A new task is at the beginning. -/
theorem spawned (h : w.Watching) (hspawn : w.spawn task = some u) (howns : task.owns = false)
    (hholds : task.holds = false) (hcarries : task.carries = none)
    (hdeparts : task.departs = false) (hsnapshot : task.snapshot = none)
    (hgreeted : task ≠ .initialized) : u.Watching := by
  obtain ⟨-, heq⟩ := Option.ite_none_right_eq_some.mp hspawn
  cases heq
  obtain ⟨gate, hgated, hslot⟩ := h.owner
  obtain ⟨key, hlocked, hempty⟩ := h.lock
  have hnew : ∀ t ∈ w.tasks ++ [task], t ∈ w.tasks ∨ t = task := by
    intro t ht
    exact (List.mem_append.mp ht).imp id List.mem_singleton.mp
  refine ⟨⟨gate, hgated.append howns, hslot⟩, ⟨key, hlocked.append hholds, hempty⟩, h.observed,
    ?_, ?_, ?_⟩
  · intro t ht r hr
    rcases hnew t ht with hold | rfl
    · exact h.carried t hold r hr
    · cases hcarries.symm.trans hr
  · intro t ht hdeparting
    rcases hnew t ht with hold | rfl
    · obtain ⟨hchannel, hnone⟩ := h.fenced t hold hdeparting
      refine ⟨hchannel, ?_⟩
      intro other hother
      rcases hnew other hother with hold | rfl
      · exact hnone other hold
      · exact hcarries
    · cases hdeparts.symm.trans hdeparting
  · intro hinitialized
    rcases hnew _ hinitialized with hold | heq
    · obtain ⟨hconnected, hfound⟩ := h.greeted hold
      refine ⟨hconnected, ?_⟩
      intro t ht
      rcases hnew t ht with hold | rfl
      · exact hfound t hold
      · rw [hsnapshot]
        nofun
    · exact absurd heq.symm hgreeted

/-- **What a step preserves**, if the acting task fits in no gap. -/
theorem step {l : ChannelStep} (h : w.Watching) (hok : Gapless w l) (hstep : w.step l = some u) :
    u.Watching := by
  cases l with
  | call point =>
      simp only [ChannelServer.step, Option.ite_none_right_eq_some] at hstep
      obtain ⟨htool, hspawn⟩ := hstep
      obtain ⟨howns, hdeparts⟩ := DispatchPoint.tool_owns htool
      exact h.spawned hspawn howns rfl rfl hdeparts rfl nofun
  | leave => exact h.spawned hstep rfl rfl rfl rfl rfl nofun
  | initialized => exact h.spawned hstep rfl rfl rfl rfl rfl nofun
  | shutdown => exact h.spawned hstep rfl rfl rfl rfl rfl nofun
  | act i fate =>
      obtain ⟨task, htask, hmap⟩ := Option.bind_eq_some_iff.mp hstep
      obtain ⟨⟨task', v⟩, hadvance, rfl⟩ := Option.map_eq_some_iff.mp hmap
      have horderly : task.orderly w = true := by
        simpa [Gapless, htask] using hok
      exact h.act htask (advance_move hadvance) horderly
  | pulse r after rotated =>
      obtain ⟨site, -, rfl⟩ := Option.map_eq_some_iff.mp hstep
      exact ⟨h.owner, h.lock, h.observed, h.carried, h.fenced, h.greeted⟩

end ChannelServer.Watching

/-! ## Runs -/

/-- **The channel follows the session in the slot.** -/
structure ChannelServer.Follows (w : ChannelServer) : Prop where
  bound : ∀ r, w.dispatch.slot = .bound r →
    (w.dispatch.site.live (some r)).any (fun live => decide (live.lifecycle = .ready)) = true →
    ∀ c ∈ w.channel, c.runtime = r
  unbound : w.dispatch.slot = .unbound → w.channel = none
  peer : .initialized ∈ w.tasks → ∀ c ∈ w.channel, c.connected = true

/-- A process that is opened has one task, which looks for the peer. -/
theorem ChannelServer.watching_opened (key : ProfileKey) (mode : AgentMode)
    (client : ClientMetadata) (disk : Disk) :
    (ChannelServer.opened key mode client disk).Watching := by
  have hone : ∀ t ∈ (ChannelServer.opened key mode client disk).tasks,
      t = .ensuring true .reading := fun t ht => List.mem_singleton.mp ht
  have hgated : ∀ holds : ServerTask → Bool, holds (.ensuring true .reading) = false →
      Gated holds (ChannelServer.opened key mode client disk).tasks none := by
    intro holds hfree
    have hnobody : Gated holds [] none := fun j => by simp
    exact hnobody.append hfree
  refine ⟨⟨none, hgated _ rfl, ?_⟩, ⟨none, hgated _ rfl, nofun⟩, nofun, ?_, ?_, ?_⟩
  · simp only [opened, DispatchState.opened, Option.isSome_none, Bool.false_eq_true, iff_false]
    split <;> simp
  · intro t ht r hr
    rw [hone t ht] at hr
    cases hr
  · intro t ht hdeparts
    rw [hone t ht] at hdeparts
    cases hdeparts
  · intro hgreeted
    cases hone _ hgreeted

/-- **The channel follows the session**, in every run in which no task fits in a gap. -/
theorem channel_follows_session {w : ChannelServer} (h : channelLts.Reach Gapless w) :
    w.Follows := by
  have hwatching : w.Watching := by
    refine h.invariant (P := ChannelServer.Watching) ?_ fun _ _ _ hw hok hstep => hw.step hok hstep
    rintro _ ⟨key, mode, client, disk, rfl⟩
    exact ChannelServer.watching_opened key mode client disk
  refine ⟨?_, ?_, fun hgreeted => (hwatching.greeted hgreeted).1⟩
  · intro r hslot _ c hc
    have hobserved := hwatching.observed c hc
    rw [hslot] at hobserved
    cases hobserved
    rfl
  · intro hslot
    rw [Option.eq_none_iff_forall_not_mem]
    intro c hc
    cases hslot.symm.trans (hwatching.observed c hc)

namespace Sample

def channelStart : ChannelServer := .opened home .harnessed client joinedBefore

theorem channelStart_init : channelLts.init channelStart :=
  ⟨home, .harnessed, client, joinedBefore, rfl⟩

def acts (task count : Nat) (fate : Fate) : List ChannelStep :=
  List.replicate count (.act task fate)

/-- The session of the dormant profile is started with its controller, and the client announces
itself. -/
def startsChannel : List ChannelStep :=
  acts 0 7 .plain ++ [.act 0 (.arrives beaten)] ++ acts 0 5 .plain
    ++ [.initialized] ++ acts 1 2 .plain

/-- The relay takes the leave. -/
def departed : Arrival :=
  .response (okResponse none (.left ⟨aliceBinding.memberId, ⟨instant 90200, by decide⟩⟩))

/-- A tool call is over but for its `ensure_channel_started`, which waits for the lock; a leave
stops the controller; the call gets the lock and starts another; and the leave goes on. -/
def overtakesLeave : List ChannelStep :=
  [.call .working] ++ acts 2 3 .plain ++ [.leave] ++ acts 3 2 .plain ++ acts 2 6 .plain
    ++ acts 3 7 .plain ++ [.act 3 (.random fun _ => 0), .act 3 (.clock ⟨instant 90200, by decide⟩)]
    ++ acts 3 1 (.effect .done) ++ acts 3 1 .plain
    ++ [.act 3 (.arrives departed), .act 3 (.clock ⟨instant 90200, by decide⟩)]
    ++ acts 3 4 (.effect .done) ++ acts 3 4 .plain

end Sample

open Sample in
/-- Alice's controller observes her session and has the peer. -/
theorem channel_follows_session_alice :
    ∃ w, channelLts.Reach Gapless w ∧ (w.channel.any fun c => c.connected) = true
      ∧ w.dispatch.slot = .bound 0 ∧ w.Follows := by
  have hrun : (Lts.follow ChannelServer.step Gapless channelStart startsChannel).any (fun w =>
      (w.channel.any fun c => c.connected) && decide (w.dispatch.slot = .bound 0)) = true := by
    decide
  obtain ⟨w, hw, hcheck⟩ := Lts.exists_steps_of_follow _ hrun
  rw [Bool.and_eq_true, decide_eq_true_eq] at hcheck
  have hreach : channelLts.Reach Gapless w := ⟨_, channelStart_init, hw⟩
  exact ⟨w, hreach, hcheck.1, hcheck.2, channel_follows_session hreach⟩

open Sample in
/-- **A leave that is overtaken.** The slot is `Unbound`, and the controller observes the session
that has left. -/
theorem channel_outlives_leave :
    ¬ ∀ w, channelLts.Reach Lts.always w → (∀ task ∈ w.tasks, task.finished = true)
      → w.Follows := by
  intro hclaim
  have hrun : (Lts.follow ChannelServer.step Lts.always channelStart
      (startsChannel ++ overtakesLeave)).any (fun w =>
        decide (w.dispatch.slot = .unbound) && w.channel.isSome
          && w.tasks.all ServerTask.finished) = true := by
    decide
  obtain ⟨w, hw, hcheck⟩ := Lts.exists_steps_of_follow _ hrun
  simp only [Bool.and_eq_true, decide_eq_true_eq, List.all_eq_true] at hcheck
  obtain ⟨⟨hslot, hchannel⟩, hrest⟩ := hcheck
  have hfollows := hclaim w ⟨_, channelStart_init, hw⟩ hrest
  rw [hfollows.unbound hslot] at hchannel
  cases hchannel

end Psst
