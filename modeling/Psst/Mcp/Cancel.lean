import Psst.Mcp.Slot

/-!
# Dropped calls

The future of a tool call can disappear wherever it waits. A join and a leave have moved into a
task of their own by then and put the slot back all the same, but a call that starts the session of
a dormant profile takes the slot's content with it. A shutdown is a future as well.
-/

namespace Psst

/-! ## Futures -/

/-- A call, or the task that is left of it, or a shutdown. -/
inductive CallFuture where
  | call (point : DispatchPoint)
  /-- The task goes on without the call that spawned it. -/
  | detached (point : DispatchPoint)
  | dropped
  | closing
  /-- The slot's runtime, if there was one, is shut down. -/
  | stopping
  | closed

structure Cancelling where
  state : DispatchState
  futures : List CallFuture

inductive CancelStep where
  | call (point : DispatchPoint)
  | shutdown
  | act (future : Nat) (fate : Fate)
  | drop (future : Nat)
  | pulse (runtime : Nat) (after : LifecycleState) (rotated : Option Credential)

/-- `tokio::spawn` has been reached, and the result has not. -/
def DispatchPoint.spawned : DispatchPoint → Bool
  | .binding _ | .leaving _ _ => true
  | _ => false

namespace CallFuture

/-- One step of `shutdown`. -/
def close (s : DispatchState) : CallFuture → Fate → Option (CallFuture × DispatchState)
  | closing, .plain =>
    match s.slot with
    | .bound _ | .dormant _ | .unbound => some (stopping, s.setSlot .transition)
    | .transition => none
  -- nobody put the slot back within five seconds
  | closing, .fail => if s.slot = .transition then some (closed, s) else none
  | stopping, _ => some (closed, s.setSlot .unbound)
  | _, _ => none

def step (s : DispatchState) (future : CallFuture) (fate : Fate) :
    Option (CallFuture × DispatchState) :=
  match future with
  | call point => (point.step s fate).map fun (point, s) => (call point, s)
  | detached point => (point.step s fate).map fun (point, s) => (detached point, s)
  | future => future.close s fate

/-- What is left of a future that disappears. -/
def drop : CallFuture → Option CallFuture
  | call (.returned _) => none
  | call point => some (if point.spawned then detached point else dropped)
  | closing | stopping => some dropped
  | _ => none

/-- The future has put the slot into `Transition` and has to put something else there. -/
def owns : CallFuture → Bool
  | call point | detached point => point.owns
  | stopping => true
  | _ => false

/-- It holds what it has taken out of the slot itself: no task of its own does. -/
def unguarded : CallFuture → Bool
  | call (.starting _ _ _) | stopping => true
  | _ => false

/-- Nothing is left to be done. -/
def finished : CallFuture → Bool
  | call (.returned _) | detached (.returned _) | dropped | closed => true
  | _ => false

end CallFuture

namespace Cancelling

def step (w : Cancelling) : CancelStep → Option Cancelling
  | .call point =>
    if point.entry then some { w with futures := w.futures ++ [.call point] } else none
  | .shutdown => some { w with futures := w.futures ++ [.closing] }
  | .act i fate =>
    (w.futures[i]?).bind fun future =>
      (future.step w.state fate).map fun (future, s) => ⟨s, w.futures.set i future⟩
  | .drop i =>
    (w.futures[i]?).bind fun future =>
      future.drop.map fun left => { w with futures := w.futures.set i left }
  | .pulse r after rotated =>
    (w.state.site.pulse r after rotated).map fun site => { w with state := w.state.setSite site }

/-- No call future is alive, and no spawned task is running. -/
def settled (w : Cancelling) : Bool := w.futures.all CallFuture.finished

/-- Nothing has the slot, and it says that something does. -/
def Stranded (w : Cancelling) : Prop :=
  w.state.slot = .transition ∧ ∀ future ∈ w.futures, future.owns = false

end Cancelling

/-- A future that disappears is not starting a session, and is no shutdown under way. -/
def SparesSlot (w : Cancelling) : CancelStep → Prop
  | .drop i => ∀ future, w.futures[i]? = some future → future.unguarded = false
  | _ => True

instance (w : Cancelling) (l : CancelStep) : Decidable (SparesSlot w l) :=
  match l with
  | .drop i =>
    match h : w.futures[i]? with
    | none => .isTrue fun _ hi => by rw [h] at hi; cases hi
    | some future =>
      decidable_of_iff (future.unguarded = false)
        ⟨fun hu f hi => by rw [h] at hi; cases hi; exact hu, fun hall => hall future h⟩
  | .call _ | .shutdown | .act _ _ | .pulse _ _ _ => .isTrue trivial

/-- A dispatcher whose futures can disappear. -/
def cancelLts : Lts Cancelling CancelStep :=
  .ofStep (fun w => ∃ key mode client disk, w = ⟨.opened key mode client disk, []⟩) Cancelling.step

/-! ## One owner -/

/-- **The slot names its owner**, if there is one. -/
def Cancelling.Owned (w : Cancelling) : Prop :=
  ∃ gate, Gated CallFuture.owns w.futures gate ∧ (w.state.slot = .transition ↔ gate.isSome = true)

section Moves

variable {s s' : DispatchState} {fate : Fate} {gate : Option Nat} {i : Nat}

/-- **What a step of a call does to the slot**: nothing, or it takes it, or puts it back. -/
theorem DispatchPoint.Move.owned {p p' : DispatchPoint} (h : p.Move s fate p' s')
    (hslot : s.slot = .transition ↔ gate.isSome = true) :
    ∃ gate', GateMove i gate p.owns gate' p'.owns
      ∧ (s'.slot = .transition ↔ gate'.isSome = true) := by
  have hfree : s.slot ≠ .transition → gate = none := by
    intro hne
    rw [ne_eq, hslot] at hne
    simpa using hne
  cases h with
  | idle before after =>
      rw [before, after]
      exact ⟨gate, .same _ _, hslot⟩
  | joins slot =>
      exact ⟨some i, .take (hfree (by rw [slot]; decide)), by simp [DispatchState.setSlot]⟩
  | starts slot =>
      exact ⟨some i, .take (hfree (by rw [slot]; simp)), by simp [DispatchState.setSlot]⟩
  | takes slot =>
      exact ⟨some i, .take (hfree (by rw [slot]; simp)), by simp [DispatchState.setSlot]⟩
  | binds act => exact ⟨gate, .same _ _, hslot⟩
  | boots act => exact ⟨gate, .same _ _, hslot⟩
  | departs act => exact ⟨gate, .same _ _, hslot⟩
  | joined => exact ⟨none, .release _, by simp [DispatchState.install]⟩
  | unjoined => exact ⟨none, .release _, by simp [DispatchState.setSlot]⟩
  | started =>
      rw [Asker.owns_next]
      exact ⟨none, .release _, by simp [DispatchState.install]⟩
  | unstarted => exact ⟨none, .release _, by simp [DispatchState.setSlot]⟩
  | left => exact ⟨none, .release _, by simp [DispatchState.setSlot]⟩
  | unleft => exact ⟨none, .release _, by simp [DispatchState.setSlot]⟩

theorem CallFuture.close_gate {future future' : CallFuture}
    (h : future.close s fate = some (future', s'))
    (hslot : s.slot = .transition ↔ gate.isSome = true) :
    ∃ gate', GateMove i gate future.owns gate' future'.owns
      ∧ (s'.slot = .transition ↔ gate'.isSome = true) := by
  unfold CallFuture.close at h
  split at h
  · have hfree : s.slot ≠ .transition := by
      intro heq
      rw [heq] at h
      cases h
    have hgate : gate = none := by
      rw [ne_eq, hslot] at hfree
      simpa using hfree
    split at h <;> cases h
    all_goals exact ⟨some i, .take hgate, by simp [DispatchState.setSlot]⟩
  · split_ifs at h
    cases h
    exact ⟨gate, .same _ _, hslot⟩
  · cases h
    exact ⟨none, .release _, by simp [DispatchState.setSlot]⟩
  · cases h

theorem CallFuture.step_gate {future future' : CallFuture}
    (h : future.step s fate = some (future', s'))
    (hslot : s.slot = .transition ↔ gate.isSome = true) :
    ∃ gate', GateMove i gate future.owns gate' future'.owns
      ∧ (s'.slot = .transition ↔ gate'.isSome = true) := by
  cases future with
  | call point =>
      obtain ⟨⟨point', t⟩, hstep, heq⟩ := Option.map_eq_some_iff.mp h
      cases heq
      exact (DispatchPoint.step_move hstep).owned hslot
  | detached point =>
      obtain ⟨⟨point', t⟩, hstep, heq⟩ := Option.map_eq_some_iff.mp h
      cases heq
      exact (DispatchPoint.step_move hstep).owned hslot
  | dropped => cases h
  | closing =>
      have hclose : closing.close s fate = some (future', s') := h
      exact close_gate hclose hslot
  | stopping =>
      have hclose : stopping.close s fate = some (future', s') := h
      exact close_gate hclose hslot
  | closed => cases h

end Moves

/-- **A future that disappears** leaves a task that has the slot, unless it had it itself. -/
theorem CallFuture.drop_owns {future left : CallFuture} (h : future.drop = some left) :
    left.owns = (future.owns && !future.unguarded) := by
  cases future with
  | call point =>
      cases point with
      | returned result => cases h
      | _ =>
          cases h
          rfl
  | closing =>
      cases h
      rfl
  | stopping =>
      cases h
      rfl
  | _ => cases h

theorem DispatchPoint.entry_owns {p : DispatchPoint} (h : p.entry = true) : p.owns = false := by
  cases p with
  | joining squad request => rfl
  | checkingStatus => rfl
  | activating asker => rfl
  | working => rfl
  | _ => cases h

theorem Cancelling.Owned.step {w w' : Cancelling} {l : CancelStep} (h : w.Owned)
    (hok : SparesSlot w l) (hstep : w.step l = some w') : w'.Owned := by
  obtain ⟨gate, hgated, hslot⟩ := h
  cases l with
  | call point =>
      simp only [Cancelling.step, Option.ite_none_right_eq_some, Option.some.injEq] at hstep
      obtain ⟨hentry, rfl⟩ := hstep
      exact ⟨gate, hgated.append (DispatchPoint.entry_owns hentry), hslot⟩
  | shutdown =>
      cases hstep
      exact ⟨gate, hgated.append rfl, hslot⟩
  | act i fate =>
      obtain ⟨future, hfuture, hmap⟩ := Option.bind_eq_some_iff.mp hstep
      obtain ⟨⟨future', s'⟩, hmoves, rfl⟩ := Option.map_eq_some_iff.mp hmap
      obtain ⟨gate', hmove, hslot'⟩ := CallFuture.step_gate (i := i) hmoves hslot
      exact ⟨gate', hgated.move hfuture hmove, hslot'⟩
  | drop i =>
      obtain ⟨future, hfuture, hmap⟩ := Option.bind_eq_some_iff.mp hstep
      obtain ⟨left, hleft, rfl⟩ := Option.map_eq_some_iff.mp hmap
      have hsame : left.owns = future.owns := by
        rw [CallFuture.drop_owns hleft, hok future hfuture, Bool.not_false, Bool.and_true]
      refine ⟨gate, hgated.move hfuture ?_, hslot⟩
      rw [hsame]
      exact .same _ _
  | pulse r after rotated =>
      obtain ⟨site, -, rfl⟩ := Option.map_eq_some_iff.mp hstep
      exact ⟨gate, hgated, hslot⟩

theorem CallFuture.finished_owns {future : CallFuture} (h : future.finished = true) :
    future.owns = false := by
  cases future with
  | call point =>
      cases point with
      | returned result => rfl
      | _ => cases h
  | detached point =>
      cases point with
      | returned result => rfl
      | _ => cases h
  | dropped => rfl
  | closed => rfl
  | _ => cases h

/-- A slot in `Transition` has an owner, and that has not finished. -/
theorem Cancelling.Owned.settled {w : Cancelling} (h : w.Owned) (hs : w.settled = true) :
    w.state.slot ≠ .transition := by
  obtain ⟨gate, hgated, hslot⟩ := h
  rw [ne_eq, hslot]
  intro hsome
  obtain ⟨i, rfl⟩ := Option.isSome_iff_exists.mp hsome
  obtain ⟨future, hfuture, howns⟩ := (hgated i).mp rfl
  have hfinished := List.all_eq_true.mp hs future (List.mem_of_getElem? hfuture)
  rw [CallFuture.finished_owns hfinished] at howns
  cases howns

theorem Cancelling.owned_init {w : Cancelling} (h : cancelLts.init w) : w.Owned := by
  obtain ⟨key, mode, client, disk, rfl⟩ := h
  refine ⟨none, fun j => by simp, ?_⟩
  simp only [DispatchState.opened, Option.isSome_none, Bool.false_eq_true, iff_false]
  split <;> simp

/-- **A dropped call never strands the slot**, if it is not one that starts a session: in every
run, when no future is alive and no task is running, the slot is not in `Transition`. -/
theorem slot_never_stranded {w : Cancelling} (h : cancelLts.Reach SparesSlot w)
    (hs : w.settled = true) : w.state.slot ≠ .transition :=
  (h.invariant (fun _ => Cancelling.owned_init) fun _ _ _ howned hok hstep =>
    howned.step hok hstep).settled hs

namespace Sample

def DispatchStep.cancelStep : DispatchStep → CancelStep
  | .call point => .call point
  | .act task fate => .act task fate
  | .pulse r after rotated => .pulse r after rotated

/-- Alice's client cancels `squad_join` before the first heartbeat is answered. -/
def dropsJoin : List CancelStep :=
  joinsSquad.map DispatchStep.cancelStep ++ [.drop 0, .act 0 (.arrives beaten), .act 0 .plain]

def aliceBinding : ProfileBinding := ⟨home, alpha, alphaId, alice⟩

/-- Alice has joined in a process before this one. -/
def joinedBefore : Disk :=
  ⟨some ⟨aliceBinding.credentialBinding, ⟨aliceInstance, aliceToken⟩⟩, some aliceBinding, none⟩

def cancelStart (disk : Disk) : Cancelling := ⟨.opened home .cooperative client disk, []⟩

theorem cancelStart_init (disk : Disk) : cancelLts.init (cancelStart disk) :=
  ⟨home, .cooperative, client, disk, rfl⟩

end Sample

open Sample in
/-- The join goes on without its call. -/
theorem slot_never_stranded_alice :
    ∃ w, cancelLts.Reach SparesSlot w ∧ w.state.slot = .bound 0 ∧ w.state.slot ≠ .transition := by
  have hrun : (Lts.follow Cancelling.step SparesSlot (cancelStart .unbound) dropsJoin).any
      (fun w => decide (w.state.slot = .bound 0) && w.settled) = true := by
    decide
  obtain ⟨w, hw, hcheck⟩ := Lts.exists_steps_of_follow _ hrun
  simp only [Bool.and_eq_true, decide_eq_true_eq] at hcheck
  have hreach : cancelLts.Reach SparesSlot w := ⟨_, cancelStart_init _, hw⟩
  exact ⟨w, hreach, hcheck.1, slot_never_stranded hreach hcheck.2⟩

open Sample in
/-- **A start that is dropped.** The first tool call of a process is cancelled while it starts the
session of the dormant profile. -/
theorem dropped_start_strands_slot :
    ¬ ∀ w, cancelLts.Reach Lts.always w → w.settled = true → w.state.slot ≠ .transition := by
  intro hclaim
  have hrun : (Lts.follow Cancelling.step Lts.always (cancelStart joinedBefore)
      [.call (.activating .tool), .act 0 .plain, .drop 0]).any (fun w =>
        decide (w.state.slot = .transition) && w.settled) = true := by
    decide
  obtain ⟨w, hw, hcheck⟩ := Lts.exists_steps_of_follow _ hrun
  simp only [Bool.and_eq_true, decide_eq_true_eq] at hcheck
  exact hclaim w ⟨_, cancelStart_init _, hw⟩ hcheck.2 hcheck.1

/-! ## Stranded -/

/-- **Nobody puts the slot back** that has no owner. -/
theorem Cancelling.Stranded.step {w w' : Cancelling} {l : CancelStep} (h : w.Stranded)
    (hstep : w.step l = some w') : w'.Stranded := by
  obtain ⟨hslot, hnone⟩ := h
  have hset : ∀ (i : Nat) (future : CallFuture), future.owns = false →
      ∀ f ∈ w.futures.set i future, f.owns = false := by
    intro i future hfuture f hf
    rcases List.mem_or_eq_of_mem_set hf with hold | rfl
    · exact hnone f hold
    · exact hfuture
  have happend : ∀ future : CallFuture, future.owns = false →
      ∀ f ∈ w.futures ++ [future], f.owns = false := by
    intro future hfuture f hf
    rcases List.mem_append.mp hf with hold | hnew
    · exact hnone f hold
    · rw [List.mem_singleton.mp hnew]
      exact hfuture
  cases l with
  | call point =>
      simp only [Cancelling.step, Option.ite_none_right_eq_some, Option.some.injEq] at hstep
      obtain ⟨hentry, rfl⟩ := hstep
      exact ⟨hslot, happend _ (DispatchPoint.entry_owns hentry)⟩
  | shutdown =>
      cases hstep
      exact ⟨hslot, happend _ rfl⟩
  | act i fate =>
      obtain ⟨future, hfuture, hmap⟩ := Option.bind_eq_some_iff.mp hstep
      obtain ⟨⟨future', s'⟩, hmoves, rfl⟩ := Option.map_eq_some_iff.mp hmap
      have howns := hnone future (List.mem_of_getElem? hfuture)
      -- a gate in other hands is neither taken nor released
      have hgate : w.state.slot = .transition ↔ (some (i + 1)).isSome = true := by simp [hslot]
      obtain ⟨gate', hmove, hslot'⟩ := CallFuture.step_gate (i := i) hmoves hgate
      rw [howns] at hmove
      generalize hafter : future'.owns = b at hmove
      cases hmove with
      | same => exact ⟨hslot'.mpr rfl, hset i future' hafter⟩
      | take free => cases free
  | drop i =>
      obtain ⟨future, hfuture, hmap⟩ := Option.bind_eq_some_iff.mp hstep
      obtain ⟨left, hleft, rfl⟩ := Option.map_eq_some_iff.mp hmap
      refine ⟨hslot, hset i left ?_⟩
      rw [CallFuture.drop_owns hleft, hnone future (List.mem_of_getElem? hfuture), Bool.false_and]
  | pulse r after rotated =>
      obtain ⟨site, -, rfl⟩ := Option.map_eq_some_iff.mp hstep
      exact ⟨hslot, hnone⟩

theorem CallFuture.unguarded_owns {future : CallFuture} (h : future.unguarded = true) :
    future.owns = true := by
  cases future with
  | call point =>
      cases point with
      | starting asker profile program => rfl
      | _ => cases h
  | stopping => rfl
  | _ => cases h

/-- The owner of the slot disappears with what it has taken out of it. -/
theorem Cancelling.Owned.strands {w w' : Cancelling} {i : Nat} {future : CallFuture}
    (h : w.Owned) (hfuture : w.futures[i]? = some future) (hun : future.unguarded = true)
    (hstep : w.step (.drop i) = some w') : w'.Stranded := by
  obtain ⟨gate, hgated, hslot⟩ := h
  obtain ⟨future', hfuture', hmap⟩ := Option.bind_eq_some_iff.mp hstep
  rw [hfuture] at hfuture'
  cases hfuture'
  obtain ⟨left, hleft, rfl⟩ := Option.map_eq_some_iff.mp hmap
  have howns := CallFuture.unguarded_owns hun
  have hgate : gate = some i := (hgated i).mpr ⟨future, hfuture, howns⟩
  have hnone : left.owns = false := by
    rw [CallFuture.drop_owns hleft, hun, Bool.not_true, Bool.and_false]
  refine ⟨hslot.mpr (by rw [hgate]; rfl), ?_⟩
  intro f hf
  obtain ⟨j, hj⟩ := List.mem_iff_getElem?.mp hf
  rcases getElem?_set_cases hj with ⟨-, rfl⟩ | ⟨hne, hold⟩
  · exact hnone
  · by_contra hown
    exact hne (hgated.unique hold (by simpa using hown) hfuture howns)

/-- In every run the slot has its owner, or is stranded. -/
theorem Cancelling.owned_or_stranded {w : Cancelling} (h : cancelLts.Reach Lts.always w) :
    w.Owned ∨ w.Stranded := by
  refine h.invariant (P := fun w => w.Owned ∨ w.Stranded)
    (fun w hinit => Or.inl (Cancelling.owned_init hinit)) ?_
  intro w l w' hw _ hstep
  rcases hw with howned | hstranded
  · by_cases hok : SparesSlot w l
    · exact Or.inl (howned.step hok hstep)
    · cases l with
      | drop i =>
          simp only [SparesSlot, not_forall] at hok
          obtain ⟨future, hfuture, hun⟩ := hok
          exact Or.inr (howned.strands hfuture (by simpa using hun) hstep)
      | _ => exact absurd trivial hok
  · exact Or.inr (hstranded.step hstep)

/-- **A dropped start strands the slot for ever**: in every run, once the future of a call that
starts a session, or of a shutdown under way, has disappeared, every later state has the slot in
`Transition`. -/
theorem slot_stranded_for_ever {w w' w'' : Cancelling} {i : Nat} {future : CallFuture}
    (h : cancelLts.Reach Lts.always w) (hfuture : w.futures[i]? = some future)
    (hun : future.unguarded = true) (hstep : w.step (.drop i) = some w')
    (hlater : cancelLts.Steps Lts.always w' w'') : w''.state.slot = .transition := by
  have hstranded : w'.Stranded := by
    rcases Cancelling.owned_or_stranded h with howned | hstranded
    · exact howned.strands hfuture hun hstep
    · exact hstranded.step hstep
  exact (hlater.keeps (fun _ _ _ hw _ hstep => hw.step hstep) hstranded).1

open Sample in
/-- The tool call of a dormant profile that was cancelled. -/
theorem slot_stranded_for_ever_alice :
    ∃ w, cancelLts.Reach Lts.always w ∧ w.state.slot = .transition := by
  have hinit : cancelLts.Reach Lts.always (cancelStart joinedBefore) :=
    ⟨_, cancelStart_init _, .refl _⟩
  have hrun : (Lts.follow Cancelling.step Lts.always (cancelStart joinedBefore)
      [.call (.activating .tool), .act 0 .plain]).any (fun w =>
        (w.futures[0]?).any CallFuture.unguarded && (w.step (.drop 0)).isSome) = true := by
    decide
  obtain ⟨w, hw, hcheck⟩ := Lts.exists_steps_of_follow _ hrun
  rw [Bool.and_eq_true, Option.any_eq_true] at hcheck
  obtain ⟨⟨future, hfuture, hun⟩, hdrops⟩ := hcheck
  obtain ⟨w', hdrop⟩ := Option.isSome_iff_exists.mp hdrops
  have hstep : cancelLts.Steps Lts.always w w' := (Lts.Steps.refl w).tail trivial hdrop
  exact ⟨w', (hinit.steps hw).steps hstep,
    slot_stranded_for_ever (hinit.steps hw) hfuture hun hdrop (.refl _)⟩

end Psst
