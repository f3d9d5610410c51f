import Psst.Codex.Handoff

/-!
# What a shutdown leaves

A shutdown waits for the task, then reaps the App Server, then releases the session. As long as no
other call does the same beside it, nothing is left when each of these has succeeded. Of two calls
that shut down at once only one waits for the task.
-/

namespace Psst

namespace Closer

/-- The call has found the task at its end. -/
def waited (c : Closer) : Bool :=
  match c.site with
  | .cancelling | .handle | .joining | .dropped => false
  | _ => true

/-- The call has yet to ask for the task. -/
def asking (c : Closer) : Bool :=
  match c.site with
  | .cancelling | .handle => true
  | _ => false

/-- What `host.shutdown()` has returned. -/
def hostResult (c : Closer) : Option (Except AppServerError Unit) :=
  match c.site with
  | .source _ host | .retiring _ host | .closed _ host _ => some host
  | _ => none

/-- What `source.shutdown()` has returned. -/
def sourceResult (c : Closer) : Option (Except AppServerError Unit) :=
  match c.site with
  | .closed _ _ source => some source
  | _ => none

/-- The call may have lost a session. -/
def lossy (c : Closer) : Bool :=
  match c.site with
  | .dropped | .closed _ _ (.error _) => true
  | _ => false

end Closer

/-- No call shuts down beside another. -/
def Alone (w : CodexSystem) : CodexStep → Prop
  | .close _ => w.closers = []
  | _ => True

instance (w : CodexSystem) (l : CodexStep) : Decidable (Alone w l) := by
  unfold Alone
  split <;> infer_instance

/-! ## The invariant -/

/-- A call that shuts down alone. -/
structure Sole (w : CodexSystem) : Prop where
  one : w.closers.length ≤ 1
  /-- who has not asked for the task finds its handle -/
  task : (∀ c ∈ w.closers, c.asking = true) → w.task = true
  ended : ∀ c ∈ w.closers, c.waited = true → w.site = .over
  host : ∀ c ∈ w.closers, c.closing = .shutdown → c.hostResult = some (.ok ()) →
    w.host.client = none
  slot : ∀ c ∈ w.closers, c.sourceResult.isSome = true → w.source.slot = false
  retiring : ∀ c ∈ w.closers, c.hasSlot = true →
    w.source.slot = false ∧ ∀ fate ∈ w.source.sessions.tail, fate = .released
  past : (∀ c ∈ w.closers, c.hasSlot = false ∧ c.lossy = false) →
    ∀ fate ∈ w.source.past, fate = .released

namespace Sole

variable {w w' : CodexSystem}

/-- Only what is past counts, as long as no call has waited for the task. -/
theorem running (h : Sole w) (hsite : w.site ≠ .over) (hclosers : w'.closers = w.closers)
    (htask : w'.task = w.task)
    (hpast : (∀ fate ∈ w.source.past, fate = .released) →
      ∀ fate ∈ w'.source.past, fate = .released) : Sole w' := by
  have hnone : ∀ c ∈ w.closers, c.waited ≠ true := fun c hc hwaited => hsite (h.ended c hc hwaited)
  refine ⟨?_, ?_, ?_, ?_, ?_, ?_, ?_⟩ <;> rw [hclosers]
  · exact h.one
  · rw [htask]
    exact h.task
  · exact fun c hc hwaited => absurd hwaited (hnone c hc)
  · intro c hc _ hresult
    refine absurd ?_ (hnone c hc)
    unfold Closer.hostResult at hresult
    unfold Closer.waited
    split at hresult <;> simp_all
  · intro c hc hresult
    refine absurd ?_ (hnone c hc)
    unfold Closer.sourceResult at hresult
    unfold Closer.waited
    split at hresult <;> simp_all
  · intro c hc hslot
    refine absurd ?_ (hnone c hc)
    unfold Closer.hasSlot at hslot
    unfold Closer.waited
    split at hslot <;> simp_all
  · exact fun hall => hpast (h.past hall)

/-- Nothing but the task's own site changes, which may come to its end. -/
theorem aside (h : Sole w) (hclosers : w'.closers = w.closers) (htask : w'.task = w.task)
    (hhost : w'.host = w.host) (hsource : w'.source = w.source)
    (hsite : w.site = .over → w'.site = .over) : Sole w' := by
  refine ⟨?_, ?_, ?_, ?_, ?_, ?_, ?_⟩ <;> rw [hclosers]
  · exact h.one
  · rw [htask]
    exact h.task
  · exact fun c hc hwaited => hsite (h.ended c hc hwaited)
  · rw [hhost]
    exact h.host
  · rw [hsource]
    exact h.slot
  · rw [hsource]
    exact h.retiring
  · rw [hsource]
    exact h.past

theorem goes [SerdeJson] (h : Sole w) (hcustody : HostCustody w) {event : TaskEvent}
    (hgo : w.goOn w.site event = some w') (htask : w.TaskMove w') : Sole w' := by
  have hsite : w.site ≠ .over := by
    intro hover
    rw [hover] at hgo
    cases event <;> cases hgo
  cases htask with
  | pass | decide | host => exact h.running hsite rfl rfl id
  | opened hopening =>
      refine h.running hsite rfl rfl fun hpast fate hfate => ?_
      apply hpast
      rw [CyclingSource.past, if_neg (by simp [hcustody.driving (by rw [hopening]; rfl)])]
      exact hfate
  | released hreleasing =>
      refine h.running hsite rfl rfl fun hpast fate hfate => ?_
      have hmem : fate = .released ∨ fate ∈ w.source.sessions.tail := List.mem_cons.mp hfate
      rcases hmem with hnow | htail
      · exact hnow
      · apply hpast
        unfold CyclingSource.past
        split_ifs
        · exact htail
        · exact List.mem_of_mem_tail htail

/-- The one call there is. -/
theorem of_single {c : Closer} (hclosers : w.closers = [c])
    (htask : c.asking = true → w.task = true) (hover : c.waited = true → w.site = .over)
    (hhost : c.closing = .shutdown → c.hostResult = some (.ok ()) → w.host.client = none)
    (hslot : c.sourceResult.isSome = true → w.source.slot = false)
    (hretiring : c.hasSlot = true →
      w.source.slot = false ∧ ∀ fate ∈ w.source.sessions.tail, fate = .released)
    (hpast : c.hasSlot = false → c.lossy = false → ∀ fate ∈ w.source.past, fate = .released) :
    Sole w := by
  refine ⟨?_, ?_, ?_, ?_, ?_, ?_, ?_⟩ <;> rw [hclosers]
  · exact Nat.le_refl 1
  · exact fun hall => htask (hall c List.mem_cons_self)
  all_goals simp only [List.mem_singleton, forall_eq]
  · exact hover
  · exact hhost
  · exact hslot
  · exact hretiring
  · exact fun hall => hpast hall.1 hall.2

theorem closer {c : Closer} {u : CodexSystem} {site : CloserSite} {i : Nat} (h : Sole w)
    (hcloser : w.closers[i]? = some c) (hmove : w.CloserMove c u site) :
    Sole (u.setCloser i { c with site := site }) := by
  obtain ⟨hi, -⟩ := List.getElem?_eq_some_iff.mp hcloser
  have hone := h.one
  obtain ⟨d, hd⟩ : ∃ d, w.closers = [d] := List.length_eq_one_iff.mp (by omega)
  obtain rfl : i = 0 := by
    rw [hd, List.length_singleton] at hi
    omega
  obtain rfl : d = c := by
    rw [hd] at hcloser
    exact Option.some.inj hcloser
  have hc : d ∈ w.closers := by simp [hd]
  have hset : ∀ x : Closer, w.closers.set 0 x = [x] := by
    intro x
    rw [hd]
    rfl
  have htask : d.asking = true → w.task = true := by
    intro hasking
    apply h.task
    simpa [hd] using hasking
  have hpast : d.hasSlot = false → d.lossy = false → ∀ fate ∈ w.source.past, fate = .released := by
    intro hslot hlossy
    apply h.past
    simpa [hd] using ⟨hslot, hlossy⟩
  have hover := h.ended d hc
  have hhost := h.host d hc
  cases hmove with
  | cancel hsite =>
      have hkept := hpast (by simp [Closer.hasSlot, hsite]) (by simp [Closer.lossy, hsite])
      have hthere := htask (by simp [Closer.asking, hsite])
      refine of_single (hset _) (fun _ => hthere) ?_ ?_ ?_ ?_ fun _ _ => hkept <;>
        simp [Closer.waited, Closer.hostResult, Closer.sourceResult, Closer.hasSlot]
  | handle hsite =>
      have hkept := hpast (by simp [Closer.hasSlot, hsite]) (by simp [Closer.lossy, hsite])
      -- nobody else has taken the task's handle
      rw [if_pos (htask (by simp [Closer.asking, hsite]))]
      refine of_single (hset _) ?_ ?_ ?_ ?_ ?_ fun _ _ => hkept <;>
        simp [Closer.asking, Closer.waited, Closer.hostResult, Closer.sourceResult, Closer.hasSlot]
  | join hsite hend =>
      have hkept := hpast (by simp [Closer.hasSlot, hsite]) (by simp [Closer.lossy, hsite])
      refine of_single (hset _) ?_ (fun _ => hend) ?_ ?_ ?_ fun _ _ => hkept <;>
        simp [Closer.asking, Closer.hostResult, Closer.sourceResult, Closer.hasSlot]
  | stop site hsite hnext =>
      have hend := hover (by simp [Closer.waited, hsite])
      have hkept := hpast (by simp [Closer.hasSlot, hsite]) (by simp [Closer.lossy, hsite])
      refine of_single (hset _) ?_ (fun _ => hend) ?_ ?_ ?_ fun _ _ => hkept <;>
        rcases hnext with ⟨hclosing, rfl⟩ | ⟨hclosing, rfl⟩ <;>
        simp [Closer.asking, Closer.hostResult, Closer.sourceResult, Closer.hasSlot, hclosing]
  | spared status hsite hclient =>
      have hend := hover (by simp [Closer.waited, hsite])
      have hkept := hpast (by simp [Closer.hasSlot, hsite]) (by simp [Closer.lossy, hsite])
      refine of_single (hset _) ?_ (fun _ => hend) (fun _ _ => hclient) ?_ ?_ fun _ _ => hkept <;>
        simp [Closer.asking, Closer.sourceResult, Closer.hasSlot]
  | reap status hsite =>
      have hend := hover (by simp [Closer.waited, hsite])
      have hkept := hpast (by simp [Closer.hasSlot, hsite]) (by simp [Closer.lossy, hsite])
      refine of_single (hset _) ?_ (fun _ => hend) (fun _ _ => rfl) ?_ ?_ fun _ _ => hkept <;>
        simp [Closer.asking, Closer.sourceResult, Closer.hasSlot]
  | status _ hsite | begin _ hsite | keep _ _ hsite =>
      have hend := hover (by simp [Closer.waited, hsite])
      have hkept := hpast (by simp [Closer.hasSlot, hsite]) (by simp [Closer.lossy, hsite])
      refine of_single (hset _) ?_ (fun _ => hend) ?_ ?_ ?_ fun _ _ => hkept <;>
        simp [Closer.asking, Closer.hostResult, Closer.sourceResult, Closer.hasSlot]
  | vacant status host hsite hslot =>
      have hend := hover (by simp [Closer.waited, hsite])
      have hkept := hpast (by simp [Closer.hasSlot, hsite]) (by simp [Closer.lossy, hsite])
      rw [Closer.hostResult, hsite] at hhost
      refine of_single (hset _) ?_ (fun _ => hend) hhost (fun _ => hslot) ?_ fun _ _ => hkept <;>
        simp [Closer.asking, Closer.hasSlot]
  | take status host hsite hfree hslot =>
      have hend := hover (by simp [Closer.waited, hsite])
      have hkept := hpast (by simp [Closer.hasSlot, hsite]) (by simp [Closer.lossy, hsite])
      rw [Closer.hostResult, hsite] at hhost
      rw [CyclingSource.past, if_pos hslot] at hkept
      refine of_single (hset _) ?_ (fun _ => hend) hhost (fun _ => rfl) (fun _ => ⟨rfl, hkept⟩) ?_ <;>
        simp [Closer.asking, Closer.hasSlot]
  | retire status host result fate hsite hfate =>
      have hend := hover (by simp [Closer.waited, hsite])
      obtain ⟨hslot, htail⟩ := h.retiring d hc (by simp [Closer.hasSlot, hsite])
      rw [Closer.hostResult, hsite] at hhost
      refine of_single (hset _) ?_ (fun _ => hend) hhost (fun _ => hslot) ?_ ?_
      · simp [Closer.asking]
      · simp [Closer.hasSlot]
      · intro _ hlossy f hf
        have hok : result = .ok () := by
          cases result with
          | error e => cases hlossy
          | ok u => rfl
        have hmem : f ∈ fate :: w.source.sessions.tail := by
          simpa [CyclingSource.past, hslot, CodexSystem.setCloser] using hf
        rcases List.mem_cons.mp hmem with rfl | hold
        · exact hfate hok
        · exact htail f hold
  | drop hsite | forget hsite =>
      refine of_single (hset _) ?_ ?_ ?_ ?_ ?_ ?_ <;>
        simp [Closer.asking, Closer.waited, Closer.hostResult, Closer.sourceResult, Closer.hasSlot,
          Closer.lossy]

theorem step [SerdeJson] {l : CodexStep} (h : Sole w) (hcustody : HostCustody w) (hok : Alone w l)
    (hmove : w.Moves l w') : Sole w' := by
  cases hmove with
  | task hgo htask => exact h.goes hcustody hgo htask
  | notice hcancelled hselects => exact h.aside rfl rfl rfl rfl fun _ => rfl
  | abort site hsite =>
      refine h.aside rfl rfl rfl rfl fun hover => ?_
      rcases hsite with rfl | rfl
      · rfl
      · exact hover
  | close closing =>
      have hnobody : w.closers = [] := hok
      have hnone : ∀ c : Closer, c ∉ w.closers := by simp [hnobody]
      have hnew : w.closers ++ [⟨closing, .cancelling⟩] = [⟨closing, .cancelling⟩] := by
        rw [hnobody]
        rfl
      have hkept := h.past fun c hc => absurd hc (hnone c)
      have hthere := h.task fun c hc => absurd hc (hnone c)
      refine of_single hnew (fun _ => hthere) ?_ ?_ ?_ ?_ fun _ _ => hkept <;>
        simp [Closer.waited, Closer.hostResult, Closer.sourceResult, Closer.hasSlot]
  | closer hcloser hcmove => exact h.closer hcloser hcmove

end Sole

/-- **A shutdown leaves nothing.** In a run with one call that shuts down, once it has seen the App
Server and the source off, the task is over, and there is neither a process nor a session. -/
theorem shutdown_leaves_nothing [SerdeJson] {w : CodexSystem} (h : codexLts.Reach Alone w)
    {c : Closer} (hc : c ∈ w.closers) (hclosing : c.closing = .shutdown)
    {status : Except AppServerError Unit} (hclosed : c.site = .closed status (.ok ()) (.ok ())) :
    w.site = .over ∧ w.host.client = none ∧ w.source.slot = false
      ∧ ∀ fate ∈ w.source.sessions, fate = .released := by
  have hinv : Phased w ∧ HostCustody w ∧ Sole w := by
    refine h.invariant (P := fun w => Phased w ∧ HostCustody w ∧ Sole w) ?_ ?_
    · intro w hinit
      have hreach : codexLts.Reach Alone w := ⟨w, hinit, .refl w⟩
      obtain ⟨hphased, hcustody⟩ := CodexSystem.custody_of_reach hreach
      obtain ⟨policy, machine, profile, squad, config, record, -, rfl⟩ := hinit
      have hnobody : ∀ c : Closer, c ∉ (CodexSystem.fresh policy machine profile squad config
          record).closers := fun c => List.not_mem_nil
      exact ⟨hphased, hcustody, Nat.zero_le 1, fun _ => rfl, fun c hc => absurd hc (hnobody c),
        fun c hc => absurd hc (hnobody c), fun c hc => absurd hc (hnobody c),
        fun c hc => absurd hc (hnobody c), fun _ fate hfate => absurd hfate List.not_mem_nil⟩
    · intro w l w' hw hok hstep
      have hmove := CodexSystem.step_moves hstep
      exact ⟨hw.1.step hmove, hw.2.1.step hw.1 hmove, hw.2.2.step hw.2.1 hok hmove⟩
  obtain ⟨-, -, hsole⟩ := hinv
  have hslot := hsole.slot c hc (by simp [Closer.sourceResult, hclosed])
  have hpast : ∀ fate ∈ w.source.past, fate = .released := by
    apply hsole.past
    intro d hd
    obtain ⟨e, he⟩ : ∃ e, w.closers = [e] := by
      apply List.length_eq_one_iff.mp
      have hpos := List.length_pos_of_mem hc
      have hone := hsole.one
      omega
    obtain rfl : d = c := by
      rw [he, List.mem_singleton] at hd hc
      rw [hd, hc]
    simp [Closer.hasSlot, Closer.lossy, hclosed]
  rw [CyclingSource.past, hslot] at hpast
  exact ⟨hsole.ended c hc (by simp [Closer.waited, hclosed]),
    hsole.host c hc hclosing (by simp [Closer.hostResult, hclosed]), hslot, hpast⟩

namespace Sample

/-- A session is up when the activation is shut down, and is released. -/
def closesSession : List CodexStep :=
  [.task .plain, .task .plain, .task (.session (.ok ())), .close .shutdown, .closer 0 (.ok ()),
    .notice, .closer 0 (.ok ()), .closer 0 (.ok ()), .closer 0 (.ok ()), .closer 0 (.ok ()),
    .closer 0 (.ok ()), .closer 0 (.ok ()), .closer 0 (.ok ())]

/-- The call has returned `Ok`. -/
def closedWell (c : Closer) : Bool :=
  match c.closing, c.site with
  | .shutdown, .closed (.ok ()) (.ok ()) (.ok ()) => true
  | _, _ => false

end Sample

open Sample in
/-- Alice's session has been released when the shutdown returns. -/
theorem shutdown_leaves_nothing_alice :
    letI : SerdeJson := silentJson
    ∃ w, codexLts.Reach Alone w ∧ w.closers.any closedWell = true
      ∧ w.source.sessions.length = 1 ∧ ∀ fate ∈ w.source.sessions, fate = .released := by
  let _ : SerdeJson := silentJson
  have hrun : (Lts.follow CodexSystem.step Alone codexStart closesSession).any (fun w =>
      w.closers.any closedWell && decide (w.source.sessions.length = 1)) = true := by
    decide
  obtain ⟨w, hw, hcheck⟩ := Lts.exists_steps_of_follow _ hrun
  rw [Bool.and_eq_true, decide_eq_true_eq] at hcheck
  obtain ⟨c, hc, hwell⟩ := List.any_eq_true.mp hcheck.1
  unfold closedWell at hwell
  split at hwell
  next hclosing hsite =>
    have hreach : codexLts.Reach Alone w := ⟨_, codexStart_init, hw⟩
    exact ⟨w, hreach, hcheck.1, hcheck.2,
      (shutdown_leaves_nothing hreach hc hclosing hsite).2.2.2⟩
  next => cases hwell

end Psst
