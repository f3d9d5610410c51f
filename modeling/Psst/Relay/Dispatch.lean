import Psst.Relay.Schedule

/-!
# The command protocol of the store worker

What a caller of `dispatch` may rely on, in every interleaving of callers, worker and
shutdown. The relay is run together with a record of the order in which commands entered the
queue; nothing in the relay reads that record.
-/

namespace Psst

/-- A relay and the calls that entered its queue, in order. -/
structure Recorded where
  relay : Relay
  entered : List Nat

/-- The call a step puts in the queue: a `try_send` that found room. -/
def Relay.entering (r : Relay) : RelayStep → List Nat
  | .trySend i => if (r.trySend i).queue.length = r.queue.length then [] else [i]
  | _ => []

section Dispatch

variable [Sha256]

def Recorded.step (w : Recorded) (l : RelayStep) : Option Recorded :=
  (w.relay.step l).map fun r => ⟨r, w.entered ++ w.relay.entering l⟩

def recordedLts : Lts Recorded RelayStep :=
  .ofStep (fun w => ∃ capacity, w = ⟨Relay.fresh capacity, []⟩) Recorded.step

/-- The steps of one worker: its process is not replaced. -/
def OneWorker (_ : Recorded) (l : RelayStep) : Prop := l ≠ .restart

theorem Recorded.step_eq_some {w w' : Recorded} {l : RelayStep} :
    w.step l = some w'
      ↔ w.relay.step l = some w'.relay ∧ w'.entered = w.entered ++ w.relay.entering l := by
  unfold Recorded.step
  rw [Option.map_eq_some_iff]
  constructor
  · rintro ⟨r, hr, rfl⟩
    exact ⟨hr, rfl⟩
  · rintro ⟨hr, hentered⟩
    exact ⟨_, hr, by rw [← hentered]⟩

theorem recorded_steps {ok : Recorded → RelayStep → Prop} {w w' : Recorded}
    (h : recordedLts.Steps ok w w') : relayLts.Steps Lts.always w.relay w'.relay := by
  induction h with
  | refl => exact .refl _
  | tail _ _ step ih => exact ih.tail trivial (Recorded.step_eq_some.mp step).1

theorem recorded_reach {ok : Recorded → RelayStep → Prop} {w : Recorded}
    (h : recordedLts.Reach ok w) : relayLts.Reach Lts.always w.relay := by
  obtain ⟨w₀, ⟨capacity, rfl⟩, hrun⟩ := h
  exact ⟨_, ⟨capacity, rfl⟩, recorded_steps hrun⟩

/-! ## First in, first out -/

/-- A command that joins the schedule entered the queue. -/
theorem Relay.entering_of_schedule {r r' : Relay} {i : Nat}
    (h : r.step (.trySend i) = some r') (hschedule : r'.schedule = r.schedule ++ [i]) :
    r.entering (.trySend i) = [i] := by
  simp only [Relay.step] at h
  split at h
  · cases h
    have hlength := congrArg List.length hschedule
    simp only [Relay.entering]
    rw [if_neg]
    intro hqueue
    unfold Relay.trySend at hlength hqueue
    split at hlength
    · simp [Relay.schedule, Relay.held, Relay.setStage] at hlength
    · simp [Relay.schedule, Relay.held, Relay.setStage] at hlength
    · split at hlength
      · simp [Relay.schedule, Relay.held, Relay.setStage] at hlength
      · grind
  · cases h

/-- **First in, first out.** What ran and what is still held is in the order of entry. -/
theorem recorded_schedule {ok : Recorded → RelayStep → Prop} {w : Recorded}
    (h : recordedLts.Reach ok w) : w.relay.schedule.Sublist w.entered := by
  refine h.invariant (P := fun w => w.relay.schedule.Sublist w.entered) ?_ ?_
  · rintro _ ⟨capacity, rfl⟩
    exact .refl _
  · rintro w l w' hw - hstep
    obtain ⟨hrelay, hentered⟩ := Recorded.step_eq_some.mp hstep
    rw [hentered]
    rcases Relay.step_schedule hrelay with hsub | ⟨i, rfl, hschedule⟩
    · exact (hsub.trans hw).trans (List.sublist_append_left _ _)
    · rw [hschedule, Relay.entering_of_schedule hrelay hschedule]
      exact hw.append (.refl _)

/-! ## A call enters once -/

/-- A handler that reached the sender is never back before it. -/
theorem Relay.step_late {r r' : Relay} {l : RelayStep} (h : r.step l = some r') {j : Nat}
    {c : Call} (hc : r.calls[j]? = some c) (hlate : c.stage.early = false) :
    ∃ c', r'.calls[j]? = some c' ∧ c'.stage.early = false := by
  obtain ⟨c', hc', hmoves⟩ := Relay.step_call h hc
  refine ⟨c', hc', ?_⟩
  rcases hmoves.stage with hstage | ⟨hwork, -⟩
  · rw [hstage]
    exact hlate
  have hawaiting : c.stage = .awaiting := by
    cases hstage : c.stage with
    | awaiting => rfl
    | inFlight => simp [hstage, Stage.early] at hlate
    | rejected code => simp [hstage, Stage.early] at hlate
    | admitted => simp [hstage, Stage.early] at hlate
    | returned result => simp [hstage, Stage.final] at hwork
    | timedOut => simp [hstage, Stage.final] at hwork
    | dropped => simp [hstage, Stage.final] at hwork
  -- every step that touches an awaiting handler ends its wait
  cases l with
  | stop | panic =>
      simp only [Relay.step] at h
      split at h
      · cases h
        simp only [Relay.stop, Relay.getElem?_closeAll] at hc'
        grind [Relay.setChannel, Stage.early]
      · cases h
  | trySend i =>
      simp only [Relay.step] at h
      split at h
      · cases h
        unfold Relay.trySend at hc'
        grind [Relay.setStage, Stage.early]
      · cases h
  | restart =>
      cases h
      simp only [Relay.restart, List.getElem?_map, hc, Option.map_some, Option.some.injEq] at hc'
      subst hc'
      simp [Call.abandon, hawaiting, Stage.early]
  | stopAccepting =>
      cases h
      grind [Stage.early]
  | issue | reject | arrive | receive | inspect | cancel | execute | fault | reply | deliver
  | expire | deadline | disconnect | raiseShutdown | dropSender =>
      simp only [Relay.step] at h
      split at h <;> grind [Relay.setStage, Relay.setChannel, Stage.early]

/-- What entering the queue takes and leaves. -/
theorem Relay.step_entering {r r' : Relay} {l : RelayStep} (h : r.step l = some r') :
    r.entering l = []
      ∨ ∃ i, r.entering l = [i] ∧ (∃ c, r.calls[i]? = some c ∧ c.stage = .admitted)
          ∧ ∃ c', r'.calls[i]? = some c' ∧ c'.stage.early = false := by
  cases l with
  | trySend i =>
      simp only [Relay.step] at h
      split at h
      · next hstage =>
          cases h
          obtain ⟨c, hc, hadmitted⟩ := Option.map_eq_some_iff.mp hstage
          simp only [Relay.entering]
          split
          · exact Or.inl rfl
          · refine Or.inr ⟨i, rfl, ⟨c, hc, hadmitted⟩, ?_⟩
            unfold Relay.trySend
            split
            · exact ⟨_, by simp only [Relay.getElem?_setStage, hc]; rfl, by simp [Stage.early]⟩
            · exact ⟨_, by simp only [Relay.getElem?_setStage, hc]; rfl, by simp [Stage.early]⟩
            · split
              · exact ⟨_, by simp only [Relay.getElem?_setStage, hc]; rfl, by simp [Stage.early]⟩
              · exact ⟨_, by simp only [Relay.getElem?_setStage, hc]; rfl, by simp [Stage.early]⟩
      · cases h
  | _ => exact Or.inl rfl

/-- **A call enters the queue at most once.** -/
theorem recorded_once {ok : Recorded → RelayStep → Prop} {w : Recorded}
    (h : recordedLts.Reach ok w) :
    w.entered.Nodup
      ∧ ∀ i ∈ w.entered, ∃ c, w.relay.calls[i]? = some c ∧ c.stage.early = false := by
  refine h.invariant (P := fun w => w.entered.Nodup
    ∧ ∀ i ∈ w.entered, ∃ c, w.relay.calls[i]? = some c ∧ c.stage.early = false) ?_ ?_
  · rintro _ ⟨capacity, rfl⟩
    exact ⟨List.nodup_nil, fun _ hi => by cases hi⟩
  · rintro w l w' ⟨hnodup, hlate⟩ - hstep
    obtain ⟨hrelay, hentered⟩ := Recorded.step_eq_some.mp hstep
    have hkept : ∀ i ∈ w.entered, ∃ c, w'.relay.calls[i]? = some c ∧ c.stage.early = false := by
      intro i hi
      obtain ⟨c, hc, hearly⟩ := hlate i hi
      exact Relay.step_late hrelay hc hearly
    rcases Relay.step_entering hrelay with hnone | ⟨i, hi, ⟨c, hc, hadmitted⟩, hnew⟩
    · rw [hentered, hnone, List.append_nil]
      exact ⟨hnodup, hkept⟩
    · rw [hentered, hi]
      refine ⟨?_, fun j hj => ?_⟩
      · refine List.nodup_append.mpr ⟨hnodup, List.nodup_singleton i, ?_⟩
        rintro j hj k hk rfl
        -- an admitted handler has not reached the sender
        obtain ⟨d, hd, hearly⟩ := hlate j hj
        rw [List.mem_singleton.mp hk] at hd
        obtain rfl : c = d := Option.some.inj (hc.symm.trans hd)
        rw [hadmitted] at hearly
        cases hearly
      · rcases List.mem_append.mp hj with hj | hj
        · exact hkept j hj
        · cases List.mem_singleton.mp hj
          exact hnew

/-! ## Shutdown -/

/-- The worker has left its loop. -/
def Thread.leaving : Thread → Bool
  | .draining | .stopped => true
  | _ => false

/-- A worker that left its loop runs nothing and does not return to it. -/
theorem Relay.step_leaving {r r' : Relay} {l : RelayStep} (h : r.step l = some r')
    (hl : l ≠ .restart) (hleaving : r.thread.leaving = true) :
    r'.thread.leaving = true ∧ r'.log = r.log := by
  refine ⟨?_, ?_⟩
  · cases l with
    | restart => exact absurd rfl hl
    | stop | panic =>
        simp only [Relay.step] at h
        split at h
        · cases h
          rfl
        · cases h
    | trySend i =>
        simp only [Relay.step] at h
        split at h
        · cases h
          unfold Relay.trySend
          grind [Relay.setStage]
        · cases h
    | stopAccepting =>
        cases h
        exact hleaving
    | issue | reject | arrive | receive | inspect | cancel | execute | fault | reply | deliver
    | expire | deadline | disconnect | raiseShutdown | dropSender =>
        simp only [Relay.step] at h
        split at h <;> grind [Relay.setStage, Relay.setChannel, Thread.leaving]
  · rcases Relay.step_log h with ⟨hlog, -⟩ | ⟨i, _, _, _, -, hthread, -⟩
      | ⟨i, _, _, _, -, -, hthread, -⟩
    · exact hlog
    · rw [hthread] at hleaving
      cases hleaving
    · rw [hthread] at hleaving
      cases hleaving

/-- **Nothing runs after the worker saw the shutdown flag.** -/
theorem recorded_leaving {w w' : Recorded} (h : recordedLts.Steps OneWorker w w')
    (hleaving : w.relay.thread.leaving = true) : w'.relay.log = w.relay.log := by
  have hboth : w'.relay.thread.leaving = true ∧ w'.relay.log = w.relay.log := by
    refine h.keeps (P := fun v => v.relay.thread.leaving = true ∧ v.relay.log = w.relay.log) ?_
      ⟨hleaving, rfl⟩
    rintro v l v' ⟨hv, hlog⟩ hl hstep
    obtain ⟨hv', hlog'⟩ := Relay.step_leaving (Recorded.step_eq_some.mp hstep).1 hl hv
    exact ⟨hv', hlog'.trans hlog⟩
  exact hboth.2

/-! ## The protocol -/

/-- A handler that answered keeps its answer. -/
theorem recorded_answer {w w' : Recorded} (h : recordedLts.Steps Lts.always w w') {i : Nat}
    {c : Call} (hc : w.relay.calls[i]? = some c) (hfinal : c.stage.final = true) :
    ∃ c', w'.relay.calls[i]? = some c' ∧ c'.stage = c.stage := by
  refine h.keeps (P := fun v => ∃ c', v.relay.calls[i]? = some c' ∧ c'.stage = c.stage) ?_
    ⟨c, hc, rfl⟩
  rintro v l v' ⟨d, hd, hstage⟩ - hstep
  obtain ⟨d', hd', hmoves⟩ := Relay.step_call (Recorded.step_eq_some.mp hstep).1 hd
  refine ⟨d', hd', ?_⟩
  rcases hmoves.stage with hsame | ⟨hwork, -⟩
  · exact hsame.trans hstage
  · rw [hstage, hfinal] at hwork
    cases hwork

/-- What every caller may rely on. -/
structure Recorded.Protocol (w : Recorded) : Prop where
  once : (w.relay.log.map Execution.call).Nodup
  enteredOnce : w.entered.Nodup
  ordered : (w.relay.log.map Execution.call).Sublist w.entered
  refused : ∀ (i : Nat) (c : Call), w.relay.calls[i]? = some c →
    c.stage = .returned (.error .rateLimited) ∨ c.stage = .returned (.error .unavailable) →
      ∀ w', recordedLts.Steps Lts.always w w' → ¬ w'.relay.Ran i
  own : ∀ (i : Nat) (c : Call) (result : Except RepositoryError Reply),
    w.relay.calls[i]? = some c → c.stage = .returned (result.mapError .store) →
      ∃ before e after, w.relay.log = before ++ e :: after ∧ e.call = i ∧ e.command = c.command
        ∧ e.result = result
        ∧ (result = ((replay before).execute c.command e.now e.generated).1
          ∨ result = .error .databaseBusy ∨ result = .error .internal)
  shutdown : w.relay.thread = .draining →
    ∀ w', recordedLts.Steps OneWorker w w' → w'.relay.log = w.relay.log

/-- **The store-worker command protocol.** In every interleaving: commands run at most once
and in the order they entered the queue, a refused command never runs, an answer is the result
of the caller's own command on the store its predecessors left (or the failure of the database
under it), and nothing runs once the worker saw the shutdown flag. -/
theorem store_worker_protocol {w : Recorded} (h : recordedLts.Reach Lts.always w) :
    w.Protocol := by
  have hsound : w.relay.Sound := Relay.reach_sound (recorded_reach h)
  refine ⟨hsound.ranOnce, (recorded_once h).1, ?_, ?_, ?_, ?_⟩
  · exact (List.sublist_append_left _ _).trans (recorded_schedule h)
  · intro i c hc hrefused w' hlater
    have hfinal : c.stage.final = true := by
      rcases hrefused with hstage | hstage <;> rw [hstage] <;> rfl
    obtain ⟨c', hc', hsame⟩ := recorded_answer hlater hc hfinal
    have hsound' : w'.relay.Sound := Relay.reach_sound (recorded_reach (h.steps hlater))
    have hmeans := (hsound'.call i c' hc').stage
    rw [hsame] at hmeans
    rcases hrefused with hstage | hstage
    · rw [hstage] at hmeans
      exact hmeans.2
    · rw [hstage] at hmeans
      exact hmeans.2
  · intro i c result hc hstage
    have hanswered : w.relay.Answered i result := by
      have hmeans := (hsound.call i c hc).stage
      rw [hstage] at hmeans
      cases result with
      | ok reply => exact hmeans
      | error e => exact hmeans
    obtain ⟨e, before, after, t, t', he, hcall, hresult, hlog, -, rfl, hrun, -⟩ :=
      hsound.answered_run hanswered
    obtain ⟨d, hd, hcommand⟩ := hsound.ranCall e he
    rw [hcall] at hd
    obtain rfl : c = d := Option.some.inj (hc.symm.trans hd)
    refine ⟨before, e, after, hlog, hcall, hcommand.symm, hresult, ?_⟩
    rw [hcommand]
    rcases hrun with ⟨hrun, -⟩ | ⟨hfault, -⟩
    · exact Or.inl hrun
    · exact Or.inr hfault
  · intro hdraining w' hlater
    exact recorded_leaving hlater (by rw [hdraining]; rfl)

end Dispatch

namespace Sample

/-- Two listings are queued; the first runs and is answered, then the relay shuts down and the
second is cancelled. -/
def shuttingDown : List RelayStep :=
  [.issue .listSquads, .arrive 0, .trySend 0, .issue .listSquads, .arrive 1, .trySend 1,
    .receive, .inspect, .execute (instant 100) none, .reply, .deliver 0, .stopAccepting,
    .raiseShutdown, .receive, .inspect, .deliver 1]

def toldUnavailable (c : Call) : Bool :=
  match c.stage with
  | .returned (.error .unavailable) => true
  | _ => false

end Sample

open Sample in
/-- The second caller was told `Unavailable`, and its command never runs. -/
theorem store_worker_protocol_shutdown :
    ∃ w, recordedLts.Reach Lts.always w
      ∧ (w.relay.log.map Execution.call = [0] ∧ w.entered = [0, 1])
      ∧ ∀ w', recordedLts.Steps Lts.always w w' → ¬ w'.relay.Ran 1 := by
  have hrun : (Lts.follow Recorded.step Lts.always ⟨Relay.fresh 4, []⟩ shuttingDown).any
      (fun w => decide (w.relay.log.map Execution.call = [0] ∧ w.entered = [0, 1])
        && (w.relay.calls[1]?).any toldUnavailable) = true := by
    decide
  obtain ⟨w, hw, hcheck⟩ := Lts.exists_steps_of_follow shuttingDown hrun
  rw [Bool.and_eq_true] at hcheck
  have hreach : recordedLts.Reach Lts.always w := ⟨_, ⟨4, rfl⟩, hw⟩
  refine ⟨w, hreach, of_decide_eq_true hcheck.1, ?_⟩
  obtain ⟨c, hc, hstage⟩ := (Option.any_eq_true _ _).mp hcheck.2
  refine (store_worker_protocol hreach).refused 1 c hc (Or.inr ?_)
  unfold toldUnavailable at hstage
  split at hstage
  · assumption
  · cases hstage

end Psst
