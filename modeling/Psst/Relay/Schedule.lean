import Psst.Relay.History

/-!
# The order of commands

The commands a relay has run, followed by those it still holds, in order: commands join at
the end, may drop out, and never overtake each other. So a caller whose own command has been
answered knows that everything queued before it was run or will never be.
-/

namespace Psst

namespace Relay

/-- Everything run, then everything that may still run. -/
def schedule (r : Relay) : List Nat := r.log.map Execution.call ++ r.held

/-- Call `i` was run and its effect committed. -/
def Effective (r : Relay) (i : Nat) : Prop :=
  ∃ e ∈ r.log, e.call = i ∧ e.result.isOk = true

theorem mem_schedule_of_effective {r : Relay} {i : Nat} (h : r.Effective i) : i ∈ r.schedule := by
  obtain ⟨e, he, rfl, -⟩ := h
  exact List.mem_append_left _ (List.mem_map_of_mem he)

theorem mem_schedule_of_held {r : Relay} {i : Nat} (h : i ∈ r.held) : i ∈ r.schedule :=
  List.mem_append_right _ h

/-- Only calls that were made are scheduled. -/
theorem Coherent.lt_of_mem_schedule {r : Relay} (hr : r.Coherent) {i : Nat}
    (h : i ∈ r.schedule) : i < r.calls.length := by
  rcases List.mem_append.mp h with hran | hheld
  · obtain ⟨e, he, rfl⟩ := List.mem_map.mp hran
    obtain ⟨c, hc, -⟩ := hr.ranCall e he
    exact (List.getElem?_eq_some_iff.mp hc).1
  · exact hr.heldCall i hheld

section Steps

variable [Sha256] {r r' : Relay} {i : Nat} {P : Store → Prop}

/-- A new call joins the others and nothing else changes. -/
theorem step_issue {command : StoreCommand} (h : r.step (.issue command) = some r') :
    r' = { r with calls := r.calls ++ [⟨command, .inFlight, .unsent⟩] } := by
  simp only [step, Option.ite_none_right_eq_some, Option.some.injEq] at h
  exact h.2.symm

/-- **Commands never overtake.** A step drops commands from the schedule or appends the one
it enqueues. -/
theorem step_schedule {l : RelayStep} (h : r.step l = some r') :
    r'.schedule.Sublist r.schedule
      ∨ ∃ i, l = .trySend i ∧ r'.schedule = r.schedule ++ [i] := by
  have hsame : r'.log = r.log → r'.held = r.held → r'.schedule.Sublist r.schedule := by
    intro hlog hheld
    rw [schedule, schedule, hlog, hheld]
  have hdrop : r'.log = r.log → r'.held.Sublist r.held → r'.schedule.Sublist r.schedule := by
    intro hlog hheld
    rw [schedule, schedule, hlog]
    exact hheld.append_left _
  -- the command in hand moves from the front of `held` to the end of the log
  have hrun : ∀ {j : Nat} {e : Execution} {thread : Thread}, e.call = j →
      r.thread = .executing j → thread.holding = [] → r'.log = r.log ++ [e] →
      r'.thread = thread → r'.queue = r.queue → r'.schedule.Sublist r.schedule := by
    intro j e thread hcall hthread hholding hlog hthread' hqueue
    have hheld : r.held = j :: r.queue := by simp [held, hthread, Thread.holding]
    have hheld' : r'.held = r.queue := by rw [held, hthread', hholding, hqueue, List.nil_append]
    have heq : r'.schedule = r.schedule := by simp [schedule, hheld, hheld', hlog, hcall]
    rw [heq]
  cases l with
  | trySend i =>
      simp only [step] at h
      split at h
      · cases h
        unfold trySend
        split
        · exact Or.inl (.refl _)
        · exact Or.inl (.refl _)
        · split
          · exact Or.inl (.refl _)
          · refine Or.inr ⟨i, rfl, ?_⟩
            show r.log.map Execution.call ++ (r.thread.holding ++ (r.queue ++ [i])) = _
            simp [schedule, held]
      · cases h
  | issue command =>
      simp only [step, Option.ite_none_right_eq_some, Option.some.injEq] at h
      obtain ⟨-, rfl⟩ := h
      exact Or.inl (hsame rfl rfl)
  | receive =>
      simp only [step] at h
      split at h
      · next i queue hthread hqueue =>
          cases h
          exact Or.inl (hsame rfl (by simp [held, hthread, hqueue, Thread.holding]))
      · next hthread hqueue =>
          simp only [Option.ite_none_left_eq_some, Option.some.injEq] at h
          obtain ⟨-, rfl⟩ := h
          exact Or.inl (hsame rfl (by simp [held, hthread, Thread.holding]))
      · cases h
  | inspect =>
      simp only [step] at h
      split at h
      · next i hthread =>
          split at h
          · cases h
            refine Or.inl (hdrop rfl ?_)
            show ([] ++ r.queue).Sublist (r.thread.holding ++ r.queue)
            exact (List.nil_sublist _).append (.refl _)
          · cases h
            exact Or.inl (hsame rfl (by simp [held, hthread, Thread.holding]))
      · cases h
  | cancel =>
      simp only [step] at h
      split at h
      · next i queue hthread hqueue =>
          cases h
          refine Or.inl (hdrop rfl ?_)
          simp [held, hthread, hqueue, Thread.holding, setChannel]
      · cases h
  | stop =>
      simp only [step] at h
      split at h
      · cases h
        exact Or.inl (hdrop (log_closeAll ..) (by simp [held, stop, Thread.holding]))
      · cases h
  | panic =>
      simp only [step] at h
      split at h
      · cases h
        exact Or.inl (hdrop (log_closeAll ..) (by simp [held, stop, Thread.holding]))
      · cases h
  | execute now generated =>
      simp only [step] at h
      split at h
      · next i hthread =>
          obtain ⟨c, hc, rfl⟩ := Option.map_eq_some_iff.mp h
          exact Or.inl (hrun rfl hthread rfl rfl rfl rfl)
      · cases h
  | fault now error =>
      simp only [step] at h
      split at h
      · next i hthread =>
          rw [Option.ite_none_right_eq_some] at h
          obtain ⟨c, hc, rfl⟩ := Option.map_eq_some_iff.mp h.2
          exact Or.inl (hrun rfl hthread rfl rfl rfl rfl)
      · cases h
  | reply =>
      simp only [step] at h
      split at h
      · next i result hthread =>
          cases h
          exact Or.inl (hsame rfl (by simp [held, hthread, Thread.holding, setChannel]))
      · cases h
  | restart =>
      cases h
      exact Or.inl (hdrop rfl (List.nil_sublist _))
  | stopAccepting =>
      cases h
      exact Or.inl (hsame rfl rfl)
  | reject | arrive | deliver | expire | deadline | disconnect | raiseShutdown | dropSender =>
      left
      simp only [step] at h
      split at h <;> simp_all <;> grind [setStage, held]

/-- A command the worker holds was there before, or was just enqueued. -/
theorem step_held {l : RelayStep} (h : r.step l = some r') (hi : i ∈ r'.held)
    (hr' : r'.Coherent) : i ∈ r.held ∨ l = .trySend i := by
  have hmem : i ∈ r'.schedule := mem_schedule_of_held hi
  -- it has not run since: what ran is not held
  have hunran : i ∉ r.log.map Execution.call := by
    intro hran
    obtain ⟨e, he, rfl⟩ := List.mem_map.mp hran
    refine hr'.heldFresh _ hi ⟨e, ?_, rfl⟩
    rcases step_log h with ⟨hlog, -⟩ | ⟨_, _, _, _, _, _, _, hlog, -⟩
      | ⟨_, _, _, _, _, _, _, _, hlog, -⟩
    · exact hlog ▸ he
    · exact hlog ▸ List.mem_append_left _ he
    · exact hlog ▸ List.mem_append_left _ he
  rcases step_schedule h with hsub | ⟨j, rfl, hschedule⟩
  · rcases List.mem_append.mp (hsub.subset hmem) with hran | hheld
    · exact absurd hran hunran
    · exact Or.inl hheld
  · rw [hschedule] at hmem
    rcases List.mem_append.mp hmem with hold | hnew
    · rcases List.mem_append.mp hold with hran | hheld
      · exact absurd hran hunran
      · exact Or.inl hheld
    · exact Or.inr (by rw [List.mem_singleton.mp hnew])

/-- A command that took effect did so before, or was in the worker's hands. -/
theorem step_effective {l : RelayStep} (h : r.step l = some r') (hi : r'.Effective i) :
    r.Effective i ∨ i ∈ r.held := by
  obtain ⟨e, he, rfl, hok⟩ := hi
  have hnew : ∀ {j : Nat}, r.thread = .executing j → j ∈ r.held := by
    intro j hthread
    simp [held, hthread, Thread.holding]
  rcases step_log h with ⟨hlog, -⟩ | ⟨j, c, now, generated, -, hthread, -, hlog, -⟩
    | ⟨j, c, now, error, -, -, hthread, -, hlog, -⟩
  · exact Or.inl ⟨e, hlog ▸ he, rfl, hok⟩
  · rw [hlog] at he
    rcases List.mem_append.mp he with he | he
    · exact Or.inl ⟨e, he, rfl, hok⟩
    · obtain rfl := List.mem_singleton.mp he
      exact Or.inr (hnew hthread)
  · rw [hlog] at he
    rcases List.mem_append.mp he with he | he
    · exact Or.inl ⟨e, he, rfl, hok⟩
    · obtain rfl := List.mem_singleton.mp he
      cases hok

/-! ## The store a command ran on -/

/-- If call `i` has run, the store it ran on satisfied `P`. -/
def RanOn (r : Relay) (i : Nat) (P : Store → Prop) : Prop :=
  ∀ before e after, r.log = before ++ e :: after → e.call = i → P (replay before)

theorem RanOn.of_not_ran (h : ¬ r.Ran i) : r.RanOn i P := by
  intro before e after hlog hcall
  exact absurd ⟨e, by rw [hlog]; simp, hcall⟩ h

/-- What holds of the store now holds of the store a later command runs on. -/
theorem RanOn.step (hr : r.Sound) (h : r.RanOn i P) (hnow : P r.store) {l : RelayStep}
    (hstep : r.step l = some r') : r'.RanOn i P := by
  have happend : ∀ {e : Execution}, r'.log = r.log ++ [e] → r'.RanOn i P := by
    intro e hlog before f after hsplit hcall
    rw [hlog] at hsplit
    rcases List.eq_nil_or_concat after with rfl | ⟨after', g, rfl⟩
    · obtain ⟨rfl, -⟩ := List.append_inj' hsplit rfl
      rw [← hr.history.store_eq]
      exact hnow
    · rw [List.concat_eq_append, ← List.cons_append, ← List.append_assoc] at hsplit
      obtain ⟨hold, -⟩ := List.append_inj' hsplit rfl
      exact h before f after' hold hcall
  rcases step_log hstep with ⟨hlog, -⟩ | ⟨_, _, _, _, _, _, _, hlog, -⟩
    | ⟨_, _, _, _, _, _, _, _, hlog, -⟩
  · intro before e after hsplit
    exact h before e after (hlog ▸ hsplit)
  · exact happend hlog
  · exact happend hlog

/-- The run behind an answer: the store before it, the store it left, and that nothing since
was taken back. -/
theorem Sound.answered_run (hr : r.Sound) {result : Except RepositoryError Reply}
    (h : r.Answered i result) :
    ∃ e before after t t', e ∈ r.log ∧ e.call = i ∧ e.result = result
      ∧ r.log = before ++ e :: after ∧ History before t ∧ t = replay before
      ∧ ((result = (t.execute e.command e.now e.generated).1
          ∧ t' = (t.execute e.command e.now e.generated).2)
        ∨ ((result = .error .databaseBusy ∨ result = .error .internal) ∧ t' = t))
      ∧ storeLts.Steps Lts.always t' r.store := by
  obtain ⟨e, he, hcall, rfl⟩ := h
  obtain ⟨before, after, t, t', hlog, ht, hresult, hstore⟩ := hr.history.entry he
  refine ⟨e, before, after, t, t', he, hcall, rfl, hlog, ht, ht.store_eq, hresult, ?_⟩
  rw [hstore]
  exact steps_run _ t' fun _ _ _ => trivial

end Steps

end Relay

end Psst
