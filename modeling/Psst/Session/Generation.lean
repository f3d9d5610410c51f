import Psst.Session.Custody

/-!
# Generations of the credential

The credential file, the shared credential and the generation are written one after the other
by different tasks. What makes them fit is what each task knows at its point: a task that may
return the lifecycle to `Ready` knows that file and shared credential agree, one that is about
to publish knows that the file already has the new credential, and a send knows that its
snapshot was shared.
-/

namespace Psst

/-! ## What a task knows -/

namespace SupervisedTask

/-- The snapshot a send goes by. -/
def snapshot : SupervisedTask → Option AuthoritySnapshot
  | .send (.recheckingLifecycle a) | .send (.recheckingShutdown a) => some a
  | .send (.authorized a) | .send (.reserving a) | .send (.awaitingGate a) => some a
  | .send (.readingLifecycle a) | .send (.comparing a _) | .send (.sending a) => some a
  | _ => none

/-- The snapshot a send has given to the transport. -/
def sends : SupervisedTask → Option AuthoritySnapshot
  | .send (.sending a) => some a
  | _ => none

structure Knows (s : Supervisor) (t : SupervisedTask) : Prop where
  coherent : t.coherent = true → s.persisted = some s.shared.credential
  publishes : ∀ c, t.publishes = some c → s.persisted = some c
  snapshot : ∀ a, t.snapshot = some a → a ∈ s.published
  sends : ∀ a, t.sends = some a → a.generation < maxGeneration →
    a.credential = s.shared.credential

/-- A task that neither publishes nor sends knows what is coherent. -/
theorem Knows.of_quiet {s : Supervisor} {t : SupervisedTask}
    (hcoherent : t.coherent = true → s.persisted = some s.shared.credential)
    (hpublishes : t.publishes = none) (hsnapshot : t.snapshot = none) (hsends : t.sends = none) :
    t.Knows s where
  coherent := hcoherent
  publishes c hc := by cases hpublishes.symm.trans hc
  snapshot a ha := by cases hsnapshot.symm.trans ha
  sends a ha := by cases hsends.symm.trans ha

/-- A task that does nothing of it knows nothing. -/
theorem Knows.of_silent {s : Supervisor} {t : SupervisedTask} (hcoherent : t.coherent = false)
    (hpublishes : t.publishes = none) (hsnapshot : t.snapshot = none) (hsends : t.sends = none) :
    t.Knows s :=
  .of_quiet (fun h => by cases hcoherent.symm.trans h) hpublishes hsnapshot hsends

theorem keeps_of_coherent {t : SupervisedTask} (h : t.coherent = true) :
    t.recovers = true ∨ t.leaves = true := by
  unfold coherent at h
  split at h
  case h_10 point => cases point <;> simp_all [LeavePoint.coherent, leaves, LeavePoint.leaves]
  case h_11 => cases h
  all_goals exact Or.inl rfl

theorem holdsHeartbeat_of_sends {t : SupervisedTask} {a : AuthoritySnapshot}
    (h : t.sends = some a) : t.holdsHeartbeat = true := by
  unfold sends at h
  split at h
  · rfl
  · cases h

end SupervisedTask

theorem SupervisedTask.knows_of_fresh {s : Supervisor} {t : SupervisedTask}
    (hfresh : t.fresh = true) : t.Knows s := by
  unfold SupervisedTask.fresh at hfresh
  split at hfresh
  case h_5 => cases hfresh
  all_goals exact .of_silent rfl rfl rfl rfl

theorem BeatPoint.aborted_knows {s : Supervisor} (p : BeatPoint) :
    SupervisedTask.Knows s (.beat p.aborted) := by
  cases p <;> exact .of_silent rfl rfl rfl rfl

/-- What was shared so far: a generation below the last names one credential. -/
structure Supervisor.Ledger (s : Supervisor) : Prop where
  current : s.shared.snapshot ∈ s.published
  bound : ∀ a ∈ s.published, a.generation ≤ s.shared.generation
  max : s.shared.generation ≤ maxGeneration
  unique : ∀ a ∈ s.published, ∀ b ∈ s.published, a.generation = b.generation →
    a.generation < maxGeneration → a.credential = b.credential

theorem Supervisor.Ledger.publish {s : Supervisor} (h : s.Ledger) (c : Credential) :
    (s.publish c).Ledger := by
  have hbound : ∀ a ∈ s.published, a.generation ≤ min (s.shared.generation + 1) maxGeneration := by
    intro a ha
    have := h.bound a ha
    have := h.max
    omega
  have hnew : ∀ a ∈ s.published, a.generation = min (s.shared.generation + 1) maxGeneration →
      ¬ a.generation < maxGeneration := by
    intro a ha heq
    have := h.bound a ha
    omega
  refine ⟨by simp [Supervisor.publish], ?_, Nat.min_le_right _ _, ?_⟩
  · simp only [Supervisor.publish, List.mem_append, List.mem_singleton]
    rintro a (ha | rfl)
    · exact hbound a ha
    · exact Nat.le_refl _
  · simp only [Supervisor.publish, List.mem_append, List.mem_singleton]
    rintro a (ha | rfl) b (hb | rfl) heq hlt
    · exact h.unique a ha b hb heq hlt
    · exact absurd hlt (hnew a ha heq)
    · exact absurd (heq ▸ hlt) (hnew b hb heq.symm)
    · rfl

/-- What is shared is the same as before. -/
theorem Supervisor.Ledger.same {s s' : Supervisor} (h : s.Ledger)
    (hsnapshot : s'.shared.snapshot = s.shared.snapshot) (hpublished : s'.published = s.published) :
    s'.Ledger := by
  have hgeneration : s'.shared.generation = s.shared.generation :=
    congrArg AuthoritySnapshot.generation hsnapshot
  refine ⟨?_, ?_, ?_, ?_⟩
  · rw [hsnapshot, hpublished]
    exact h.current
  · rw [hpublished, hgeneration]
    exact h.bound
  · rw [hgeneration]
    exact h.max
  · rw [hpublished]
    exact h.unique

/-- A ready session has stored the credential it shares. -/
def Supervisor.Coherent (s : Supervisor) : Prop :=
  s.lifecycle = .ready → s.persisted = some s.shared.credential

section Step

variable {i : Nat} {s s' : Supervisor} {outcome : Outcome}

theorem SendPoint.step_knows {p p' : SendPoint} (hledger : s.Ledger)
    (hknows : SupervisedTask.Knows s (.send p)) (h : p.step i s outcome = some (p', s')) :
    SupervisedTask.Knows s' (.send p') := by
  have hsnapshot := hknows.snapshot
  unfold SendPoint.step at h
  split at h
  all_goals (try split at h)
  all_goals first
    | cases h
    | (simp only [Option.map_eq_some_iff, Supervisor.lockHeartbeat_eq_some, Prod.mk.injEq] at h
       obtain ⟨_, ⟨hfree, rfl⟩, rfl, rfl⟩ := h)
  all_goals
    refine ⟨(fun h => by cases h), (fun _ h => by cases h), ?_, ?_⟩
    · first
        | exact hsnapshot
        | (rintro _ ⟨⟩; exact hledger.current)
        | (intro a ha; cases ha)
    · first
        | (rintro _ ⟨⟩; done)
        | (rintro a ⟨⟩ hlt
           -- the generation is the current one, so the credential is
           rename_i hcurrent
           exact hledger.unique _ (hsnapshot _ rfl) _ hledger.current hcurrent.1.symm hlt)

/-- What the file holds after a step of a transaction. Nobody looks at it after a write that
was reported as failed. -/
def ResumePoint.Stored (s : Supervisor) : ResumeStep → Prop
  | .inl _ | .inr (.error (.relay _)) => s.persisted = some s.shared.credential
  | .inr (.ok session) => s.persisted = some session.credential
  | .inr (.error (.persist _)) => True

theorem ResumePoint.step_stored {p : ResumePoint} {r : ResumeStep}
    (hknows : s.persisted = some s.shared.credential) (h : p.step s outcome = some (r, s')) :
    ResumePoint.Stored s' r := by
  unfold ResumePoint.step at h
  split at h
  · cases h
    exact hknows
  · split at h <;> cases h <;> exact hknows
  · rename_i effect
    cases h
    cases effect with
    | done => rfl
    | failed => trivial
    | unsynced => trivial
  · cases h

theorem ReportPoint.step_knows {p p' : ReportPoint} (hcoherent : s.Coherent)
    (hknows : SupervisedTask.Knows s (.report p)) (h : p.step i s outcome = some (p', s')) :
    SupervisedTask.Knows s' (.report p') := by
  have hshared := hknows.coherent
  have hpublishes := hknows.publishes
  unfold ReportPoint.step at h
  split at h
  case h_10 =>
    obtain ⟨⟨point' | (e | session), u⟩, hresume, h⟩ := Option.map_eq_some_iff.mp h
    · have hstored := ResumePoint.step_stored (hshared rfl) hresume
      cases h
      exact .of_quiet (fun _ => hstored) rfl rfl rfl
    · have hstored := ResumePoint.step_stored (hshared rfl) hresume
      cases h
      cases e with
      | relay e => exact .of_quiet (fun _ => hstored) rfl rfl rfl
      | persist e => exact .of_silent rfl rfl rfl rfl
    · have hstored := ResumePoint.step_stored (hshared rfl) hresume
      cases h
      exact ⟨(fun h => by cases h), (by rintro _ ⟨⟩; exact hstored), (fun _ h => by cases h),
        (fun _ h => by cases h)⟩
  all_goals (try split at h)
  all_goals (try split at h)
  all_goals (try split at h)
  all_goals first
    | cases h
    | (simp only [Option.map_eq_some_iff, Supervisor.lockHeartbeat_eq_some, Prod.mk.injEq] at h
       obtain ⟨_, ⟨hfree, rfl⟩, rfl, rfl⟩ := h)
  all_goals
    refine .of_quiet ?_ rfl rfl rfl
    first
      | exact hshared
      | exact fun _ => hcoherent ‹_›
      | exact fun _ => hpublishes _ rfl
      | exact fun h => by cases h

theorem BeatPoint.step_knows {p p' : BeatPoint} (hcoherent : s.Coherent)
    (hknows : SupervisedTask.Knows s (.beat p)) (h : p.step i s outcome = some (p', s')) :
    SupervisedTask.Knows s' (.beat p') := by
  have hshared := hknows.coherent
  have hpublishes := hknows.publishes
  unfold BeatPoint.step at h
  split at h
  case h_13 =>
    obtain ⟨⟨point' | (e | session), u⟩, hresume, h⟩ := Option.map_eq_some_iff.mp h
    · have hstored := ResumePoint.step_stored (hshared rfl) hresume
      cases h
      exact .of_quiet (fun _ => hstored) rfl rfl rfl
    · have hstored := ResumePoint.step_stored (hshared rfl) hresume
      cases h
      cases e with
      | relay e => exact .of_quiet (fun _ => hstored) rfl rfl rfl
      | persist e => exact .of_silent rfl rfl rfl rfl
    · have hstored := ResumePoint.step_stored (hshared rfl) hresume
      cases h
      exact ⟨(fun h => by cases h), (by rintro _ ⟨⟩; exact hstored), (fun _ h => by cases h),
        (fun _ h => by cases h)⟩
  case h_24 =>
    -- nobody waits for the transaction, so it leaves no knowledge behind
    obtain ⟨⟨point' | result, u⟩, -, h⟩ := Option.map_eq_some_iff.mp h
    all_goals
      cases h
      exact .of_silent rfl rfl rfl rfl
  all_goals (try split at h)
  all_goals (try split at h)
  all_goals (try split at h)
  all_goals first
    | cases h
    | (simp only [Option.map_eq_some_iff, Supervisor.lockHeartbeat_eq_some, Prod.mk.injEq] at h
       obtain ⟨_, ⟨hfree, rfl⟩, rfl, rfl⟩ := h)
  all_goals
    refine .of_quiet ?_ rfl rfl rfl
    first
      | exact hshared
      | exact fun _ => hcoherent ‹_›
      | exact fun _ => hpublishes _ rfl
      | exact fun h => by cases h

theorem RollbackPoint.step_knows {gated : Bool} {p : RollbackPoint} {q : LeavePoint}
    (hknows : SupervisedTask.Knows s (.leave (.rollingBack gated p)))
    (h : p.step gated s outcome = some (q, s')) : SupervisedTask.Knows s' (.leave q) := by
  have hshared := hknows.coherent
  unfold RollbackPoint.step Supervisor.reopenReports at h
  split at h
  all_goals (try split at h)
  all_goals cases h
  all_goals
    refine .of_quiet ?_ rfl rfl rfl
    first
      | exact hshared
      | exact fun h => by cases h

theorem LeavePoint.step_knows {p p' : LeavePoint} (hcoherent : s.Coherent)
    (hknows : SupervisedTask.Knows s (.leave p)) (h : p.step i s outcome = some (p', s')) :
    SupervisedTask.Knows s' (.leave p') := by
  have hshared := hknows.coherent
  unfold LeavePoint.step Supervisor.reopenReports at h
  split at h
  case h_35 => exact RollbackPoint.step_knows hknows h
  case h_19 result =>
    obtain ⟨rfl, rfl⟩ := Prod.mk.inj (Option.some.inj h)
    exact .of_quiet (fun _ => hshared rfl) rfl rfl rfl
  all_goals (try split at h)
  all_goals (try split at h)
  all_goals first
    | cases h
    | (simp only [Option.map_eq_some_iff, Supervisor.lockHeartbeat_eq_some,
        Supervisor.lockOperation_eq_some, Prod.mk.injEq] at h
       obtain ⟨_, ⟨hfree, rfl⟩, rfl, rfl⟩ := h)
  all_goals
    refine .of_quiet ?_ rfl rfl rfl
    first
      | exact hshared
      | exact fun _ => hcoherent ‹_›
      | exact fun h => by cases h

theorem SupervisedTask.step_knows {t t' : SupervisedTask} (hledger : s.Ledger)
    (hcoherent : s.Coherent) (hknows : t.Knows s) (h : t.step i s outcome = some (t', s')) :
    t'.Knows s' := by
  cases t
  all_goals
    obtain ⟨⟨p', u⟩, hp, heq⟩ := Option.map_eq_some_iff.mp h
    obtain ⟨rfl, rfl⟩ := Prod.mk.inj heq
  case beat => exact BeatPoint.step_knows hcoherent hknows hp
  case report => exact ReportPoint.step_knows hcoherent hknows hp
  case send => exact SendPoint.step_knows hledger hknows hp
  case leave => exact LeavePoint.step_knows hcoherent hknows hp
  case shutdown => exact .of_silent rfl rfl rfl rfl

end Step

/-! ## What a step leaves of it -/

namespace Custody

variable {w : Supervised} {i j : Nat} {t t' u : SupervisedTask} {s' : Supervisor}

/-- Only a task that recovers, leaves or replays a leave writes the credential file; while one
task keeps the lifecycle, no other does. -/
theorem persisted_of_other (h : Custody w) (hi : w.tasks[i]? = some t)
    (hmoves : t.Moves i w.supervisor s' t') (hj : j ≠ i) (hu : w.tasks[j]? = some u)
    (hkeeps : u.recovers = true ∨ u.leaves = true) : s'.persisted = w.supervisor.persisted := by
  have hlifecycle : w.supervisor.lifecycle = .recovering ∧ u.recovers = true
      ∨ w.supervisor.lifecycle = .leaving ∧ u.leaves = true :=
    hkeeps.imp (fun hr => ⟨h.recovering j u hu hr, hr⟩) fun hl => ⟨h.leaving j u hu hl, hl⟩
  rcases hmoves.persisted with hsame | ht | ht | ht
  · exact hsame
  · rcases hlifecycle with ⟨-, hr⟩ | ⟨hl, -⟩
    · exact absurd (h.one j i u t hu hr hi ht) hj
    · simp [h.recovering i t hi ht] at hl
  · rcases hlifecycle with ⟨hr, -⟩ | ⟨-, hl⟩
    · simp [h.leaving i t hi ht] at hr
    · exact absurd (h.leaves_unique hu hl hi ht) hj
  · simp [h.replaying i t hi ht] at hlifecycle

/-- What is shared does not change under a task that holds the heartbeat gate or keeps the
lifecycle. -/
theorem shared_of_other (h : Custody w) (hi : w.tasks[i]? = some t)
    (hmoves : t.Moves i w.supervisor s' t') (hj : j ≠ i) (hu : w.tasks[j]? = some u)
    (hkeeps : u.holdsHeartbeat = true ∨ u.recovers = true ∨ u.leaves = true) :
    s'.shared.snapshot = w.supervisor.shared.snapshot := by
  cases hmoves.shared with
  | same snapshot => exact snapshot
  | publishes c point =>
      obtain ⟨hrecovers, hholds⟩ := SupervisedTask.recovers_of_publishes point
      exfalso
      rcases hkeeps with hheld | hr | hl
      · exact hj (h.heartbeat.unique hu hheld hi hholds)
      · exact hj (h.one j i u t hu hr hi hrecovers)
      · have hleaving := h.leaving j u hu hl
        simp [h.recovering i t hi hrecovers] at hleaving

end Custody

theorem SharedMove.published_subset {s s' : Supervisor} {t : SupervisedTask}
    (h : SharedMove s s' t) : s.published ⊆ s'.published := by
  cases h with
  | same _ published => exact published ▸ List.Subset.refl _
  | publishes c _ _ published =>
      rw [published]
      exact List.subset_append_left _ _

theorem SharedMove.ledger {s s' : Supervisor} {t : SupervisedTask} (h : SharedMove s s' t)
    (hledger : s.Ledger) : s'.Ledger := by
  cases h with
  | same snapshot published => exact hledger.same snapshot published
  | publishes c _ snapshot published => exact (hledger.publish c).same snapshot published

/-- The credentials of the file, of the supervisor and of the tasks fit together. -/
structure Generations (w : Supervised) : Prop where
  custody : Custody w
  ledger : w.supervisor.Ledger
  coherent : w.supervisor.Coherent
  knows : ∀ (j : Nat) (u : SupervisedTask), w.tasks[j]? = some u → u.Knows w.supervisor

namespace Generations

variable {w : Supervised} {i j : Nat} {t t' u : SupervisedTask} {s' : Supervisor}

/-- What the others know outlives the step of a task. -/
theorem knows_other (h : Generations w) (hi : w.tasks[i]? = some t)
    (hmoves : t.Moves i w.supervisor s' t') (hj : j ≠ i) (hu : w.tasks[j]? = some u) :
    u.Knows s' := by
  have hknows := h.knows j u hu
  refine ⟨?_, ?_, ?_, ?_⟩
  · intro hcoherent
    have hkeeps := SupervisedTask.keeps_of_coherent hcoherent
    have hshared := h.custody.shared_of_other hi hmoves hj hu (Or.inr hkeeps)
    rw [h.custody.persisted_of_other hi hmoves hj hu hkeeps, hknows.coherent hcoherent]
    exact congrArg (fun a => some a.credential) hshared.symm
  · intro c hc
    have hrecovers := (SupervisedTask.recovers_of_publishes hc).1
    rw [h.custody.persisted_of_other hi hmoves hj hu (Or.inl hrecovers), hknows.publishes c hc]
  · intro a ha
    exact hmoves.shared.published_subset (hknows.snapshot a ha)
  · intro a ha hlt
    have hheld := SupervisedTask.holdsHeartbeat_of_sends ha
    have hshared := h.custody.shared_of_other hi hmoves hj hu (Or.inl hheld)
    rw [hknows.sends a ha hlt]
    exact congrArg AuthoritySnapshot.credential hshared.symm

/-- A step into `Ready`, or within it, has the credential stored. -/
theorem coherent_task (h : Generations w) (hi : w.tasks[i]? = some t)
    (hmoves : t.Moves i w.supervisor s' t') : s'.Coherent := by
  intro hready
  have hreturned : t.Returns w.supervisor s' →
      s'.persisted = some s'.shared.credential := by
    intro hreturns
    obtain ⟨hcoherent, hpersisted, hcredential⟩ := hreturns hready
    rw [hpersisted, hcredential]
    exact (h.knows i t hi).coherent hcoherent
  cases hmoves.lifecycle with
  | stay same =>
      rw [same] at hready
      have hpersisted : s'.persisted = w.supervisor.persisted := by
        rcases hmoves.persisted with hsame | ht | ht | ht
        · exact hsame
        · simp [h.custody.recovering i t hi ht] at hready
        · simp [h.custody.leaving i t hi ht] at hready
        · simp [h.custody.replaying i t hi ht] at hready
      cases hmoves.shared with
      | same snapshot =>
          rw [hpersisted, h.coherent hready]
          exact congrArg (fun a => some a.credential) snapshot.symm
      | publishes c point =>
          have hrecovers := (SupervisedTask.recovers_of_publishes point).1
          simp [h.custody.recovering i t hi hrecovers] at hready
  | begins _ after => simp [after] at hready
  | expires _ after => simp [after] at hready
  | ends _ _ returns => exact hreturned returns
  | settles _ _ returns => exact hreturned returns

theorem task (h : Generations w) (hi : w.tasks[i]? = some t)
    (hmoves : t.Moves i w.supervisor s' t') (hknows : t'.Knows s') :
    Generations ⟨s', w.tasks.set i t'⟩ := by
  refine ⟨h.custody.task hi hmoves, hmoves.shared.ledger h.ledger, h.coherent_task hi hmoves, ?_⟩
  intro j u hu
  rcases getElem?_set_cases hu with ⟨-, rfl⟩ | ⟨hj, hu⟩
  · exact hknows
  · exact h.knows_other hi hmoves hj hu

theorem spawn (h : Generations w) (hfresh : t.fresh = true) (active : Nat) :
    Generations ⟨w.supervisor.setReports { w.supervisor.reports with active := active },
      w.tasks ++ [t]⟩ := by
  refine ⟨h.custody.spawn hfresh active, h.ledger.same rfl rfl, h.coherent, ?_⟩
  intro j u hu
  rcases getElem?_append_cases hu with hu | rfl
  · have hknows := h.knows j u hu
    exact ⟨hknows.coherent, hknows.publishes, hknows.snapshot, hknows.sends⟩
  · exact SupervisedTask.knows_of_fresh hfresh

theorem step {w' : Supervised} {l : SupervisedStep} (h : Generations w)
    (hstep : w.step l = some w') : Generations w' := by
  cases Supervised.step_move hstep with
  | act found step =>
      exact h.task found (SupervisedTask.step_moves step)
        (SupervisedTask.step_knows h.ledger h.coherent (h.knows _ _ found) step)
  | abort _ found => exact h.task found (BeatPoint.aborted_moves _) (BeatPoint.aborted_knows _)
  | spawn active fresh => exact h.spawn fresh active
  | refused => exact h

theorem started (profile : ProfileBinding) (credential : Credential) {generation : Nat}
    (hgeneration : generation ≤ 1) :
    Generations (Supervised.started profile credential generation) := by
  refine ⟨.started profile credential generation, ⟨?_, ?_, ?_, ?_⟩, fun _ => rfl, ?_⟩
  · exact List.mem_singleton_self _
  · rintro a ha
    cases List.mem_singleton.mp ha
    exact Nat.le_refl _
  · exact hgeneration.trans (by decide)
  · intro a ha b hb _ _
    cases List.mem_singleton.mp ha
    cases List.mem_singleton.mp hb
    rfl
  · intro j u hu
    cases List.mem_singleton.mp (List.mem_of_getElem? hu)
    exact .of_silent rfl rfl rfl rfl

theorem reach {ok : Supervised → SupervisedStep → Prop} (h : supervisedLts.Reach ok w) :
    Generations w := by
  refine h.invariant (P := Generations) ?_ fun s l t hs _ hstep => hs.step hstep
  rintro _ ⟨profile, credential, generation, hgeneration, rfl⟩
  exact started profile credential hgeneration

/-- A change of what is shared is a publication. -/
theorem publishes_safely {w' : Supervised} {l : SupervisedStep} (h : Generations w)
    (hstep : w.step l = some w')
    (hchanged : w'.supervisor.shared.snapshot ≠ w.supervisor.shared.snapshot) :
    (∃ i outcome, l = .act i outcome ∧ w.supervisor.heartbeatGate = some i
        ∧ w'.supervisor.heartbeatGate = some i)
      ∧ w.supervisor.lifecycle = .recovering ∧ w'.supervisor.lifecycle = .recovering
      ∧ w.supervisor.persisted = some w'.supervisor.shared.credential
      ∧ w'.supervisor.persisted = w.supervisor.persisted := by
  cases Supervised.step_move hstep with
  | act found step =>
      rename_i i outcome t t' s'
      cases (SupervisedTask.step_moves step).shared with
      | same snapshot => exact absurd snapshot hchanged
      | publishes c point snapshot _ lifecycle persisted gate =>
          obtain ⟨hrecovers, hholds⟩ := SupervisedTask.recovers_of_publishes point
          have hheld := (h.custody.heartbeat i).mpr ⟨t, found, hholds⟩
          have hlifecycle := h.custody.recovering i t found hrecovers
          have hcredential : s'.shared.credential = c :=
            congrArg AuthoritySnapshot.credential snapshot
          refine ⟨⟨i, outcome, rfl, hheld, gate.trans hheld⟩, hlifecycle,
            lifecycle.trans hlifecycle, ?_, persisted⟩
          rw [(h.knows i t found).publishes c point]
          exact congrArg some hcredential.symm
  | abort => exact absurd (by dsimp only; split <;> rfl) hchanged
  | spawn => exact absurd rfl hchanged
  | refused => exact absurd rfl hchanged

end Generations

/-- A terminal lifecycle is never left in any run. -/
theorem Custody.steps_terminal {w w' : Supervised} {ok : Supervised → SupervisedStep → Prop}
    (h : Custody w) (hrun : supervisedLts.Steps ok w w')
    (hterminal : w.supervisor.lifecycle = .outcomeUnknown
      ∨ w.supervisor.lifecycle = .rotationFailed ∨ w.supervisor.lifecycle = .left) :
    w'.supervisor.lifecycle = w.supervisor.lifecycle := by
  refine (hrun.keeps (P := fun v => Custody v
    ∧ v.supervisor.lifecycle = w.supervisor.lifecycle) ?_ ⟨h, rfl⟩).2
  rintro v l v' ⟨hv, hsame⟩ - hstep
  refine ⟨hv.step hstep, ?_⟩
  rw [← hsame] at hterminal ⊢
  cases Supervised.step_move hstep with
  | act found step => exact hv.lifecycle_terminal found (SupervisedTask.step_moves step) hterminal
  | abort _ found => exact hv.lifecycle_terminal found (BeatPoint.aborted_moves _) hterminal
  | spawn => rfl
  | refused => rfl

/-! ## Coherence of every run -/

/-- **Generations are coherent.** What is shared changes only under the heartbeat gate while the
session recovers, and only to a credential that is already stored; a ready session shares what
it has stored; a send below the last generation has the current credential in the transport; what
`authority` returns was shared as one; and a terminal lifecycle stays. -/
theorem credential_generations_coherent {w : Supervised}
    (h : supervisedLts.Reach Lts.always w) :
    (∀ (l : SupervisedStep) (w' : Supervised), w.step l = some w' →
        w'.supervisor.shared.snapshot ≠ w.supervisor.shared.snapshot →
        (∃ i outcome, l = .act i outcome ∧ w.supervisor.heartbeatGate = some i
            ∧ w'.supervisor.heartbeatGate = some i)
          ∧ w.supervisor.lifecycle = .recovering ∧ w'.supervisor.lifecycle = .recovering
          ∧ w.supervisor.persisted = some w'.supervisor.shared.credential
          ∧ w'.supervisor.persisted = w.supervisor.persisted)
      ∧ (w.supervisor.lifecycle = .ready →
        w.supervisor.persisted = some w.supervisor.shared.credential)
      ∧ (∀ (i : Nat) (a : AuthoritySnapshot), w.tasks[i]? = some (.send (.sending a)) →
        a.generation < maxGeneration → a.credential = w.supervisor.shared.credential)
      ∧ (∀ (i : Nat) (a : AuthoritySnapshot), w.tasks[i]? = some (.send (.authorized a)) →
        a ∈ w.supervisor.published)
      ∧ ∀ w' : Supervised, supervisedLts.Steps Lts.always w w' →
        w.supervisor.lifecycle = .outcomeUnknown ∨ w.supervisor.lifecycle = .rotationFailed
          ∨ w.supervisor.lifecycle = .left →
        w'.supervisor.lifecycle = w.supervisor.lifecycle := by
  have hgen := Generations.reach h
  refine ⟨?_, hgen.coherent, ?_, ?_, ?_⟩
  · intro l w' hstep hchanged
    exact hgen.publishes_safely hstep hchanged
  · intro i a hi hlt
    exact (hgen.knows i _ hi).sends a rfl hlt
  · intro i a hi
    exact (hgen.knows i _ hi).snapshot a rfl
  · intro w' hrun hterminal
    exact hgen.custody.steps_terminal hrun hterminal

open Sample in
/-- Alice's scheduler has rotated her credential, and a send is in the transport with it. -/
theorem credential_generations_coherent_alice :
    ∃ w, supervisedLts.Reach Lts.always w
      ∧ ∃ a, w.tasks[1]? = some (.send (.sending a)) ∧ a.generation = 1
        ∧ a.credential = w.supervisor.shared.credential := by
  have hrun : (Lts.follow Supervised.step Lts.always
      (Supervised.started aliceProfile ⟨aliceInstance, aliceToken⟩ 0)
      (expires ++ [.act 0 (.resume (.ok (aliceSession bobToken))), .act 0 (.persist .done),
        .act 0 .go, .act 0 .go, .act 0 .go, .send]
        ++ List.replicate 10 (.act 1 .go))).any (fun w =>
          w.tasks[1]?.any fun
            | .send (.sending a) => decide (a.generation = 1)
            | _ => false) = true := by
    decide
  obtain ⟨w, hw, hcheck⟩ := Lts.exists_steps_of_follow _ hrun
  obtain ⟨t, ht, hsending⟩ := (Option.any_eq_true _ _).mp hcheck
  split at hsending
  · rename_i a
    have hgeneration := of_decide_eq_true hsending
    have hreach : supervisedLts.Reach Lts.always w := ⟨_, ⟨aliceProfile, _, 0, by decide, rfl⟩, hw⟩
    have hcurrent := (credential_generations_coherent hreach).2.2.1 1 a ht
      (hgeneration ▸ by decide)
    exact ⟨w, hreach, a, ht, hgeneration, hcurrent⟩
  · cases hsending

/-! ## Running out of generations -/

/-- Nothing is going on but the scheduler's sleep. -/
structure Supervisor.Idle (s : Supervisor) : Prop where
  heartbeatGate : s.heartbeatGate = none
  cancel : s.cancel = false
  lifecycle : s.lifecycle = .ready
  health : s.shared.health = .ready
  shutdownRequested : s.shutdownRequested = false
  sends : ∃ inflight, s.sends = ⟨true, inflight, true, false⟩

/-- A rotation of a sleeping scheduler publishes the new credential, whatever else waits. -/
theorem Supervisor.Idle.rotates {s : Supervisor} (h : s.Idle) {session : Session}
    (howns : s.profile.owns session) (rest : List SupervisedTask) :
    supervisedLts.Steps Lts.always ⟨s, .beat .sleeping :: rest⟩
      ⟨(s.setPersisted (some session.credential)).publish session.credential,
        .beat .sleeping :: rest⟩ := by
  obtain ⟨profile, lifecycle, shared, persisted, operationGate, heartbeatGate, tokens, nextToken,
    readCancel, reports, sends, shutdownRequested, operationCancel, cancel, published⟩ := s
  obtain ⟨rfl, rfl, rfl, -, -, -⟩ := h
  let asked : Supervisor :=
    ⟨profile, .recovering, shared, persisted, operationGate, some 0, tokens, nextToken,
      readCancel, reports, sends, shutdownRequested, operationCancel, false, published⟩
  have hresume : (ResumePoint.asking shared.credential).step asked (.resume (.ok session))
      = some (.inl (.persisting session), asked) := if_pos howns
  have hasked : supervisedLts.Steps Lts.always
      ⟨asked, .beat (.resuming (.asking shared.credential)) :: rest⟩
      ⟨asked, .beat (.resuming (.persisting session)) :: rest⟩ := by
    refine (Lts.Steps.refl _).tail trivial (l := .act 0 (.resume (.ok session))) ?_
    show Supervised.step _ _ = _
    simp [Supervised.step, SupervisedTask.step, BeatPoint.step, hresume]
  exact Lts.Steps.trans (Lts.steps_of_follow Sample.expires rfl) (hasked.trans
    (Lts.steps_of_follow [.act 0 (.persist .done), .act 0 .go, .act 0 .go, .act 0 .go] rfl))

theorem Supervisor.Idle.publish {s : Supervisor} (h : s.Idle) (c : Credential) :
    ((s.setPersisted (some c)).publish c).Idle :=
  ⟨h.heartbeatGate, h.cancel, h.lifecycle, rfl, h.shutdownRequested, h.sends⟩

/-- After `n` rotations to one credential the generation is `n`, or the last. -/
theorem Supervised.steps_rotations {profile : ProfileBinding} {session : Session}
    (howns : profile.owns session) (n : Nat) (hn : n ≤ maxGeneration) :
    ∃ s : Supervisor, s.Idle ∧ s.profile = profile ∧ s.shared.credential = session.credential
      ∧ s.shared.generation = n ∧ supervisedLts.Steps Lts.always
        (Supervised.started profile session.credential 0) ⟨s, [.beat .sleeping]⟩ := by
  induction n with
  | zero => exact ⟨_, ⟨rfl, rfl, rfl, rfl, rfl, ⟨0, rfl⟩⟩, rfl, rfl, rfl, .refl _⟩
  | succ n ih =>
      obtain ⟨s, hidle, hprofile, hcredential, hgeneration, hrun⟩ := ih (by omega)
      refine ⟨_, hidle.publish session.credential, hprofile, rfl, ?_,
        hrun.trans (hidle.rotates (hprofile ▸ howns) [])⟩
      have hnext : min (s.shared.generation + 1) maxGeneration = n + 1 := by omega
      exact hnext

/-- A send is admitted with what is shared now, and waits for the gate. -/
theorem Supervisor.Idle.admits {s : Supervisor} (h : s.Idle) :
    ∃ s' : Supervisor, s'.Idle ∧ s'.profile = s.profile ∧ s'.shared = s.shared
      ∧ supervisedLts.Steps Lts.always ⟨s, [.beat .sleeping]⟩
        ⟨s', [.beat .sleeping, .send (.awaitingGate s.shared.snapshot)]⟩ := by
  obtain ⟨profile, lifecycle, ⟨credential, generation, health⟩, persisted, operationGate,
    heartbeatGate, tokens, nextToken, readCancel, reports, sends, shutdownRequested,
    operationCancel, cancel, published⟩ := s
  obtain ⟨rfl, rfl, rfl, rfl, rfl, ⟨inflight, rfl⟩⟩ := h
  refine ⟨_, ?_, ?_, ?_, Lts.steps_of_follow (.send :: List.replicate 7 (.act 1 .go)) rfl⟩
  · exact ⟨rfl, rfl, rfl, rfl, rfl, ⟨_, rfl⟩⟩
  · rfl
  · rfl

/-- A waiting send goes to the transport if its generation is the current one. -/
theorem Supervisor.Idle.sends_now {s : Supervisor} (h : s.Idle) {a : AuthoritySnapshot}
    (hgeneration : s.shared.generation = a.generation) :
    ∃ s' : Supervisor, s'.shared = s.shared
      ∧ supervisedLts.Steps Lts.always ⟨s, [.beat .sleeping, .send (.awaitingGate a)]⟩
        ⟨s', [.beat .sleeping, .send (.sending a)]⟩ := by
  obtain ⟨profile, lifecycle, ⟨credential, generation, health⟩, persisted, operationGate,
    heartbeatGate, tokens, nextToken, readCancel, reports, sends, shutdownRequested,
    operationCancel, cancel, published⟩ := s
  obtain ⟨credential', generation'⟩ := a
  obtain ⟨rfl, rfl, rfl, rfl, rfl, -⟩ := h
  cases hgeneration
  let held : Supervisor :=
    ⟨profile, .ready, ⟨credential, generation, .ready⟩, persisted, operationGate, some 1, tokens,
      nextToken, readCancel, reports, sends, false, operationCancel, false, published⟩
  have hcompared : (SendPoint.comparing ⟨credential', generation⟩ .ready).step 1 held .go
      = some (.sending ⟨credential', generation⟩, held) := if_pos ⟨rfl, rfl, Or.inl rfl⟩
  have hsent : supervisedLts.Steps Lts.always
      ⟨held, [.beat .sleeping, .send (.comparing ⟨credential', generation⟩ .ready)]⟩
      ⟨held, [.beat .sleeping, .send (.sending ⟨credential', generation⟩)]⟩ := by
    refine (Lts.Steps.refl _).tail trivial (l := .act 1 .go) ?_
    show Supervised.step _ _ = _
    simp [Supervised.step, SupervisedTask.step, hcompared]
  exact ⟨held, rfl, Lts.Steps.trans (Lts.steps_of_follow [.act 1 .go, .act 1 .go] rfl) hsent⟩

open Sample in
/-- **The last generation is shared.** The generation of a credential does not grow beyond
`u64::MAX`; after that a send that waited through a rotation goes out with the credential the
rotation replaced. -/
theorem saturated_generation_sends_stale :
    ¬ ∀ w : Supervised, supervisedLts.Reach Lts.always w →
        ∀ (i : Nat) (a : AuthoritySnapshot), w.tasks[i]? = some (.send (.sending a)) →
          a.credential = w.supervisor.shared.credential := by
  intro hclaim
  obtain ⟨s, hidle, hprofile, hcredential, hgeneration, hrun⟩ :=
    Supervised.steps_rotations (aliceProfile_owns aliceToken) maxGeneration (Nat.le_refl _)
  obtain ⟨s', hidle', hprofile', hshared', hadmitted⟩ := hidle.admits
  have howns : s'.profile.owns (aliceSession bobToken) :=
    hprofile' ▸ hprofile ▸ aliceProfile_owns bobToken
  have hrotated := hidle'.rotates howns [.send (.awaitingGate s.shared.snapshot)]
  -- the rotation leaves the generation where it is
  have hsame : min (s'.shared.generation + 1) maxGeneration = s.shared.generation := by
    rw [hshared', hgeneration]
    omega
  obtain ⟨t, htshared, hsent⟩ := (hidle'.publish _).sends_now (a := s.shared.snapshot) hsame
  have hstale := hclaim _ ⟨_, ⟨aliceProfile, _, 0, by decide, rfl⟩,
    ((hrun.trans hadmitted).trans hrotated).trans hsent⟩ 1 s.shared.snapshot rfl
  have hnew : t.shared.credential = (aliceSession bobToken).credential :=
    congrArg Shared.credential htshared
  have hold : s.shared.credential = t.shared.credential := hstale
  rw [hcredential, hnew] at hold
  exact absurd (congrArg Credential.resumeToken hold) (by decide)

end Psst
