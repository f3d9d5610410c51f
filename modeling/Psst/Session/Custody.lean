import Psst.Lib.Gate
import Psst.Session.Supervisor

/-!
# Who has what

The two gates have one holder each. The lifecycle has a keeper too: while it is `Leaving` the
leave that set it, while it is `Recovering` the task whose lease ran out; nobody else moves it.
What one step of a task can do to all this is said once (`step_moves`), and everything later is
derived from that.
-/

namespace Psst

/-! ## What a point holds -/

def ReportPoint.holdsHeartbeat : ReportPoint → Bool
  | .awaitingGate _ | .finishing | .done => false
  | _ => true

def SendPoint.holdsHeartbeat : SendPoint → Bool
  | .readingLifecycle _ | .comparing _ _ | .sending _ | .finishing => true
  | _ => false

def LeavePoint.holdsOperation : LeavePoint → Bool
  | .locking | .done => false
  | _ => true

def LeavePoint.holdsHeartbeat : LeavePoint → Bool
  | .readingCredential | .issuing _ | .asking _ | .removingJournal | .confirming => true
  | .cancellingScheduler | .cancellingOperations | .clearingCredential | .clearingRest => true
  | .stopping | .departing | .reaping | .losing | .lost => true
  | .rollingBack gated _ => gated
  | _ => false

/-- The leave has set the lifecycle to `Leaving` and has not moved it since. -/
def LeavePoint.leaves : LeavePoint → Bool
  | .locking | .cancellingReports | .drainingReports | .undrained | .undrainedReady => false
  | .reopeningReports | .cloningReads | .beginning _ | .replayingCleanup | .reaping => false
  | .done => false
  | _ => true

/-- The report has set the lifecycle to `Recovering` and has not moved it since. -/
def ReportPoint.recovers : ReportPoint → Bool
  | .resuming _ | .resumed _ | .failing _ | .failed _ | .publishing _ | .published => true
  | _ => false

def BeatPoint.recovers : BeatPoint → Bool
  | .resuming _ | .failing _ | .failed _ | .publishing _ | .published | .orphaned _ => true
  | _ => false

def LeavePoint.coherent : LeavePoint → Bool
  | .stoppingSends | .closingSends | .drainingSends | .awaitingGate | .readingCredential => true
  | .issuing _ | .asking _ | .removingJournal | .rollingBack _ _ => true
  | _ => false

/-- The transaction failed before it touched the credential file. -/
def ResumeTransactionError.kept : ResumeTransactionError → Bool
  | .relay _ => true
  | .persist _ => false

namespace SupervisedTask

def holdsOperation : SupervisedTask → Bool
  | .leave point => point.holdsOperation
  | .shutdown _ .stopping => true
  | _ => false

def holdsHeartbeat : SupervisedTask → Bool
  | .beat point => point.holdsHeartbeat
  | .report point => point.holdsHeartbeat
  | .send point => point.holdsHeartbeat
  | .leave point => point.holdsHeartbeat
  | .shutdown _ _ => false

def leaves : SupervisedTask → Bool
  | .leave point => point.leaves
  | _ => false

def recovers : SupervisedTask → Bool
  | .beat point => point.recovers
  | .report point => point.recovers
  | _ => false

/-- A leave that found the lifecycle `Left` and repeats the cleanup. -/
def replays : SupervisedTask → Bool
  | .leave .replayingCleanup => true
  | _ => false

/-- The credential a task is about to publish. -/
def publishes : SupervisedTask → Option Credential
  | .beat (.publishing session) | .report (.publishing session) => some session.credential
  | _ => none

/-- The task may still return the lifecycle to `Ready` with the credential as it is. -/
def coherent : SupervisedTask → Bool
  | .beat (.resuming _) | .beat .published => true
  | .beat (.failing e) | .beat (.failed e) => e.kept
  | .report (.resuming _) | .report .published => true
  | .report (.resumed e) | .report (.failing e) | .report (.failed e) => e.kept
  | .leave point => point.coherent
  | _ => false

theorem holdsOperation_of_leaves {t : SupervisedTask} (h : t.leaves = true) :
    t.holdsOperation = true := by
  cases t with
  | leave point => cases point <;> simp_all [leaves, holdsOperation, LeavePoint.leaves,
      LeavePoint.holdsOperation]
  | beat | report | send | shutdown => cases h

theorem recovers_of_publishes {t : SupervisedTask} {c : Credential} (h : t.publishes = some c) :
    t.recovers = true ∧ t.holdsHeartbeat = true := by
  cases t with
  | beat point => cases point <;> simp_all [publishes, recovers, holdsHeartbeat,
      BeatPoint.recovers, BeatPoint.holdsHeartbeat]
  | report point => cases point <;> simp_all [publishes, recovers, holdsHeartbeat,
      ReportPoint.recovers, ReportPoint.holdsHeartbeat]
  | send | leave | shutdown => cases h

end SupervisedTask

/-! ## What a step can do -/

/-- A task that returns the lifecycle to `Ready` leaves the credential as it is. -/
def SupervisedTask.Returns (s s' : Supervisor) (t : SupervisedTask) : Prop :=
  s'.lifecycle = .ready →
    t.coherent = true ∧ s'.persisted = s.persisted ∧ s'.shared.credential = s.shared.credential

/-- How the lifecycle and its keeper change with a step. -/
inductive LifecycleMove (s s' : Supervisor) (t t' : SupervisedTask) : Prop where
  | stay (same : s'.lifecycle = s.lifecycle) (leaves : t'.leaves = true → t.leaves = true)
      (kept : t.leaves = true → t'.leaves = true ∨ s.shutdownRequested = true)
      (recovers : t'.recovers = true → t.recovers = true)
  | begins (before : s.lifecycle = .ready) (after : s'.lifecycle = .leaving)
      (held : t.holdsOperation = true) (leaves : t'.leaves = true) (recovers : t'.recovers = false)
  | ends (kept : t.leaves = true)
      (after : s'.lifecycle = .ready ∨ s'.lifecycle = .outcomeUnknown ∨ s'.lifecycle = .left)
      (returns : t.Returns s s') (leaves : t'.leaves = false) (recovers : t'.recovers = false)
  | expires (before : s.lifecycle = .ready) (after : s'.lifecycle = .recovering)
      (leaves : t'.leaves = false) (recovers : t'.recovers = true)
  | settles (kept : t.recovers = true)
      (after : s'.lifecycle = .ready ∨ s'.lifecycle = .outcomeUnknown
        ∨ s'.lifecycle = .rotationFailed)
      (returns : t.Returns s s') (leaves : t'.leaves = false) (recovers : t'.recovers = false)

/-- How what is shared changes with a step: not at all, or by publishing. -/
inductive SharedMove (s s' : Supervisor) (t : SupervisedTask) : Prop where
  | same (snapshot : s'.shared.snapshot = s.shared.snapshot) (published : s'.published = s.published)
  | publishes (c : Credential) (point : t.publishes = some c)
      (snapshot : s'.shared.snapshot = (s.publish c).shared.snapshot)
      (published : s'.published = (s.publish c).published)
      (lifecycle : s'.lifecycle = s.lifecycle) (persisted : s'.persisted = s.persisted)
      (gate : s'.heartbeatGate = s.heartbeatGate)

/-- Everything a step of task `i` can do to the gates, the lifecycle and the credential. -/
structure SupervisedTask.Moves (i : Nat) (s s' : Supervisor) (t t' : SupervisedTask) : Prop where
  operation : GateMove i s.operationGate t.holdsOperation s'.operationGate t'.holdsOperation
  heartbeat : GateMove i s.heartbeatGate t.holdsHeartbeat s'.heartbeatGate t'.holdsHeartbeat
  lifecycle : LifecycleMove s s' t t'
  shared : SharedMove s s' t
  persisted : s'.persisted = s.persisted ∨ t.recovers = true ∨ t.leaves = true ∨ t.replays = true
  replays : t'.replays = true → s'.lifecycle = .left

theorem ResumeTransactionError.lifecycle_cases (e : ResumeTransactionError) :
    e.lifecycle = .ready ∨ e.lifecycle = .outcomeUnknown ∨ e.lifecycle = .rotationFailed := by
  unfold ResumeTransactionError.lifecycle
  split <;> simp

theorem ResumeTransactionError.kept_of_lifecycle {e : ResumeTransactionError}
    (h : e.lifecycle = .ready) : e.kept = true := by
  cases e with
  | relay => rfl
  | persist => cases h

section Moves

variable {i : Nat} {s s' : Supervisor} {outcome : Outcome}

theorem Supervisor.lockHeartbeat_eq_some :
    s.lockHeartbeat i = some s' ↔ s.heartbeatGate = none ∧ s' = s.setHeartbeatGate (some i) := by
  simp [lockHeartbeat, eq_comm]

theorem Supervisor.lockOperation_eq_some :
    s.lockOperation i = some s' ↔ s.operationGate = none ∧ s' = s.setOperationGate (some i) := by
  simp [lockOperation, eq_comm]

/-- A resume transaction writes the credential file and nothing else. -/
theorem ResumePoint.step_persisted {p : ResumePoint} {r : ResumeStep}
    (h : p.step s outcome = some (r, s')) : ∃ persisted, s' = s.setPersisted persisted := by
  unfold ResumePoint.step at h
  split at h
  · cases h
    exact ⟨s.persisted, rfl⟩
  · split at h <;> cases h <;> exact ⟨s.persisted, rfl⟩
  · cases h
    split
    · exact ⟨_, rfl⟩
    · exact ⟨s.persisted, rfl⟩
  · cases h

/-- A point whose keeping of the lifecycle does not change with a step. -/
theorem LifecycleMove.same {t t' : SupervisedTask} (hlifecycle : s'.lifecycle = s.lifecycle)
    (hleaves : t'.leaves = t.leaves) (hrecovers : t'.recovers = true → t.recovers = true) :
    LifecycleMove s s' t t' :=
  .stay hlifecycle (hleaves ▸ fun h => h) (fun h => Or.inl (hleaves ▸ h)) hrecovers

theorem SendPoint.step_moves {p p' : SendPoint} (h : p.step i s outcome = some (p', s')) :
    SupervisedTask.Moves i s s' (.send p) (.send p') := by
  unfold SendPoint.step at h
  split at h
  all_goals (try split at h)
  all_goals first
    | cases h
    | (simp only [Option.map_eq_some_iff, Supervisor.lockHeartbeat_eq_some, Prod.mk.injEq] at h
       obtain ⟨_, ⟨hfree, rfl⟩, rfl, rfl⟩ := h)
  -- a send only ever touches the heartbeat gate
  all_goals
    refine ⟨.same _ _, ?_, .same rfl rfl fun h => h, .same rfl rfl, Or.inl rfl,
      fun h => by cases h⟩
    first
      | exact .same _ _
      | exact .release _
      | exact .take hfree

theorem ShutdownPoint.step_moves {graceful : Bool} {p p' : ShutdownPoint}
    (h : p.step i graceful s outcome = some (p', s')) :
    SupervisedTask.Moves i s s' (.shutdown graceful p) (.shutdown graceful p') := by
  unfold ShutdownPoint.step at h
  split at h
  all_goals (try split at h)
  all_goals first
    | cases h
    | (simp only [Option.map_eq_some_iff, Supervisor.lockOperation_eq_some, Prod.mk.injEq] at h
       obtain ⟨_, ⟨hfree, rfl⟩, rfl, rfl⟩ := h)
  -- a shutdown only ever touches the operation gate
  all_goals
    refine ⟨?_, .same _ _, .same rfl rfl fun h => h, .same rfl rfl, Or.inl rfl,
      fun h => by cases h⟩
    first
      | exact .same _ _
      | exact .release _
      | exact .take hfree

theorem ReportPoint.step_moves {p p' : ReportPoint} (h : p.step i s outcome = some (p', s')) :
    SupervisedTask.Moves i s s' (.report p) (.report p') := by
  unfold ReportPoint.step at h
  split at h
  -- the resume transaction has its own text
  case h_10 =>
    obtain ⟨⟨point' | (e | session), u⟩, hresume, h⟩ := Option.map_eq_some_iff.mp h
    all_goals
      obtain ⟨persisted, rfl⟩ := ResumePoint.step_persisted hresume
      cases h
      exact ⟨.same _ _, .same _ _, .same rfl rfl fun h => h, .same rfl rfl, Or.inr (Or.inl rfl),
        fun h => by cases h⟩
  all_goals (try split at h)
  all_goals (try split at h)
  all_goals (try split at h)
  all_goals first
    | cases h
    | (simp only [Option.map_eq_some_iff, Supervisor.lockHeartbeat_eq_some, Prod.mk.injEq] at h
       obtain ⟨_, ⟨hfree, rfl⟩, rfl, rfl⟩ := h)
  all_goals
    refine ⟨.same _ _, ?_, ?_, ?_, Or.inl rfl, fun h => by cases h⟩
    · first
        | exact .same _ _
        | exact .release _
        | exact .take hfree
    · first
        | exact .same rfl rfl fun h => h
        | exact .same rfl rfl fun h => by cases h
        | exact .expires ‹_› rfl rfl rfl
        | exact .settles rfl (Or.inl rfl) (fun _ => ⟨rfl, rfl, rfl⟩) rfl rfl
        | exact .settles rfl (ResumeTransactionError.lifecycle_cases _)
            (fun h => ⟨ResumeTransactionError.kept_of_lifecycle h, rfl, rfl⟩) rfl rfl
    · first
        | exact .same rfl rfl
        | exact .publishes _ rfl rfl rfl rfl rfl rfl

theorem BeatPoint.step_moves {p p' : BeatPoint} (h : p.step i s outcome = some (p', s')) :
    SupervisedTask.Moves i s s' (.beat p) (.beat p') := by
  unfold BeatPoint.step at h
  split at h
  case h_13 =>
    obtain ⟨⟨point' | (e | session), u⟩, hresume, h⟩ := Option.map_eq_some_iff.mp h
    all_goals
      obtain ⟨persisted, rfl⟩ := ResumePoint.step_persisted hresume
      cases h
      exact ⟨.same _ _, .same _ _, .same rfl rfl fun h => h, .same rfl rfl, Or.inr (Or.inl rfl),
        fun h => by cases h⟩
  case h_24 =>
    obtain ⟨⟨point' | result, u⟩, hresume, h⟩ := Option.map_eq_some_iff.mp h
    all_goals
      obtain ⟨persisted, rfl⟩ := ResumePoint.step_persisted hresume
      cases h
    · exact ⟨.same _ _, .same _ _, .same rfl rfl fun h => h, .same rfl rfl, Or.inr (Or.inl rfl),
        fun h => by cases h⟩
    · exact ⟨.same _ _, .same _ _, .same rfl rfl (fun h => by cases h), .same rfl rfl,
        Or.inr (Or.inl rfl), fun h => by cases h⟩
  all_goals (try split at h)
  all_goals (try split at h)
  all_goals (try split at h)
  all_goals first
    | cases h
    | (simp only [Option.map_eq_some_iff, Supervisor.lockHeartbeat_eq_some, Prod.mk.injEq] at h
       obtain ⟨_, ⟨hfree, rfl⟩, rfl, rfl⟩ := h)
  all_goals
    refine ⟨.same _ _, ?_, ?_, ?_, Or.inl rfl, fun h => by cases h⟩
    · first
        | exact .same _ _
        | exact .release _
        | exact .take hfree
    · first
        | exact .same rfl rfl fun h => h
        | exact .same rfl rfl fun h => by cases h
        | exact .expires ‹_› rfl rfl rfl
        | exact .settles rfl (Or.inl rfl) (fun _ => ⟨rfl, rfl, rfl⟩) rfl rfl
        | exact .settles rfl (ResumeTransactionError.lifecycle_cases _)
            (fun h => ⟨ResumeTransactionError.kept_of_lifecycle h, rfl, rfl⟩) rfl rfl
    · first
        | exact .same rfl rfl
        | exact .publishes _ rfl rfl rfl rfl rfl rfl

theorem RollbackPoint.step_moves {gated : Bool} {p : RollbackPoint} {q : LeavePoint}
    (h : p.step gated s outcome = some (q, s')) :
    SupervisedTask.Moves i s s' (.leave (.rollingBack gated p)) (.leave q) := by
  cases gated
  all_goals
    unfold RollbackPoint.step Supervisor.reopenReports at h
    split at h
  all_goals (try split at h)
  all_goals cases h
  all_goals
    refine ⟨?_, ?_, ?_, .same rfl rfl, Or.inl rfl, fun h => by cases h⟩
    · first
        | exact .same _ _
        | exact .release _
    · first
        | exact .same _ _
        | exact .release _
    · first
        | exact .same rfl rfl fun h => h
        | exact .stay rfl (fun h => by cases h) (fun _ => Or.inr ‹_›) fun h => h
        | exact .ends rfl (Or.inl rfl) (fun _ => ⟨rfl, rfl, rfl⟩) rfl rfl

/-- The points the relay's answer leads to hold what the question held. -/
theorem LeavePoint.classify_cases (profile : ProfileBinding)
    (result : Except ClientError LeaveSquadResponse) :
    classify profile result = .confirming ∨ classify profile result = .losing
      ∨ classify profile result = .removingJournal := by
  unfold classify
  split
  · split <;> simp
  · split <;> simp
  · simp

theorem LeavePoint.step_moves {p p' : LeavePoint} (h : p.step i s outcome = some (p', s')) :
    SupervisedTask.Moves i s s' (.leave p) (.leave p') := by
  unfold LeavePoint.step Supervisor.reopenReports at h
  split at h
  case h_35 => exact RollbackPoint.step_moves h
  case h_19 result =>
    obtain ⟨rfl, rfl⟩ := Prod.mk.inj (Option.some.inj h)
    rcases LeavePoint.classify_cases s.profile result with hclass | hclass | hclass
    all_goals
      rw [hclass]
      exact ⟨.same _ _, .same _ _, .same rfl rfl fun h => h, .same rfl rfl, Or.inl rfl,
        fun h => by cases h⟩
  all_goals (try split at h)
  all_goals (try split at h)
  all_goals first
    | cases h
    | (simp only [Option.map_eq_some_iff, Supervisor.lockHeartbeat_eq_some,
        Supervisor.lockOperation_eq_some, Prod.mk.injEq] at h
       obtain ⟨_, ⟨hfree, rfl⟩, rfl, rfl⟩ := h)
  all_goals
    refine ⟨?_, ?_, ?_, .same rfl rfl, ?_, ?_⟩
    · first
        | exact .same _ _
        | exact .release _
        | exact .take hfree
    · first
        | exact .same _ _
        | exact .release _
        | exact .take hfree
    · first
        | exact .same rfl rfl fun h => h
        | exact .begins ‹_› rfl rfl rfl rfl
        | exact .ends rfl (Or.inr (Or.inl rfl)) (fun h => by cases h) rfl rfl
        | exact .ends rfl (Or.inr (Or.inr rfl)) (fun h => by cases h) rfl rfl
    · first
        | exact Or.inl rfl
        | exact Or.inr (Or.inr (Or.inl rfl))
        | exact Or.inr (Or.inr (Or.inr rfl))
    · first
        | exact fun _ => by assumption
        | exact fun h => by cases h

theorem SupervisedTask.step_moves {t t' : SupervisedTask}
    (h : t.step i s outcome = some (t', s')) : Moves i s s' t t' := by
  cases t
  all_goals
    obtain ⟨⟨p', u⟩, hp, heq⟩ := Option.map_eq_some_iff.mp h
    obtain ⟨rfl, rfl⟩ := Prod.mk.inj heq
  case beat => exact BeatPoint.step_moves hp
  case report => exact ReportPoint.step_moves hp
  case send => exact SendPoint.step_moves hp
  case leave => exact LeavePoint.step_moves hp
  case shutdown => exact ShutdownPoint.step_moves hp

/-- An abort takes the gate back and forgets everything but the resume transaction. -/
theorem BeatPoint.aborted_moves (p : BeatPoint) :
    SupervisedTask.Moves 0 s (if p.holdsHeartbeat then s.setHeartbeatGate none else s)
      (.beat p) (.beat p.aborted) := by
  cases p
  all_goals
    refine ⟨.same _ _, ?_, ?_, .same rfl rfl, Or.inl rfl, fun h => by cases h⟩
    · first
        | exact .same _ _
        | exact .release _
    · first
        | exact .same rfl rfl fun h => h
        | exact .same rfl rfl fun h => by cases h

end Moves

/-! ## Steps of the whole -/

/-- A task as it is spawned. -/
def SupervisedTask.fresh : SupervisedTask → Bool
  | .report (.awaitingGate _) | .send .checkingShutdown | .leave .locking => true
  | .shutdown _ .requesting => true
  | _ => false

/-- What a step of the whole is a step of. -/
inductive Supervised.Move (w : Supervised) : SupervisedStep → Supervised → Prop where
  | act {i : Nat} {outcome : Outcome} {t t' : SupervisedTask} {s' : Supervisor}
      (found : w.tasks[i]? = some t) (step : t.step i w.supervisor outcome = some (t', s')) :
      Move w (.act i outcome) ⟨s', w.tasks.set i t'⟩
  | abort {p : BeatPoint} (cancel : w.supervisor.cancel = true)
      (found : w.tasks[0]? = some (.beat p)) :
      Move w .abort
        ⟨if p.holdsHeartbeat then w.supervisor.setHeartbeatGate none else w.supervisor,
          w.tasks.set 0 (.beat p.aborted)⟩
  | spawn {l : SupervisedStep} {t : SupervisedTask} (active : Nat) (fresh : t.fresh = true) :
      Move w l ⟨w.supervisor.setReports { w.supervisor.reports with active := active },
        w.tasks ++ [t]⟩
  | refused : Move w .report w

/-- **The inversion of a step.** -/
theorem Supervised.step_move {w w' : Supervised} {l : SupervisedStep}
    (h : w.step l = some w') : w.Move l w' := by
  cases l with
  | report =>
      simp only [step, Supervisor.register] at h
      split at h
      · rename_i heq
        split at heq
        · cases heq
        · split at heq <;> cases heq
          cases h
          exact .spawn _ rfl
      · cases h
        exact .refused
  | send | leave | shutdown =>
      cases h
      exact .spawn w.supervisor.reports.active rfl
  | abort =>
      simp only [step] at h
      split at h
      · rename_i hcancel hhead
        cases h
        exact .abort hcancel (List.head?_eq_getElem? ▸ hhead)
      · cases h
  | act i outcome =>
      simp only [step, Option.bind_eq_some_iff, Option.map_eq_some_iff] at h
      obtain ⟨t, hfound, ⟨t', s'⟩, hstep, rfl⟩ := h
      exact .act hfound hstep

namespace SupervisedTask

variable {t : SupervisedTask}

theorem fresh_cases (h : t.fresh = true) :
    (∃ cancel, t = .report (.awaitingGate cancel)) ∨ t = .send .checkingShutdown
      ∨ t = .leave .locking ∨ ∃ graceful, t = .shutdown graceful .requesting := by
  unfold fresh at h
  split at h
  · exact Or.inl ⟨_, rfl⟩
  · exact Or.inr (Or.inl rfl)
  · exact Or.inr (Or.inr (Or.inl rfl))
  · exact Or.inr (Or.inr (Or.inr ⟨_, rfl⟩))
  · cases h

theorem holdsOperation_of_fresh (h : t.fresh = true) : t.holdsOperation = false := by
  obtain ⟨_, rfl⟩ | rfl | rfl | ⟨_, rfl⟩ := fresh_cases h <;> rfl

theorem holdsHeartbeat_of_fresh (h : t.fresh = true) : t.holdsHeartbeat = false := by
  obtain ⟨_, rfl⟩ | rfl | rfl | ⟨_, rfl⟩ := fresh_cases h <;> rfl

theorem leaves_of_fresh (h : t.fresh = true) : t.leaves = false := by
  obtain ⟨_, rfl⟩ | rfl | rfl | ⟨_, rfl⟩ := fresh_cases h <;> rfl

theorem recovers_of_fresh (h : t.fresh = true) : t.recovers = false := by
  obtain ⟨_, rfl⟩ | rfl | rfl | ⟨_, rfl⟩ := fresh_cases h <;> rfl

theorem replays_of_fresh (h : t.fresh = true) : t.replays = false := by
  obtain ⟨_, rfl⟩ | rfl | rfl | ⟨_, rfl⟩ := fresh_cases h <;> rfl

end SupervisedTask

/-! ## One keeper for each -/

/-- Both gates have one holder, and the lifecycle one keeper. -/
structure Custody (w : Supervised) : Prop where
  operation : Gated SupervisedTask.holdsOperation w.tasks w.supervisor.operationGate
  heartbeat : Gated SupervisedTask.holdsHeartbeat w.tasks w.supervisor.heartbeatGate
  leaving : ∀ (j : Nat) (u : SupervisedTask), w.tasks[j]? = some u → u.leaves = true →
    w.supervisor.lifecycle = .leaving
  recovering : ∀ (j : Nat) (u : SupervisedTask), w.tasks[j]? = some u → u.recovers = true →
    w.supervisor.lifecycle = .recovering
  one : ∀ (i j : Nat) (t u : SupervisedTask), w.tasks[i]? = some t → t.recovers = true →
    w.tasks[j]? = some u → u.recovers = true → i = j
  replaying : ∀ (j : Nat) (u : SupervisedTask), w.tasks[j]? = some u → u.replays = true →
    w.supervisor.lifecycle = .left

namespace Custody

variable {w : Supervised} {i : Nat} {t t' : SupervisedTask} {s' : Supervisor}

theorem started (profile : ProfileBinding) (credential : Credential) (generation : Nat) :
    Custody (Supervised.started profile credential generation) := by
  have honly : ∀ (j : Nat) (u : SupervisedTask),
      (Supervised.started profile credential generation).tasks[j]? = some u →
        u = .beat .sleeping := by
    intro j u h
    exact List.mem_singleton.mp (List.mem_of_getElem? h)
  refine ⟨fun j => ⟨nofun, ?_⟩, fun j => ⟨nofun, ?_⟩, ?_, ?_, ?_, ?_⟩
  · rintro ⟨u, hu, hholds⟩
    cases honly j u hu
    cases hholds
  · rintro ⟨u, hu, hholds⟩
    cases honly j u hu
    cases hholds
  · intro j u hu h
    cases honly j u hu
    cases h
  · intro j u hu h
    cases honly j u hu
    cases h
  · intro i j t u ht h
    cases honly i t ht
    cases h
  · intro j u hu h
    cases honly j u hu
    cases h

/-- Nobody but the leave that moved the lifecycle leaves. -/
theorem leaves_unique (h : Custody w) {j : Nat} {u : SupervisedTask} (hi : w.tasks[i]? = some t)
    (ht : t.leaves = true) (hj : w.tasks[j]? = some u) (hu : u.leaves = true) : i = j :=
  h.operation.unique hi (SupervisedTask.holdsOperation_of_leaves ht) hj
    (SupervisedTask.holdsOperation_of_leaves hu)

/-- A terminal lifecycle is never left. -/
theorem lifecycle_terminal (h : Custody w) (hi : w.tasks[i]? = some t)
    (hmoves : t.Moves i w.supervisor s' t')
    (hterminal : w.supervisor.lifecycle = .outcomeUnknown
      ∨ w.supervisor.lifecycle = .rotationFailed ∨ w.supervisor.lifecycle = .left) :
    s'.lifecycle = w.supervisor.lifecycle := by
  cases hmoves.lifecycle with
  | stay same => exact same
  | begins before => simp [before] at hterminal
  | expires before => simp [before] at hterminal
  | ends kept => simp [h.leaving i t hi kept] at hterminal
  | settles kept => simp [h.recovering i t hi kept] at hterminal

/-- Every task that moves leaves the custody in order. -/
theorem task (h : Custody w) (hi : w.tasks[i]? = some t)
    (hmoves : t.Moves i w.supervisor s' t') : Custody ⟨s', w.tasks.set i t'⟩ := by
  have hleaver : ∀ (j : Nat) (u : SupervisedTask), t.leaves = true → j ≠ i →
      w.tasks[j]? = some u → u.leaves = false := by
    intro j u ht hj hu
    by_contra hne
    exact hj (h.leaves_unique hi ht hu (by simpa using hne)).symm
  -- who keeps the lifecycle after the step, and where it is
  have hleft : ∀ (j : Nat) (u : SupervisedTask), j ≠ i → w.tasks[j]? = some u →
      u.leaves = true → s'.lifecycle = .leaving := by
    intro j u hj hu huleaves
    have hbefore := h.leaving j u hu huleaves
    cases hmoves.lifecycle with
    | stay same => rw [same, hbefore]
    | begins before => simp [before] at hbefore
    | expires before => simp [before] at hbefore
    | ends kept => simp [hleaver j u kept hj hu] at huleaves
    | settles kept => simp [h.recovering i t hi kept] at hbefore
  have hrecovered : ∀ (j : Nat) (u : SupervisedTask), j ≠ i → w.tasks[j]? = some u →
      u.recovers = true → s'.lifecycle = .recovering ∧ t'.recovers = false := by
    intro j u hj hu hurecovers
    have hbefore := h.recovering j u hu hurecovers
    have ht : t.recovers = false := by
      by_contra hne
      exact hj (h.one i j t u hi (by simpa using hne) hu hurecovers).symm
    cases hmoves.lifecycle with
    | stay same _ _ recovers =>
        exact ⟨same.trans hbefore, by_contra fun hne => by simp [ht] at recovers; simp_all⟩
    | begins before => simp [before] at hbefore
    | expires before => simp [before] at hbefore
    | ends kept => simp [h.leaving i t hi kept] at hbefore
    | settles kept => simp [ht] at kept
  refine ⟨h.operation.move hi hmoves.operation, h.heartbeat.move hi hmoves.heartbeat,
    ?_, ?_, ?_, ?_⟩
  · intro j u hu huleaves
    rcases getElem?_set_cases hu with ⟨-, rfl⟩ | ⟨hj, hu⟩
    · cases hmoves.lifecycle with
      | stay same leaves => exact same.trans (h.leaving i t hi (leaves huleaves))
      | begins _ after => exact after
      | ends _ _ _ leaves => simp [leaves] at huleaves
      | expires _ _ leaves => simp [leaves] at huleaves
      | settles _ _ _ leaves => simp [leaves] at huleaves
    · exact hleft j u hj hu huleaves
  · intro j u hu hurecovers
    rcases getElem?_set_cases hu with ⟨-, rfl⟩ | ⟨hj, hu⟩
    · cases hmoves.lifecycle with
      | stay same _ _ recovers => exact same.trans (h.recovering i t hi (recovers hurecovers))
      | begins _ _ _ _ recovers => simp [recovers] at hurecovers
      | ends _ _ _ _ recovers => simp [recovers] at hurecovers
      | expires _ after => exact after
      | settles _ _ _ _ recovers => simp [recovers] at hurecovers
    · exact (hrecovered j u hj hu hurecovers).1
  · intro j k u v hu hurecovers hv hvrecovers
    rcases getElem?_set_cases hu with ⟨rfl, rfl⟩ | ⟨hj, hu'⟩
    · rcases getElem?_set_cases hv with ⟨rfl, -⟩ | ⟨hk, hv'⟩
      · rfl
      · simp [(hrecovered k v hk hv' hvrecovers).2] at hurecovers
    · rcases getElem?_set_cases hv with ⟨rfl, rfl⟩ | ⟨hk, hv'⟩
      · simp [(hrecovered j u hj hu' hurecovers).2] at hvrecovers
      · exact h.one j k u v hu' hurecovers hv' hvrecovers
  · intro j u hu hureplays
    rcases getElem?_set_cases hu with ⟨-, rfl⟩ | ⟨hj, hu⟩
    · exact hmoves.replays hureplays
    · have hbefore := h.replaying j u hu hureplays
      exact (h.lifecycle_terminal hi hmoves (Or.inr (Or.inr hbefore))).trans hbefore

/-- A new task has nothing in custody. -/
theorem spawn (h : Custody w) (hfresh : t.fresh = true) (active : Nat) :
    Custody ⟨w.supervisor.setReports { w.supervisor.reports with active := active },
      w.tasks ++ [t]⟩ := by
  refine ⟨h.operation.append (SupervisedTask.holdsOperation_of_fresh hfresh),
    h.heartbeat.append (SupervisedTask.holdsHeartbeat_of_fresh hfresh), ?_, ?_, ?_, ?_⟩
  · intro j u hu huleaves
    rcases getElem?_append_cases hu with hu | rfl
    · exact h.leaving j u hu huleaves
    · simp [SupervisedTask.leaves_of_fresh hfresh] at huleaves
  · intro j u hu hurecovers
    rcases getElem?_append_cases hu with hu | rfl
    · exact h.recovering j u hu hurecovers
    · simp [SupervisedTask.recovers_of_fresh hfresh] at hurecovers
  · intro j k u v hu hurecovers hv hvrecovers
    rcases getElem?_append_cases hu with hu | rfl
    · rcases getElem?_append_cases hv with hv | rfl
      · exact h.one j k u v hu hurecovers hv hvrecovers
      · simp [SupervisedTask.recovers_of_fresh hfresh] at hvrecovers
    · simp [SupervisedTask.recovers_of_fresh hfresh] at hurecovers
  · intro j u hu hureplays
    rcases getElem?_append_cases hu with hu | rfl
    · exact h.replaying j u hu hureplays
    · simp [SupervisedTask.replays_of_fresh hfresh] at hureplays

theorem step {w' : Supervised} {l : SupervisedStep} (h : Custody w) (hstep : w.step l = some w') :
    Custody w' := by
  cases Supervised.step_move hstep with
  | act found step => exact h.task found (SupervisedTask.step_moves step)
  | abort _ found => exact h.task found (BeatPoint.aborted_moves _)
  | spawn active fresh => exact h.spawn fresh active
  | refused => exact h

/-- **Custody is in order in every state of every run.** -/
theorem reach {ok : Supervised → SupervisedStep → Prop} (h : supervisedLts.Reach ok w) :
    Custody w := by
  refine h.invariant (P := Custody) ?_ fun s l t hs _ hstep => hs.step hstep
  rintro _ ⟨profile, credential, generation, -, rfl⟩
  exact started profile credential generation

end Custody

end Psst
