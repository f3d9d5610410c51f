import Psst.Session.Custody

/-!
# Admission

A leave closes the reports, the reads and the sends one after the other, and every way out of it
has to open again what it closed. Said the other way round: as long as the session is neither
shut down nor finished, whatever is closed was closed by a leave that is still under way. Each
thing that can be closed is open as a function of the supervisor, and closed by some of the
points of a leave; the invariant and its step lemma are the same for all of them.
-/

namespace Psst

/-! ## What can be closed -/

inductive Admitted where
  | reports
  | reads
  /-- The sends' admission flag. -/
  | admission
  /-- The sends' ledger. -/
  | ledger

/-- The part of the supervisor that decides about admission. -/
structure AdmissionState where
  tokens : Nat → Bool
  nextToken : Nat
  readCancel : Nat
  reportCancel : Nat
  reportsClosed : Bool
  accepting : Bool
  admissionOpen : Bool
  sendsClosed : Bool
  shutdownRequested : Bool

def Supervisor.admissionState (s : Supervisor) : AdmissionState where
  tokens := s.tokens
  nextToken := s.nextToken
  readCancel := s.readCancel
  reportCancel := s.reports.cancel
  reportsClosed := s.reports.permanentlyClosed
  accepting := s.sends.accepting
  admissionOpen := s.sends.admissionOpen
  sendsClosed := s.sends.permanentlyClosed
  shutdownRequested := s.shutdownRequested

def Admitted.isOpen (a : AdmissionState) : Admitted → Bool
  | .reports => !a.tokens a.reportCancel
  | .reads => !a.tokens a.readCancel
  | .admission => a.admissionOpen
  | .ledger => a.accepting

/-- The rollback has not opened it yet. -/
def Admitted.closedByRollback : Admitted → RollbackPoint → Bool
  | .reports, .checkingShutdown | .reports, .lifecycle => false
  | .reports, _ => true
  | .reads, .reads => true
  | .reads, _ => false
  | .ledger, .reads | .ledger, .sends | .ledger, .sendsLocked => true
  | .ledger, _ => false
  | .admission, .reads | .admission, .sends | .admission, .sendsLocked => true
  | .admission, .admission => true
  | .admission, _ => false

/-- The leave may have closed it and will open it again, unless it ends the session. -/
def Admitted.closedBy : Admitted → LeavePoint → Bool
  | _, .locking | _, .cancellingReports | _, .replayingCleanup | _, .reaping | _, .done => false
  | a, .rollingBack _ point => a.closedByRollback point
  | .reports, _ => true
  | _, .drainingReports | _, .undrained | _, .undrainedReady | _, .reopeningReports => false
  | _, .cloningReads | _, .beginning _ => false
  | _, _ => true

/-- The session is over. -/
def LifecycleState.terminal : LifecycleState → Bool
  | .outcomeUnknown | .rotationFailed | .left => true
  | _ => false

/-- Nothing needs to be open any more. -/
def Supervisor.exempt (s : Supervisor) : Bool :=
  s.shutdownRequested || s.lifecycle.terminal

/-! ## Tokens -/

/-- The two tokens in use are different, and the next is new. -/
structure AdmissionState.Fresh (a : AdmissionState) : Prop where
  reads : a.readCancel < a.nextToken
  reports : a.reportCancel < a.nextToken
  ne : a.readCancel ≠ a.reportCancel

/-- What is closed for good was closed by a shutdown. -/
structure AdmissionState.Lawful (a : AdmissionState) : Prop where
  fresh : a.Fresh
  sends : a.sendsClosed = true → a.shutdownRequested = true
  reports : a.reportsClosed = true → a.shutdownRequested = true

/-! ## What a step opens and closes -/

def SupervisedTask.closes (a : Admitted) : SupervisedTask → Bool
  | .leave point => a.closedBy point
  | _ => false

/-- What a step does about admission: what was open, or closed by the task itself, is open or
closed by the task, or nothing needs to be open. -/
structure SupervisedTask.Admits (s s' : Supervisor) (t t' : SupervisedTask) : Prop where
  lawful : s'.admissionState.Lawful
  requested : s.shutdownRequested = true → s'.shutdownRequested = true
  opens : ∀ a : Admitted, a.isOpen s.admissionState = true ∨ t.closes a = true →
    s'.exempt = true ∨ a.isOpen s'.admissionState = true ∨ t'.closes a = true

section Step

variable {i : Nat} {s s' : Supervisor} {outcome : Outcome}

/-- A task that does not touch what decides about admission. -/
theorem SupervisedTask.Admits.untouched {t t' : SupervisedTask} (hlawful : s.admissionState.Lawful)
    (hsame : s'.admissionState = s.admissionState) (hcloses : ∀ a, t.closes a = false) :
    Admits s s' t t' := by
  refine ⟨hsame ▸ hlawful, ?_, ?_⟩
  · intro h
    exact (congrArg AdmissionState.shutdownRequested hsame).trans h
  · rintro a (h | h)
    · exact Or.inr (Or.inl (hsame ▸ h))
    · simp [hcloses a] at h

theorem SendPoint.step_admissionState {p p' : SendPoint} (h : p.step i s outcome = some (p', s')) :
    s'.admissionState = s.admissionState := by
  unfold SendPoint.step at h
  split at h
  all_goals (try split at h)
  all_goals first
    | cases h
    | (simp only [Option.map_eq_some_iff, Supervisor.lockHeartbeat_eq_some, Prod.mk.injEq] at h
       obtain ⟨_, ⟨hfree, rfl⟩, rfl, rfl⟩ := h)
  all_goals rfl

theorem ResumePoint.step_admissionState {p : ResumePoint} {r : ResumeStep}
    (h : p.step s outcome = some (r, s')) : s'.admissionState = s.admissionState := by
  obtain ⟨persisted, rfl⟩ := ResumePoint.step_persisted h
  rfl

theorem ReportPoint.step_admissionState {p p' : ReportPoint}
    (h : p.step i s outcome = some (p', s')) : s'.admissionState = s.admissionState := by
  unfold ReportPoint.step at h
  split at h
  case h_10 =>
    obtain ⟨⟨point' | (e | session), u⟩, hresume, h⟩ := Option.map_eq_some_iff.mp h
    all_goals
      have hsame := ResumePoint.step_admissionState hresume
      cases h
      exact hsame
  all_goals (try split at h)
  all_goals (try split at h)
  all_goals (try split at h)
  all_goals first
    | cases h
    | (simp only [Option.map_eq_some_iff, Supervisor.lockHeartbeat_eq_some, Prod.mk.injEq] at h
       obtain ⟨_, ⟨hfree, rfl⟩, rfl, rfl⟩ := h)
  all_goals rfl

theorem BeatPoint.step_admissionState {p p' : BeatPoint}
    (h : p.step i s outcome = some (p', s')) : s'.admissionState = s.admissionState := by
  unfold BeatPoint.step at h
  split at h
  case h_13 =>
    obtain ⟨⟨point' | (e | session), u⟩, hresume, h⟩ := Option.map_eq_some_iff.mp h
    all_goals
      have hsame := ResumePoint.step_admissionState hresume
      cases h
      exact hsame
  case h_24 =>
    obtain ⟨⟨point' | result, u⟩, hresume, h⟩ := Option.map_eq_some_iff.mp h
    all_goals
      have hsame := ResumePoint.step_admissionState hresume
      cases h
      exact hsame
  all_goals (try split at h)
  all_goals (try split at h)
  all_goals (try split at h)
  all_goals first
    | cases h
    | (simp only [Option.map_eq_some_iff, Supervisor.lockHeartbeat_eq_some, Prod.mk.injEq] at h
       obtain ⟨_, ⟨hfree, rfl⟩, rfl, rfl⟩ := h)
  all_goals rfl

/-- A shutdown only closes, after it said so. -/
theorem ShutdownPoint.step_requested {graceful : Bool} {p p' : ShutdownPoint}
    (h : p.step i graceful s outcome = some (p', s'))
    (hrequested : p ≠ .requesting → s.shutdownRequested = true) :
    s'.shutdownRequested = true := by
  unfold ShutdownPoint.step at h
  split at h
  case h_1 =>
    cases h
    rfl
  all_goals (try split at h)
  all_goals first
    | cases h
    | (simp only [Option.map_eq_some_iff, Supervisor.lockOperation_eq_some, Prod.mk.injEq] at h
       obtain ⟨_, ⟨hfree, rfl⟩, rfl, rfl⟩ := h)
  all_goals exact hrequested fun h => by cases h

theorem ShutdownPoint.step_fresh {graceful : Bool} {p p' : ShutdownPoint}
    (h : p.step i graceful s outcome = some (p', s')) (hfresh : s.admissionState.Fresh) :
    s'.admissionState.Fresh := by
  unfold ShutdownPoint.step at h
  split at h
  all_goals (try split at h)
  all_goals first
    | cases h
    | (simp only [Option.map_eq_some_iff, Supervisor.lockOperation_eq_some, Prod.mk.injEq] at h
       obtain ⟨_, ⟨hfree, rfl⟩, rfl, rfl⟩ := h)
  all_goals exact ⟨hfresh.reads, hfresh.reports, hfresh.ne⟩

theorem ShutdownPoint.step_admits {graceful : Bool} {p p' : ShutdownPoint}
    (h : p.step i graceful s outcome = some (p', s')) (hfresh : s.admissionState.Fresh)
    (hrequested : p ≠ .requesting → s.shutdownRequested = true) :
    SupervisedTask.Admits s s' (.shutdown graceful p) (.shutdown graceful p') := by
  have hdone := ShutdownPoint.step_requested h hrequested
  refine ⟨⟨ShutdownPoint.step_fresh h hfresh, fun _ => hdone, fun _ => hdone⟩, fun _ => hdone, ?_⟩
  intro a _
  left
  simp [Supervisor.exempt, hdone]

/-- The lifecycle is `Ready`, or will never be again: what a leave may find when it looks. -/
def LeavePoint.checks : LeavePoint → Bool
  | .undrainedReady | .beginning _ => true
  | _ => false

theorem AdmissionState.Lawful.cancelToken (h : s.admissionState.Lawful) (token : Nat) :
    (s.cancelToken token).admissionState.Lawful :=
  ⟨⟨h.fresh.reads, h.fresh.reports, h.fresh.ne⟩, h.sends, h.reports⟩

theorem AdmissionState.Lawful.setSends (h : s.admissionState.Lawful) {sends : SendAdmission}
    (hclosed : sends.permanentlyClosed = s.sends.permanentlyClosed) :
    (s.setSends sends).admissionState.Lawful :=
  ⟨⟨h.fresh.reads, h.fresh.reports, h.fresh.ne⟩, fun hsends => h.sends (hclosed.symm.trans hsends),
    h.reports⟩

theorem AdmissionState.Lawful.renewReads (h : s.admissionState.Lawful) :
    s.renewReads.admissionState.Lawful :=
  ⟨⟨Nat.lt_succ_self _, Nat.lt_succ_of_lt h.fresh.reports, h.fresh.reports.ne'⟩,
    h.sends, h.reports⟩

theorem AdmissionState.Lawful.reopenReports (h : s.admissionState.Lawful) :
    s.reopenReports.admissionState.Lawful := by
  unfold Supervisor.reopenReports
  split
  · exact h
  · exact ⟨⟨Nat.lt_succ_of_lt h.fresh.reads, Nat.lt_succ_self _, h.fresh.reads.ne⟩,
      h.sends, h.reports⟩

/-- Cancelling the reports' token closes the reports only. -/
theorem Admitted.isOpen_cancelReports (hfresh : s.admissionState.Fresh) {a : Admitted}
    (ha : a ≠ .reports) :
    a.isOpen (s.cancelToken s.reports.cancel).admissionState = a.isOpen s.admissionState := by
  have hne : s.readCancel ≠ s.reports.cancel := hfresh.ne
  cases a with
  | reports => exact absurd rfl ha
  | reads => simp [isOpen, Supervisor.admissionState, Supervisor.cancelToken, hne]
  | admission | ledger => rfl

/-- A new token for the reads opens the reads and changes nothing else. -/
theorem Admitted.isOpen_renewReads (hfresh : s.admissionState.Fresh) {a : Admitted}
    (h : a.isOpen s.admissionState = true ∨ a = .reads) :
    a.isOpen s.renewReads.admissionState = true := by
  have hlt : s.reports.cancel < s.nextToken := hfresh.reports
  cases a with
  | reports =>
      simpa [isOpen, Supervisor.admissionState, Supervisor.renewReads, hlt.ne] using h
  | reads => simp [isOpen, Supervisor.admissionState, Supervisor.renewReads]
  | admission | ledger =>
      simpa [isOpen, Supervisor.admissionState, Supervisor.renewReads] using h

/-- A new token for the reports opens the reports and changes nothing else. -/
theorem Admitted.isOpen_reopenReports (hfresh : s.admissionState.Fresh)
    (hclosed : s.reports.permanentlyClosed = false) {a : Admitted}
    (h : a.isOpen s.admissionState = true ∨ a = .reports) :
    a.isOpen s.reopenReports.admissionState = true := by
  have hlt : s.readCancel < s.nextToken := hfresh.reads
  cases a with
  | reports =>
      simp [isOpen, Supervisor.admissionState, Supervisor.reopenReports, hclosed]
  | reads =>
      simpa [isOpen, Supervisor.admissionState, Supervisor.reopenReports, hclosed, hlt.ne] using h
  | admission | ledger =>
      simpa [isOpen, Supervisor.admissionState, Supervisor.reopenReports, hclosed] using h

/-- The end of a leave changes the gates only. -/
@[simp] theorem Supervisor.admissionState_endLeave (gated : Bool) :
    (s.endLeave gated).admissionState = s.admissionState := by
  cases gated <;> rfl

@[simp] theorem Supervisor.exempt_endLeave (gated : Bool) : (s.endLeave gated).exempt = s.exempt := by
  cases gated <;> rfl

/-- A step into a state where nothing needs to be open. -/
theorem SupervisedTask.Admits.finished {t t' : SupervisedTask}
    (hlawful : s'.admissionState.Lawful)
    (hrequested : s.shutdownRequested = true → s'.shutdownRequested = true)
    (hexempt : s'.exempt = true) : Admits s s' t t' :=
  ⟨hlawful, hrequested, fun _ _ => Or.inl hexempt⟩

/-- A step that opens and closes nothing. -/
theorem SupervisedTask.Admits.passes {t t' : SupervisedTask} (hlawful : s.admissionState.Lawful)
    (hsame : s'.admissionState = s.admissionState)
    (hcloses : ∀ a, t.closes a = true → t'.closes a = true) : Admits s s' t t' := by
  refine ⟨hsame ▸ hlawful, ?_, ?_⟩
  · intro h
    exact (congrArg AdmissionState.shutdownRequested hsame).trans h
  · rintro a (h | h)
    · exact Or.inr (Or.inl (hsame ▸ h))
    · exact Or.inr (Or.inr (hcloses a h))

theorem Supervisor.exempt_of_requested (h : s.shutdownRequested = true) : s.exempt = true := by
  simp [exempt, h]

theorem Supervisor.exempt_of_terminal (h : s.lifecycle.terminal = true) : s.exempt = true := by
  simp [exempt, h]

theorem Supervisor.shutdownRequested_reopenReports (s : Supervisor) :
    s.reopenReports.shutdownRequested = s.shutdownRequested := by
  unfold reopenReports
  split <;> rfl

/-- The reports are open again, unless they are closed for good. -/
theorem Supervisor.reopenReports_opens (hlawful : s.admissionState.Lawful) {a : Admitted}
    (h : a.isOpen s.admissionState = true ∨ a = .reports) :
    s.reopenReports.exempt = true ∨ a.isOpen s.reopenReports.admissionState = true := by
  cases hclosed : s.reports.permanentlyClosed with
  | true =>
      have hrequested : s.shutdownRequested = true := hlawful.reports hclosed
      exact Or.inl (exempt_of_requested (s.shutdownRequested_reopenReports.trans hrequested))
  | false => exact Or.inr (Admitted.isOpen_reopenReports hlawful.fresh hclosed h)

theorem RollbackPoint.step_admits {gated : Bool} {p : RollbackPoint} {q : LeavePoint}
    (h : p.step gated s outcome = some (q, s')) (hlawful : s.admissionState.Lawful) :
    SupervisedTask.Admits s s' (.leave (.rollingBack gated p)) (.leave q) := by
  unfold RollbackPoint.step at h
  split at h
  case h_1 =>
    split at h
    · rename_i hrequested
      cases h
      refine .finished (by simpa using hlawful) ?_ ?_
      · cases gated <;> exact fun h => h
      · simpa using Supervisor.exempt_of_requested hrequested
    · cases h
      refine ⟨hlawful.renewReads, fun h => h, fun a _ => ?_⟩
      cases a with
      | reads => exact Or.inr (Or.inl (Admitted.isOpen_renewReads hlawful.fresh (Or.inr rfl)))
      | reports | admission | ledger => exact Or.inr (Or.inr rfl)
  case h_2 =>
    split at h
    · rename_i hclosed
      cases h
      exact .finished hlawful (fun h => h) (Supervisor.exempt_of_requested (hlawful.sends hclosed))
    · cases h
      exact .passes hlawful rfl fun a => by cases a <;> exact fun h => h
  case h_3 =>
    split at h
    · rename_i hclosed
      cases h
      exact .finished hlawful (fun h => h) (Supervisor.exempt_of_requested (hlawful.sends hclosed))
    · cases h
      refine ⟨hlawful.setSends rfl, fun h => h, fun a hopen => ?_⟩
      cases a with
      | ledger => exact Or.inr (Or.inl rfl)
      | reports | admission => exact Or.inr (Or.inr rfl)
      | reads => exact Or.inr hopen
  case h_4 =>
    cases h
    refine ⟨hlawful.setSends rfl, fun h => h, fun a hopen => ?_⟩
    cases a with
    | admission => exact Or.inr (Or.inl rfl)
    | reports => exact Or.inr (Or.inr rfl)
    | reads | ledger => exact Or.inr hopen
  case h_5 =>
    split at h
    · rename_i hclosed
      cases h
      exact .finished (hlawful.setSends rfl) (fun h => h)
        (Supervisor.exempt_of_requested (hlawful.sends hclosed))
    · cases h
      exact .passes hlawful rfl fun a => by cases a <;> exact fun h => h
  case h_6 =>
    cases h
    refine ⟨hlawful.reopenReports, s.shutdownRequested_reopenReports.trans, fun a hopen => ?_⟩
    have hreopened : s.reopenReports.exempt = true
        ∨ a.isOpen s.reopenReports.admissionState = true := by
      apply Supervisor.reopenReports_opens hlawful
      cases a with
      | reports => exact Or.inr rfl
      | reads | admission | ledger => exact Or.inl (hopen.resolve_right nofun)
    exact hreopened.imp_right Or.inl
  case h_7 =>
    split at h
    · rename_i hrequested
      cases h
      refine .finished (by simpa using hlawful) ?_ ?_
      · cases gated <;> exact fun h => h
      · simpa using Supervisor.exempt_of_requested hrequested
    · cases h
      exact .passes hlawful rfl fun a => by cases a <;> exact fun h => h
  case h_8 =>
    cases h
    refine .passes hlawful ?_ fun a => by cases a <;> exact fun h => h
    cases gated <;> rfl
  case h_9 => cases h

/-- A step of a leave that looks at the lifecycle only while no recovery is on its way back to
`Ready`. -/
theorem LeavePoint.step_admits {p p' : LeavePoint} (h : p.step i s outcome = some (p', s'))
    (hlawful : s.admissionState.Lawful)
    (hchecks : p.checks = true → s.lifecycle = .ready ∨ s.exempt = true) :
    SupervisedTask.Admits s s' (.leave p) (.leave p') := by
  unfold LeavePoint.step at h
  split at h
  case h_35 => exact RollbackPoint.step_admits h hlawful
  case h_2 =>
    cases h
    refine ⟨hlawful.cancelToken _, fun h => h, fun a hopen => ?_⟩
    by_cases ha : a = .reports
    · subst ha
      exact Or.inr (Or.inr rfl)
    · rw [Admitted.isOpen_cancelReports hlawful.fresh ha]
      exact Or.inr (Or.inl (hopen.resolve_right (by cases a <;> nofun)))
  case h_5 =>
    split at h
    · rename_i hrequested
      cases h
      exact .finished hlawful (fun h => h) (Supervisor.exempt_of_requested hrequested)
    · cases h
      exact .passes hlawful rfl fun a => by cases a <;> exact fun h => h
  case h_6 =>
    split at h
    · cases h
      exact .passes hlawful rfl fun a => by cases a <;> exact fun h => h
    · rename_i hready
      cases h
      exact .finished hlawful (fun h => h) ((hchecks rfl).resolve_left hready)
  case h_7 =>
    cases h
    refine ⟨hlawful.reopenReports, s.shutdownRequested_reopenReports.trans, fun a hopen => ?_⟩
    have hreopened : s.reopenReports.exempt = true
        ∨ a.isOpen s.reopenReports.admissionState = true := by
      apply Supervisor.reopenReports_opens hlawful
      cases a with
      | reports => exact Or.inr rfl
      | reads | admission | ledger => exact Or.inl (hopen.resolve_right nofun)
    exact hreopened.imp_right Or.inl
  case h_9 cancel =>
    split at h
    · cases h
      refine ⟨hlawful.cancelToken cancel, fun h => h, fun a hopen => ?_⟩
      cases a <;> exact Or.inr (Or.inr rfl)
    · rename_i hleft
      cases h
      exact .finished hlawful (fun h => h) (Supervisor.exempt_of_terminal (hleft ▸ rfl))
    · rename_i hready _
      cases h
      exact .finished hlawful (fun h => h) ((hchecks rfl).resolve_left hready)
  case h_11 | h_12 =>
    cases h
    refine ⟨hlawful.setSends rfl, fun h => h, fun a _ => Or.inr (Or.inr ?_)⟩
    all_goals try split
    all_goals cases a <;> rfl
  case h_19 result =>
    obtain ⟨rfl, rfl⟩ := Prod.mk.inj (Option.some.inj h)
    rcases LeavePoint.classify_cases s.profile result with hclass | hclass | hclass
    all_goals
      rw [hclass]
      exact .passes hlawful rfl fun a => by cases a <;> exact fun h => h
  case h_30 | h_34 =>
    cases h
    exact .finished hlawful (fun h => h) (Supervisor.exempt_of_terminal rfl)
  all_goals (try split at h)
  all_goals (try split at h)
  all_goals first
    | cases h
    | (simp only [Option.map_eq_some_iff, Supervisor.lockHeartbeat_eq_some,
        Supervisor.lockOperation_eq_some, Prod.mk.injEq] at h
       obtain ⟨_, ⟨hfree, rfl⟩, rfl, rfl⟩ := h)
  all_goals exact .passes hlawful rfl fun a => by cases a <;> exact fun h => h

theorem SupervisedTask.step_admits {t t' : SupervisedTask}
    (h : t.step i s outcome = some (t', s')) (hlawful : s.admissionState.Lawful)
    (hrequested : ∀ graceful p, t = .shutdown graceful p → p ≠ .requesting →
      s.shutdownRequested = true)
    (hchecks : ∀ p, t = .leave p → p.checks = true → s.lifecycle = .ready ∨ s.exempt = true) :
    Admits s s' t t' := by
  cases t
  all_goals
    obtain ⟨⟨p', u⟩, hp, heq⟩ := Option.map_eq_some_iff.mp h
    obtain ⟨rfl, rfl⟩ := Prod.mk.inj heq
  case beat => exact .untouched hlawful (BeatPoint.step_admissionState hp) fun _ => rfl
  case report => exact .untouched hlawful (ReportPoint.step_admissionState hp) fun _ => rfl
  case send => exact .untouched hlawful (SendPoint.step_admissionState hp) fun _ => rfl
  case leave => exact LeavePoint.step_admits hp hlawful (hchecks _ rfl)
  case shutdown => exact ShutdownPoint.step_admits hp hlawful.fresh (hrequested _ _ rfl)

theorem SupervisedTask.step_requested {t t' : SupervisedTask}
    (h : t.step i s outcome = some (t', s'))
    (hrequested : ∀ graceful p, t = .shutdown graceful p → p ≠ .requesting →
      s.shutdownRequested = true) {graceful : Bool} {p' : ShutdownPoint}
    (ht' : t' = .shutdown graceful p') : s'.shutdownRequested = true := by
  cases t
  all_goals
    obtain ⟨⟨q', u⟩, hq, heq⟩ := Option.map_eq_some_iff.mp h
    obtain ⟨rfl, rfl⟩ := Prod.mk.inj heq
  case shutdown => exact ShutdownPoint.step_requested hq (hrequested _ _ rfl)
  all_goals cases ht'

end Step

/-! ## Whatever is closed has somebody to open it -/

/-- As long as the session goes on, what is closed is closed by a leave under way. -/
structure Admission (w : Supervised) : Prop where
  custody : Custody w
  lawful : w.supervisor.admissionState.Lawful
  requested : ∀ (j : Nat) (graceful : Bool) (p : ShutdownPoint),
    w.tasks[j]? = some (.shutdown graceful p) → p ≠ .requesting →
      w.supervisor.shutdownRequested = true
  started : w.supervisor.lifecycle ≠ .starting
  leaver : w.supervisor.lifecycle = .leaving → w.supervisor.shutdownRequested = true
    ∨ ∃ (j : Nat) (u : SupervisedTask), w.tasks[j]? = some u ∧ u.leaves = true
  closer : ∀ a : Admitted, w.supervisor.exempt = true
    ∨ a.isOpen w.supervisor.admissionState = true
    ∨ ∃ (j : Nat) (u : SupervisedTask), w.tasks[j]? = some u ∧ u.closes a = true

/-- The step is a leave's look at the lifecycle, and a recovery is in progress. -/
def Supervised.checksRecovering (w : Supervised) : SupervisedStep → Bool
  | .act i _ => decide (w.supervisor.lifecycle = .recovering)
    && (w.tasks[i]?).any fun
      | .leave p => p.checks
      | _ => false
  | _ => false

/-- Leaves look at the lifecycle only while no recovery is in progress. -/
def Settled (w : Supervised) (l : SupervisedStep) : Prop := w.checksRecovering l = false

instance (w : Supervised) (l : SupervisedStep) : Decidable (Settled w l) :=
  inferInstanceAs (Decidable (_ = _))

theorem LeavePoint.holdsOperation_of_checks {p : LeavePoint} (h : p.checks = true) :
    p.holdsOperation = true ∧ p.leaves = false := by
  cases p <;> first | exact ⟨rfl, rfl⟩ | cases h

theorem Custody.exempt {w : Supervised} {i : Nat} {t t' : SupervisedTask} {s' : Supervisor}
    (h : Custody w) (hi : w.tasks[i]? = some t) (hmoves : t.Moves i w.supervisor s' t')
    (hrequested : w.supervisor.shutdownRequested = true → s'.shutdownRequested = true)
    (hexempt : w.supervisor.exempt = true) : s'.exempt = true := by
  rcases (Bool.or_eq_true _ _).mp hexempt with hdown | hover
  · exact Supervisor.exempt_of_requested (hrequested hdown)
  · have hterminal : w.supervisor.lifecycle = .outcomeUnknown
        ∨ w.supervisor.lifecycle = .rotationFailed ∨ w.supervisor.lifecycle = .left := by
      unfold LifecycleState.terminal at hover
      split at hover <;> simp_all
    apply Supervisor.exempt_of_terminal
    rw [h.lifecycle_terminal hi hmoves hterminal]
    exact hover

namespace Admission

variable {w : Supervised} {i : Nat} {t t' : SupervisedTask} {s' : Supervisor}

/-- What a leave finds when it looks at the lifecycle. -/
theorem checks (h : Admission w) {p : LeavePoint} (hi : w.tasks[i]? = some (.leave p))
    (hchecks : p.checks = true) (hsettled : w.supervisor.lifecycle ≠ .recovering) :
    w.supervisor.lifecycle = .ready ∨ w.supervisor.exempt = true := by
  obtain ⟨hholds, hleaves⟩ := LeavePoint.holdsOperation_of_checks hchecks
  cases hlifecycle : w.supervisor.lifecycle with
  | starting => exact absurd hlifecycle h.started
  | ready => exact Or.inl rfl
  | recovering => exact absurd hlifecycle hsettled
  | leaving =>
      -- another leave would hold the operation gate
      rcases h.leaver hlifecycle with hdown | ⟨j, u, hu, huleaves⟩
      · exact Or.inr (Supervisor.exempt_of_requested hdown)
      · have hsame := h.custody.operation.unique hi hholds hu
          (SupervisedTask.holdsOperation_of_leaves huleaves)
        subst hsame
        cases hi.symm.trans hu
        simp [SupervisedTask.leaves, hleaves] at huleaves
  | outcomeUnknown | rotationFailed | left =>
      exact Or.inr (Supervisor.exempt_of_terminal (hlifecycle ▸ rfl))

theorem task (h : Admission w) (hi : w.tasks[i]? = some t)
    (hmoves : t.Moves i w.supervisor s' t') (hadmits : t.Admits w.supervisor s' t')
    (hrequested : ∀ graceful p, t' = .shutdown graceful p → s'.shutdownRequested = true) :
    Admission ⟨s', w.tasks.set i t'⟩ := by
  obtain ⟨hlt, -⟩ := List.getElem?_eq_some_iff.mp hi
  have hself : (w.tasks.set i t')[i]? = some t' := List.getElem?_set_self hlt
  have hother : ∀ {j : Nat} {u : SupervisedTask}, w.tasks[j]? = some u → j ≠ i →
      (w.tasks.set i t')[j]? = some u := by
    intro j u hu hj
    rw [List.getElem?_set_ne (Ne.symm hj)]
    exact hu
  refine ⟨h.custody.task hi hmoves, hadmits.lawful, ?_, ?_, ?_, ?_⟩
  · intro j graceful p hj hp
    rcases getElem?_set_cases hj with ⟨-, rfl⟩ | ⟨-, hj⟩
    · exact hrequested graceful p rfl
    · exact hadmits.requested (h.requested j graceful p hj hp)
  · cases hmoves.lifecycle with
    | stay same => exact same ▸ h.started
    | begins _ after => simp [after]
    | expires _ after => simp [after]
    | ends _ after => rcases after with after | after | after <;> simp [after]
    | settles _ after => rcases after with after | after | after <;> simp [after]
  · intro hleaving
    cases hmoves.lifecycle with
    | stay same _ kept =>
        rcases h.leaver (same ▸ hleaving) with hdown | ⟨j, u, hu, huleaves⟩
        · exact Or.inl (hadmits.requested hdown)
        · by_cases hj : j = i
          · subst hj
            cases hi.symm.trans hu
            exact (kept huleaves).symm.imp hadmits.requested fun hl => ⟨j, t', hself, hl⟩
          · exact Or.inr ⟨j, u, hother hu hj, huleaves⟩
    | begins _ _ _ leaves => exact Or.inr ⟨i, t', hself, leaves⟩
    | expires _ after => simp [after] at hleaving
    | ends _ after => rcases after with after | after | after <;> simp [after] at hleaving
    | settles _ after => rcases after with after | after | after <;> simp [after] at hleaving
  · intro a
    have hopens := hadmits.opens a
    rcases h.closer a with hexempt | hopen | ⟨j, u, hu, hcloses⟩
    · exact Or.inl (h.custody.exempt hi hmoves hadmits.requested hexempt)
    · exact (hopens (Or.inl hopen)).imp_right (Or.imp_right fun hc => ⟨i, t', hself, hc⟩)
    · by_cases hj : j = i
      · subst hj
        cases hi.symm.trans hu
        exact (hopens (Or.inr hcloses)).imp_right (Or.imp_right fun hc => ⟨j, t', hself, hc⟩)
      · exact Or.inr (Or.inr ⟨j, u, hother hu hj, hcloses⟩)

theorem spawn (h : Admission w) (hfresh : t.fresh = true) (active : Nat) :
    Admission ⟨w.supervisor.setReports { w.supervisor.reports with active := active },
      w.tasks ++ [t]⟩ := by
  have hold : ∀ {j : Nat} {u : SupervisedTask}, w.tasks[j]? = some u →
      (w.tasks ++ [t])[j]? = some u := by
    intro j u hu
    rw [List.getElem?_append_left (List.getElem?_eq_some_iff.mp hu).1]
    exact hu
  have hlawful := h.lawful
  refine ⟨h.custody.spawn hfresh active, ⟨hlawful.fresh, hlawful.sends, hlawful.reports⟩, ?_,
    h.started, ?_, ?_⟩
  · intro j graceful p hj hp
    rcases getElem?_append_cases hj with hj | rfl
    · exact h.requested j graceful p hj hp
    · cases p <;> first | exact absurd rfl hp | cases hfresh
  · intro hleaving
    exact (h.leaver hleaving).imp_right fun ⟨j, u, hu, huleaves⟩ => ⟨j, u, hold hu, huleaves⟩
  · intro a
    exact (h.closer a).imp_right
      (Or.imp_right fun ⟨j, u, hu, hcloses⟩ => ⟨j, u, hold hu, hcloses⟩)

theorem step {w' : Supervised} {l : SupervisedStep} (h : Admission w) (hsettled : Settled w l)
    (hstep : w.step l = some w') : Admission w' := by
  cases Supervised.step_move hstep with
  | act found step =>
      rename_i i outcome t t' s'
      have hrequested : ∀ graceful p, t = .shutdown graceful p → p ≠ .requesting →
          w.supervisor.shutdownRequested = true :=
        fun graceful p heq => h.requested i graceful p (heq ▸ found)
      refine h.task found (SupervisedTask.step_moves step) (SupervisedTask.step_admits step
        h.lawful hrequested ?_) fun _ _ => SupervisedTask.step_requested step hrequested
      rintro p rfl hchecks
      refine h.checks found hchecks fun hrecovering => ?_
      simp [Settled, Supervised.checksRecovering, hrecovering, found, hchecks] at hsettled
  | abort _ found =>
      refine h.task found (BeatPoint.aborted_moves _) (.untouched h.lawful ?_ fun _ => rfl) nofun
      split <;> rfl
  | spawn active fresh => exact h.spawn fresh active
  | refused => exact h

theorem initial (profile : ProfileBinding) (credential : Credential) (generation : Nat) :
    Admission (Supervised.started profile credential generation) := by
  refine ⟨.started profile credential generation, ⟨⟨?_, ?_, ?_⟩, nofun, nofun⟩, ?_, nofun, nofun,
    ?_⟩
  · exact Nat.zero_lt_two
  · exact Nat.one_lt_two
  · exact Nat.zero_ne_one
  · intro j graceful p hj
    cases List.mem_singleton.mp (List.mem_of_getElem? hj)
  · intro a
    cases a <;> exact Or.inr (Or.inl rfl)

theorem reach (h : supervisedLts.Reach Settled w) : Admission w := by
  refine h.invariant (P := Admission) ?_ fun s l t hs hsettled hstep => hs.step hsettled hstep
  rintro _ ⟨profile, credential, generation, -, rfl⟩
  exact initial profile credential generation

end Admission

/-- Reports, sends and reads are admitted. -/
structure Supervisor.Admitting (s : Supervisor) : Prop where
  /-- `register` refuses for want of room only. -/
  reports : s.reports.permanentlyClosed = false ∧ s.tokens s.reports.cancel = false
  sends : s.sends.permanentlyClosed = false ∧ s.sends.accepting = true
    ∧ s.sends.admissionOpen = true
  reads : s.tokens s.readCancel = false

/-- **Admission is restored.** In a run in which no leave looks at the lifecycle while a recovery
is in progress: where the session is ready, every leave is over and nobody asked for a shutdown,
everything is admitted. -/
theorem admission_restored {w : Supervised} (h : supervisedLts.Reach Settled w)
    (hready : w.supervisor.lifecycle = .ready) (hleaves : ∀ p, .leave p ∈ w.tasks → p = .done)
    (hshutdown : w.supervisor.shutdownRequested = false) : w.supervisor.Admitting := by
  have hadmission := Admission.reach h
  have hexempt : w.supervisor.exempt = false := by
    simp [Supervisor.exempt, hshutdown, hready, LifecycleState.terminal]
  have hopen : ∀ a : Admitted, a.isOpen w.supervisor.admissionState = true := by
    intro a
    rcases hadmission.closer a with h | h | ⟨j, u, hu, hcloses⟩
    · simp [hexempt] at h
    · exact h
    · -- a leave that is over closes nothing
      cases u with
      | leave p =>
          cases hleaves p (List.mem_of_getElem? hu)
          cases a <;> cases hcloses
      | beat | report | send | shutdown => cases hcloses
  have hpermanent : ∀ {b : Bool}, (b = true → w.supervisor.shutdownRequested = true) →
      b = false := by
    intro b hb
    cases b with
    | false => rfl
    | true => exact absurd (hb rfl) (by simp [hshutdown])
  have hreports : (!w.supervisor.tokens w.supervisor.reports.cancel) = true := hopen .reports
  have hreads : (!w.supervisor.tokens w.supervisor.readCancel) = true := hopen .reads
  exact ⟨⟨hpermanent hadmission.lawful.reports, by simpa using hreports⟩,
    ⟨hpermanent hadmission.lawful.sends, hopen .ledger, hopen .admission⟩,
    by simpa using hreads⟩

namespace Sample

/-- The scheduler sleeps and the leave is over. -/
def leaveOver : List SupervisedTask → Bool
  | [.beat .sleeping, .leave .done] => true
  | _ => false

theorem leaveOver_eq {tasks : List SupervisedTask} (h : leaveOver tasks = true) :
    tasks = [.beat .sleeping, .leave .done] := by
  unfold leaveOver at h
  split at h
  · rfl
  · cases h

end Sample

open Sample in
/-- Alice's leave was refused by the relay, and everything is admitted again. -/
theorem admission_restored_alice :
    ∃ w, supervisedLts.Reach Settled w ∧ .leave .done ∈ w.tasks ∧ w.supervisor.Admitting := by
  have hrun : (Lts.follow Supervised.step Settled
      (Supervised.started aliceProfile ⟨aliceInstance, aliceToken⟩ 0)
      ([.leave] ++ List.replicate 10 (.act 1 .go)
        ++ [.act 1 (.leave (.error (.api 503 .databaseBusy true)))]
        ++ List.replicate 9 (.act 1 .go))).any (fun w =>
          leaveOver w.tasks
          && decide (w.supervisor.lifecycle = .ready)
          && !w.supervisor.shutdownRequested) = true := by
    decide
  obtain ⟨w, hw, hcheck⟩ := Lts.exists_steps_of_follow _ hrun
  simp only [Bool.and_eq_true, decide_eq_true_eq, Bool.not_eq_true'] at hcheck
  obtain ⟨⟨htasks, hready⟩, hshutdown⟩ := hcheck
  have hreach : supervisedLts.Reach Settled w := ⟨_, ⟨aliceProfile, _, 0, by decide, rfl⟩, hw⟩
  have heq := leaveOver_eq htasks
  refine ⟨w, hreach, by simp [heq], admission_restored hreach hready ?_ hshutdown⟩
  intro p hp
  simpa [heq] using hp

open Sample in
/-- **A leave that meets a recovery.** Alice's scheduler is resuming her session when she leaves;
the leave cancels the reports, finds the lifecycle `Recovering` and gives up. The session is ready
again and no report is ever accepted. -/
theorem leave_in_recovery_closes_reports :
    ¬ ∀ w : Supervised, supervisedLts.Reach Lts.always w → w.supervisor.lifecycle = .ready →
        (∀ p, .leave p ∈ w.tasks → p = .done) → w.supervisor.shutdownRequested = false →
        w.supervisor.Admitting := by
  intro hclaim
  have hrun : (Lts.follow Supervised.step Lts.always
      (Supervised.started aliceProfile ⟨aliceInstance, aliceToken⟩ 0)
      (expires ++ [.leave] ++ List.replicate 5 (.act 1 .go)
        ++ [.act 0 (.resume (.ok (aliceSession bobToken))), .act 0 (.persist .done),
          .act 0 .go, .act 0 .go, .act 0 .go])).any (fun w =>
          leaveOver w.tasks
          && decide (w.supervisor.lifecycle = .ready)
          && !w.supervisor.shutdownRequested
          && w.supervisor.tokens w.supervisor.reports.cancel) = true := by
    decide
  obtain ⟨w, hw, hcheck⟩ := Lts.exists_steps_of_follow _ hrun
  simp only [Bool.and_eq_true, decide_eq_true_eq, Bool.not_eq_true'] at hcheck
  obtain ⟨⟨⟨htasks, hready⟩, hshutdown⟩, hcancelled⟩ := hcheck
  have hleaves : ∀ p, .leave p ∈ w.tasks → p = .done := by
    intro p hp
    simpa [leaveOver_eq htasks] using hp
  have hadmitting := hclaim w ⟨_, ⟨aliceProfile, _, 0, by decide, rfl⟩, hw⟩ hready hleaves hshutdown
  simp [hadmitting.reports.2] at hcancelled

end Psst
