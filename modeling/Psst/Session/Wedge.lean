import Psst.Session.Removal

/-!
# No wedged profile

Whatever files a process leaves behind, the public operations get past them: a profile with
metadata starts or finishes its cleanup, one without can be joined and then started. Two
windows break this. A process that stops between the two records of a new binding leaves a
credential that keeps `join_and_bind` out and a profile that `start` does not know; and a join
beside an old journal makes a profile whose journal `start` refuses.
-/

namespace Psst

/-! ## The files alone -/

/-- The files answer, without faults; nothing else does. -/
def Disk.perform : (a : Action) → Disk → Option (Answer a × Disk)
  | .metadataExists, d => some (d.metadata.isSome, d)
  | .credentialExists, d => some (d.credential.isSome, d)
  | .loadProfile, d => some (some d.metadata, d)
  | .loadJournal, d => some (some d.journal, d)
  | .loadCredential, d => some (some d.credential, d)
  | .storeCredential record, d => some (some (), { d with credential := some record })
  | .storeProfile binding, d => some (some (), { d with metadata := some binding })
  | .storeJournal journal, d => some (some (), { d with journal := some journal })
  | .clearCredential, d => some (some (), { d with credential := none })
  | .clearProfile, d => some (some (), { d with metadata := none })
  | .removeJournal, d => some (some (), { d with journal := none })
  | _, _ => none

/-- Run a program on the files, up to its first request. -/
abbrev Disk.run {α : Type} (d : Disk) (p : Run α) : Disk × (Action ⊕ α) := p.exec Disk.perform d

/-- `start` finishes a confirmed cleanup, or gets past the files to its first heartbeat. -/
def Disk.Starts (d : Disk) (profile : ProfileBinding) : Prop :=
  ∀ mode client,
    d.run (start ⟨profile, mode, client⟩) = (Disk.unbound, .inr (.error .unbound))
      ∨ ∃ credential, d.run (start ⟨profile, mode, client⟩)
          = (d, .inl (.send (.heartbeat ⟨.unknown, .unknown⟩ credential)))

/-- `join_and_bind` gets past the files to its request, and what it binds can be started. -/
def Disk.Joins (d : Disk) (key : ProfileKey) : Prop :=
  ∀ squad request,
    d.run (joinAndBind ⟨key, squad⟩ request) = (d, .inl (.send (.join squad request)))
      ∧ ∀ (profile : ProfileBinding) credential, profile.toProfileKey = key →
          ∃ d', d.run (bindProfile profile credential) = (d', .inr (.ok ())) ∧ d'.Starts profile

/-- The public operations can proceed. -/
structure Disk.Proceeds (d : Disk) (key : ProfileKey) : Prop where
  unbound : d.metadata = none →
    ∃ d' found, d.run (recoverOrphanedLeave key) = (d', .inr (.ok found)) ∧ d'.Joins key
  bound : ∀ profile ∈ d.metadata, d.Starts profile
  unwedged : ∀ squad request,
    d.run (joinAndBind ⟨key, squad⟩ request) = (d, .inr (.error (.local .alreadyExists))) →
    ∃ spec, d.run (start spec) ≠ (d, .inr (.error .unbound))

/-! ## What the operations do with the files -/

namespace Disk

variable {d : Disk} {spec : RuntimeSpec}

theorem run_cleanup (d : Disk) :
    d.run cleanupConfirmedLeave = (Disk.unbound, .inr (.ok ())) := rfl

/-- `start` knows the profile on disk. -/
theorem run_start (h : d.metadata = some spec.profile) :
    d.run (start spec) = d.run (startLocked spec) := by
  unfold start
  simp only [Prog.perform_bind]
  rw [Disk.run, Prog.exec_act_some (rfl : Disk.perform .loadProfile d = some (some d.metadata, d))]
  dsimp only
  rw [if_neg (not_not.mpr h)]

/-- A confirmed leave of the profile is cleaned up. -/
theorem run_startLocked_confirmed {j : LeaveJournal} (hjournal : d.journal = some j)
    (hloads : j.Loads spec.profile) (hphase : j.phase = .confirmed) :
    d.run (startLocked spec) = (Disk.unbound, .inr (.error .unbound)) := by
  have hload : LeaveJournal.load d.journal spec.profile = .ok (some j) :=
    LeaveJournal.load_eq_ok.mpr ⟨hjournal, fun _ hi => by cases hi; exact hloads⟩
  unfold startLocked
  simp only [Prog.perform_bind]
  rw [Disk.run, Prog.exec_act_some (rfl : Disk.perform .loadJournal d = some (some d.journal, d))]
  simp only [hload, Option.any_some, hphase, decide_true, if_true]
  rw [Prog.exec_bind_of_done (run_cleanup d)]
  rfl

/-- Otherwise the credential of the profile is used. -/
theorem run_startLocked_heartbeat {pending : Option LeaveJournal} {credential : Credential}
    (hjournal : d.journal = pending)
    (hpending : ∀ j ∈ pending, j.Loads spec.profile ∧ j.phase ≠ .confirmed)
    (hcredential : Disk.Keeps spec.profile credential d) :
    d.run (startLocked spec)
      = (d, .inl (.send (.heartbeat ⟨.unknown, .unknown⟩ credential))) := by
  have hload : LeaveJournal.load d.journal spec.profile = .ok pending :=
    LeaveJournal.load_eq_ok.mpr ⟨hjournal, fun j hj => (hpending j hj).1⟩
  have hintent : (pending.any fun journal => decide (journal.phase = .confirmed)) = false := by
    cases pending with
    | none => rfl
    | some j => simpa using (hpending j rfl).2
  unfold startLocked
  simp only [Prog.perform_bind]
  rw [Disk.run, Prog.exec_act_some (rfl : Disk.perform .loadJournal d = some (some d.journal, d))]
  simp only [hload, hintent, if_false, Bool.false_eq_true]
  rw [Prog.exec_act_some
    (rfl : Disk.perform .loadCredential d = some (some d.credential, d))]
  simp only [CredentialRecord.load_eq_ok.mpr hcredential]
  rfl

theorem joins_unbound (key : ProfileKey) : Disk.unbound.Joins key := by
  intro squad request
  refine ⟨rfl, fun profile credential _ =>
    ⟨⟨some ⟨profile.credentialBinding, credential⟩, some profile, none⟩, rfl,
      fun mode client => Or.inr ⟨credential, ?_⟩⟩⟩
  rw [run_start rfl]
  exact run_startLocked_heartbeat rfl (fun _ hj => by cases hj) rfl

/-- `join_and_bind` looks at two of the files. -/
theorem run_joinAndBind (hmetadata : d.metadata = none) (hcredential : d.credential = none)
    (key : ProfileKey) (squad : SquadName) (request : JoinSquadRequest) :
    d.run (joinAndBind ⟨key, squad⟩ request) = (d, .inl (.send (.join squad request))) := by
  obtain ⟨credential, metadata, journal⟩ := d
  cases hmetadata
  cases hcredential
  rfl

/-- A cleanup interrupted at its last step is finished. -/
theorem run_recover {key : ProfileKey} (hmetadata : d.metadata = none)
    (hcredential : d.credential = none)
    (hjournal : ∀ j ∈ d.journal, j.Loads j.binding ∧ j.binding.toProfileKey = key
      ∧ j.phase = .confirmed) :
    ∃ found, d.run (recoverOrphanedLeave key) = (Disk.unbound, .inr (.ok found)) := by
  have hload : LeaveJournal.loadForProfileKey d.journal key
      = .ok (d.journal.map fun j => (j, j.binding)) :=
    LeaveJournal.loadForProfileKey_eq_ok.mpr
      ⟨rfl, fun j hj => ⟨(hjournal j hj).1, (hjournal j hj).2.1⟩⟩
  unfold recoverOrphanedLeave
  simp only [Prog.perform_bind]
  rw [Disk.run, Prog.exec_act_some
    (rfl : Disk.perform .loadProfile d = some (some d.metadata, d))]
  simp only [hmetadata, Option.isSome_none, Bool.false_eq_true, if_false]
  rw [Prog.exec_act_some (rfl : Disk.perform .loadJournal d = some (some d.journal, d))]
  simp only [hload]
  cases hj : d.journal with
  | none =>
      refine ⟨false, ?_⟩
      show (d, _) = _
      obtain ⟨credential, metadata, journal⟩ := d
      cases hmetadata
      cases hcredential
      cases hj
      rfl
  | some j =>
      refine ⟨true, ?_⟩
      simp only [Option.map_some]
      rw [if_neg (not_not.mpr (hjournal j hj).2.2), Prog.exec_bind_of_done (run_cleanup d)]
      rfl

end Disk

/-! ## The claim -/

section Runs

variable [Sha256] {m : Mode} {w : Site}

/-- **Files that fit together get the profile going again.** -/
theorem Site.Inv.proceeds (h : w.Inv m) (hm : m.tidy = true) (hwhole : ¬ w.disk.HalfBound) :
    w.disk.Proceeds w.key := by
  have hneat := h.neat hm
  have hnone : w.disk.metadata = none → w.disk.credential = none := by
    intro hmetadata
    by_contra hsome
    exact hwhole ⟨Option.ne_none_iff_isSome.mp hsome, hmetadata⟩
  have hstarts : ∀ profile ∈ w.disk.metadata, w.disk.Starts profile := by
    intro profile hprofile mode client
    have hrun := @Disk.run_start w.disk ⟨profile, mode, client⟩ hprofile
    rw [hrun]
    have hloads : ∀ j ∈ w.disk.journal, j.Loads profile := by
      intro j hj
      rw [← hneat.journal j hj profile hprofile]
      exact (h.sane.journal j hj).1
    by_cases hconfirmed : ∃ j ∈ w.disk.journal, j.phase = .confirmed
    · obtain ⟨j, hj, hphase⟩ := hconfirmed
      exact Or.inl (Disk.run_startLocked_confirmed hj (hloads j hj) hphase)
    · refine Or.inr ?_
      rcases hneat.complete with hcredential | hmetadata | hj
      · obtain ⟨record, hrecord⟩ := Option.ne_none_iff_exists'.mp hcredential
        refine ⟨record.credential, Disk.run_startLocked_heartbeat rfl
          (fun j hj => ⟨hloads j hj, fun hphase => hconfirmed ⟨j, hj, hphase⟩⟩) ?_⟩
        rw [Disk.Keeps, hrecord, ← h.sane.agree profile hprofile record hrecord]
      · cases hmetadata.symm.trans hprofile
      · exact absurd hj hconfirmed
  refine ⟨fun hmetadata => ?_, hstarts, fun squad request hrefused => ?_⟩
  · obtain ⟨found, hrecover⟩ := Disk.run_recover hmetadata (hnone hmetadata) fun j hj =>
      ⟨(h.sane.journal j hj).1, (h.sane.journal j hj).2, hneat.orphan hmetadata j hj⟩
    exact ⟨Disk.unbound, found, hrecover, Disk.joins_unbound w.key⟩
  · cases hmetadata : w.disk.metadata with
    | none =>
        rw [Disk.run_joinAndBind hmetadata (hnone hmetadata)] at hrefused
        cases hrefused
    | some profile =>
        refine ⟨⟨profile, request.mode, request.client⟩, fun hstart => ?_⟩
        rcases hstarts profile hmetadata request.mode request.client with hdone | ⟨_, hsend⟩
        · have hempty : Disk.unbound = w.disk := congrArg Prod.fst (hdone.symm.trans hstart)
          rw [← hempty] at hmetadata
          cases hmetadata
        · cases hsend.symm.trans hstart

/-- **No wedged profile.** Wherever the process stopped, and in whatever order its operations
were run and interrupted, the public operations can proceed. -/
theorem no_wedged_profile {w : World} (h : worldLts.Reach Tidy w) (hrest : w.operation = none) :
    w.site.disk.Proceeds w.site.key := by
  have hinv : w.Inv ⟨false, false, true⟩ :=
    reach_inv (h.mono fun _ _ hl => ⟨(fun hm => by cases hm), (fun hm => by cases hm), fun _ => hl⟩)
  exact hinv.site.proceeds rfl (hinv.whole hrest rfl)

end Runs

instance (d : Disk) : Decidable d.HalfBound := inferInstanceAs (Decidable (_ ∧ _))

/-- The answers that matter are effects on three files. -/
theorem Site.tidyAct_of_plain {w : Site} {a : Action} {choice : Choice}
    (h : ∀ e, choice ≠ .effect e) : w.TidyAct a choice := by
  cases choice with
  | effect e => exact absurd rfl (h e)
  | _ => cases a <;> trivial

instance (w : Site) (a : Action) (choice : Choice) : Decidable (w.TidyAct a choice) :=
  match choice with
  | .effect .done => isTrue (by cases a <;> trivial)
  | .effect .failed =>
    match a with
    | .clearCredential => inferInstanceAs (Decidable (¬ w.disk.HalfBound))
    | .metadataExists | .credentialExists | .loadProfile | .loadJournal | .loadCredential
    | .storeCredential _ | .storeProfile _ | .storeJournal _ | .clearProfile | .removeJournal
    | .now | .random | .send _ | .await _ | .awaitUnlessCancelled _ | .lifecycle
    | .setLifecycle _ | .exchangeLifecycle _ _ | .credential | .publish _ | .lockHeartbeat
    | .drain _ | .shutdownRequested => isTrue trivial
  | .effect .unsynced =>
    match a with
    | .storeCredential _ => inferInstanceAs (Decidable (w.disk.metadata ≠ none))
    | .storeProfile _ => isFalse id
    | .metadataExists | .credentialExists | .loadProfile | .loadJournal | .loadCredential
    | .clearCredential | .storeJournal _ | .clearProfile | .removeJournal
    | .now | .random | .send _ | .await _ | .awaitUnlessCancelled _ | .lifecycle
    | .setLifecycle _ | .exchangeLifecycle _ _ | .credential | .publish _ | .lockHeartbeat
    | .drain _ | .shutdownRequested => isTrue trivial
  | .plain | .fail | .clock _ | .random _ | .flag _ | .refuse _ | .issue _ | .answered | .lost _
  | .cancelled => isTrue (Site.tidyAct_of_plain fun _ h => by cases h)

instance (w : World) (l : WorldStep) : Decidable (Tidy w l) :=
  match l with
  | .joinAndBind _ _ => inferInstanceAs (Decidable (w.site.disk.journal = none))
  | .crash => inferInstanceAs (Decidable (¬ w.site.disk.HalfBound))
  | .act .operation choice =>
    match hop : w.operation with
    | some (.act a _) =>
      decidable_of_iff (w.site.TidyAct a choice) (by simp only [Tidy, hop])
    | some (.ret _) => isTrue (by simp only [Tidy, hop])
    | none => isTrue (by simp only [Tidy, hop])
  | .act .pulse choice =>
    match hpulse : w.pulse with
    | some (.act a _) =>
      decidable_of_iff (w.site.TidyAct a choice) (by simp only [Tidy, hpulse])
    | some (.ret _) => isTrue (by simp only [Tidy, hpulse])
    | none => isTrue (by simp only [Tidy, hpulse])
  | .relay _ | .start _ | .recover | .leave | .heartbeat _ _ | .reportAvailability _ _
  | .finish _ => isTrue trivial

open Sample in
/-- Alice's process stops before her confirmed leave is cleaned up. -/
theorem no_wedged_profile_alice :
    ∃ w, worldLts.Reach Tidy w ∧ w.operation = none ∧ w.site.disk.metadata ≠ none
      ∧ (∃ j ∈ w.site.disk.journal, j.phase = .confirmed)
      ∧ w.site.disk.Proceeds w.site.key := by
  have hrun : (Lts.follow World.step Tidy (World.fresh home 4)
      (joins ++ sendsLeave ++ answered 2 ⟨103, by decide⟩
        ++ [op .answered, op (.clock ⟨⟨104, by decide⟩, by decide⟩), op (.effect .done),
          .crash])).any
      (fun w => w.operation.isNone && decide (w.site.disk.metadata ≠ none)
        && w.site.disk.journal.any fun j => decide (j.phase = .confirmed)) = true := by
    decide
  obtain ⟨w, hw, hcheck⟩ := Lts.exists_steps_of_follow _ hrun
  simp only [Bool.and_eq_true, decide_eq_true_eq, Option.isNone_iff_eq_none] at hcheck
  obtain ⟨⟨hrest, hmetadata⟩, hjournal⟩ := hcheck
  obtain ⟨j, hj, hphase⟩ := (Option.any_eq_true _ _).mp hjournal
  have hreach : worldLts.Reach Tidy w := ⟨_, ⟨home, 4, rfl⟩, hw⟩
  exact ⟨w, hreach, hrest, hmetadata, ⟨j, hj, of_decide_eq_true hphase⟩,
    no_wedged_profile hreach hrest⟩

open Sample in
/-- **A wedged profile.** The process stops between the two records of a new binding:
`join_and_bind` refuses with `AlreadyExists`, `start` with `Unbound`, and there is nothing to
recover. -/
theorem stopped_binding_wedges :
    ¬ ∀ w : World, worldLts.Reach Lts.always w → w.operation = none →
        w.site.disk.Proceeds w.site.key := by
  intro hclaim
  have hrun : (Lts.follow World.step Lts.always (World.fresh home 4)
      ([.joinAndBind alpha aliceRequest, op .plain, op .plain, op (.issue aliceDrawn)]
        ++ answered 0 ⟨100, by decide⟩ ++ [op .answered, op (.effect .done), .crash])).any
      (fun w => w.operation.isNone && decide (w.site.disk.metadata = none)
        && w.site.disk.credential.isSome) = true := by
    decide
  obtain ⟨w, hw, hcheck⟩ := Lts.exists_steps_of_follow _ hrun
  simp only [Bool.and_eq_true, decide_eq_true_eq, Option.isNone_iff_eq_none] at hcheck
  obtain ⟨⟨hrest, hmetadata⟩, hcredential⟩ := hcheck
  obtain ⟨record, hrecord⟩ := Option.isSome_iff_exists.mp hcredential
  have hproceeds := hclaim w ⟨_, ⟨home, 4, rfl⟩, hw⟩ hrest
  have hrefused : w.site.disk.run (joinAndBind ⟨w.site.key, alpha⟩ aliceRequest)
      = (w.site.disk, .inr (.error (.local .alreadyExists))) := by
    generalize w.site.disk = d at hmetadata hrecord
    obtain ⟨credential, metadata, journal⟩ := d
    cases hmetadata
    cases hrecord
    rfl
  obtain ⟨spec, hstart⟩ := hproceeds.unwedged alpha aliceRequest hrefused
  refine hstart ?_
  generalize w.site.disk = d at hmetadata
  obtain ⟨credential, metadata, journal⟩ := d
  cases hmetadata
  rfl

end Psst
