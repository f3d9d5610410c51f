import Psst.Session.Lost

/-!
# Local authority outlives relay authority

The credential and the metadata of a profile go only when the relay has ended the membership
they are for. The one exception is a binding that was never made: `join_and_bind` takes the
credential it just stored back when the metadata is not reported stored.
-/

namespace Psst

/-- The step begins the recovery of an orphaned leave. -/
def WorldStep.recovers : WorldStep → Bool
  | .recover => true
  | _ => false

/-- A step of joins, starts, heartbeats, resumes, reports and leaves under a relay clock that
never goes back. -/
def Operating (w : World) (l : WorldStep) : Prop := Monotone w l ∧ l.recovers = false

section Runs

variable [Sha256] {m : Mode} {w w' : World} {l : WorldStep}

/-- **Every removal is justified.** -/
theorem World.Inv.justified (h : w.Inv m) (hm : m.monotone = true) (hl : m.Allows w l)
    (hstep : w.step l = some w') : w.site.Justified w'.site := by
  by_cases hact : ∃ slot choice, l = .act slot choice
  · obtain ⟨slot, choice, rfl⟩ := hact
    cases slot with
    | operation =>
        obtain ⟨a, k, r, site, hop, hperform, rfl⟩ := step_actOperation hstep
        exact (h.operation _ hop w.site .refl h.site r site
          ⟨choice, tidyAct_operation hop hl.2.2, hperform⟩).2.1.2 hm
    | pulse =>
        obtain ⟨a, k, r, site, hpulse, hperform, rfl⟩ := step_actPulse hstep
        exact (h.pulse _ hpulse w.site .refl h.site r site
          ⟨choice, tidyAct_pulse hpulse hl.2.2, hperform⟩).2.1.2 hm
  · have hdisk := step_disk hstep fun slot choice heq => hact ⟨slot, choice, heq⟩
    exact .of_kept (by rw [hdisk]) (by rw [hdisk])

/-- What runs was launched. -/
theorem World.Inv.not_recover (h : w.Inv m) (hl : m.Allows w l) (hlabel : l.recovers = false)
    (hstep : w.step l = some w') (hw : w.site.running ≠ some .recover) :
    w'.site.running ≠ some .recover := by
  have hlaunch : ∀ {operation program}, w.launch operation program = some w' →
      operation ≠ .recover → w'.site.running ≠ some .recover := by
    intro operation program hstep hne
    unfold World.launch at hstep
    split at hstep
    · cases hstep
      exact fun heq => hne (Option.some.inj heq)
    · cases hstep
  have hpulse : ∀ {program}, w.launchPulse program = some w' →
      w'.site.running ≠ some .recover := by
    intro program hstep
    unfold World.launchPulse at hstep
    split at hstep <;> cases hstep
    exact hw
  cases l with
  | relay l =>
      obtain ⟨r, -, rfl⟩ := Option.map_eq_some_iff.mp hstep
      exact hw
  | start spec => exact hlaunch hstep (by decide)
  | joinAndBind squad request => exact hlaunch hstep (by decide)
  | recover => cases hlabel
  | leave =>
      simp only [World.step] at hstep
      split at hstep <;> cases hstep
      simp
  | heartbeat request resume =>
      simp only [World.step] at hstep
      exact hpulse hstep
  | reportAvailability availability resume =>
      simp only [World.step] at hstep
      exact hpulse hstep
  | act slot choice =>
      cases slot with
      | operation =>
          obtain ⟨a, k, r, site, hop, hperform, rfl⟩ := step_actOperation hstep
          have hsame : site.running = w.site.running :=
            (h.operation _ hop w.site .refl h.site r site
              ⟨choice, tidyAct_operation hop hl.2.2, hperform⟩).2.1.1.running
          exact hsame ▸ hw
      | pulse =>
          obtain ⟨a, k, r, site, hthread, hperform, rfl⟩ := step_actPulse hstep
          have hsame : site.running = w.site.running :=
            (h.pulse _ hthread w.site .refl h.site r site
              ⟨choice, tidyAct_pulse hthread hl.2.2, hperform⟩).2.1.1.running
          exact hsame ▸ hw
  | finish slot =>
      cases slot <;> simp only [World.step] at hstep <;> split at hstep <;> cases hstep
      · simp
      · exact hw
  | crash =>
      cases hstep
      simp [World.crash]

omit [Sha256] in
theorem allows_of_operating (hl : Operating w l) : (⟨true, false, false⟩ : Mode).Allows w l :=
  ⟨fun _ => hl.1, (fun hm => by cases hm), fun hm => by cases hm⟩

/-- **Local authority outlives relay authority.** A step takes metadata or a credential from
the disk only when the relay has ended its membership, or when `join_and_bind` scrubs a
credential whose metadata was never reported stored; and a confirmed journal names a membership
that is over. -/
theorem local_authority_outlives (h : worldLts.Reach Operating w) (hl : Operating w l)
    (hstep : w.step l = some w') :
    (∀ b ∈ w.site.disk.metadata, (∀ b' ∈ w'.site.disk.metadata, b'.memberId ≠ b.memberId) →
        w.site.relay.store.Finished b.memberId)
      ∧ (∀ record ∈ w.site.disk.credential,
          (∀ record' ∈ w'.site.disk.credential,
            record'.binding.memberId ≠ record.binding.memberId) →
          w.site.relay.store.Finished record.binding.memberId
            ∨ (record.binding.memberId ∉ w.site.bound
              ∧ w.site.running = some .joinAndBind))
      ∧ ∀ j ∈ w.site.disk.journal, j.phase = .confirmed →
          w.site.relay.store.Finished j.binding.memberId := by
  have hboth : w.Inv ⟨true, false, false⟩ ∧ w.site.running ≠ some .recover := by
    refine h.invariant
      (P := fun w => w.Inv ⟨true, false, false⟩ ∧ w.site.running ≠ some .recover) ?_ ?_
    · rintro _ ⟨key, capacity, rfl⟩
      exact ⟨World.fresh_inv key capacity, by simp [World.fresh]⟩
    · rintro w l w' ⟨hw, hrunning⟩ hl hstep
      exact ⟨hw.step (allows_of_operating hl) hstep,
        hw.not_recover (allows_of_operating hl) hl.2 hstep hrunning⟩
  obtain ⟨hinv, hrunning⟩ := hboth
  have hjustified := hinv.justified rfl (allows_of_operating hl) hstep
  refine ⟨hjustified.metadata, fun record hrecord hgone => ?_, (hinv.site.truthful rfl).confirmed⟩
  rcases hjustified.credential record hrecord hgone with hfinished | ⟨hnew, hjoin | hrecover⟩
  · exact Or.inl hfinished
  · exact Or.inr ⟨hnew, hjoin⟩
  · exact absurd hrecover hrunning

end Runs

instance (w : World) (l : WorldStep) : Decidable (Monotone w l) :=
  match l with
  | .relay l => inferInstanceAs (Decidable (∀ now ∈ l.reading, ∀ e ∈ w.site.relay.log, e.now ≤ now))
  | .start _ | .joinAndBind _ _ | .recover | .leave | .heartbeat _ _ | .reportAvailability _ _
  | .act _ _ | .finish _ | .crash => inferInstanceAs (Decidable True)

instance (w : World) (l : WorldStep) : Decidable (Operating w l) :=
  inferInstanceAs (Decidable (_ ∧ _))

open Sample in
/-- Alice's leave is answered and confirmed, and her credential goes. -/
theorem local_authority_outlives_alice :
    ∃ w w', worldLts.Reach Operating w ∧ w.step (op (.effect .done)) = some w'
      ∧ (∃ record ∈ w.site.disk.credential, record.binding.memberId = alice)
      ∧ w'.site.disk.credential = none ∧ w.site.relay.store.Finished alice := by
  have hrun : (Lts.follow World.step Operating (World.fresh home 4)
      (joins ++ sendsLeave ++ answered 2 ⟨103, by decide⟩
        ++ [op .answered, op (.clock ⟨⟨104, by decide⟩, by decide⟩), op (.effect .done)])).any
      (fun w => w.site.disk.credential.any (fun record => decide (record.binding.memberId = alice))
        && decide (w.site.running = some .leave)
        && (w.step (op (.effect .done))).any fun w' =>
          decide (w'.site.disk.credential = none)) = true := by
    decide
  obtain ⟨w, hw, hcheck⟩ := Lts.exists_steps_of_follow _ hrun
  simp only [Bool.and_eq_true, decide_eq_true_eq] at hcheck
  obtain ⟨⟨hany, hrunning⟩, hgone⟩ := hcheck
  obtain ⟨w', hstep, hnone⟩ := (Option.any_eq_true _ _).mp hgone
  obtain ⟨record, hrecord, hmember⟩ := (Option.any_eq_true _ _).mp hany
  have hnone' : w'.site.disk.credential = none := of_decide_eq_true hnone
  have hreach : worldLts.Reach Operating w := ⟨_, ⟨home, 4, rfl⟩, hw⟩
  have hmember' : record.binding.memberId = alice := of_decide_eq_true hmember
  refine ⟨w, w', hreach, hstep, ⟨record, hrecord, hmember'⟩, hnone', ?_⟩
  have hl : Operating w (op (.effect .done)) := ⟨trivial, rfl⟩
  have hremoved := (local_authority_outlives hreach hl hstep).2.1 record hrecord
    (by rw [hnone']; exact fun _ h => by cases h)
  rcases hremoved with hfinished | ⟨-, hjoin⟩
  · rw [← hmember']
    exact hfinished
  · cases hrunning.symm.trans hjoin

open Sample in
/-- **A scrubbed credential whose metadata was written.** The metadata is in place and its
directory cannot be synced, so `store_profile` fails and the credential of a membership in good
standing goes. -/
theorem unsynced_binding_scrubbed :
    ¬ ∀ (w w' : World) (l : WorldStep), worldLts.Reach Operating w → Operating w l →
        w.step l = some w' → ∀ record ∈ w.site.disk.credential,
          (∀ record' ∈ w'.site.disk.credential,
            record'.binding.memberId ≠ record.binding.memberId) →
          w.site.relay.store.Finished record.binding.memberId
            ∨ (w.site.running = some .joinAndBind
              ∧ ∀ b ∈ w.site.disk.metadata, b.memberId ≠ record.binding.memberId) := by
  intro hclaim
  have hrun : (Lts.follow World.step Operating (World.fresh home 4)
      ([.joinAndBind alpha aliceRequest, op .plain, op .plain, op (.issue aliceDrawn)]
        ++ answered 0 ⟨100, by decide⟩
        ++ [op .answered, op (.effect .done), op (.effect .unsynced)])).any
      (fun w => w.site.disk.credential.any (fun record => decide (record.binding.memberId = alice))
        && w.site.disk.metadata.any (fun b => decide (b.memberId = alice))
        && (w.site.relay.store.memberships.all fun m => decide (m.leftAt = none))
        && (w.site.relay.store.squads.all fun q => decide (q.state = .active))
        && (w.step (op (.effect .done))).any fun w' =>
          decide (w'.site.disk.credential = none)) = true := by
    decide
  obtain ⟨w, hw, hcheck⟩ := Lts.exists_steps_of_follow _ hrun
  simp only [Bool.and_eq_true] at hcheck
  obtain ⟨⟨⟨⟨hany, hwritten⟩, hmembers⟩, hsquads⟩, hgone⟩ := hcheck
  obtain ⟨w', hstep, hnone⟩ := (Option.any_eq_true _ _).mp hgone
  obtain ⟨record, hrecord, hmember⟩ := (Option.any_eq_true _ _).mp hany
  obtain ⟨b, hb, hbound⟩ := (Option.any_eq_true _ _).mp hwritten
  have hnone' : w'.site.disk.credential = none := of_decide_eq_true hnone
  have hl : Operating w (op (.effect .done)) := ⟨trivial, rfl⟩
  rcases hclaim w w' _ ⟨_, ⟨home, 4, rfl⟩, hw⟩ hl hstep record hrecord
    (by rw [hnone']; exact fun _ h => by cases h) with ⟨m, hm, -, hleft | ⟨q, hq, -, harchived⟩⟩
    | ⟨-, hunbound⟩
  · exact hleft (of_decide_eq_true (List.all_eq_true.mp hmembers m hm))
  · have hactive := of_decide_eq_true (List.all_eq_true.mp hsquads q hq)
    rw [harchived] at hactive
    cases hactive
  · refine hunbound b hb ?_
    rw [of_decide_eq_true hbound, of_decide_eq_true hmember]

end Psst
