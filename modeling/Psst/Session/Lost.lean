import Psst.Session.Reach

/-!
# No leave is lost

A leave that took effect, or still may, is on record in the journal of its profile, or nothing
of its membership is left on disk. The dispatch timer of the relay breaks this: it answers a
leave it has admitted like one it refused, the session takes its journal back and returns to
`Ready`, and the leave happens all the same.
-/

namespace Psst

section Runs

variable [Sha256]

/-- **No lost leave.** While the relay holds a leave of this profile, and after it took effect,
the journal names its membership or nothing of the membership is left; and no session of that
membership is ready. -/
theorem no_lost_leave {w : World} (h : worldLts.Reach Punctual w) {i : Nat}
    {member : MembershipId} (hleave : (i, member) ∈ w.site.leaves)
    (hlive : i ∈ w.site.relay.held ∨ w.site.relay.Effective i) :
    ((∃ j ∈ w.site.disk.journal, j.binding.memberId = member)
        ∨ ((∀ b ∈ w.site.disk.metadata, b.memberId ≠ member)
          ∧ ∀ record ∈ w.site.disk.credential, record.binding.memberId ≠ member))
      ∧ ∀ live ∈ w.site.session, live.lifecycle = .ready → live.profile.memberId ≠ member := by
  have hinv : w.Inv ⟨false, true, false⟩ :=
    reach_inv (h.mono fun _ _ hl => ⟨(fun hm => by cases hm), fun _ => hl, fun hm => by cases hm⟩)
  have hcovered := hinv.site.covered rfl
  have hpending : w.site.Pending i := hlive.elim Or.inl fun h => Or.inr (Or.inl h)
  refine ⟨?_, ?_⟩
  · exact (hcovered.covers (i, member) hleave hpending).imp_right fun hforgets =>
      ⟨hforgets.metadata, hforgets.credential⟩
  · rintro live hsession hready rfl
    exact hcovered.settled live hsession (by rw [hready]; rfl) (i, live.profile.memberId) hleave
      rfl hpending

end Runs

instance (w : Site) (i : Nat) : Decidable (w.IsLeave i) :=
  inferInstanceAs (Decidable (i ∈ w.leaves.map Prod.fst))

instance (w : World) (l : WorldStep) : Decidable (Punctual w l) :=
  match l with
  | .relay _ => inferInstanceAs (Decidable (_ ∧ _ ∧ _))
  | .start _ | .joinAndBind _ _ | .recover | .leave | .heartbeat _ _ | .reportAvailability _ _
  | .act _ _ | .finish _ | .crash => inferInstanceAs (Decidable True)

/-! ## A profile that joins and leaves -/

namespace Sample

def home : ProfileKey := ⟨"https://relay.test", "default"⟩

def client : ClientMetadata := ⟨"test", none⟩

def aliceRequest : JoinSquadRequest where
  name := aliceName
  role := engineer
  mode := .cooperative
  client := client
  mission := some collaboration

/-- The identifiers the relay draws for Alice. -/
def aliceDrawn : Drawn where
  squadId := alphaId
  agentId := aliceAgent
  membershipId := alice
  instanceId := aliceInstance

/-- An action of the operation in progress. -/
def op (choice : Choice) : WorldStep := .act .operation choice

/-- Call `i` reaches the worker. -/
def queued (i : Nat) : List WorldStep :=
  [.relay (.arrive i), .relay (.trySend i), .relay .receive, .relay .inspect]

/-- Call `i` is run at `now` and answered. -/
def answered (i : Nat) (now : UnixMillis) : List WorldStep :=
  queued i ++ [.relay (.execute now (some aliceToken)), .relay .reply, .relay (.deliver i)]

/-- Alice joins and her session starts. -/
def joins : List WorldStep :=
  [.joinAndBind alpha aliceRequest, op .plain, op .plain, op (.issue aliceDrawn)]
    ++ answered 0 (instant 100)
    ++ [op .answered, op (.effect .done), op (.effect .done), op .plain, op .plain,
      op (.issue aliceDrawn)]
    ++ answered 1 (instant 101) ++ [op .answered, .finish .operation]

/-- Alice's leave is journalled and sent. -/
def sendsLeave : List WorldStep :=
  [.leave, op .plain, op .plain, op .plain, op .plain, op .plain, op (.random fun _ => 0),
    op (.clock ⟨⟨102, by decide⟩, by decide⟩), op (.effect .done), op (.issue aliceDrawn)]

end Sample

open Sample in
/-- Alice has left, and her journal says so. -/
theorem no_lost_leave_alice :
    ∃ w, worldLts.Reach Punctual w ∧ (2, alice) ∈ w.site.leaves ∧ w.site.relay.Effective 2
      ∧ ((∃ j ∈ w.site.disk.journal, j.binding.memberId = alice)
        ∨ ((∀ b ∈ w.site.disk.metadata, b.memberId ≠ alice)
          ∧ ∀ record ∈ w.site.disk.credential, record.binding.memberId ≠ alice)) := by
  have hrun : (Lts.follow World.step Punctual (World.fresh home 4)
      (joins ++ sendsLeave ++ answered 2 ⟨103, by decide⟩)).any (fun w =>
        decide ((2, alice) ∈ w.site.leaves)
          && w.site.relay.log.any fun e => decide (e.call = 2) && e.result.isOk) = true := by
    decide
  obtain ⟨w, hw, hcheck⟩ := Lts.exists_steps_of_follow _ hrun
  rw [Bool.and_eq_true, decide_eq_true_eq] at hcheck
  obtain ⟨e, he, hresult⟩ := List.any_eq_true.mp hcheck.2
  rw [Bool.and_eq_true, decide_eq_true_eq] at hresult
  have hreach : worldLts.Reach Punctual w := ⟨_, ⟨home, 4, rfl⟩, hw⟩
  have heffective : w.site.relay.Effective 2 := ⟨e, he, hresult⟩
  exact ⟨w, hreach, hcheck.1, heffective,
    (no_lost_leave hreach hcheck.1 (Or.inr heffective)).1⟩

open Sample in
/-- **A lost leave.** The dispatch timer fires while the worker has Alice's leave in hand; her
session takes its journal back and is ready again, and then the leave commits. -/
theorem timed_out_leave_commits :
    ¬ ∀ (w : World) (i : Nat) (member : MembershipId), worldLts.Reach Lts.always w →
        (i, member) ∈ w.site.leaves → (i ∈ w.site.relay.held ∨ w.site.relay.Effective i) →
        (∃ j ∈ w.site.disk.journal, j.binding.memberId = member)
          ∨ ((∀ b ∈ w.site.disk.metadata, b.memberId ≠ member)
            ∧ ∀ record ∈ w.site.disk.credential, record.binding.memberId ≠ member) := by
  intro hclaim
  have hrun : (Lts.follow World.step Lts.always (World.fresh home 4)
      (joins ++ sendsLeave ++ queued 2
        ++ [.relay (.expire 2), op .answered, op (.effect .done), op (.flag false),
          op (.flag false), op .plain, .finish .operation,
          .relay (.execute ⟨103, by decide⟩ none)])).any (fun w =>
        decide ((2, alice) ∈ w.site.leaves) && decide (w.site.disk.journal = none)
          && w.site.disk.metadata.any (fun b => decide (b.memberId = alice))
          && w.site.relay.log.any fun e => decide (e.call = 2) && e.result.isOk) = true := by
    decide
  obtain ⟨w, hw, hcheck⟩ := Lts.exists_steps_of_follow _ hrun
  simp only [Bool.and_eq_true, decide_eq_true_eq] at hcheck
  obtain ⟨⟨⟨hmem, hjournal⟩, hmetadata⟩, hlog⟩ := hcheck
  obtain ⟨b, hb, hmember⟩ := (Option.any_eq_true _ _).mp hmetadata
  obtain ⟨e, he, hresult⟩ := List.any_eq_true.mp hlog
  rw [Bool.and_eq_true, decide_eq_true_eq] at hresult
  rcases hclaim w 2 alice ⟨_, ⟨home, 4, rfl⟩, hw⟩ hmem (Or.inr ⟨e, he, hresult⟩) with
    ⟨j, hj, -⟩ | ⟨hforgets, -⟩
  · cases hjournal.symm.trans hj
  · exact hforgets b hb (of_decide_eq_true hmember)

end Psst
