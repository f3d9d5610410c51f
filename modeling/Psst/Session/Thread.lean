import Psst.Session.Invariant

/-!
# The threads of a session

Who may write the files and the session is decided by the lifecycle: a thread that is not the
owner leaves them alone. So the owner sees nothing but the relay move, and whatever it has
learned from the relay stays true.
-/

namespace Psst

theorem Slot.other_other (slot : Slot) : slot.other.other = slot := by cases slot <;> rfl

/-- The thread that may write the files and the session. -/
def Site.owner (w : Site) : Option Slot :=
  match w.session with
  | none => some .operation
  | some live =>
    match live.lifecycle with
    | .leaving | .left => some .operation
    | .recovering => some .pulse
    | _ => none

namespace Site

variable [Sha256]

/-- What its owner in `slot` sees happen between two of its own actions. -/
structure Passes (m : Mode) (slot : Slot) (w w' : Site) : Prop where
  inv : w.Inv m
  inv' : w'.Inv m
  same : ∃ relay gate running,
    w' = { w with relay := relay, gate := gate, running := running }
      ∧ (slot = .operation → running = w.running)
      ∧ (relay = w.relay ∨ ∃ l, m.Admits w l ∧ w.relay.step l = some relay)

/-- How the thread in `slot` treats the other one. -/
structure Courteous (slot : Slot) (w w' : Site) : Prop where
  key : w'.key = w.key
  running : w'.running = w.running
  profile : w'.session.map LiveSession.profile = w.session.map LiveSession.profile
  relay : w'.relay = w.relay ∨ ∃ command, w.relay.step (.issue command) = some w'.relay
  frame : w.owner = some slot.other → ∃ relay gate, w' = { w with relay := relay, gate := gate }

/-- What goes from the disk belongs to a membership that is over, or was never bound. -/
structure Justified (w w' : Site) : Prop where
  metadata : ∀ b ∈ w.disk.metadata, (∀ b' ∈ w'.disk.metadata, b'.memberId ≠ b.memberId) →
    w.relay.store.Finished b.memberId
  credential : ∀ record ∈ w.disk.credential,
    (∀ record' ∈ w'.disk.credential, record'.binding.memberId ≠ record.binding.memberId) →
    w.relay.store.Finished record.binding.memberId
      ∨ (record.binding.memberId ∉ w.bound
        ∧ (w.running = some .joinAndBind ∨ w.running = some .recover))

/-- The thread in `slot` among the others. -/
def arena (m : Mode) (slot : Slot) : Arena Action Answer Site where
  perform a w r w' :=
    ∃ choice, (m.tidy = true → w.TidyAct a choice) ∧ w.perform slot a choice = some (r, w')
  inv := Inv m
  interferes w w' :=
    Passes m slot w w' ∨ (w.Inv m ∧ w'.Inv m ∧ Courteous slot.other w w')
  guar w w' := Courteous slot w w' ∧ (m.monotone = true → w.Justified w')

variable {m : Mode} {slot : Slot} {w w' t u : Site}

/-! ## What the others may do -/

/-- The owner is left alone. -/
theorem Passes.of_courteous (hw : w.Inv m) (hw' : w'.Inv m) (h : Courteous slot.other w w')
    (hown : w.owner = some slot) : w.Passes m slot w' := by
  obtain ⟨relay, gate, rfl⟩ := h.frame (by rw [Slot.other_other]; exact hown)
  refine ⟨hw, hw', relay, gate, w.running, rfl, fun _ => rfl, ?_⟩
  rcases h.relay with heq | ⟨command, hstep⟩
  · exact Or.inl heq
  · exact Or.inr ⟨.issue command, m.admits_issue w command, hstep⟩

/-- Time passes for an owner. -/
abbrev Later (m : Mode) (slot : Slot) : Site → Site → Prop := Relation.ReflTransGen (Passes m slot)

/-- Everything but the relay and the locks. -/
structure Same (w w' : Site) : Prop where
  key : w'.key = w.key
  disk : w'.disk = w.disk
  session : w'.session = w.session
  leaves : w'.leaves = w.leaves
  waiting : w'.waiting = w.waiting
  bound : w'.bound = w.bound

omit [Sha256] in
theorem Same.owner (h : w.Same w') : w'.owner = w.owner := by
  unfold Site.owner
  rw [h.session]

theorem Passes.toSame (h : w.Passes m slot w') : w.Same w' := by
  obtain ⟨-, -, relay, gate, running, rfl, -, -⟩ := h
  exact ⟨rfl, rfl, rfl, rfl, rfl, rfl⟩

theorem Later.toSame (h : w.Later m slot w') : w.Same w' := by
  induction h with
  | refl => exact ⟨rfl, rfl, rfl, rfl, rfl, rfl⟩
  | tail _ hlast ih =>
      have hsame := hlast.toSame
      exact ⟨hsame.key.trans ih.key, hsame.disk.trans ih.disk, hsame.session.trans ih.session,
        hsame.leaves.trans ih.leaves, hsame.waiting.trans ih.waiting, hsame.bound.trans ih.bound⟩

theorem Later.running (h : w.Later m .operation w') : w'.running = w.running := by
  induction h with
  | refl => rfl
  | tail _ hlast ih =>
      obtain ⟨-, -, relay, gate, running, rfl, hrunning, -⟩ := hlast
      exact (hrunning rfl).trans ih

/-- What a relay step keeps, and the locks do not matter to, lasts. -/
theorem Later.keeps {K : Site → Prop}
    (hlocks : ∀ (w : Site) gate running, K w → K { w with gate := gate, running := running })
    (hrelay : ∀ (w : Site) l r, w.Inv m → m.Admits w l → w.relay.step l = some r → K w →
      K { w with relay := r })
    (h : w.Later m slot w') (hw : K w) : K w' := by
  induction h with
  | refl => exact hw
  | tail _ hlast ih =>
      obtain ⟨hinv, -, relay, gate, running, rfl, -, rfl | ⟨l, hadmits, hstep⟩⟩ := hlast
      · exact hlocks _ gate running ih
      · exact hlocks _ gate running (hrelay _ l relay hinv hadmits hstep ih)

theorem Later.grows (h : w.Later m slot w') : w.relay.store.Grows w'.relay.store := by
  refine h.keeps (K := fun u => w.relay.store.Grows u.relay.store) (fun _ _ _ hu => hu) ?_
    (.refl _)
  exact fun u l r _ _ hstep hu => hu.trans (Relay.step_grows hstep)

/-- An owner sees only time pass. -/
theorem rely_later (hown : w.owner = some slot) (h : (arena m slot).rely w w') :
    w.Later m slot w' := by
  induction h with
  | refl => exact .refl
  | tail _ hlast ih =>
      refine ih.tail ?_
      rcases hlast with hpasses | ⟨hinv, hinv', hcourteous⟩
      · exact hpasses
      · exact .of_courteous hinv hinv' hcourteous (ih.toSame.owner.trans hown)

/-- The operation in progress is the operation in progress. -/
theorem rely_running (h : (arena m .operation).rely w w') : w'.running = w.running := by
  induction h with
  | refl => rfl
  | tail _ hlast ih =>
      rcases hlast with hpasses | ⟨-, -, hcourteous⟩
      · obtain ⟨-, -, relay, gate, running, rfl, hrunning, -⟩ := hpasses
        exact (hrunning rfl).trans ih
      · exact hcourteous.running.trans ih

/-- What anybody sees. -/
structure Drifts (w w' : Site) : Prop where
  key : w'.key = w.key
  profile : w'.session.map LiveSession.profile = w.session.map LiveSession.profile
  grows : w.relay.store.Grows w'.relay.store

theorem rely_drifts (h : (arena m slot).rely w w') : w.Drifts w' := by
  induction h with
  | refl => exact ⟨rfl, rfl, .refl _⟩
  | tail _ hlast ih =>
      rcases hlast with hpasses | ⟨-, -, hcourteous⟩
      · have hlater : Later m slot _ _ := .single hpasses
        exact ⟨hlater.toSame.key.trans ih.key,
          (congrArg _ hlater.toSame.session).trans ih.profile, ih.grows.trans hlater.grows⟩
      · refine ⟨hcourteous.key.trans ih.key, hcourteous.profile.trans ih.profile,
          ih.grows.trans ?_⟩
        rcases hcourteous.relay with heq | ⟨command, hstep⟩
        · rw [heq]
          exact .refl _
        · exact Relay.step_grows hstep

/-! ## Calls in progress -/

/-- Call `i` carries the command, and if it has run, then on a store with `P`. -/
structure Calls (w : Site) (i : Nat) (command : StoreCommand) (P : Store → Prop) : Prop where
  asked : w.relay.Asked i command
  now : P w.relay.store
  ran : w.relay.RanOn i P

/-- No leave of this profile runs after call `i`. -/
def Latest (w : Site) (i : Nat) : Prop :=
  ∀ p ∈ w.leaves, ¬ [i, p.1].Sublist w.relay.schedule

variable {i : Nat} {command : StoreCommand} {P : Store → Prop}

theorem Calls.later (h : w.Calls i command P) (hP : ∀ s t : Store, s.Grows t → P s → P t)
    (hlater : w.Later m slot w') : w'.Calls i command P := by
  refine hlater.keeps (K := fun u => u.Calls i command P)
    (fun _ _ _ hu => ⟨hu.asked, hu.now, hu.ran⟩) ?_ h
  exact fun u l r hinv _ hstep hu =>
    ⟨hu.asked.step hstep, hP _ _ (Relay.step_grows hstep) hu.now,
      hu.ran.step hinv.sane.relay hu.now hstep⟩

theorem delivers_later {arrival : Arrival} (h : w.relay.Delivers i arrival)
    (hlater : w.Later m slot w') : w'.relay.Delivers i arrival :=
  hlater.keeps (K := fun u => u.relay.Delivers i arrival) (fun _ _ _ hu => hu)
    (fun _ _ _ _ _ hstep hu => hu.step hstep) h

theorem Settled.later {member : MembershipId} (hm : m.punctual = true) (h : w.Settled member)
    (hlater : w.Later m slot w') : w'.Settled member :=
  hlater.keeps (K := fun u => u.Settled member) (fun _ _ _ hu => hu)
    (fun _ _ _ hinv hl hstep hu => hu.relayStep hinv.sane (hl.2 hm) hstep) h

/-- Nothing is queued behind call `i` while no leave is waited for. -/
theorem Latest.later (hm : m.punctual = true) (h : w.Latest i) (hquiet : w.waiting = none)
    (hlater : w.Later m slot w') : w'.Latest i := by
  refine (hlater.keeps (K := fun u => u.Latest i ∧ u.waiting = none) (fun _ _ _ hu => hu) ?_
    ⟨h, hquiet⟩).1
  rintro u l r - hl hstep ⟨hu, hquiet⟩
  refine ⟨fun p hp hsub => ?_, hquiet⟩
  rcases Relay.step_schedule hstep with hdrop | ⟨j, rfl, happend⟩
  · exact hu p hp (hsub.trans hdrop)
  · rw [show Relay.schedule r = _ from happend, List.sublist_append_iff] at hsub
    obtain ⟨front, back, hpair, hfront, hback⟩ := hsub
    -- the last of the pair is the call just queued, or both were there before
    rcases List.eq_nil_or_concat back with rfl | ⟨rest, last, rfl⟩
    · rw [List.append_nil] at hpair
      exact hu p hp (hpair ▸ hfront)
    · have hlast : last = j := by
        have hmem : last ∈ [j] := hback.subset (by simp)
        exact List.mem_singleton.mp hmem
      have hp1 : p.1 = last := by
        have hends := congrArg List.getLast? hpair
        simpa using hends
      have hwaiting := (hl.2 hm).2.1 j rfl (by rw [← hlast, ← hp1]; exact List.mem_map_of_mem hp)
      rw [hquiet] at hwaiting
      cases hwaiting

/-- **A session found in its membership after all its leaves.** None of them happened. -/
theorem Latest.settled (h : w.Latest i) (hsane : w.Sane) (hquiet : w.waiting = none)
    {credential : Credential} {member : MembershipId}
    (hcalls : w.Calls i command fun s => s.Issued credential member)
    (hcommand : command.requiresJoined = some credential) {reply : Reply}
    (hanswer : w.relay.Answered i (.ok reply)) : w.Settled member := by
  rintro p hp rfl hpending
  refine h p hp ?_
  rcases hpending with hheld | heffective | hwaiting
  · obtain ⟨e, he, rfl, -⟩ := hanswer
    have hran : [e.call].Sublist (w.relay.log.map Execution.call) :=
      List.singleton_sublist.mpr (List.mem_map_of_mem he)
    exact hran.append (List.singleton_sublist.mpr hheld)
  · exact hsane.relay.precedes_leave (hsane.leaves p hp) heffective hanswer hcalls.asked hcommand
      hcalls.ran
  · rw [hquiet] at hwaiting
    cases hwaiting

end Site

end Psst
