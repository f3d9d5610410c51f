import Psst.Relay.Worker

/-!
# What a dispatcher may conclude

The worker, the queue and the handlers agree about every call: a command is in the queue or
was run, never both, and is run at most once; an answer is the result of that one run; a
refusal means the command was never queued and never will be. Only `Timeout` says nothing.
-/

namespace Psst

/-! ## What each party knows of a command -/

/-- The command the worker took from the queue and has not run. -/
def Thread.holding : Thread → List Nat
  | .received i | .executing i => [i]
  | _ => []

/-- The handler has not reached the sender. -/
def Stage.early : Stage → Bool
  | .inFlight | .rejected _ | .admitted => true
  | _ => false

/-- The handler has answered, or never will. -/
def Stage.final : Stage → Bool
  | .inFlight | .admitted | .awaiting => false
  | _ => true

/-- What a stage says about the command: that it was never sent, or what it was answered. -/
def Stage.Means (untouched : Prop) (answered : Except RepositoryError Reply → Prop) :
    Stage → Prop
  | .inFlight | .rejected _ | .admitted => untouched
  | .returned (.error .rateLimited) | .returned (.error .unavailable) => untouched
  | .returned (.error (.store e)) => answered (.error e)
  | .returned (.ok reply) => answered (.ok reply)
  | .returned (.error .timeout) | .awaiting | .timedOut | .dropped => True

/-- What a reply channel says about the command. -/
def Channel.Means (untouched : Prop) (answered : Except RepositoryError Reply → Prop) :
    Channel → Prop
  | .unsent => True
  | .sent result => answered result
  | .closed => untouched

section Means

variable {untouched untouched' : Prop} {answered answered' : Except RepositoryError Reply → Prop}

theorem Stage.Means.mono {stage : Stage} (h : stage.Means untouched answered)
    (hu : untouched → untouched') (ha : ∀ result, answered result → answered' result) :
    stage.Means untouched' answered' := by
  unfold Stage.Means at h ⊢
  split <;> simp_all

theorem Channel.Means.mono {channel : Channel} (h : channel.Means untouched answered)
    (hu : untouched → untouched') (ha : ∀ result, answered result → answered' result) :
    channel.Means untouched' answered' := by
  cases channel with
  | unsent => trivial
  | sent result => exact ha result h
  | closed => exact hu h

/-- An early stage knows that nothing was sent. -/
theorem Stage.Means.of_early {stage : Stage} (h : stage.Means untouched answered)
    (hearly : stage.early = true) : untouched := by
  cases stage with
  | inFlight => exact h
  | rejected _ => exact h
  | admitted => exact h
  | awaiting => cases hearly
  | returned _ => cases hearly
  | timedOut => cases hearly
  | dropped => cases hearly

end Means

/-- What it takes to enter a stage: a timeout takes an expired timer, a refusal a code the
handlers refuse with. -/
def Stage.Entered (expires : Prop) : Stage → Prop
  | .returned (.error .timeout) => expires
  | .rejected code => code.beforeDispatch = true
  | _ => True

/-- How a call may change in a step: its command stays, and so does its stage once the
handler is through. -/
structure Call.Moves (expires : Prop) (c c' : Call) : Prop where
  command : c'.command = c.command
  stage : c'.stage = c.stage ∨ (c.stage.final = false ∧ c'.stage.Entered expires)

namespace Relay

/-- The commands that may still run, oldest first. -/
def held (r : Relay) : List Nat := r.thread.holding ++ r.queue

def Ran (r : Relay) (i : Nat) : Prop := ∃ e ∈ r.log, e.call = i

/-- Call `i` was run, with this result. -/
def Answered (r : Relay) (i : Nat) (result : Except RepositoryError Reply) : Prop :=
  ∃ e ∈ r.log, e.call = i ∧ e.result = result

/-- Call `i` was not run and is not waiting to be. -/
def Untouched (r : Relay) (i : Nat) : Prop := i ∉ r.held ∧ ¬ r.Ran i

/-- What the relay knows about call `i`. -/
structure CallOk (r : Relay) (i : Nat) (c : Call) : Prop where
  early : c.stage.early = true → c.channel = .unsent
  stage : c.stage.Means (r.Untouched i) (r.Answered i)
  channel : c.channel.Means (r.Untouched i) (r.Answered i)

structure Coherent (r : Relay) : Prop where
  heldNodup : r.held.Nodup
  heldCall : ∀ i ∈ r.held, i < r.calls.length
  heldFresh : ∀ i ∈ r.held, ¬ r.Ran i
  ranCall : ∀ e ∈ r.log, ∃ c : Call, r.calls[e.call]? = some c ∧ c.command = e.command
  ranOnce : (r.log.map Execution.call).Nodup
  replying : ∀ i result, r.thread = .replying i result → r.Answered i result
  call : ∀ i (c : Call), r.calls[i]? = some c → r.CallOk i c

variable {r r' : Relay} {i j : Nat}

theorem Answered.ran {result : Except RepositoryError Reply} (h : r.Answered i result) :
    r.Ran i :=
  let ⟨e, he, hcall, _⟩ := h
  ⟨e, he, hcall⟩

/-- **One result per call.** -/
theorem Coherent.answered_unique (h : r.Coherent) {a b : Except RepositoryError Reply}
    (ha : r.Answered i a) (hb : r.Answered i b) : a = b := by
  obtain ⟨e, he, hei, rfl⟩ := ha
  obtain ⟨f, hf, hfi, rfl⟩ := hb
  rw [List.inj_on_of_nodup_map h.ranOnce he hf (hei.trans hfi.symm)]

/-! ## Updates of single calls -/

@[simp] theorem getElem?_setStage {stage : Stage} :
    (r.setStage i stage).calls[j]? =
      (r.calls[j]?).map fun c => if i = j then { c with stage := stage } else c := by
  simp [setStage, List.getElem?_modify]

@[simp] theorem getElem?_setChannel {channel : Channel} :
    (r.setChannel i channel).calls[j]? =
      (r.calls[j]?).map fun c => if i = j then { c with channel := channel } else c := by
  simp [setChannel, List.getElem?_modify]

theorem getElem?_closeAll (ids : List Nat) :
    ∀ r : Relay, (r.closeAll ids).calls[j]? =
      (r.calls[j]?).map fun c => if j ∈ ids then { c with channel := .closed } else c := by
  induction ids with
  | nil => intro r; simp [closeAll]
  | cons i ids ih =>
      intro r
      have hfold : r.closeAll (i :: ids) = (r.setChannel i .closed).closeAll ids := rfl
      rw [hfold, ih, getElem?_setChannel, Option.map_map]
      congr 1
      funext c
      by_cases hij : i = j
      · subst hij
        by_cases hmem : i ∈ ids <;> simp [hmem]
      · have hji : j ≠ i := fun h => hij h.symm
        by_cases hmem : j ∈ ids <;> simp [hij, hji, hmem]

theorem length_closeAll (ids : List Nat) :
    ∀ r : Relay, (r.closeAll ids).calls.length = r.calls.length := by
  induction ids with
  | nil => exact fun _ => rfl
  | cons i ids ih =>
      intro r
      exact (ih (r.setChannel i .closed)).trans (by simp [setChannel])

theorem log_closeAll (ids : List Nat) : ∀ r : Relay, (r.closeAll ids).log = r.log := by
  induction ids with
  | nil => exact fun _ => rfl
  | cons i ids ih => exact fun r => ih (r.setChannel i .closed)


theorem closeAll_store (ids : List Nat) : ∀ r : Relay, (r.closeAll ids).store = r.store := by
  induction ids with
  | nil => exact fun _ => rfl
  | cons i ids ih => exact fun r => ih (r.setChannel i .closed)

theorem setStage_moves (expires : Nat → Prop) {stage : Stage} {c : Call}
    (hwork : ∀ d : Call, r.calls[i]? = some d → d.stage.final = false)
    (hentered : stage.Entered (expires i)) (hc : r.calls[j]? = some c) :
    ∃ c', (r.setStage i stage).calls[j]? = some c' ∧ c.Moves (expires j) c' := by
  rw [getElem?_setStage, hc]
  refine ⟨_, rfl, ?_⟩
  split
  · next hij =>
      subst hij
      exact ⟨rfl, Or.inr ⟨hwork c hc, hentered⟩⟩
  · exact ⟨rfl, Or.inl rfl⟩

theorem setChannel_moves (i : Nat) (channel : Channel) {c : Call} {expires : Prop}
    (hc : r.calls[j]? = some c) :
    ∃ c', (r.setChannel i channel).calls[j]? = some c' ∧ c.Moves expires c' := by
  rw [getElem?_setChannel, hc]
  refine ⟨_, rfl, ?_⟩
  split <;> exact ⟨rfl, Or.inl rfl⟩

theorem stop_moves {c : Call} {expires : Prop} (hc : r.calls[j]? = some c) :
    ∃ c', r.stop.calls[j]? = some c' ∧ c.Moves expires c' := by
  show ∃ c', (r.closeAll r.queue).calls[j]? = some c' ∧ _
  rw [getElem?_closeAll, hc]
  refine ⟨_, rfl, ?_⟩
  split <;> exact ⟨rfl, Or.inl rfl⟩

theorem trySend_moves (expires : Nat → Prop) {c : Call}
    (hwork : ∀ d : Call, r.calls[i]? = some d → d.stage.final = false)
    (hc : r.calls[j]? = some c) :
    ∃ c', (r.trySend i).calls[j]? = some c' ∧ c.Moves (expires j) c' := by
  unfold trySend
  split
  · exact setStage_moves expires hwork trivial hc
  · exact setStage_moves expires hwork trivial hc
  · split
    · exact setStage_moves expires hwork trivial hc
    · have hawaiting : Stage.awaiting.Entered (expires i) := trivial
      exact setStage_moves expires hwork hawaiting hc

/-! ## Coherence is kept -/

theorem CallOk.mono {c : Call} (h : r.CallOk i c) (hheld : i ∈ r'.held → i ∈ r.held)
    (hlog : r'.log = r.log) : r'.CallOk i c := by
  have hu : r.Untouched i → r'.Untouched i := fun hu =>
    ⟨fun hi => hu.1 (hheld hi), fun ⟨e, he, hcall⟩ => hu.2 ⟨e, hlog ▸ he, hcall⟩⟩
  have ha : ∀ result, r.Answered i result → r'.Answered i result :=
    fun result ⟨e, he, hcall⟩ => ⟨e, hlog ▸ he, hcall⟩
  exact ⟨h.early, h.stage.mono hu ha, h.channel.mono hu ha⟩

/-- What becomes of a call when the worker lets go of commands it never ran: its channel may
close, and its handler may be dropped. -/
structure Released (r r' : Relay) (i : Nat) (c c' : Call) : Prop where
  command : c'.command = c.command
  stage : c'.stage = c.stage ∨ c'.stage = .dropped
  channel : c'.channel = c.channel ∨ (c'.channel = .closed ∧ i ∈ r.held ∧ i ∉ r'.held)

/-- Letting go of held commands keeps coherence. -/
theorem Coherent.release (h : r.Coherent) (hlog : r'.log = r.log)
    (hheld : r'.held.Sublist r.held) (hlength : r'.calls.length = r.calls.length)
    (hcalls : ∀ i (c' : Call), r'.calls[i]? = some c' →
      ∃ c, r.calls[i]? = some c ∧ r.Released r' i c c')
    (hthread : ∀ i result, r'.thread = .replying i result → r.thread = .replying i result) :
    r'.Coherent where
  heldNodup := hheld.nodup h.heldNodup
  heldCall i hi := hlength ▸ h.heldCall i (hheld.subset hi)
  heldFresh i hi := fun ⟨e, he, hcall⟩ =>
    h.heldFresh i (hheld.subset hi) ⟨e, hlog ▸ he, hcall⟩
  ranCall e he := by
    obtain ⟨c, hc, hcommand⟩ := h.ranCall e (hlog ▸ he)
    have hlt : e.call < r'.calls.length := hlength ▸ (List.getElem?_eq_some_iff.mp hc).1
    obtain ⟨c₀, hc₀, hrel⟩ := hcalls _ _ (List.getElem?_eq_getElem hlt)
    obtain rfl : c₀ = c := Option.some.inj (hc₀.symm.trans hc)
    exact ⟨_, List.getElem?_eq_getElem hlt, hrel.command.trans hcommand⟩
  ranOnce := hlog ▸ h.ranOnce
  replying i result ht := by
    obtain ⟨e, he, hcall⟩ := h.replying i result (hthread i result ht)
    exact ⟨e, hlog ▸ he, hcall⟩
  call i c' hc' := by
    obtain ⟨c, hc, hrel⟩ := hcalls i c' hc'
    have hok : r'.CallOk i c := (h.call i c hc).mono (fun hi => hheld.subset hi) hlog
    constructor
    · intro hearly
      rcases hrel.stage with hstage | hstage
      · rcases hrel.channel with hchannel | ⟨-, hi, -⟩
        · rw [hchannel]
          exact hok.early (hstage ▸ hearly)
        · -- an early call is not in the worker's hands
          exact absurd hi ((h.call i c hc).stage.of_early (hstage ▸ hearly)).1
      · rw [hstage] at hearly
        cases hearly
    · rcases hrel.stage with hstage | hstage
      · rw [hstage]
        exact hok.stage
      · rw [hstage]
        trivial
    · rcases hrel.channel with hchannel | ⟨hchannel, hi, hi'⟩
      · rw [hchannel]
        exact hok.channel
      · rw [hchannel]
        exact ⟨hi', fun ⟨e, he, hcall⟩ => h.heldFresh i hi ⟨e, hlog ▸ he, hcall⟩⟩

/-- A step of one handler keeps coherence when its new stage says the truth. -/
theorem Coherent.setStage (h : r.Coherent) {stage : Stage}
    (hearly : stage.early = true → ∀ c, r.calls[i]? = some c → c.channel = .unsent)
    (hstage : stage.Means (r.Untouched i) (r.Answered i)) : (r.setStage i stage).Coherent where
  heldNodup := h.heldNodup
  heldCall j hj := by
    have := h.heldCall j hj
    simpa [Relay.setStage] using this
  heldFresh := h.heldFresh
  ranCall e he := by
    obtain ⟨c, hc, hcommand⟩ := h.ranCall e he
    rw [getElem?_setStage, hc]
    refine ⟨_, rfl, ?_⟩
    split <;> exact hcommand
  ranOnce := h.ranOnce
  replying := h.replying
  call j c' hc' := by
    rw [getElem?_setStage, Option.map_eq_some_iff] at hc'
    obtain ⟨c, hc, rfl⟩ := hc'
    have hok := h.call j c hc
    split
    · next hij =>
        subst hij
        exact ⟨fun he => hearly he c hc, hstage, hok.channel⟩
    · exact hok.mono (fun hj => hj) rfl

/-- A new call knows nothing, and nothing knows it. -/
theorem Coherent.issue (h : r.Coherent) (command : StoreCommand) :
    Coherent { r with calls := r.calls ++ [⟨command, .inFlight, .unsent⟩] } where
  heldNodup := h.heldNodup
  heldCall i hi := by
    have := h.heldCall i hi
    simp only [List.length_append, List.length_cons, List.length_nil]
    omega
  heldFresh := h.heldFresh
  ranCall e he := by
    obtain ⟨c, hc, hcommand⟩ := h.ranCall e he
    have hlt := (List.getElem?_eq_some_iff.mp hc).1
    exact ⟨c, by rw [List.getElem?_append_left hlt, hc], hcommand⟩
  ranOnce := h.ranOnce
  replying := h.replying
  call i c hc := by
    rcases Nat.lt_or_ge i r.calls.length with hlt | hge
    · rw [List.getElem?_append_left hlt] at hc
      exact (h.call i c hc).mono (fun hi => hi) rfl
    · have huntouched : r.Untouched i := by
        constructor
        · intro hi
          have := h.heldCall i hi
          omega
        · rintro ⟨e, he, rfl⟩
          obtain ⟨c, hc, -⟩ := h.ranCall e he
          have := (List.getElem?_eq_some_iff.mp hc).1
          omega
      rw [List.getElem?_append_right hge, List.getElem?_singleton] at hc
      split at hc
      · cases hc
        exact ⟨fun _ => rfl, huntouched, trivial⟩
      · cases hc

/-- Sending puts an untouched command at the end of the queue. -/
theorem Coherent.enqueue (h : r.Coherent) {c : Call} (hc : r.calls[i]? = some c)
    (hstage : c.stage = .admitted) :
    Coherent { r.setStage i .awaiting with queue := r.queue ++ [i] } := by
  have hok := h.call i c hc
  have hearly : c.stage.early = true := by rw [hstage]; rfl
  have huntouched : r.Untouched i := hok.stage.of_early hearly
  have hheld : ({ r.setStage i .awaiting with queue := r.queue ++ [i] } : Relay).held
      = r.held ++ [i] := (List.append_assoc ..).symm
  have hset : (r.setStage i .awaiting).Coherent := h.setStage (fun he => by cases he) trivial
  refine ⟨?_, ?_, ?_, hset.ranCall, hset.ranOnce, hset.replying, ?_⟩
  · rw [hheld]
    refine List.nodup_append.mpr ⟨h.heldNodup, List.nodup_singleton i, ?_⟩
    rintro a ha b hb rfl
    exact huntouched.1 (List.mem_singleton.mp hb ▸ ha)
  · rw [hheld]
    intro j hj
    rcases List.mem_append.mp hj with hj | hj
    · exact hset.heldCall j hj
    · rw [List.mem_singleton.mp hj]
      simpa [Relay.setStage] using (List.getElem?_eq_some_iff.mp hc).1
  · rw [hheld]
    intro j hj
    rcases List.mem_append.mp hj with hj | hj
    · exact h.heldFresh j hj
    · rw [List.mem_singleton.mp hj]
      exact huntouched.2
  · intro j c' hc'
    have hok' := hset.call j c' hc'
    rcases eq_or_ne i j with rfl | hne
    · -- the sent command: its channel was unsent, so it promises nothing
      have hc'' := hc'
      simp only [getElem?_setStage, hc, Option.map_some, if_true, Option.some.injEq] at hc''
      subst hc''
      refine ⟨(fun he => by cases he), trivial, ?_⟩
      rw [hok.early hearly]
      trivial
    · refine hok'.mono (fun hj => ?_) rfl
      rw [hheld] at hj
      rcases List.mem_append.mp hj with hj | hj
      · exact hj
      · exact absurd (List.mem_singleton.mp hj).symm hne

theorem Coherent.trySend (h : r.Coherent) {c : Call} (hc : r.calls[i]? = some c)
    (hstage : c.stage = .admitted) : (r.trySend i).Coherent := by
  have huntouched : r.Untouched i :=
    (h.call i c hc).stage.of_early (by rw [hstage]; rfl)
  have hrefused : ∀ e : DispatchError, e = .unavailable ∨ e = .rateLimited →
      (r.setStage i (.returned (.error e))).Coherent := by
    rintro e (rfl | rfl) <;> exact h.setStage (fun he => by cases he) huntouched
  unfold Relay.trySend
  split
  · exact hrefused _ (Or.inl rfl)
  · exact hrefused _ (Or.inl rfl)
  · split
    · exact hrefused _ (Or.inr rfl)
    · exact h.enqueue hc hstage

/-- Running the command in hand: it leaves the worker's hands and enters the log. -/
theorem Coherent.run (h : r.Coherent) {c : Call} (hthread : r.thread = .executing i)
    (hc : r.calls[i]? = some c) (store : Store) (now : UnixMillis)
    (generated : Option ResumeToken) (result : Except RepositoryError Reply) :
    Coherent
      { r with
        store := store
        thread := .replying i result
        log := r.log ++ [⟨i, c.command, now, generated, result⟩] } := by
  have hheld : r.held = i :: r.queue := by simp [held, hthread, Thread.holding]
  have hi : i ∈ r.held := by rw [hheld]; exact List.mem_cons_self ..
  have hnodup := h.heldNodup
  rw [hheld, List.nodup_cons] at hnodup
  have hlast : ∀ e ∈ r.log, e.call ≠ i := fun e he heq => h.heldFresh i hi ⟨e, he, heq⟩
  have hans : ∀ j res, r.Answered j res →
      ∃ e ∈ r.log ++ [⟨i, c.command, now, generated, result⟩], e.call = j ∧ e.result = res :=
    fun j res ⟨e, he, heq⟩ => ⟨e, List.mem_append_left _ he, heq⟩
  refine ⟨hnodup.2, ?_, ?_, ?_, ?_, ?_, ?_⟩
  · exact fun j hj => h.heldCall j (by rw [hheld]; exact List.mem_cons_of_mem _ hj)
  · rintro j hj ⟨e, he, rfl⟩
    rcases List.mem_append.mp he with he | he
    · exact h.heldFresh e.call (by rw [hheld]; exact List.mem_cons_of_mem _ hj) ⟨e, he, rfl⟩
    · rw [List.mem_singleton.mp he] at hj
      exact hnodup.1 hj
  · intro e he
    rcases List.mem_append.mp he with he | he
    · exact h.ranCall e he
    · rw [List.mem_singleton.mp he]
      exact ⟨c, hc, rfl⟩
  · rw [List.map_append]
    refine List.nodup_append.mpr ⟨h.ranOnce, List.nodup_singleton _, ?_⟩
    rintro a ha b hb rfl
    obtain ⟨e, he, rfl⟩ := List.mem_map.mp ha
    exact hlast e he (List.mem_singleton.mp hb)
  · rintro j res hj
    cases hj
    exact ⟨_, List.mem_append_right _ (List.mem_singleton_self _), rfl, rfl⟩
  · intro j c' hc'
    have hok := h.call j c' hc'
    rcases eq_or_ne i j with rfl | hne
    · -- the command was in hand, so nobody knew anything of it
      have hu : ¬ r.Untouched i := fun hu => hu.1 hi
      have ha : ∀ res, ¬ r.Answered i res := fun res ha => h.heldFresh i hi ha.ran
      exact ⟨hok.early, hok.stage.mono (fun hx => absurd hx hu) fun res hx => absurd hx (ha res),
        hok.channel.mono (fun hx => absurd hx hu) fun res hx => absurd hx (ha res)⟩
    · refine ⟨hok.early, hok.stage.mono ?_ (hans j), hok.channel.mono ?_ (hans j)⟩ <;>
      · rintro ⟨hunheld, hunran⟩
        refine ⟨fun hj => hunheld (by rw [hheld]; exact List.mem_cons_of_mem _ hj), ?_⟩
        rintro ⟨e, he, rfl⟩
        rcases List.mem_append.mp he with he | he
        · exact hunran ⟨e, he, rfl⟩
        · rw [List.mem_singleton.mp he] at hne
          exact hne rfl

/-- Sending the reply. -/
theorem Coherent.reply (h : r.Coherent) {result : Except RepositoryError Reply}
    (hthread : r.thread = .replying i result) :
    Coherent { r.setChannel i (.sent result) with thread := .idle } := by
  have hans := h.replying i result hthread
  have hheld : ({ r.setChannel i (.sent result) with thread := .idle } : Relay).held = r.held := by
    simp [held, hthread, Thread.holding, Relay.setChannel]
  refine ⟨hheld ▸ h.heldNodup, ?_, ?_, ?_, h.ranOnce, (fun _ _ hx => by cases hx), ?_⟩
  · intro j hj
    have := h.heldCall j (hheld ▸ hj)
    simpa [Relay.setChannel] using this
  · exact fun j hj => h.heldFresh j (hheld ▸ hj)
  · intro e he
    obtain ⟨c, hc, hcommand⟩ := h.ranCall e he
    rw [getElem?_setChannel, hc]
    refine ⟨_, rfl, ?_⟩
    split <;> exact hcommand
  · intro j c' hc'
    rw [getElem?_setChannel, Option.map_eq_some_iff] at hc'
    obtain ⟨c, hc, rfl⟩ := hc'
    have hok : CallOk { r.setChannel i (.sent result) with thread := .idle } j c :=
      (h.call j c hc).mono (fun hj => hheld ▸ hj) rfl
    split
    · next hij =>
        subst hij
        refine ⟨fun hearly => ?_, hok.stage, hans⟩
        exact absurd hans.ran ((h.call i c hc).stage.of_early hearly).2
    · exact hok

/-- Letting go of the whole queue. -/
theorem Coherent.stop (h : r.Coherent) : r.stop.Coherent := by
  refine h.release (log_closeAll r.queue r) (List.nil_sublist _) (length_closeAll r.queue r) ?_
    (fun _ _ ht => by cases ht)
  intro i c' hc'
  replace hc' : (r.closeAll r.queue).calls[i]? = some c' := hc'
  rw [getElem?_closeAll, Option.map_eq_some_iff] at hc'
  obtain ⟨c, hc, rfl⟩ := hc'
  refine ⟨c, hc, ?_⟩
  split
  · next hi => exact ⟨rfl, Or.inl rfl, Or.inr ⟨rfl, List.mem_append_right _ hi, List.not_mem_nil⟩⟩
  · exact ⟨rfl, Or.inl rfl, Or.inl rfl⟩

/-- Cancelling the oldest held command. -/
theorem Coherent.closeHead (h : r.Coherent) (hheld : r.held = i :: r'.held)
    (hcalls : r'.calls = (r.setChannel i .closed).calls) (hlog : r'.log = r.log)
    (hthread : ∀ j result, r'.thread ≠ .replying j result) : r'.Coherent := by
  have hnodup := h.heldNodup
  rw [hheld, List.nodup_cons] at hnodup
  refine h.release hlog ?_ ?_ ?_ (fun j result ht => absurd ht (hthread j result))
  · rw [hheld]
    exact List.sublist_cons_self ..
  · rw [hcalls]
    simp [Relay.setChannel]
  · intro j c' hc'
    rw [hcalls, getElem?_setChannel, Option.map_eq_some_iff] at hc'
    obtain ⟨c, hc, rfl⟩ := hc'
    refine ⟨c, hc, ?_⟩
    split
    · next hij =>
        subst hij
        exact ⟨rfl, Or.inl rfl, Or.inr ⟨rfl, by rw [hheld]; exact List.mem_cons_self .., hnodup.1⟩⟩
    · exact ⟨rfl, Or.inl rfl, Or.inl rfl⟩

/-- Steps that touch no call and hold the same commands. -/
theorem Coherent.frame (h : r.Coherent) (hheld : r'.held = r.held) (hcalls : r'.calls = r.calls)
    (hlog : r'.log = r.log)
    (hthread : ∀ i result, r'.thread = .replying i result → r.thread = .replying i result) :
    r'.Coherent := by
  refine h.release hlog (hheld ▸ List.Sublist.refl _) (by rw [hcalls]) ?_ hthread
  intro i c hc
  rw [hcalls] at hc
  exact ⟨c, hc, rfl, Or.inl rfl, Or.inl rfl⟩

theorem Coherent.restart (h : r.Coherent) : r.restart.Coherent := by
  refine h.release rfl (List.nil_sublist _) (by simp [Relay.restart]) ?_
    (fun _ _ ht => by cases ht)
  intro i c' hc'
  simp only [Relay.restart, List.getElem?_map, Option.map_eq_some_iff] at hc'
  obtain ⟨c, hc, rfl⟩ := hc'
  refine ⟨c, hc, ?_⟩
  unfold Call.abandon
  split <;> exact ⟨rfl, by simp, Or.inl rfl⟩

variable [Sha256]

/-- **Every action keeps coherence.** -/
theorem Coherent.step (h : r.Coherent) {l : RelayStep} (hstep : r.step l = some r') :
    r'.Coherent := by
  cases l with
  | issue command =>
      simp only [Relay.step, Option.ite_none_right_eq_some, Option.some.injEq] at hstep
      obtain ⟨-, rfl⟩ := hstep
      exact h.issue command
  | reject i code =>
      simp only [Relay.step] at hstep
      split at hstep
      · next hstage =>
          cases hstep
          obtain ⟨c, hc, hstage⟩ := Option.map_eq_some_iff.mp hstage
          have hearly : c.stage.early = true := by rw [hstage]; rfl
          refine h.setStage (fun _ d hd => ?_) ((h.call i c hc).stage.of_early hearly)
          obtain rfl : c = d := Option.some.inj (hc.symm.trans hd)
          exact (h.call i c hc).early hearly
      · cases hstep
  | arrive i =>
      simp only [Relay.step] at hstep
      split at hstep
      · next hstage =>
          cases hstep
          obtain ⟨c, hc, hstage⟩ := Option.map_eq_some_iff.mp hstage
          have hearly : c.stage.early = true := by rw [hstage]; rfl
          have huntouched := (h.call i c hc).stage.of_early hearly
          split
          · refine h.setStage (fun _ d hd => ?_) huntouched
            obtain rfl : c = d := Option.some.inj (hc.symm.trans hd)
            exact (h.call i c hc).early hearly
          · exact h.setStage (fun he => by cases he) huntouched
      · cases hstep
  | trySend i =>
      simp only [Relay.step] at hstep
      split at hstep
      · next hstage =>
          cases hstep
          obtain ⟨c, hc, hstage⟩ := Option.map_eq_some_iff.mp hstage
          exact h.trySend hc hstage
      · cases hstep
  | receive =>
      simp only [Relay.step] at hstep
      split at hstep
      · next hthread hqueue =>
          cases hstep
          refine h.frame ?_ rfl rfl (fun _ _ ht => by cases ht)
          simp [held, hthread, hqueue, Thread.holding]
      · next hthread hqueue =>
          simp only [Option.ite_none_left_eq_some, Option.some.injEq] at hstep
          obtain ⟨-, rfl⟩ := hstep
          refine h.frame ?_ rfl rfl (fun _ _ ht => by cases ht)
          simp [held, hthread, hqueue, Thread.holding]
      · cases hstep
  | inspect =>
      simp only [Relay.step] at hstep
      split at hstep
      · next i hthread =>
          cases hstep
          split
          · refine h.closeHead ?_ rfl rfl (fun _ _ ht => by cases ht)
            simp [held, hthread, Thread.holding, Relay.setChannel]
          · refine h.frame ?_ rfl rfl (fun _ _ ht => by cases ht)
            simp [held, hthread, Thread.holding]
      · cases hstep
  | cancel =>
      simp only [Relay.step] at hstep
      split at hstep
      · next i queue hthread hqueue =>
          cases hstep
          refine h.closeHead ?_ rfl rfl (fun _ _ ht => ?_)
          · simp [held, hthread, hqueue, Thread.holding, Relay.setChannel]
          · simp [Relay.setChannel, hthread] at ht
      · cases hstep
  | stop =>
      simp only [Relay.step] at hstep
      split at hstep
      · cases hstep
        exact h.stop
      · cases hstep
  | execute now generated =>
      simp only [Relay.step] at hstep
      split at hstep
      · next i hthread =>
          obtain ⟨c, hc, rfl⟩ := Option.map_eq_some_iff.mp hstep
          exact h.run hthread hc _ now generated _
      · cases hstep
  | fault now error =>
      simp only [Relay.step] at hstep
      split at hstep
      · next i hthread =>
          rw [Option.ite_none_right_eq_some] at hstep
          obtain ⟨c, hc, rfl⟩ := Option.map_eq_some_iff.mp hstep.2
          exact h.run hthread hc r.store now none _
      · cases hstep
  | panic =>
      simp only [Relay.step] at hstep
      split at hstep
      · next i hthread =>
          cases hstep
          have hclosed : Coherent { r.setChannel i .closed with thread := .stopped } := by
            refine h.closeHead ?_ rfl rfl (fun _ _ ht => by cases ht)
            simp [held, hthread, Thread.holding, Relay.setChannel]
          exact hclosed.stop
      · cases hstep
  | reply =>
      simp only [Relay.step] at hstep
      split at hstep
      · next i result hthread =>
          cases hstep
          exact h.reply hthread
      · cases hstep
  | deliver i =>
      simp only [Relay.step] at hstep
      split at hstep
      · next command result hc =>
          cases hstep
          have hans : r.Answered i result := (h.call i _ hc).channel
          refine h.setStage (fun he => by cases he) ?_
          cases result with
          | ok reply => exact hans
          | error e => exact hans
      · next command hc =>
          cases hstep
          exact h.setStage (fun he => by cases he) (h.call i _ hc).channel
      · cases hstep
  | expire i =>
      simp only [Relay.step] at hstep
      split at hstep
      · cases hstep
        exact h.setStage (fun he => by cases he) trivial
      · cases hstep
  | deadline i =>
      simp only [Relay.step] at hstep
      split at hstep
      · cases hstep
        exact h.setStage (fun he => by cases he) trivial
      · cases hstep
        exact h.setStage (fun he => by cases he) trivial
      · cases hstep
  | disconnect i =>
      simp only [Relay.step] at hstep
      split at hstep
      · cases hstep
        exact h.setStage (fun he => by cases he) trivial
      · cases hstep
        exact h.setStage (fun he => by cases he) trivial
      · cases hstep
  | stopAccepting =>
      cases hstep
      exact h.frame rfl rfl rfl (fun _ _ ht => ht)
  | raiseShutdown =>
      simp only [Relay.step, Option.ite_none_left_eq_some, Option.some.injEq] at hstep
      obtain ⟨-, rfl⟩ := hstep
      exact h.frame rfl rfl rfl (fun _ _ ht => ht)
  | dropSender =>
      simp only [Relay.step, Option.ite_none_right_eq_some, Option.some.injEq] at hstep
      obtain ⟨-, rfl⟩ := hstep
      exact h.frame rfl rfl rfl (fun _ _ ht => ht)
  | restart =>
      cases hstep
      exact h.restart

omit [Sha256] in
theorem fresh_coherent (capacity : Nat) : (Relay.fresh capacity).Coherent where
  heldNodup := List.nodup_nil
  heldCall i hi := absurd hi List.not_mem_nil
  heldFresh i hi := absurd hi List.not_mem_nil
  ranCall e he := absurd he List.not_mem_nil
  ranOnce := List.nodup_nil
  replying _ _ ht := by cases ht
  call i c hc := by cases hc

theorem reach_coherent {ok : Relay → RelayStep → Prop} (h : relayLts.Reach ok r) :
    r.Coherent := by
  refine h.invariant ?_ fun _ _ _ hr _ hstep => hr.step hstep
  rintro _ ⟨capacity, rfl⟩
  exact fresh_coherent capacity

end Relay

end Psst
