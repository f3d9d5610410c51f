import Mathlib.Data.List.Induction
import Psst.Relay.Coherence
import Psst.Store.Growth
import Psst.Store.Ownership

/-!
# The log is the store's history

The store of a relay is what the logged commands made of the empty database, each applied to
the state its predecessors left, so every relay run is a run of the store. Nothing else
writes: a handler that gives up, a crash and a restart leave the store alone.
-/

namespace Psst

variable [Sha256]

/-- The log of a store: every entry's result is what its command gave on the state before it,
or a fault that changed nothing. -/
inductive History : List Execution → Store → Prop where
  | start : History [] Store.empty
  | execute {log : List Execution} {s : Store} (h : History log s) (call : Nat)
      (command : StoreCommand) (now : UnixMillis) (generated : Option ResumeToken) :
      History (log ++ [⟨call, command, now, generated, (s.execute command now generated).1⟩])
        (s.execute command now generated).2
  | fault {log : List Execution} {s : Store} (h : History log s) (call : Nat)
      (command : StoreCommand) (now : UnixMillis) {error : RepositoryError}
      (herror : error = .databaseBusy ∨ error = .internal) :
      History (log ++ [⟨call, command, now, none, .error error⟩]) s

/-- The operation an execution committed. -/
def Execution.op (e : Execution) : Op := e.command.op e.now e.generated

/-- The store after the committed operations of a log. -/
def replay (log : List Execution) : Store :=
  Store.empty.run ((log.filter (·.result.isOk)).map Execution.op)

theorem replay_append_ok {log : List Execution} {e : Execution} (h : e.result.isOk = true) :
    replay (log ++ [e]) = (replay log).exec e.op := by
  simp [replay, Store.run, List.filter_append, h]

theorem replay_append_error {log : List Execution} {e : Execution}
    (h : e.result.isOk = false) : replay (log ++ [e]) = replay log := by
  simp [replay, List.filter_append, h]

/-- Entries that committed nothing can be left out. -/
theorem replay_filter {log : List Execution} {p : Execution → Bool}
    (h : ∀ e ∈ log, e.result.isOk = true → p e = true) : replay (log.filter p) = replay log := by
  have hfilter : (log.filter p).filter (·.result.isOk) = log.filter (·.result.isOk) := by
    rw [List.filter_filter]
    refine List.filter_congr fun e he => ?_
    cases hok : e.result.isOk with
    | false => simp
    | true => simp [h e he hok]
  rw [replay, hfilter, replay]

/-- **The store is the replay of its log.** -/
theorem History.store_eq {log : List Execution} {s : Store} (h : History log s) :
    s = replay log := by
  induction h with
  | start => rfl
  | @execute log s _ call command now generated ih =>
      cases hresult : (s.execute command now generated).1 with
      | ok reply =>
          rw [replay_append_ok rfl, Store.execute_snd, ih]
          rfl
      | error e =>
          rw [replay_append_error rfl, Store.execute_of_error hresult, ih]
  | fault _ _ _ _ _ ih => rw [replay_append_error rfl, ih]

/-- Every logged command satisfies `ok`, so the store is reached by such operations. -/
theorem History.reach {ok : Store → Op → Prop} {log : List Execution} {s : Store}
    (h : History log s) (hok : ∀ e ∈ log, ∀ t, ok t e.op) : storeLts.Reach ok s := by
  rw [h.store_eq]
  refine reach_run _ fun op hop t => ?_
  obtain ⟨e, he, rfl⟩ := List.mem_map.mp hop
  exact hok e (List.mem_filter.mp he).1 t

/-- What the last entry of a log says. -/
theorem History.last {log : List Execution} {e : Execution} {s' : Store}
    (h : History (log ++ [e]) s') :
    ∃ s, History log s
      ∧ ((e.result = (s.execute e.command e.now e.generated).1
          ∧ s' = (s.execute e.command e.now e.generated).2)
        ∨ ((e.result = .error .databaseBusy ∨ e.result = .error .internal) ∧ s' = s)) := by
  generalize hlog : log ++ [e] = log' at h
  cases h with
  | start => exact absurd hlog (by simp)
  | @execute log₀ s h call command now generated =>
      obtain ⟨rfl, hlast⟩ := List.append_inj' hlog rfl
      cases hlast
      exact ⟨s, h, Or.inl ⟨rfl, rfl⟩⟩
  | @fault log₀ _ h call command now error herror =>
      obtain ⟨rfl, hlast⟩ := List.append_inj' hlog rfl
      cases hlast
      exact ⟨s', h, Or.inr ⟨herror.imp (congrArg _) (congrArg _), rfl⟩⟩

/-- A log splits at every point, and the later part is a run of the store. -/
theorem History.split {before : List Execution} (after : List Execution) :
    ∀ {s : Store}, History (before ++ after) s →
      ∃ t, History before t ∧ s = t.run ((after.filter (·.result.isOk)).map Execution.op) := by
  induction after using List.reverseRecOn with
  | nil => exact fun {s} h => ⟨s, by simpa using h, rfl⟩
  | append_singleton after e ih =>
      intro s h
      rw [← List.append_assoc] at h
      obtain ⟨s₁, h₁, -⟩ := h.last
      obtain ⟨t, ht, -⟩ := ih h₁
      refine ⟨t, ht, ?_⟩
      rw [h.store_eq, ht.store_eq]
      simp [replay, Store.run, List.filter_append]

/-- **What a log entry says.** Its command ran on the store its predecessors left, unless the
database failed, and the later entries lead from there to the present. -/
theorem History.entry {log : List Execution} {s : Store} (h : History log s) {e : Execution}
    (he : e ∈ log) :
    ∃ before after t t', log = before ++ e :: after ∧ History before t
      ∧ ((e.result = (t.execute e.command e.now e.generated).1
          ∧ t' = (t.execute e.command e.now e.generated).2)
        ∨ ((e.result = .error .databaseBusy ∨ e.result = .error .internal) ∧ t' = t))
      ∧ s = t'.run ((after.filter (·.result.isOk)).map Execution.op) := by
  obtain ⟨before, after, rfl⟩ := List.append_of_mem he
  rw [List.append_cons] at h
  obtain ⟨t', ht', hs⟩ := h.split
  obtain ⟨t, ht, hresult⟩ := ht'.last
  exact ⟨before, after, t, t', rfl, ht, hresult, hs⟩

/-! ## The relay keeps a history -/

namespace Relay

/-- The coherent relays whose log is the history of their store, and whose commands and
refusals all come from the handlers. -/
structure Sound (r : Relay) : Prop extends r.Coherent where
  history : History r.log r.store
  policy : ∀ c ∈ r.calls, ∀ policy ∈ c.command.policy, policy = .default
  refusal : ∀ c ∈ r.calls, ∀ code, c.stage = .rejected code → code.beforeDispatch = true

variable {r r' : Relay}

/-- **What a step does to the log.** It runs the command in hand, or leaves the log and the
store as they are. -/
theorem step_log {l : RelayStep} (h : r.step l = some r') :
    (r'.log = r.log ∧ r'.store = r.store)
      ∨ (∃ i c now generated, l = .execute now generated ∧ r.thread = .executing i
          ∧ r.calls[i]? = some c
          ∧ r'.log = r.log ++ [⟨i, c.command, now, generated,
              (r.store.execute c.command now generated).1⟩]
          ∧ r'.store = (r.store.execute c.command now generated).2)
      ∨ (∃ i c now error, l = .fault now error ∧ (error = .databaseBusy ∨ error = .internal)
          ∧ r.thread = .executing i ∧ r.calls[i]? = some c
          ∧ r'.log = r.log ++ [⟨i, c.command, now, none, .error error⟩]
          ∧ r'.store = r.store) := by
  cases l with
  | execute now generated =>
      simp only [step] at h
      split at h
      · next i hthread =>
          obtain ⟨c, hc, rfl⟩ := Option.map_eq_some_iff.mp h
          exact Or.inr (Or.inl ⟨i, c, now, generated, rfl, hthread, hc, rfl, rfl⟩)
      · cases h
  | fault now error =>
      simp only [step] at h
      split at h
      · next i hthread =>
          rw [Option.ite_none_right_eq_some] at h
          obtain ⟨c, hc, rfl⟩ := Option.map_eq_some_iff.mp h.2
          exact Or.inr (Or.inr ⟨i, c, now, error, rfl, h.1, hthread, hc, rfl, rfl⟩)
      · cases h
  | stop =>
      simp only [step] at h
      split at h
      · cases h
        exact Or.inl ⟨log_closeAll .., closeAll_store ..⟩
      · cases h
  | panic =>
      simp only [step] at h
      split at h
      · cases h
        exact Or.inl ⟨log_closeAll .., closeAll_store ..⟩
      · cases h
  | trySend i =>
      simp only [step] at h
      split at h
      · cases h
        left
        unfold trySend
        split
        · exact ⟨rfl, rfl⟩
        · exact ⟨rfl, rfl⟩
        · split <;> exact ⟨rfl, rfl⟩
      · cases h
  | stopAccepting =>
      cases h
      exact Or.inl ⟨rfl, rfl⟩
  | restart =>
      cases h
      exact Or.inl ⟨rfl, rfl⟩
  | issue | reject | arrive | receive | inspect | cancel | reply | deliver | expire | deadline
  | disconnect | raiseShutdown | dropSender =>
      left
      simp only [step] at h
      split at h <;> simp_all <;> grind [setStage, setChannel]

/-- **What a step does to a call.** Its command stays, once its handler has answered so does
its stage, and only its timer lets it time out. -/
theorem step_call {l : RelayStep} (h : r.step l = some r') {j : Nat} {c : Call}
    (hc : r.calls[j]? = some c) :
    ∃ c', r'.calls[j]? = some c' ∧ c.Moves (l = .expire j) c' := by
  have hsame : r'.calls = r.calls → ∃ c', r'.calls[j]? = some c' ∧ c.Moves (l = .expire j) c' :=
    fun heq => ⟨c, by rw [heq, hc], rfl, Or.inl rfl⟩
  have hwork : ∀ {i : Nat} {stage}, (r.calls[i]?).map Call.stage = some stage →
      stage.final = false → ∀ d : Call, r.calls[i]? = some d → d.stage.final = false := by
    intro i stage hstage hfinal d hd
    rw [hd] at hstage
    cases hstage
    exact hfinal
  have hset : ∀ {i : Nat} {stage stage'}, (r.calls[i]?).map Call.stage = some stage →
      stage.final = false → stage'.Entered (l = .expire i) →
      ∃ c', (r.setStage i stage').calls[j]? = some c' ∧ c.Moves (l = .expire j) c' :=
    fun hstage hfinal hentered =>
      setStage_moves (fun i => l = .expire i) (hwork hstage hfinal) hentered hc
  cases l with
  | issue command =>
      simp only [step, Option.ite_none_right_eq_some, Option.some.injEq] at h
      obtain ⟨-, rfl⟩ := h
      have hlt := (List.getElem?_eq_some_iff.mp hc).1
      exact ⟨c, (List.getElem?_append_left hlt).trans hc, rfl, Or.inl rfl⟩
  | reject i code =>
      simp only [step] at h
      split at h
      · next hcode hstage => cases h; exact hset hstage rfl hcode
      · cases h
  | arrive i =>
      simp only [step] at h
      split at h
      · next hstage =>
          cases h
          refine hset hstage rfl ?_
          split <;> trivial
      · cases h
  | trySend i =>
      simp only [step] at h
      split at h
      · next hstage => cases h; exact trySend_moves (RelayStep.trySend i = .expire ·) (hwork hstage rfl) hc
      · cases h
  | receive =>
      simp only [step] at h
      split at h
      · cases h; exact hsame rfl
      · simp only [Option.ite_none_left_eq_some, Option.some.injEq] at h
        obtain ⟨-, rfl⟩ := h
        exact hsame rfl
      · cases h
  | inspect =>
      simp only [step] at h
      split at h
      · next i hthread =>
          split at h
          · cases h
            exact setChannel_moves i .closed hc
          · cases h
            exact hsame rfl
      · cases h
  | cancel =>
      simp only [step] at h
      split at h
      · next i queue hthread hqueue =>
          cases h
          exact setChannel_moves i .closed hc
      · cases h
  | stop =>
      simp only [step] at h
      split at h
      · cases h
        exact stop_moves hc
      · cases h
  | execute now generated =>
      simp only [step] at h
      split at h
      · obtain ⟨d, hd, rfl⟩ := Option.map_eq_some_iff.mp h
        exact hsame rfl
      · cases h
  | fault now error =>
      simp only [step] at h
      split at h
      · rw [Option.ite_none_right_eq_some] at h
        obtain ⟨d, hd, rfl⟩ := Option.map_eq_some_iff.mp h.2
        exact hsame rfl
      · cases h
  | panic =>
      simp only [step] at h
      split at h
      · next i hthread =>
          cases h
          -- only the channels change, first the one in hand and then the queued ones
          show ∃ c', (({ r.setChannel i .closed with thread := .stopped } : Relay).closeAll
            r.queue).calls[j]? = some c' ∧ _
          rw [getElem?_closeAll]
          show ∃ c', ((r.setChannel i .closed).calls[j]?).map _ = some c' ∧ _
          rw [getElem?_setChannel, hc]
          refine ⟨_, rfl, ?_, Or.inl ?_⟩ <;> grind
      · cases h
  | reply =>
      simp only [step] at h
      split at h
      · next i result hthread =>
          cases h
          exact setChannel_moves i (.sent result) hc
      · cases h
  | deliver i =>
      simp only [step] at h
      split at h
      · next command result hd =>
          cases h
          refine hset (by rw [hd]; rfl) rfl ?_
          cases result <;> trivial
      · next hd => cases h; exact hset (by rw [hd]; rfl) rfl trivial
      · cases h
  | expire i =>
      simp only [step] at h
      split at h
      · next hd =>
          cases h
          have hentered : (Stage.returned (.error .timeout)).Entered
              (RelayStep.expire i = .expire i) := rfl
          exact hset (by rw [hd]; rfl) rfl hentered
      · cases h
  | deadline i =>
      simp only [step] at h
      split at h
      · next hstage => cases h; exact hset hstage rfl trivial
      · next hstage => cases h; exact hset hstage rfl trivial
      · cases h
  | disconnect i =>
      simp only [step] at h
      split at h
      · next hstage => cases h; exact hset hstage rfl trivial
      · next hstage => cases h; exact hset hstage rfl trivial
      · cases h
  | stopAccepting =>
      cases h
      exact hsame rfl
  | raiseShutdown =>
      simp only [step, Option.ite_none_left_eq_some, Option.some.injEq] at h
      obtain ⟨-, rfl⟩ := h
      exact hsame rfl
  | dropSender =>
      simp only [step, Option.ite_none_right_eq_some, Option.some.injEq] at h
      obtain ⟨-, rfl⟩ := h
      exact hsame rfl
  | restart =>
      cases h
      refine ⟨Call.abandon c, by simp [restart, hc], ?_, ?_⟩
      · unfold Call.abandon
        split <;> rfl
      · unfold Call.abandon
        split
        · next hstage => exact Or.inr ⟨by rw [hstage]; rfl, trivial⟩
        · next hstage => exact Or.inr ⟨by rw [hstage]; rfl, trivial⟩
        · exact Or.inl rfl

/-- New calls come from `issue` alone. -/
theorem step_length {l : RelayStep} (h : r.step l = some r')
    (hissue : ∀ command, l ≠ .issue command) : r'.calls.length = r.calls.length := by
  cases l with
  | issue command => exact absurd rfl (hissue command)
  | stop =>
      simp only [step] at h
      split at h
      · cases h
        exact length_closeAll ..
      · cases h
  | panic =>
      simp only [step] at h
      split at h
      · cases h
        exact (length_closeAll ..).trans (by simp [setChannel])
      · cases h
  | trySend i =>
      simp only [step] at h
      split at h
      · cases h
        unfold trySend
        grind [setStage]
      · cases h
  | stopAccepting | restart =>
      cases h
      simp [restart]
  | reject | arrive | receive | inspect | cancel | execute | fault | reply | deliver | expire
  | deadline | disconnect | raiseShutdown | dropSender =>
      simp only [step] at h
      split at h <;> grind [setStage, setChannel]

/-- **Where a call comes from.** It was there before, or it was just issued. -/
theorem step_call_inv {l : RelayStep} (h : r.step l = some r') {j : Nat} {c' : Call}
    (hc' : r'.calls[j]? = some c') :
    (∃ c, r.calls[j]? = some c ∧ c.Moves (l = .expire j) c')
      ∨ (l = .issue c'.command ∧ (∀ policy ∈ c'.command.policy, policy = .default)
          ∧ j = r.calls.length ∧ c'.stage = .inFlight ∧ r'.calls = r.calls ++ [c']) := by
  rcases Nat.lt_or_ge j r.calls.length with hlt | hge
  · obtain ⟨d, hd, hmoves⟩ := step_call h (List.getElem?_eq_getElem hlt)
    obtain rfl : d = c' := Option.some.inj (hd.symm.trans hc')
    exact Or.inl ⟨_, List.getElem?_eq_getElem hlt, hmoves⟩
  · right
    by_cases hissue : ∃ command, l = .issue command
    · obtain ⟨command, rfl⟩ := hissue
      simp only [step, Option.ite_none_right_eq_some, Option.some.injEq] at h
      obtain ⟨hdefault, rfl⟩ := h
      rw [List.getElem?_append_right hge, List.getElem?_singleton] at hc'
      split at hc'
      · cases hc'
        exact ⟨rfl, hdefault, by omega, rfl, rfl⟩
      · cases hc'
    · have hlength := step_length h fun command heq => hissue ⟨command, heq⟩
      have := (List.getElem?_eq_some_iff.mp hc').1
      omega

theorem Sound.step (hr : r.Sound) {l : RelayStep} (h : r.step l = some r') : r'.Sound where
  toCoherent := hr.toCoherent.step h
  history := by
    rcases step_log h with ⟨hlog, hstore⟩ | ⟨i, c, now, generated, -, -, -, hlog, hstore⟩
      | ⟨i, c, now, error, -, herror, -, -, hlog, hstore⟩
    · rw [hlog, hstore]
      exact hr.history
    · rw [hlog, hstore]
      exact hr.history.execute i c.command now generated
    · rw [hlog, hstore]
      exact hr.history.fault i c.command now herror
  policy c' hc' := by
    obtain ⟨j, hj⟩ := List.getElem?_of_mem hc'
    rcases step_call_inv h hj with ⟨c, hc, hmoves⟩ | ⟨-, hdefault, -⟩
    · rw [hmoves.command]
      exact hr.policy c (List.mem_of_getElem? hc)
    · exact hdefault
  refusal c' hc' code hcode := by
    obtain ⟨j, hj⟩ := List.getElem?_of_mem hc'
    rcases step_call_inv h hj with ⟨c, hc, hmoves⟩ | ⟨-, -, -, hstage, -⟩
    · rcases hmoves.stage with hstage | ⟨-, hentered⟩
      · exact hr.refusal c (List.mem_of_getElem? hc) code (hstage ▸ hcode)
      · rw [hcode] at hentered
        exact hentered
    · rw [hstage] at hcode
      cases hcode

theorem fresh_sound (capacity : Nat) : (Relay.fresh capacity).Sound :=
  ⟨fresh_coherent capacity, .start, fun _ hc => absurd hc List.not_mem_nil,
    fun _ hc => absurd hc List.not_mem_nil⟩

theorem reach_sound {ok : Relay → RelayStep → Prop} (h : relayLts.Reach ok r) : r.Sound := by
  refine h.invariant ?_ fun _ _ _ hr _ hstep => hr.step hstep
  rintro _ ⟨capacity, rfl⟩
  exact fresh_sound capacity

/-- Every logged command carries the default lease policy, if any. -/
theorem Sound.log_policy (hr : r.Sound) {e : Execution} (he : e ∈ r.log) :
    ∀ policy ∈ e.op.policy, policy = .default := by
  obtain ⟨c, hc, hcommand⟩ := hr.ranCall e he
  rw [Execution.op, StoreCommand.op_policy, ← hcommand]
  exact hr.policy c (List.mem_of_getElem? hc)

/-- **The store of a relay is a store run under whole-millisecond leases.** -/
theorem Sound.reach_store (hr : r.Sound) : storeLts.Reach WholeMillis r.store := by
  refine hr.history.reach fun e he _ policy hpolicy => ?_
  rw [hr.log_policy he policy hpolicy]
  exact LeasePolicy.default_atLeastOneMilli

theorem step_grows {l : RelayStep} (hstep : r.step l = some r') :
    r.store.Grows r'.store := by
  rcases step_log hstep with ⟨-, hstore⟩ | ⟨_, _, _, _, _, _, _, -, hstore⟩
    | ⟨_, _, _, _, _, _, _, _, -, hstore⟩
  · rw [hstore]
    exact .refl _
  · rw [hstore, Store.execute_snd]
    exact r.store.exec_grows _
  · rw [hstore]
    exact .refl _

end Relay

end Psst
