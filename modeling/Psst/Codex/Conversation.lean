import Psst.Codex.SingleTurn

/-!
# One conversation

The thread of an activation is fixed once: it is the one that is configured, or the one that the
first launch creates and writes to the record file. Every App Server that is started later resumes
it, and every turn is asked for on it.
-/

namespace Psst

open Json

variable [SerdeJson]

/-! ## What a launch settles -/

/-- **The thread of a launch.** A thread that is resumed is the expected one, and leaves the record
file alone; one that is created is on record. -/
structure OnThread (config : AppServerConfig) (record record' : Option String)
    (threadId : Option String) : Prop where
  resumed : ∀ expected, config.thread = .resume expected →
    record' = record ∧ ∀ t, threadId = some t → t = expected
  created : config.thread = .create → ∀ t, threadId = some t → record' = some (t ++ "\n")

omit [SerdeJson] in
theorem OnThread.of_none (config : AppServerConfig) (record : Option String) :
    OnThread config record record none :=
  ⟨fun _ _ => ⟨rfl, by simp⟩, by simp⟩

/-- The thread that came of an attempt, if one did. -/
def threadGained (outcome : Option (Except AppServerError String)) : Option String :=
  outcome.bind Except.toOption

omit [SerdeJson] in
theorem threadOf_resume {config : AppServerConfig} {response : Value} {expected threadId : String}
    (hthread : config.thread = .resume expected) (h : threadOf config response = .ok threadId) :
    threadId = expected := by
  unfold threadOf at h
  split at h
  · cases h
  · rw [hthread] at h
    dsimp only at h
    split_ifs at h with hsame
    cases h
    exact hsame.symm

omit [SerdeJson] in
theorem persistThreadId_ok {record record' : Option String} {threadId : String} {fate : RecordFate}
    (h : persistThreadId record threadId fate = (.ok (), record')) :
    record' = some (threadId ++ "\n") := by
  unfold persistThreadId at h
  split_ifs at h with hthere
  · cases h
  · cases fate with
    | written =>
        cases h
        rfl
    | refused => cases h
    | broken content => cases h

theorem initializeThread_onThread {config : AppServerConfig} {record record' : Option String}
    {env : Launching} {l l' : JsonLines} {outcome : Option (Except AppServerError String)}
    (h : initializeThread config record env l = (outcome, l', record')) :
    OnThread config record record' (threadGained outcome) := by
  have hnone := OnThread.of_none config record
  unfold initializeThread at h
  split at h
  next =>
    cases h
    exact hnone
  next =>
    cases h
    exact hnone
  next =>
    split at h
    next =>
      cases h
      exact hnone
    next =>
      split at h
      next =>
        cases h
        exact hnone
      next =>
        cases h
        exact hnone
      next response _ =>
        split at h
        next =>
          cases h
          exact hnone
        next threadId hthreadOf =>
          split at h
          next expected hthread =>
            cases h
            refine ⟨fun e he => ⟨rfl, ?_⟩, fun hcreate => ?_⟩
            · intro t ht
              cases ht
              exact threadOf_resume he hthreadOf
            · rw [hthread] at hcreate
              cases hcreate
          next hthread =>
            have hresume : ∀ e, config.thread ≠ .resume e := by
              intro e he
              rw [hthread] at he
              cases he
            split at h
            next e record₁ hpersist =>
              cases h
              exact ⟨fun e he => absurd he (hresume e), by simp [threadGained, Except.toOption]⟩
            next record₁ hpersist =>
              cases h
              refine ⟨fun e he => absurd he (hresume e), fun _ t ht => ?_⟩
              cases ht
              exact persistThreadId_ok hpersist

theorem AppServerClient.launch_onThread {config : AppServerConfig} {record record' : Option String}
    {env : Launching} {outcome : Option (Except AppServerError AppServerClient)}
    {traffic : List Traffic}
    (h : AppServerClient.launch config record env = (outcome, traffic, record')) :
    OnThread config record record'
      ((outcome.bind Except.toOption).map AppServerClient.threadId) := by
  have hnone := OnThread.of_none config record
  unfold AppServerClient.launch at h
  split at h
  · cases h
    exact hnone
  · split_ifs at h
    · cases h
      exact hnone
    · split at h
      next heq =>
        cases h
        exact initializeThread_onThread heq
      next heq =>
        cases h
        exact initializeThread_onThread heq
      next heq =>
        cases h
        exact initializeThread_onThread heq

/-! ## The invariant -/

/-- **One conversation** from `s` on: no turn is asked for before there is a thread, every turn is
asked for on it, and so it stays. -/
structure Conversation (s h : HostState) : Prop where
  turns : ∀ traffic ∈ h.wire, ∀ frame ∈ turnStarts traffic,
    ∃ thread, h.config.thread = .resume thread ∧ threadIn frame = some thread
  client : ∀ c ∈ h.client, h.config.thread = .resume c.threadId
  resumed : ∀ thread, s.config.thread = .resume thread → h.config.thread = .resume thread
  created : s.config.thread = .create → ∀ thread, h.config.thread = .resume thread →
    h.record = some (thread ++ "\n")

namespace Conversation

variable {s h : HostState}

omit [SerdeJson] in
theorem start (hclient : s.client = none) (hgone : s.gone = []) : Conversation s s where
  turns := by
    intro traffic htraffic
    rw [HostState.wire, hclient, hgone] at htraffic
    cases htraffic
  client := by simp [hclient]
  resumed _ hthread := hthread
  created hcreate thread hthread := by
    rw [hcreate] at hthread
    cases hthread

omit [SerdeJson] in
theorem take (hs : Conversation s h) (result : Except AppServerError Unit) :
    Conversation s (h.take result) where
  turns := by
    intro traffic htraffic
    have hwire : (h.take result).wire = h.wire := by simp [HostState.take, HostState.wire]
    rw [hwire] at htraffic
    exact hs.turns traffic htraffic
  client c hc := by cases hc
  resumed := hs.resumed
  created := hs.created

/-- A launch without a client. -/
theorem lose (hs : Conversation s h) {env : Launching} {traffic : List Traffic}
    {outcome : Option (Except AppServerError AppServerClient)} {record : Option String}
    (hlaunch : AppServerClient.launch h.config h.record env = (outcome, traffic, record)) :
    Conversation s (h.lose traffic record) where
  turns := by
    intro t ht frame hframe
    have hmem : t ∈ h.wire ∨ t = traffic := by
      simp only [HostState.wire, HostState.lose, List.mem_append, List.mem_singleton] at ht ⊢
      tauto
    rcases hmem with hold | rfl
    · exact hs.turns t hold frame hframe
    · rw [(AppServerClient.launch_quiet hlaunch).1] at hframe
      cases hframe
  client := hs.client
  resumed := hs.resumed
  created hcreate thread hthread := by
    show record = some (thread ++ "\n")
    rw [((AppServerClient.launch_onThread hlaunch).resumed thread hthread).1]
    exact hs.created hcreate thread hthread

/-- **The launch that has a client.** -/
theorem install (hs : Conversation s h) {env : Launching} {traffic : List Traffic}
    {client : AppServerClient} {record : Option String}
    (hlaunch : AppServerClient.launch h.config h.record env
      = (some (.ok client), traffic, record)) :
    Conversation s (h.install client record) := by
  have hquiet := ((AppServerClient.launch_quiet hlaunch).2 client rfl).1
  have hon := AppServerClient.launch_onThread hlaunch
  have hgone : ∀ t ∈ (h.install client record).wire, ∀ frame ∈ turnStarts t,
      ∃ thread, h.config.thread = .resume thread ∧ threadIn frame = some thread := by
    intro t ht frame hframe
    rcases List.mem_append.mp ht with hold | hnew
    · exact hs.turns t (List.mem_append_left _ hold) frame hframe
    · rw [List.mem_singleton.mp hnew, hquiet] at hframe
      cases hframe
  cases hthread : h.config.thread with
  | resume expected =>
      obtain ⟨hrecord, hexpected⟩ := hon.resumed expected hthread
      have hsame : (h.install client record).config = h.config := by
        simp only [HostState.install, hthread]
      refine ⟨?_, ?_, ?_, ?_⟩
      · rw [hsame]
        exact hgone
      · intro c hc
        cases hc
        rw [hsame, hexpected client.threadId rfl]
        exact hthread
      · rw [hsame]
        exact hs.resumed
      · intro hcreate thread hresumed
        rw [hsame] at hresumed
        show record = some (thread ++ "\n")
        rw [hrecord]
        exact hs.created hcreate thread hresumed
  | create =>
      have hnow : (h.install client record).config.thread = .resume client.threadId := by
        simp only [HostState.install, hthread]
      refine ⟨?_, ?_, ?_, ?_⟩
      · -- nothing was asked for before there was a thread
        intro t ht frame hframe
        obtain ⟨thread, hresumed, -⟩ := hgone t ht frame hframe
        rw [hthread] at hresumed
        cases hresumed
      · intro c hc
        cases hc
        exact hnow
      · intro thread hresumed
        have hbefore := hs.resumed thread hresumed
        rw [hthread] at hbefore
        cases hbefore
      · intro hcreate thread hresumed
        rw [hnow] at hresumed
        cases hresumed
        exact hon.created hthread client.threadId rfl

omit [SerdeJson] in
/-- The client's wire grows, by requests on its thread only. -/
theorem grow (hs : Conversation s h) {c client : AppServerClient} (hclient : h.client = some c)
    (hthread : client.threadId = c.threadId)
    (hturns : ∀ frame ∈ turnStarts client.protocol.transcript,
      frame ∈ turnStarts c.protocol.transcript ∨ threadIn frame = some c.threadId) :
    Conversation s { h with client := some client } where
  turns := by
    intro t ht frame hframe
    rcases List.mem_append.mp ht with hold | hnew
    · exact hs.turns t (List.mem_append_left _ hold) frame hframe
    · rw [List.mem_singleton.mp hnew] at hframe
      rcases hturns frame hframe with hbefore | hon
      · apply hs.turns c.protocol.transcript _ frame hbefore
        rw [HostState.wire, hclient]
        simp
      · exact ⟨c.threadId, hs.client c hclient, hon⟩
  client d hd := by
    cases hd
    rw [hthread]
    exact hs.client c hclient
  resumed := hs.resumed
  created := hs.created

theorem hosts {w : CodexSystem} (hs : Conversation s w.host) {host : HostState} {site : TaskSite}
    (hhost : w.Hosts host site) : Conversation s host := by
  cases hhost with
  | hang hsite hlaunch => exact hs.lose hlaunch
  | fail hsite hlaunch => exact hs.lose hlaunch
  | install hsite hlaunch => exact hs.install hlaunch
  | turn hsite hclient hturn =>
      cases AppServerClient.startTurn_asked hturn with
      | unsent e hthread htranscript hheard =>
          refine hs.grow hclient hthread fun frame hframe => Or.inl ?_
          rw [htranscript] at hframe
          exact hframe
      | sent traffic hthread htranscript hquiet =>
          refine hs.grow hclient hthread fun frame hframe => ?_
          rw [htranscript, turnStarts_append,
            turnStarts_cons (AppServerClient.startsTurn_turnFrame _), hquiet] at hframe
          rcases List.mem_append.mp hframe with hbefore | hnow
          · exact Or.inl hbefore
          · right
            rw [List.mem_singleton.mp hnow]
            exact AppServerClient.threadIn_turnFrame _
  | abandon hsite => exact hs.take _
  | waited hsite hclient hwaited =>
      obtain ⟨traffic, hgrows, hthread, -⟩ := AppServerClient.waitCompleted_grows hwaited
      refine hs.grow hclient hthread fun frame hframe => Or.inl ?_
      rw [hgrows.transcript, turnStarts_append, hgrows.quiet, List.append_nil] at hframe
      exact hframe
  | reap hsite => exact hs.take _

theorem step {w w' : CodexSystem} {l : CodexStep} (hs : Conversation s w.host)
    (hmove : w.Moves l w') : Conversation s w'.host := by
  cases hmove with
  | task hgo htask =>
      cases htask with
      | host hhost => exact hs.hosts hhost
      | pass | decide | opened | released => exact hs
  | closer hcloser hcmove =>
      cases hcmove with
      | reap status hsite => exact hs.take _
      | _ => exact hs
  | notice | abort | close => exact hs

end Conversation

/-- **An activation has one conversation**, whatever is retried, cancelled or dropped. -/
theorem one_conversation {s w : CodexSystem} (hinit : codexLts.init s)
    (h : codexLts.Steps Lts.always s w) : Conversation s.host w.host := by
  apply h.keeps (P := fun w => Conversation s.host w.host)
  · intro w l w' hw _ hstep
    exact hw.step (CodexSystem.step_moves hstep)
  · obtain ⟨policy, machine, profile, squad, config, record, -, rfl⟩ := hinit
    exact .start rfl rfl

open Sample in
omit [SerdeJson] in
/-- Alice's two App Servers were asked on the one thread she has configured. -/
theorem one_conversation_alice :
    letI : SerdeJson := hostJson
    ∃ w, codexLts.Steps Lts.always codexStart w ∧ askedTwice w.host.wire = true
      ∧ Conversation codexStart.host w.host := by
  let _ : SerdeJson := hostJson
  obtain ⟨w, hw, hcheck⟩ := Lts.exists_steps_of_follow _ (Bool.and_eq_true_iff.mp turn_runs).2
  exact ⟨w, hw, hcheck, one_conversation codexStart_init hw⟩

end Psst
