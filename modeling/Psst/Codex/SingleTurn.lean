import Psst.Codex.Turns

/-!
# Runs of the activation and their turns

As long as no request for a turn is severed from its answer, a failure that is retried means that
no turn has begun: the App Server refused it, or was never asked. Where the pipes break in between,
the request is made again.
-/

namespace Psst

open Json

namespace TaskSite

/-- The turn that was started and whose end has not been seen. -/
def turn : TaskSite → Option String
  | started (.ok turnId) | accepted turnId | completing turnId => some turnId
  | _ => none

/-- Another turn may be asked for from here on. -/
def mayAsk : TaskSite → Bool
  | locking | opening | polling | releasing _ | observed _ | pausing | waking _ | entering _
  | hosting | launching | turning | started (.error .retryableBeforeStart) | backoff | retrying
  | reaping (.ok ()) | completed (.ok ()) => true
  | abandoning e => decide (classifyStart e = .retryableBeforeStart)
  | _ => false

end TaskSite

/-- The pipes do not break between a request for a turn that was completely written and its
answer. -/
def Unsevered [SerdeJson] (w : CodexSystem) : CodexStep → Prop
  | .task (.turn sink) => ∀ c ∈ w.host.client, c.severed sink = false
  | _ => True

instance [SerdeJson] (w : CodexSystem) (l : CodexStep) : Decidable (Unsevered w l) := by
  unfold Unsevered
  split <;> infer_instance

/-! ## The invariant -/

/-- The client's one request for a turn was answered with this turn. -/
structure AppServerClient.Running (c : AppServerClient) (turnId : String) : Prop where
  asked : ∃ frame answer, turnStarts c.protocol.transcript = [frame]
    ∧ Answers c.protocol.transcript frame answer ∧ turnOf answer = some turnId
    ∧ threadIn frame = some c.threadId

structure TurnInv (w : CodexSystem) : Prop where
  one : OneTurn w.host.wire
  settled : w.site.mayAsk = true → AllSettled w.host.wire
  between : w.site = .head ∨ w.site = .checking →
    w.cancelled = true ∨ w.machine.phase = .blocked ∨ AllSettled w.host.wire
  launching : w.site = .launching → w.host.client = none
  turning : w.site = .turning → ∀ c ∈ w.host.client, turnStarts c.protocol.transcript = []
  running : ∀ turnId, w.site.turn = some turnId → ∀ c ∈ w.host.client,
    c.Running turnId ∧ AllSettled w.host.gone
  heard : ∀ c ∈ w.host.client, c.protocol.Heard

/-- A client that is taken leaves its wire behind. -/
theorem HostState.wire_take (h : HostState) (result : Except AppServerError Unit) :
    (h.take result).wire = h.wire := by
  simp [HostState.take, HostState.wire]

theorem HostState.wire_of_client {h : HostState} {c : AppServerClient} (hc : h.client = some c) :
    h.wire = h.gone ++ [c.protocol.transcript] := by
  rw [HostState.wire, hc]
  rfl

theorem HostState.wire_of_none {h : HostState} (hc : h.client = none) : h.wire = h.gone := by
  rw [HostState.wire, hc]
  exact List.append_nil _

theorem AllSettled.of_append {wire more : List (List Traffic)} (h : AllSettled (wire ++ more)) :
    AllSettled wire := fun t ht => h t (List.mem_append_left _ ht)

namespace TurnInv

variable {w w' : CodexSystem}

theorem pass {site : TaskSite} (h : TurnInv w) (hphased : Phased w) (hpass : w.Passes site) :
    TurnInv (w.go site) := by
  have hsame : w.site.mayAsk = true → AllSettled w.host.wire := h.settled
  refine ⟨h.one, ?_, ?_, ?_, ?_, ?_, h.heard⟩
  · intro hask
    show AllSettled w.host.wire
    cases hpass with
    | observe hsite hcancelled =>
        -- a loop that goes round has neither been cancelled nor blocked
        rcases h.between (Or.inl hsite) with hstop | hblocked | hsettled
        · rw [hcancelled] at hstop
          cases hstop
        · rcases hphased.site .quiet (by rw [hsite]; rfl) with hphase | hphase <;>
            rw [hblocked] at hphase <;> cases hphase
        · exact hsettled
    | unseen result hsite hresult =>
        apply hsame
        rcases hsite with hsite | hsite | ⟨wake, hsite⟩ <;> rw [hsite] <;> rfl
    | reuse hsite hslot => exact hsame (by rw [hsite]; rfl)
    | lock hsite hslot => exact hsame (by rw [hsite]; rfl)
    | mail wake hsite => exact hsame (by rw [hsite]; rfl)
    | ask wake hsite hcancelled => exact hsame (by rw [hsite]; rfl)
    | taken hsite hclient => exact hsame (by rw [hsite]; rfl)
    | launch hsite hclient => exact hsame (by rw [hsite]; rfl)
    | elapsed hsite => exact hsame (by rw [hsite]; rfl)
    | _ => cases hask
  · intro hbetween
    show w.cancelled = true ∨ w.machine.phase = .blocked ∨ AllSettled w.host.wire
    cases hpass with
    | waited hsite => exact Or.inr (Or.inr (hsame (by rw [hsite]; rfl)))
    | again hsite hphase => exact h.between (Or.inr hsite)
    | _ => rcases hbetween with hhead | hchecking <;> contradiction
  · intro hlaunching
    cases hpass with
    | launch hsite hclient => exact hclient
    | _ => cases hlaunching
  · intro hturning
    cases hpass <;> cases hturning
  · intro turnId hturn
    cases hpass with
    | wait t hsite => exact h.running turnId (by rw [hsite]; exact hturn)
    | _ => cases hturn

theorem decide {machine : ActivationMachine} {site : TaskSite} {failures : UInt8} (h : TurnInv w)
    (hphased : Phased w) (hdecide : w.Decides machine site) :
    TurnInv { w with machine := machine, site := site, observationFailures := failures } := by
  refine ⟨h.one, ?_, ?_, ?_, ?_, ?_, h.heard⟩
  · intro hask
    show AllSettled w.host.wire
    cases hdecide with
    | wake wake hsite hphase => exact h.settled (by rw [hsite]; rfl)
    | pause hsite => exact h.settled (by rw [hsite]; rfl)
    | issue wake hsite hphase => exact h.settled (by rw [hsite]; rfl)
    | retry hsite hhosting hleft => exact h.settled (by rw [hsite]; rfl)
    | due wake hsite hphase => exact h.settled (by rw [hsite]; rfl)
    | _ => cases hask
  · intro hbetween
    show w.cancelled = true ∨ machine.phase = .blocked ∨ AllSettled w.host.wire
    cases hdecide with
    | ignore result hsite => exact Or.inr (Or.inr (h.settled (by rw [hsite]; rfl)))
    | note wake hsite hphase => exact Or.inr (Or.inr (h.settled (by rw [hsite]; rfl)))
    | exhaust hsite hhosting => exact Or.inr (Or.inl rfl)
    | complete hsite hhosting => exact Or.inr (Or.inr (h.settled (by rw [hsite]; rfl)))
    | fail hsite hhosting => exact Or.inr (Or.inl rfl)
    | ignored hsite hhosting =>
        left
        rcases hsite with ⟨e, hsite⟩ | ⟨result, hsite⟩
        · exact hphased.stopped_of_idle (by rw [hsite]; rfl) (Or.inl rfl) hhosting
        · exact hphased.stopped_of_idle (by rw [hsite]; rfl) (Or.inr rfl) hhosting
    | refuse hsite =>
        rcases Phased.block_phase w.machine with hblocked | ⟨-, hstopped⟩
        · exact Or.inr (Or.inl hblocked)
        · exact Or.inl (hphased.stopped hstopped)
    | _ => rcases hbetween with hhead | hchecking <;> contradiction
  · intro hlaunching
    cases hdecide <;> cases hlaunching
  · intro hturning
    cases hdecide <;> cases hturning
  · intro turnId hturn
    cases hdecide with
    | accept t hsite hphase => exact h.running turnId (by rw [hsite]; exact hturn)
    | _ => cases hturn

variable [SerdeJson]

omit [SerdeJson] in
/-- A launch adds a wire without a request for a turn. -/
theorem launched {w : CodexSystem} (h : TurnInv w) (hsite : w.site = .launching)
    {traffic : List Traffic} (hquiet : turnStarts traffic = []) :
    OneTurn (w.host.gone ++ [traffic]) ∧ AllSettled (w.host.gone ++ [traffic]) := by
  have hwire := HostState.wire_of_none (h.launching hsite)
  have hone := h.one
  have hsettled := h.settled (by rw [hsite]; rfl)
  rw [hwire] at hone hsettled
  refine ⟨hone.append_quiet hquiet, hsettled.append ?_⟩
  intro frame hframe
  rw [hquiet] at hframe
  cases hframe

/-- **The one step that asks for a turn.** -/
theorem turned {c client : AppServerClient} {sink : Sink}
    {result : Option (Except AppServerError String)} (h : TurnInv w) (hsite : w.site = .turning)
    (hclient : w.host.client = some c) (hturn : c.startTurn sink = (result, client))
    (hok : c.severed sink = false) :
    TurnInv { w with
      host := { w.host with client := some client }, site := .ofTurn result } := by
  have hwire := HostState.wire_of_client hclient
  have hsettled := h.settled (by rw [hsite]; rfl)
  have hone := h.one
  have hnone := h.turning hsite c hclient
  have hheard := h.heard c hclient
  rw [hwire] at hsettled hone
  have hgone : AllSettled w.host.gone := hsettled.of_append
  have hbetween : ¬ (TaskSite.ofTurn result = .head ∨ TaskSite.ofTurn result = .checking) := by
    rcases TaskSite.ofTurn_cases result with heq | ⟨e, heq⟩ | ⟨turnId, heq⟩ <;> simp [heq]
  have hlaunching : TaskSite.ofTurn result ≠ .launching := by
    rcases TaskSite.ofTurn_cases result with heq | ⟨e, heq⟩ | ⟨turnId, heq⟩ <;> simp [heq]
  have hturning : TaskSite.ofTurn result ≠ .turning := by
    rcases TaskSite.ofTurn_cases result with heq | ⟨e, heq⟩ | ⟨turnId, heq⟩ <;> simp [heq]
  cases AppServerClient.startTurn_asked hturn with
  | @unsent _ e hthread htranscript hkept =>
      -- nothing went out, so the wires are what they were
      have hsame : ({ w.host with client := some client } : HostState).wire
          = w.host.gone ++ [c.protocol.transcript] := by
        show w.host.gone ++ [client.protocol.transcript] = _
        rw [htranscript]
      refine ⟨?_, ?_, fun hb => absurd hb hbetween, fun hl => absurd hl hlaunching,
        fun ht => absurd ht hturning, nofun, ?_⟩
      · rw [hsame]
        exact hone
      · intro hask
        rw [hsame]
        exact hsettled
      · intro d hd
        cases hd
        exact hkept hheard
  | sent traffic hthread htranscript hquiet hkept hanswered hrejected hlaunched hexited =>
      have hstarts : turnStarts client.protocol.transcript = [c.turnFrame] := by
        rw [htranscript, turnStarts_append, hnone, turnStarts_cons c.startsTurn_turnFrame, hquiet]
        rfl
      have hanswers : ∀ m, .received m ∈ traffic → carries c.nextId m = true →
          Answers client.protocol.transcript c.turnFrame m := fun m hm hcarries =>
        ⟨c.protocol.transcript, traffic, c.nextId, htranscript, hm, c.turnFrame_id, hcarries⟩
      have hnew : OneTurn (w.host.gone ++ [client.protocol.transcript]) := by
        have hbefore : OneTurn w.host.gone :=
          ⟨fun t ht => hone.single t (List.mem_append_left _ ht),
            (List.pairwise_append.mp hone.settled).1⟩
        apply hbefore.append hgone
        rw [hstarts]
        exact Nat.le_refl 1
      refine ⟨hnew, ?_, fun hb => absurd hb hbetween, fun hl => absurd hl hlaunching,
        fun ht => absurd ht hturning, ?_, ?_⟩
      · intro hask
        show AllSettled (w.host.gone ++ [client.protocol.transcript])
        apply hgone.append
        intro frame hframe
        rw [hstarts, List.mem_singleton] at hframe
        rw [hframe]
        -- of the failures that are retried only the refusal is left
        cases result with
        | none => cases hask
        | some result =>
            cases result with
            | ok turnId => cases hask
            | error e =>
                have hretried : classifyStart e = .retryableBeforeStart := of_decide_eq_true hask
                cases e with
                | rejected =>
                    obtain ⟨m, hm, hcarries, herror⟩ := hrejected rfl
                    exact .rejected m (hanswers m hm hcarries) herror
                | launch => exact absurd rfl hlaunched
                | exited =>
                    rw [hexited rfl] at hok
                    cases hok
                | _ => cases hretried
      · intro turnId hturnId d hd
        cases hd
        cases result with
        | none => cases hturnId
        | some result =>
            cases result with
            | error e => cases hturnId
            | ok t =>
                cases hturnId
                obtain ⟨m, hm, hcarries, hnames⟩ := hanswered turnId rfl
                refine ⟨⟨c.turnFrame, m, hstarts, hanswers m hm hcarries, hnames, ?_⟩, hgone⟩
                rw [hthread]
                exact c.threadIn_turnFrame
      · intro d hd
        cases hd
        exact hkept hheard

/-- **A round of the wait for the turn's end.** -/
theorem waited {turnId : String} {c client : AppServerClient} {forward answer : Sink}
    {waited : Waited} (h : TurnInv w) (hsite : w.site = .completing turnId)
    (hclient : w.host.client = some c)
    (hwaited : c.waitCompleted turnId forward answer = (waited, client)) :
    TurnInv { w with
      host := { w.host with client := some client }, site := .ofWaited turnId waited } := by
  obtain ⟨traffic, hgrows, hthread, hcompletion⟩ := AppServerClient.waitCompleted_grows hwaited
  obtain ⟨hrunning, hgone⟩ := h.running turnId (by rw [hsite]; rfl) c hclient
  obtain ⟨frame, first, hasked, hanswers, hnames, hin⟩ := hrunning.asked
  have hheard := h.heard c hclient
  have hone := h.one
  rw [HostState.wire_of_client hclient] at hone
  have hstarts : turnStarts client.protocol.transcript = [frame] := by
    rw [hgrows.transcript, turnStarts_append, hasked, hgrows.quiet]
    rfl
  have hstill : Answers client.protocol.transcript frame first := by
    rw [hgrows.transcript]
    exact hanswers.append traffic
  have hbetween : ¬ (TaskSite.ofWaited turnId waited = .head
      ∨ TaskSite.ofWaited turnId waited = .checking) := by
    rcases TaskSite.ofWaited_cases turnId waited with heq | heq | ⟨result, heq⟩ <;> simp [heq]
  refine ⟨?_, ?_, fun hb => absurd hb hbetween, ?_, ?_, ?_, ?_⟩
  · show OneTurn (w.host.gone ++ [client.protocol.transcript])
    rw [hgrows.transcript]
    exact hone.grow hgrows.quiet
  · intro hask
    show AllSettled (w.host.gone ++ [client.protocol.transcript])
    apply hgone.append
    intro f hf
    rw [hstarts, List.mem_singleton] at hf
    rw [hf]
    -- the loop ended well, so it has seen the completion
    have hended : waited = .ended (.ok ()) := by
      cases waited with
      | hanging => cases hask
      | again => cases hask
      | ended result =>
          cases result with
          | error e => cases hask
          | ok u => rfl
    obtain ⟨m, hm, hdone⟩ := hcompletion hended hheard
    exact .completed first m turnId c.threadId hstill hnames hin hm hdone
  · intro hlaunching
    rcases TaskSite.ofWaited_cases turnId waited with heq | heq | ⟨result, heq⟩ <;>
      rw [heq] at hlaunching <;> cases hlaunching
  · intro hturning
    rcases TaskSite.ofWaited_cases turnId waited with heq | heq | ⟨result, heq⟩ <;>
      rw [heq] at hturning <;> cases hturning
  · intro t ht d hd
    cases hd
    have hsame : t = turnId := by
      cases waited with
      | again =>
          cases ht
          rfl
      | hanging => cases ht
      | ended result => cases ht
    rw [hsame]
    refine ⟨⟨frame, first, hstarts, hstill, hnames, ?_⟩, hgone⟩
    rw [hthread]
    exact hin
  · intro d hd
    cases hd
    exact hgrows.heard hheard

/-- Every other step of the host. -/
theorem host {host : HostState} {site : TaskSite} (h : TurnInv w) (hhost : w.Hosts host site)
    (hasked : w.site ≠ .turning) :
    TurnInv { w with host := host, site := site } := by
  cases hhost with
  | @hang _ traffic record hsite hlaunch =>
      have hnone := h.launching hsite
      have hquiet := (AppServerClient.launch_quiet hlaunch).1
      have hwire : (w.host.lose traffic record).wire = w.host.gone ++ [traffic] :=
        HostState.wire_of_none hnone
      refine ⟨?_, nofun, by simp, nofun, nofun, nofun, h.heard⟩
      rw [hwire]
      exact (h.launched hsite hquiet).1
  | @fail _ e traffic record hsite hlaunch =>
      have hnone := h.launching hsite
      have hquiet := (AppServerClient.launch_quiet hlaunch).1
      have hwire : (w.host.lose traffic record).wire = w.host.gone ++ [traffic] :=
        HostState.wire_of_none hnone
      refine ⟨?_, fun _ => ?_, by simp, nofun, nofun, nofun, h.heard⟩
      · rw [hwire]
        exact (h.launched hsite hquiet).1
      · rw [hwire]
        exact (h.launched hsite hquiet).2
  | @install _ client traffic record hsite hlaunch =>
      obtain ⟨hquiet, hheard⟩ := (AppServerClient.launch_quiet hlaunch).2 client rfl
      have hwire : (w.host.install client record).wire
          = w.host.gone ++ [client.protocol.transcript] := rfl
      refine ⟨?_, fun _ => ?_, by simp, nofun, ?_, nofun, ?_⟩
      · rw [hwire]
        exact (h.launched hsite hquiet).1
      · rw [hwire]
        exact (h.launched hsite hquiet).2
      · intro _ c hc
        cases hc
        exact hquiet
      · intro c hc
        cases hc
        exact hheard
  | turn hsite hclient hturn => exact absurd hsite hasked
  | @abandon e result hsite =>
      refine ⟨?_, ?_, by simp, nofun, nofun, nofun, nofun⟩
      · rw [HostState.wire_take]
        exact h.one
      · intro hask
        rw [HostState.wire_take]
        apply h.settled
        rw [hsite]
        cases hclass : classifyStart e with
        | retryableBeforeStart => exact decide_eq_true hclass
        | outcomeUnknown =>
            rw [hclass] at hask
            cases hask
        | permanent =>
            rw [hclass] at hask
            cases hask
  | waited hsite hclient hwaited => exact h.waited hsite hclient hwaited
  | @reap completion result hsite =>
      refine ⟨?_, ?_, by simp, nofun, nofun, nofun, nofun⟩
      · rw [HostState.wire_take]
        exact h.one
      · intro hask
        rw [HostState.wire_take]
        apply h.settled
        rw [hsite]
        cases completion with
        | ok u => rfl
        | error e => cases hask

omit [SerdeJson] in
/-- Where no turn is asked for or awaited, only the wire counts. -/
theorem elsewhere {u : CodexSystem} (h : TurnInv w) (hhost : u.host = w.host)
    (hsettled : u.site.mayAsk = true → AllSettled w.host.wire)
    (hbetween : ¬ (u.site = .head ∨ u.site = .checking)) (hasked : u.site ≠ .turning)
    (hlaunch : u.site ≠ .launching) (hturn : u.site.turn = none) : TurnInv u where
  one := by
    rw [hhost]
    exact h.one
  settled hask := by
    rw [hhost]
    exact hsettled hask
  between hsite := absurd hsite hbetween
  launching hsite := absurd hsite hlaunch
  turning hsite := absurd hsite hasked
  running turnId hrun := by
    rw [hturn] at hrun
    cases hrun
  heard := by
    rw [hhost]
    exact h.heard

omit [SerdeJson] in
/-- The loop is left. -/
theorem ended {u : CodexSystem} (h : TurnInv w) (hhost : u.host = w.host) (hsite : u.site = .over) :
    TurnInv u := by
  apply h.elsewhere hhost <;> rw [hsite]
  · intro hask
    cases hask
  · simp
  · simp
  · simp
  · rfl

omit [SerdeJson] in
theorem closer {c : Closer} {u : CodexSystem} {site : CloserSite} {i : Nat} (h : TurnInv w)
    (hphased : Phased w) (hcloser : w.closers[i]? = some c) (hmove : w.CloserMove c u site) :
    TurnInv (u.setCloser i { c with site := site }) := by
  have hcancelled : c.begun = true → w.cancelled = true :=
    hphased.begun c (List.mem_of_getElem? hcloser)
  cases hmove with
  | cancel hsite =>
      exact ⟨h.one, h.settled, fun _ => Or.inl rfl, h.launching, h.turning, h.running, h.heard⟩
  | stop site hsite hnext =>
      exact ⟨h.one, h.settled, fun _ => Or.inl (hcancelled (by simp [Closer.begun, hsite])),
        h.launching, h.turning, h.running, h.heard⟩
  | reap status hsite =>
      have hwire := w.host.wire_take (.ok ())
      have hone : OneTurn (w.host.take (.ok ())).wire := by
        rw [hwire]
        exact h.one
      refine ⟨hone, ?_, ?_, fun _ => rfl, ?_, ?_, ?_⟩
      · intro hask
        show AllSettled (w.host.take (.ok ())).wire
        rw [hwire]
        exact h.settled hask
      · exact fun _ => Or.inl (hcancelled (by simp [Closer.begun, hsite]))
      · intro _ client hclient
        cases hclient
      · intro _ _ client hclient
        cases hclient
      · intro client hclient
        cases hclient
  | _ =>
      exact ⟨h.one, h.settled, h.between, h.launching, h.turning, h.running, h.heard⟩

/-- **What a step preserves**, unless it severs a request from its answer. -/
theorem step {l : CodexStep} (h : TurnInv w) (hphased : Phased w) (hok : Unsevered w l)
    (hmove : w.Moves l w') : TurnInv w' := by
  cases hmove with
  | @task event _ hgo htask =>
      by_cases hasked : w.site = .turning
      · obtain ⟨sink, c, rfl, hclient, rfl⟩ := CodexSystem.goOn_turning hasked hgo
        exact h.turned hasked hclient rfl (hok c hclient)
      · cases htask with
        | pass hpass => exact h.pass hphased hpass
        | decide failures hdecide => exact h.decide hphased hdecide
        | host hhost => exact h.host hhost hasked
        | opened hsite =>
            exact h.elsewhere rfl (fun _ => h.settled (by rw [hsite]; rfl)) (by simp) (by simp)
              (by simp) rfl
        | released hsite =>
            exact h.elsewhere rfl (fun _ => h.settled (by rw [hsite]; rfl)) (by simp) (by simp)
              (by simp) rfl
  | notice hcancelled hselects =>
      exact h.ended rfl rfl
  | abort site hsite =>
      rcases hsite with rfl | rfl
      · exact h.ended rfl rfl
      · exact ⟨h.one, h.settled, fun _ => Or.inl rfl, h.launching, h.turning, h.running,
          h.heard⟩
  | close closing =>
      exact ⟨h.one, h.settled, h.between, h.launching, h.turning, h.running, h.heard⟩
  | closer hcloser hcmove => exact h.closer hphased hcloser hcmove

end TurnInv

/-- **At most one turn a wake**: as long as the pipes do not break between a request for a turn and
its answer, none is asked for before the last one is settled. -/
theorem one_turn_per_wake [SerdeJson] {w : CodexSystem} (h : codexLts.Reach Unsevered w) :
    OneTurn w.host.wire := by
  have hinv : Phased w ∧ TurnInv w := by
    refine h.invariant (P := fun w => Phased w ∧ TurnInv w) ?_ ?_
    · intro w hinit
      have hreach : codexLts.Reach Unsevered w := ⟨w, hinit, .refl w⟩
      have hphased := (CodexSystem.custody_of_reach hreach).1
      obtain ⟨policy, machine, profile, squad, config, record, hnew, rfl⟩ := hinit
      refine ⟨hphased, ?_⟩
      have hnone : ∀ t : List Traffic, t ∉ (CodexSystem.fresh policy machine profile squad config
          record).host.wire := fun t => List.not_mem_nil
      refine ⟨⟨fun t ht => absurd ht (hnone t), .nil⟩, fun _ t ht => absurd ht (hnone t),
        fun _ => Or.inr (Or.inr fun t ht => absurd ht (hnone t)), nofun, nofun, nofun, nofun⟩
    · intro w l w' hw hok hstep
      have hmove := CodexSystem.step_moves hstep
      exact ⟨hw.1.step hmove, hw.2.step hw.1 hok hmove⟩
  exact hinv.2.one

namespace Sample

/-- The answers of an App Server up to a turn, and the end of the turn. -/
def hostMessages : List Value :=
  [answerTo 1 (.object []), answerTo 2 (.object [("thread", .object [("id", .string "thr_1")])]),
    answerTo 3 (.object [("turn", .object [("id", .string "turn_1")])]),
    .object [("method", .string "turn/completed"), ("params", .object
      [("threadId", .string "thr_1"), ("turn", .object [("id", .string "turn_1"),
        ("status", .string "completed")])])]]

/-- `serde_json` on these messages. -/
@[reducible] def hostJson : SerdeJson where
  fromSlice bytes := hostMessages.find? fun message => decide (wire message = bytes)
  toVec := wire

/-- An App Server that writes the first messages of these and then does something else. -/
def serves (count : Nat) (rest : List WireEvent) : Launching where
  spawned := true
  reader :=
    (hostMessages.take count).flatMap (fun message => (wire message ++ [10]).map .octet) ++ rest
  greeting := .taken
  greeted := .taken
  thread := .taken
  record := .written

/-- The turn is accepted and awaited to its end, and the App Server is shut down. -/
def runsTurn : List CodexStep :=
  [.task (.launch (serves 4 [])), .task (.turn .taken), .task .plain, .task .plain,
    .task (.message .taken .taken), .task (.reap (.ok ()))]

/-- The App Server's output ends where its answer to `turn/start` is due, and it is shut down. -/
def cutsTurn : List CodexStep :=
  [.task (.launch (serves 2 [.ended])), .task (.turn .taken), .task (.reap (.ok ()))]

/-- The retry is due, and the host is asked again. -/
def retries : List CodexStep :=
  [.task .plain, .task .plain, .task .plain, .task .plain, .task .plain, .task .plain]

/-- Neither an error nor the parameters of a completion came in. -/
def silent (traffic : List Traffic) : Bool :=
  traffic.all fun
    | .sent _ => true
    | .received message => (message.get "error").isNone && (message.get "params").isNone

/-- Two processes were asked for a turn, the first without an answer. -/
def askedTwice : List (List Traffic) → Bool
  | [first, second] => silent first && !(turnStarts first).isEmpty && !(turnStarts second).isEmpty
  | _ => false

theorem not_settled_of_silent {traffic : List Traffic} {frame : Value}
    (h : silent traffic = true) : ¬ TurnSettled traffic frame := by
  have hreceived : ∀ m, .received m ∈ traffic → m.get "error" = none ∧ m.get "params" = none := by
    intro m hm
    simpa using List.all_eq_true.mp h _ hm
  intro hsettled
  cases hsettled with
  | rejected m answers error =>
      obtain ⟨before, after, id, heq, hm, -, -⟩ := answers
      have hin : .received m ∈ traffic := by
        rw [heq]
        exact List.mem_append_right _ (List.mem_cons_of_mem _ hm)
      rw [(hreceived m hin).1] at error
      cases error
  | completed answer m turnId threadId answers turn thread seen completion =>
      have hparams := (hreceived m seen).2
      simp [completionResult, Value.pointer, hparams] at completion

theorem not_oneTurn_of_askedTwice {wire : List (List Traffic)} (h : askedTwice wire = true) :
    ¬ OneTurn wire := by
  unfold askedTwice at h
  split at h
  next first second =>
    simp only [Bool.and_eq_true, Bool.not_eq_true', List.isEmpty_eq_false_iff] at h
    obtain ⟨⟨hsilent, hfirst⟩, hsecond⟩ := h
    intro hone
    obtain ⟨frame, hframe⟩ := List.exists_mem_of_ne_nil _ hfirst
    have hpair := (List.pairwise_cons.mp hone.settled).1 second (List.mem_singleton.mpr rfl)
    exact not_settled_of_silent hsilent (hpair hsecond frame hframe)
  next => cases h

/-- The pipes break after the request for a turn, if it is small enough to be written. -/
def breaks [SerdeJson] (c : AppServerClient) : Sink → Bool
  | .refused => false
  | .unflushed => true
  | .taken => cutShort c.nextId c.protocol.reads

def Unbroken [SerdeJson] (w : CodexSystem) : CodexStep → Prop
  | .task (.turn sink) => ∀ c ∈ w.host.client, breaks c sink = false
  | _ => True

instance [SerdeJson] (w : CodexSystem) (l : CodexStep) : Decidable (Unbroken w l) := by
  unfold Unbroken
  split <;> infer_instance

theorem Unbroken.unsevered [SerdeJson] {w : CodexSystem} {l : CodexStep} (h : Unbroken w l) :
    Unsevered w l := by
  have hsevered : ∀ sink (c : AppServerClient), breaks c sink = false → c.severed sink = false := by
    intro sink c hbreaks
    cases sink with
    | refused => rfl
    | unflushed => cases hbreaks
    | taken =>
        have hcut : cutShort c.nextId c.protocol.reads = false := hbreaks
        rw [AppServerClient.severed, hcut, Bool.and_false]
  cases l with
  | task event =>
      cases event with
      | turn sink => exact fun c hc => hsevered sink c (h c hc)
      | _ => trivial
  | _ => trivial

/-- Both runs are there: the turn that was seen to its end, and the one that was asked for twice. -/
theorem turn_runs :
    letI : SerdeJson := hostJson
    ((Lts.follow CodexSystem.step Unbroken codexStart (wakesHost ++ runsTurn)).any
        (fun w => decide ((w.host.wire.flatMap turnStarts).length = 1))
      && (Lts.follow CodexSystem.step Lts.always codexStart
          (wakesHost ++ cutsTurn ++ retries ++ cutsTurn)).any
        (fun w => askedTwice w.host.wire)) = true := by
  -- runs in which the instruction of the wake is not measured again
  delta CodexSystem.step CodexSystem.goOn CodexSystem.turned AppServerClient.startTurn
    JsonLines.request
  simp only [@write_turn hostJson fun _ => rfl]
  decide +kernel

end Sample

open Sample in
/-- Alice's turn has been seen to its end. -/
theorem one_turn_per_wake_alice :
    letI : SerdeJson := hostJson
    ∃ w, codexLts.Reach Unsevered w ∧ (w.host.wire.flatMap turnStarts).length = 1
      ∧ OneTurn w.host.wire := by
  let _ : SerdeJson := hostJson
  obtain ⟨w, hw, hcheck⟩ := Lts.exists_steps_of_follow _ (Bool.and_eq_true_iff.mp turn_runs).1
  have hreach : codexLts.Reach Unsevered w :=
    ⟨_, codexStart_init, hw.mono fun _ _ => Unbroken.unsevered⟩
  exact ⟨w, hreach, of_decide_eq_true hcheck, one_turn_per_wake hreach⟩

open Sample in
/-- An App Server that ends after it has read a request for a turn leaves it open, and the next
one is asked for another. -/
theorem turn_asked_twice :
    letI : SerdeJson := hostJson
    ¬ ∀ w, codexLts.Reach Lts.always w → OneTurn w.host.wire := by
  let _ : SerdeJson := hostJson
  intro hall
  obtain ⟨w, hw, hcheck⟩ := Lts.exists_steps_of_follow _ (Bool.and_eq_true_iff.mp turn_runs).2
  exact not_oneTurn_of_askedTwice hcheck (hall w ⟨_, codexStart_init, hw⟩)

end Psst
