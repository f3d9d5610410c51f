import Psst.Codex.Demux
import Psst.Codex.Handoff

/-!
# One turn a wake

A turn that may have begun must not be followed by another before its end was seen. What went over
the pipes of every App Server process says whether it is. A request whose answer is cut off by the
end of the pipe fails like one that was never sent, and is made again.
-/

namespace Psst

open Json

/-! ## Turns on the wire -/

/-- The frame asks for a turn. -/
def startsTurn (frame : Value) : Bool :=
  decide ((frame.get "method").bind Value.asStr = some "turn/start")

/-- The requests for a turn that were completely written. -/
def turnStarts (traffic : List Traffic) : List Value :=
  traffic.filterMap fun
    | .sent frame => if startsTurn frame then some frame else none
    | .received _ => none

/-- The message came in after the frame went out, and answers it. -/
def Answers (traffic : List Traffic) (frame message : Value) : Prop :=
  ∃ before after id, traffic = before ++ .sent frame :: after ∧ .received message ∈ after
    ∧ (frame.get "id").bind Value.asU64 = some id ∧ carries id message = true

/-- The message names the turn that was started. -/
def turnOf (message : Value) : Option String :=
  (message.pointer ["result", "turn", "id"]).bind Value.asStr

/-- The thread of a request for a turn. -/
def threadIn (frame : Value) : Option String :=
  (frame.pointer ["params", "threadId"]).bind Value.asStr

/-- The request was answered with an error, or the completion of its turn was seen. -/
inductive TurnSettled (traffic : List Traffic) (frame : Value) : Prop where
  | rejected (message : Value) (answers : Answers traffic frame message)
      (error : (message.get "error").isSome = true)
  | completed (answer message : Value) (turnId threadId : String)
      (answers : Answers traffic frame answer) (turn : turnOf answer = some turnId)
      (thread : threadIn frame = some threadId) (seen : .received message ∈ traffic)
      (completion : completionResult message threadId turnId = some (.ok ()))

/-- Every request for a turn is settled. -/
def AllSettled (wire : List (List Traffic)) : Prop :=
  ∀ traffic ∈ wire, ∀ frame ∈ turnStarts traffic, TurnSettled traffic frame

/-- **One turn at a time**: no process is asked for two, and one is asked only when the requests
to all before it are settled. -/
structure OneTurn (wire : List (List Traffic)) : Prop where
  single : ∀ traffic ∈ wire, (turnStarts traffic).length ≤ 1
  settled : wire.Pairwise fun earlier later =>
    turnStarts later ≠ [] → ∀ frame ∈ turnStarts earlier, TurnSettled earlier frame

/-- The connection breaks before a message under the id comes in: every read up to there brings
another message. -/
def cutShort (id : UInt64) : List Read → Bool
  | [] => false
  | .message m :: reads => if carries id m then false else cutShort id reads
  | .failed e _ :: _ => decide (e = .exited)

@[simp] theorem turnStarts_append (xs ys : List Traffic) :
    turnStarts (xs ++ ys) = turnStarts xs ++ turnStarts ys := List.filterMap_append

theorem turnStarts_received (messages : List Value) :
    turnStarts (messages.map .received) = [] := by
  induction messages with
  | nil => rfl
  | cons m messages ih => exact ih

theorem turnStarts_sent {frame : Value} (h : startsTurn frame = false) :
    turnStarts [.sent frame] = [] := by
  simp [turnStarts, h]

theorem turnStarts_cons {frame : Value} (h : startsTurn frame = true) (rest : List Traffic) :
    turnStarts (.sent frame :: rest) = frame :: turnStarts rest := by
  simp [turnStarts, h]

/-! ## Wires that grow -/

theorem Answers.append {traffic : List Traffic} {frame message : Value}
    (h : Answers traffic frame message) (more : List Traffic) :
    Answers (traffic ++ more) frame message := by
  obtain ⟨before, after, id, heq, hmem, hid, hcarries⟩ := h
  refine ⟨before, after ++ more, id, ?_, List.mem_append_left more hmem, hid, hcarries⟩
  rw [heq, List.append_assoc, List.cons_append]

theorem AllSettled.append {wire : List (List Traffic)} {traffic : List Traffic}
    (h : AllSettled wire) (hlast : ∀ frame ∈ turnStarts traffic, TurnSettled traffic frame) :
    AllSettled (wire ++ [traffic]) := by
  intro t ht
  rcases List.mem_append.mp ht with ht | ht
  · exact h t ht
  · rw [List.mem_singleton.mp ht]
    exact hlast

/-- After requests that are all settled one process may be asked. -/
theorem OneTurn.append {wire : List (List Traffic)} {traffic : List Traffic} (h : OneTurn wire)
    (hsettled : AllSettled wire) (hsingle : (turnStarts traffic).length ≤ 1) :
    OneTurn (wire ++ [traffic]) where
  single := by
    intro t ht
    rcases List.mem_append.mp ht with ht | ht
    · exact h.single t ht
    · rw [List.mem_singleton.mp ht]
      exact hsingle
  settled := by
    refine List.pairwise_append.mpr ⟨h.settled, List.pairwise_singleton _ _, ?_⟩
    exact fun earlier hearlier later _ _ => hsettled earlier hearlier

/-- A process that is asked for nothing may come whatever was asked for before. -/
theorem OneTurn.append_quiet {wire : List (List Traffic)} {traffic : List Traffic}
    (h : OneTurn wire) (hquiet : turnStarts traffic = []) : OneTurn (wire ++ [traffic]) where
  single := by
    intro t ht
    rcases List.mem_append.mp ht with ht | ht
    · exact h.single t ht
    · rw [List.mem_singleton.mp ht, hquiet]
      exact Nat.zero_le 1
  settled := by
    refine List.pairwise_append.mpr ⟨h.settled, List.pairwise_singleton _ _, ?_⟩
    intro earlier hearlier later hlater hne
    rw [List.mem_singleton.mp hlater] at hne
    exact absurd hquiet hne

/-- So it is if only other things go over the last wire. -/
theorem OneTurn.grow {wire : List (List Traffic)} {traffic more : List Traffic}
    (h : OneTurn (wire ++ [traffic])) (hquiet : turnStarts more = []) :
    OneTurn (wire ++ [traffic ++ more]) := by
  have hsame : turnStarts (traffic ++ more) = turnStarts traffic := by
    rw [turnStarts_append, hquiet, List.append_nil]
  obtain ⟨hwire, -, hlast⟩ := List.pairwise_append.mp h.settled
  constructor
  · intro t ht
    rcases List.mem_append.mp ht with ht | ht
    · exact h.single t (List.mem_append_left _ ht)
    · rw [List.mem_singleton.mp ht, hsame]
      exact h.single traffic (by simp)
  · refine List.pairwise_append.mpr ⟨hwire, List.pairwise_singleton _ _, ?_⟩
    intro earlier hearlier later hlater hne
    rw [List.mem_singleton.mp hlater, hsame] at hne
    exact hlast earlier hearlier traffic (by simp) hne

/-! ## What a reader does to its wire -/

/-- What is queued came in over this wire. -/
def JsonLines.Heard (l : JsonLines) : Prop := ∀ m ∈ l.pending, .received m ∈ l.transcript

/-- The wire grows by the traffic, without a request for a turn. -/
structure JsonLines.Grows (l l' : JsonLines) (traffic : List Traffic) : Prop where
  transcript : l'.transcript = l.transcript ++ traffic
  quiet : turnStarts traffic = []
  heard : l.Heard → l'.Heard

namespace JsonLines

variable {l l' l'' : JsonLines} {traffic more : List Traffic}

theorem Grows.refl (l : JsonLines) : l.Grows l [] := ⟨(List.append_nil _).symm, rfl, id⟩

theorem Grows.trans (h : l.Grows l' traffic) (h' : l'.Grows l'' more) :
    l.Grows l'' (traffic ++ more) where
  transcript := by rw [h'.transcript, h.transcript, List.append_assoc]
  quiet := by rw [turnStarts_append, h.quiet, h'.quiet, List.append_nil]
  heard := fun hheard => h'.heard (h.heard hheard)

variable [SerdeJson]

/-- A read adds the message it returns. -/
theorem readFromWire_grows (l : JsonLines) :
    ∃ messages : List Value, l.Grows l.readFromWire.2 (messages.map .received)
      ∧ (∀ m, l.readFromWire.1 = some (.ok m) → m ∈ messages)
      ∧ l.readFromWire.2.pending = l.pending := by
  unfold readFromWire
  split
  · exact ⟨[], .refl l, by simp, rfl⟩
  · next found events huntil =>
      refine ⟨(found.bind parseLine).toOption.toList, ⟨rfl, turnStarts_received _, ?_⟩, ?_, rfl⟩
      · exact fun hheard m hm => List.mem_append_left _ (hheard m hm)
      · intro m hm
        simp only [Option.some.injEq] at hm
        rw [hm]
        exact List.mem_singleton.mpr rfl

theorem readWithTimeout_grows (l : JsonLines) :
    ∃ traffic, l.Grows l.readWithTimeout.2 traffic
      ∧ ∀ m, l.readWithTimeout.1 = some (.ok m) → l.Heard →
          .received m ∈ l.readWithTimeout.2.transcript := by
  unfold readWithTimeout
  split
  · next message pending hpending =>
      refine ⟨[], ⟨(List.append_nil _).symm, rfl, ?_⟩, ?_⟩
      · exact fun hheard m hm => hheard m (by rw [hpending]; exact List.mem_cons_of_mem _ hm)
      · intro m hm hheard
        cases hm
        exact hheard message (by rw [hpending]; exact List.mem_cons_self)
  · obtain ⟨messages, hgrows, hread, -⟩ := l.readFromWire_grows
    refine ⟨_, hgrows, ?_⟩
    intro m hm _
    rw [hgrows.transcript]
    exact List.mem_append_right _ (List.mem_map_of_mem (hread m hm))

theorem write_grows {frame : Value} (hframe : startsTurn frame = false) (l : JsonLines)
    (sink : Sink) : ∃ traffic, l.Grows (l.write frame sink).2 traffic := by
  have hsent : l.Grows { l with transcript := l.transcript ++ [.sent frame] } [.sent frame] :=
    ⟨rfl, turnStarts_sent hframe, fun hheard m hm => List.mem_append_left _ (hheard m hm)⟩
  unfold write
  split_ifs
  · exact ⟨[], .refl l⟩
  · cases sink with
    | refused => exact ⟨[], .refl l⟩
    | unflushed => exact ⟨_, hsent⟩
    | taken => exact ⟨_, hsent⟩

end JsonLines

/-- How the wait for an answer ends. -/
structure AwaitsAnswer (id : UInt64) (l : JsonLines)
    (outcome : Option (Except AppServerError Value)) (l' : JsonLines)
    (traffic : List Traffic) : Prop where
  grows : l.Grows l' traffic
  answered : ∀ result, outcome = some (.ok result) →
    ∃ m, .received m ∈ traffic ∧ carries id m = true ∧ m.get "result" = some result
  rejected : outcome = some (.error .rejected) →
    ∃ m, .received m ∈ traffic ∧ carries id m = true ∧ (m.get "error").isSome = true
  launched : outcome ≠ some (.error .launch)

/-- Neither the pipe nor the text of a line says that the request was rejected. -/
theorem readUntil_error {events rest : List WireEvent} {bytes : List UInt8} {e : AppServerError}
    (h : readUntil 10 bytes events = some (.error e, rest)) : e = .timeout ∨ e = .exited := by
  induction events generalizing bytes with
  | nil => cases h
  | cons event events ih =>
      cases event with
      | octet byte =>
          rw [readUntil] at h
          split_ifs at h
          · simp at h
          · exact ih h
      | elapsed =>
          cases h
          exact Or.inl rfl
      | ended => simp [readUntil] at h
      | broken =>
          cases h
          exact Or.inr rfl

section Codec

variable [SerdeJson]

theorem parseLine_error {bytes : List UInt8} {e : AppServerError} (h : parseLine bytes = .error e) :
    e = .exited ∨ e = .protocol := by
  unfold parseLine at h
  split_ifs at h
  · cases h
    exact Or.inl rfl
  · cases h
    exact Or.inr rfl
  · split at h
    · cases h
    · cases h
      exact Or.inr rfl

theorem JsonLines.readFromWire_error {l l' : JsonLines} {e : AppServerError}
    (h : l.readFromWire = (some (.error e), l')) : e ≠ .rejected ∧ e ≠ .launch := by
  unfold readFromWire at h
  split at h
  · cases h
  · next found events huntil =>
      simp only [Prod.mk.injEq, Option.some.injEq] at h
      cases found with
      | error e' =>
          have heq : e' = e := by simpa [Except.bind] using h.1
          rcases readUntil_error huntil with htimeout | hexited
          · rw [← heq, htimeout]
            decide
          · rw [← heq, hexited]
            decide
      | ok bytes =>
          rcases parseLine_error h.1 with hexited | hprotocol
          · rw [hexited]
            decide
          · rw [hprotocol]
            decide

omit [SerdeJson] in
theorem reply_ok {message result : Value} (h : reply message = .ok result) :
    message.get "result" = some result := by
  unfold reply at h
  split_ifs at h
  split at h
  · next found hfound =>
      cases h
      exact hfound
  · cases h

omit [SerdeJson] in
theorem reply_error {message : Value} {e : AppServerError} (h : reply message = .error e) :
    (e = .rejected ∧ (message.get "error").isSome = true) ∨ e = .protocol := by
  unfold reply at h
  split_ifs at h with herror
  · cases h
    exact Or.inl ⟨rfl, herror⟩
  · split at h
    · cases h
    · cases h
      exact Or.inr rfl

/-- **The loop of `request`**, by induction on its turns. -/
theorem JsonLines.awaitResponse_answer (id : UInt64) (fuel : Nat) :
    ∀ l : JsonLines, ∃ traffic,
      AwaitsAnswer id l (l.awaitResponse id fuel).1 (l.awaitResponse id fuel).2 traffic := by
  induction fuel with
  | zero => exact fun l => ⟨[], .refl l, by simp [awaitResponse], by simp [awaitResponse],
      by simp [awaitResponse]⟩
  | succ fuel ih =>
      intro l
      obtain ⟨messages, hgrows, hread, hpending⟩ := l.readFromWire_grows
      rw [awaitResponse]
      split
      next l' heq =>
        rw [heq] at hgrows
        exact ⟨_, hgrows, by simp, by simp, by simp⟩
      next e l' heq =>
        rw [heq] at hgrows
        obtain ⟨hrejected, hlaunch⟩ := readFromWire_error heq
        refine ⟨_, hgrows, by simp, ?_, by simpa using hlaunch⟩
        intro h
        simp only [Option.some.injEq, Except.error.injEq] at h
        exact absurd h hrejected
      next message l' heq =>
        rw [heq] at hgrows hread hpending
        have hreceived : .received message ∈ messages.map Traffic.received :=
          List.mem_map_of_mem (hread message rfl)
        split_ifs with hcarries
        · refine ⟨_, hgrows, ?_, ?_, ?_⟩
          · intro result h
            simp only [Option.some.injEq] at h
            exact ⟨message, hreceived, hcarries, reply_ok h⟩
          · intro h
            simp only [Option.some.injEq] at h
            rcases reply_error h with ⟨-, herror⟩ | hprotocol
            · exact ⟨message, hreceived, hcarries, herror⟩
            · cases hprotocol
          · intro h
            simp only [Option.some.injEq] at h
            rcases reply_error h with ⟨hrejected, -⟩ | hprotocol
            · cases hrejected
            · cases hprotocol
        · -- the message is queued, and the wire is read again
          have hqueued : l.Grows { l' with pending := l'.pending ++ [message] }
              (messages.map .received) := by
            refine ⟨hgrows.transcript, hgrows.quiet, ?_⟩
            intro hheard m hm
            show .received m ∈ l'.transcript
            rcases List.mem_append.mp hm with hm | hm
            · exact hgrows.heard hheard m hm
            · rw [List.mem_singleton.mp hm, hgrows.transcript]
              exact List.mem_append_right _ hreceived
          obtain ⟨traffic, h⟩ := ih { l' with pending := l'.pending ++ [message] }
          refine ⟨_, hqueued.trans h.grows, ?_, ?_, h.launched⟩
          · intro result hresult
            obtain ⟨m, hm, hm'⟩ := h.answered result hresult
            exact ⟨m, List.mem_append_right _ hm, hm'⟩
          · intro hrejected
            obtain ⟨m, hm, hm'⟩ := h.rejected hrejected
            exact ⟨m, List.mem_append_right _ hm, hm'⟩

/-- **The wait exits exactly when the connection is cut short**, by induction on the reads. -/
theorem JsonLines.awaitResponse_exited (id : UInt64) (fuel : Nat) :
    ∀ l : JsonLines, l.reader.length < fuel →
      ((l.awaitResponse id fuel).1 = some (.error .exited) ↔ cutShort id l.reads = true) := by
  induction fuel with
  | zero =>
      intro l hfuel
      omega
  | succ fuel ih =>
      intro l hfuel
      rw [awaitResponse]
      rcases l.readFromWire_cases with ⟨hread, hreads⟩ | ⟨read, l₁, hread, hreads, hlt, -, -⟩
      · rw [hread, hreads]
        simp [cutShort]
      · rw [hread, hreads]
        cases read with
        | failed e cut => simp [Read.result, cutShort]
        | message m =>
            simp only [Read.result, cutShort]
            split_ifs with hcarries
            · -- an answer under the id is no end of the pipe
              constructor
              · intro h
                simp only [Option.some.injEq] at h
                rcases reply_error h with ⟨hrejected, -⟩ | hprotocol
                · cases hrejected
                · cases hprotocol
              · simp
            · apply ih { l₁ with pending := l₁.pending ++ [m] }
              show l₁.reader.length < fuel
              omega

/-- A request that asks for no turn. -/
theorem JsonLines.request_grows {method : String} (hmethod : method ≠ "turn/start") (id : UInt64)
    (params : Value) (sink : Sink) (l : JsonLines) :
    ∃ traffic, l.Grows (l.request id method params sink).2 traffic := by
  have hframe : startsTurn (requestFrame id method params) = false := by
    simpa [startsTurn, requestFrame, Value.get, Value.asStr] using hmethod
  obtain ⟨traffic, hwrite⟩ := l.write_grows hframe sink
  unfold request
  split
  next e l' heq =>
    rw [heq] at hwrite
    exact ⟨_, hwrite⟩
  next l' heq =>
    rw [heq] at hwrite
    obtain ⟨more, hawait⟩ := l'.awaitResponse_answer id (l'.reader.length + 1)
    exact ⟨_, hwrite.trans hawait.grows⟩

/-! ## What a client does to its wire -/

namespace AppServerClient

/-- The frame of `start_turn`. -/
def turnFrame (c : AppServerClient) : Value :=
  JsonLines.requestFrame c.nextId "turn/start" c.turnStartParams

/-- It is small enough to be written. -/
def turnFits (c : AppServerClient) : Bool :=
  decide ((SerdeJson.toVec c.turnFrame ++ [10]).length ≤ maxFrameBytes)

/-- The request for a turn is completely written, and then the pipes break before it is answered:
it cannot be flushed, or its answer is cut off. -/
def severed (c : AppServerClient) : Sink → Bool
  | .refused => false
  | .unflushed => c.turnFits
  | .taken => c.turnFits && cutShort c.nextId c.protocol.reads

omit [SerdeJson] in
theorem startsTurn_turnFrame (c : AppServerClient) : startsTurn c.turnFrame = true := by
  simp [startsTurn, turnFrame, JsonLines.requestFrame, Value.get, Value.asStr]

omit [SerdeJson] in
theorem turnFrame_id (c : AppServerClient) :
    (c.turnFrame.get "id").bind Value.asU64 = some c.nextId := by
  simp [turnFrame, JsonLines.requestFrame, Value.get, Value.asU64, List.lookup_cons]

omit [SerdeJson] in
theorem threadIn_turnFrame (c : AppServerClient) : threadIn c.turnFrame = some c.threadId := by
  simp [threadIn, turnFrame, JsonLines.requestFrame, turnStartParams, Value.pointer, Value.get,
    Value.asStr, List.lookup_cons]

end AppServerClient

/-- **What `start_turn` does**: nothing goes out, or the request does and then its answer is waited
for. -/
inductive TurnAsked (c : AppServerClient) (sink : Sink) :
    Option (Except AppServerError String) → AppServerClient → Prop where
  | unsent {c' : AppServerClient} (e : AppServerError) (thread : c'.threadId = c.threadId)
      (transcript : c'.protocol.transcript = c.protocol.transcript)
      (heard : c.protocol.Heard → c'.protocol.Heard) : TurnAsked c sink (some (.error e)) c'
  | sent {c' : AppServerClient} {result : Option (Except AppServerError String)}
      (traffic : List Traffic) (thread : c'.threadId = c.threadId)
      (transcript : c'.protocol.transcript = c.protocol.transcript ++ .sent c.turnFrame :: traffic)
      (quiet : turnStarts traffic = []) (heard : c.protocol.Heard → c'.protocol.Heard)
      (answered : ∀ turnId, result = some (.ok turnId) →
        ∃ m, .received m ∈ traffic ∧ carries c.nextId m = true ∧ turnOf m = some turnId)
      (rejected : result = some (.error .rejected) →
        ∃ m, .received m ∈ traffic ∧ carries c.nextId m = true ∧ (m.get "error").isSome = true)
      (launched : result ≠ some (.error .launch))
      (exited : result = some (.error .exited) → c.severed sink = true) : TurnAsked c sink result c'

/-- How far a written frame gets. -/
theorem JsonLines.write_cases (frame : Value) (sink : Sink) (l : JsonLines) :
    (l.write frame sink = (.error .protocol, l)
        ∧ ¬ (SerdeJson.toVec frame ++ [10]).length ≤ maxFrameBytes)
      ∨ (l.write frame sink = (.error .exited, l) ∧ sink = .refused)
      ∨ ((SerdeJson.toVec frame ++ [10]).length ≤ maxFrameBytes
        ∧ ((l.write frame sink
              = (.error .exited, { l with transcript := l.transcript ++ [.sent frame] })
            ∧ sink = .unflushed)
          ∨ (l.write frame sink = (.ok (), { l with transcript := l.transcript ++ [.sent frame] })
            ∧ sink = .taken))) := by
  unfold write
  split_ifs with hlarge
  · exact Or.inl ⟨rfl, by omega⟩
  · have hfits : (SerdeJson.toVec frame ++ [10]).length ≤ maxFrameBytes := by omega
    cases sink with
    | refused => exact Or.inr (Or.inl ⟨rfl, rfl⟩)
    | unflushed => exact Or.inr (Or.inr ⟨hfits, Or.inl ⟨rfl, rfl⟩⟩)
    | taken => exact Or.inr (Or.inr ⟨hfits, Or.inr ⟨rfl, rfl⟩⟩)

namespace AppServerClient

variable {c c' : AppServerClient} {sink : Sink}

theorem startTurn_asked {result : Option (Except AppServerError String)}
    (h : c.startTurn sink = (result, c')) : TurnAsked c sink result c' := by
  unfold startTurn at h
  dsimp only at h
  cases hnext : checkedNext c.nextId with
  | none =>
      rw [hnext] at h
      cases h
      exact .unsent .protocol rfl rfl id
  | some next =>
      rw [hnext] at h
      have hframe : JsonLines.requestFrame c.nextId "turn/start" c.turnStartParams
          = c.turnFrame := rfl
      have hparams : turnStartParams
          { c with retrievedMessageIds := ∅, nextId := next } = c.turnStartParams := rfl
      dsimp only at h
      rw [hparams, JsonLines.request, hframe] at h
      rcases c.protocol.write_cases c.turnFrame sink with
        ⟨hwrite, -⟩ | ⟨hwrite, -⟩ | ⟨hfits, ⟨hwrite, hsink⟩ | ⟨hwrite, hsink⟩⟩
      · rw [hwrite] at h
        cases h
        exact .unsent .protocol rfl rfl id
      · rw [hwrite] at h
        cases h
        exact .unsent .exited rfl rfl id
      · -- written, and not flushed
        rw [hwrite] at h
        cases h
        have hsevered : c.severed sink = true := by
          rw [hsink]
          exact decide_eq_true hfits
        exact .sent [] rfl rfl rfl (fun hheard m hm => List.mem_append_left _ (hheard m hm))
          (by simp) (by simp) (by simp) fun _ => hsevered
      · -- written, and the answer is waited for
        rw [hwrite] at h
        dsimp only at h
        have hwait := JsonLines.awaitResponse_exited c.nextId (c.protocol.reader.length + 1)
          { c.protocol with transcript := c.protocol.transcript ++ [.sent c.turnFrame] }
          (Nat.lt_succ_self _)
        obtain ⟨traffic, hanswer⟩ := JsonLines.awaitResponse_answer c.nextId
          (c.protocol.reader.length + 1)
          { c.protocol with transcript := c.protocol.transcript ++ [.sent c.turnFrame] }
        have htranscript : ∀ l : JsonLines,
            l.transcript = c.protocol.transcript ++ [.sent c.turnFrame] ++ traffic →
            l.transcript = c.protocol.transcript ++ .sent c.turnFrame :: traffic := by
          intro l hl
          rw [hl, List.append_assoc, List.singleton_append]
        have hheard : c.protocol.Heard → JsonLines.Heard
            { c.protocol with transcript := c.protocol.transcript ++ [.sent c.turnFrame] } :=
          fun hheard m hm => List.mem_append_left _ (hheard m hm)
        have hsevered : cutShort c.nextId c.protocol.reads = true → c.severed sink = true := by
          intro hcut
          rw [hsink, severed, turnFits, hcut, decide_eq_true hfits]
          rfl
        split at h
        next l heq =>
          rw [heq] at hanswer
          cases h
          exact .sent traffic rfl (htranscript l hanswer.grows.transcript) hanswer.grows.quiet
            (fun hc => hanswer.grows.heard (hheard hc)) (by simp) (by simp) (by simp) (by simp)
        next e l heq =>
          rw [heq] at hanswer hwait
          cases h
          refine .sent traffic rfl (htranscript l hanswer.grows.transcript) hanswer.grows.quiet
            (fun hc => hanswer.grows.heard (hheard hc)) (by simp) ?_ ?_ ?_
          · intro hrejected
            simp only [Option.some.injEq, Except.error.injEq] at hrejected
            exact hanswer.rejected (by rw [hrejected])
          · intro hlaunch
            simp only [Option.some.injEq, Except.error.injEq] at hlaunch
            exact hanswer.launched (by rw [hlaunch])
          · intro hexited
            simp only [Option.some.injEq, Except.error.injEq] at hexited
            exact hsevered (hwait.mp (by rw [hexited]))
        next response l heq =>
          rw [heq] at hanswer
          split at h
          · cases h
            exact .sent traffic rfl (htranscript l hanswer.grows.transcript) hanswer.grows.quiet
              (fun hc => hanswer.grows.heard (hheard hc)) (by simp) (by simp) (by simp) (by simp)
          · next turnId hturn =>
            cases h
            refine .sent traffic rfl (htranscript l hanswer.grows.transcript) hanswer.grows.quiet
              (fun hc => hanswer.grows.heard (hheard hc)) ?_ (by simp) (by simp) (by simp)
            intro t ht
            simp only [Option.some.injEq, Except.ok.injEq] at ht
            obtain ⟨m, hm, hcarries, hresult⟩ := hanswer.answered response rfl
            refine ⟨m, hm, hcarries, ?_⟩
            have hpointer : m.pointer ["result", "turn", "id"]
                = response.pointer ["turn", "id"] := by
              rw [Value.pointer, hresult]
              rfl
            rw [turnOf, hpointer, ← ht]
            exact (Option.filter_eq_some_iff.mp hturn).1

/-- `respond` and what is before it send frames without a method. -/
theorem conclude_grows (c : AppServerClient) (call : DynamicWakeCall) (response : Value)
    (sink : Sink) : ∃ traffic, c.protocol.Grows (c.conclude call response sink).2.protocol traffic
      ∧ (c.conclude call response sink).2.threadId = c.threadId := by
  have hrespond : ∀ (d : AppServerClient) (output : Value) (success : Bool),
      d.protocol = c.protocol → d.threadId = c.threadId →
      ∃ traffic, c.protocol.Grows (d.respond call output success sink).2.protocol traffic
        ∧ (d.respond call output success sink).2.threadId = c.threadId := by
    intro d output success hprotocol hthread
    unfold respond
    split
    · exact ⟨[], by rw [hprotocol]; exact .refl _, hthread⟩
    · next text htext =>
        dsimp only
        rw [← hprotocol]
        have hframe : ∀ result : Value,
            startsTurn (.object [("id", call.requestId), ("result", result)]) = false := by
          intro result
          simp [startsTurn, Value.get, List.lookup_cons]
        obtain ⟨traffic, hgrows⟩ := d.protocol.write_grows (hframe _) sink
        exact ⟨traffic, hgrows, hthread⟩
  unfold conclude
  split
  · exact ⟨[], .refl _, rfl⟩
  · split_ifs
    · split
      · exact ⟨[], .refl _, rfl⟩
      · next output _ d hsettle =>
          apply hrespond
          all_goals
            unfold settle at hsettle
            split at hsettle
            all_goals
              split at hsettle
              · cases hsettle
              · first
                | (cases hsettle; rfl)
                | (split_ifs at hsettle; cases hsettle; rfl)
    · exact hrespond c _ _ rfl rfl

theorem handleToolCall_grows (c : AppServerClient) (message : Value) (expected : String)
    (forward answer : Sink) :
    ∃ traffic, c.protocol.Grows
        (c.handleToolCall message expected forward answer).2.1.protocol traffic
      ∧ (c.handleToolCall message expected forward answer).2.1.threadId = c.threadId := by
  unfold handleToolCall
  split
  · exact ⟨[], .refl _, rfl⟩
  · next call hcall =>
      split
      · exact ⟨[], .refl _, rfl⟩
      · next next hnext =>
          dsimp only
          have hmethod : "mcpServer/tool/call" ≠ "turn/start" := by decide
          obtain ⟨traffic, hrequest⟩ := c.protocol.request_grows hmethod c.nextId
            (toolCallParams { c with nextId := next } call) forward
          split
          next => exact ⟨traffic, hrequest, rfl⟩
          next => exact ⟨traffic, hrequest, rfl⟩
          next response heq =>
            obtain ⟨more, hconclude, hthread⟩ := conclude_grows
              { c with
                nextId := next
                protocol := (c.protocol.request c.nextId "mcpServer/tool/call"
                  (toolCallParams { c with nextId := next } call) forward).2 } call response answer
            exact ⟨_, hrequest.trans hconclude, hthread⟩

/-- **A round of `wait_completed`**: a turn ends well only with its completion. -/
theorem waitCompleted_grows {expected : String} {forward answer : Sink} {waited : Waited}
    (h : c.waitCompleted expected forward answer = (waited, c')) :
    ∃ traffic, c.protocol.Grows c'.protocol traffic ∧ c'.threadId = c.threadId
      ∧ (waited = .ended (.ok ()) → c.protocol.Heard → ∃ m, .received m ∈ c'.protocol.transcript
        ∧ completionResult m c.threadId expected = some (.ok ())) := by
  obtain ⟨traffic, hread, hreceived⟩ := c.protocol.readWithTimeout_grows
  unfold waitCompleted at h
  split at h
  next protocol heq =>
    rw [heq] at hread
    cases h
    exact ⟨traffic, hread, rfl, by simp⟩
  next e protocol heq =>
    rw [heq] at hread
    cases h
    exact ⟨traffic, hread, rfl, by simp⟩
  next message protocol heq =>
    rw [heq] at hread hreceived
    dsimp only at h
    split_ifs at h with htool
    · obtain ⟨more, htools, hthread⟩ := handleToolCall_grows { c with protocol := protocol }
        message expected forward answer
      split at h
      next d _ hcall =>
        rw [hcall] at htools hthread
        cases h
        exact ⟨_, hread.trans htools, hthread, by simp⟩
      next e d _ hcall =>
        rw [hcall] at htools hthread
        cases h
        exact ⟨_, hread.trans htools, hthread, by simp⟩
      next d _ hcall =>
        rw [hcall] at htools hthread
        cases h
        exact ⟨_, hread.trans htools, hthread, by simp⟩
    · split at h
      next result hcompletion =>
        cases h
        refine ⟨traffic, hread, rfl, ?_⟩
        intro hok hheard
        simp only [Waited.ended.injEq] at hok
        rw [hok] at hcompletion
        exact ⟨message, hreceived message rfl hheard, hcompletion⟩
      next hcompletion =>
        cases h
        exact ⟨traffic, hread, rfl, by simp⟩

end AppServerClient

/-- The handshake asks for no turn. -/
theorem initializeThread_grows (config : AppServerConfig) (record : Option String)
    (env : Launching) (l : JsonLines) :
    ∃ traffic, l.Grows (initializeThread config record env l).2.1 traffic := by
  have hgreeting : "initialize" ≠ "turn/start" := by decide
  obtain ⟨first, hfirst⟩ := l.request_grows hgreeting 1 greetingParams env.greeting
  unfold initializeThread
  split
  next heq =>
    rw [heq] at hfirst
    exact ⟨_, hfirst⟩
  next heq =>
    rw [heq] at hfirst
    exact ⟨_, hfirst⟩
  next l₁ heq =>
    rw [heq] at hfirst
    have hgreeted : startsTurn
        (.object [("method", .string "initialized"), ("params", .object [])]) = false := by
      decide
    obtain ⟨second, hsecond⟩ := l₁.write_grows hgreeted env.greeted
    split
    next heq₂ =>
      rw [JsonLines.notification] at heq₂
      rw [heq₂] at hsecond
      exact ⟨_, hfirst.trans hsecond⟩
    next l₂ heq₂ =>
      rw [JsonLines.notification] at heq₂
      rw [heq₂] at hsecond
      have hmethod : (threadRequest config).1 ≠ "turn/start" := by
        unfold threadRequest
        split <;> simp
      obtain ⟨third, hthird⟩ := l₂.request_grows hmethod 2 (threadRequest config).2 env.thread
      have hall := (hfirst.trans hsecond).trans hthird
      split
      next heq₃ =>
        rw [heq₃] at hall
        exact ⟨_, hall⟩
      next heq₃ =>
        rw [heq₃] at hall
        exact ⟨_, hall⟩
      next heq₃ =>
        rw [heq₃] at hall
        split
        · exact ⟨_, hall⟩
        · split
          · exact ⟨_, hall⟩
          · split <;> exact ⟨_, hall⟩

/-- **What a launch leaves on its wire**: no request for a turn. -/
theorem AppServerClient.launch_quiet {config : AppServerConfig} {record record' : Option String}
    {env : Launching} {outcome : Option (Except AppServerError AppServerClient)}
    {traffic : List Traffic}
    (h : AppServerClient.launch config record env = (outcome, traffic, record')) :
    turnStarts traffic = [] ∧ ∀ client, outcome = some (.ok client) →
      turnStarts client.protocol.transcript = [] ∧ client.protocol.Heard := by
  obtain ⟨grown, hgrows⟩ := initializeThread_grows config record env (.new env.reader)
  have htranscript : ∀ l : JsonLines, (JsonLines.new env.reader).Grows l grown →
      turnStarts l.transcript = [] ∧ l.Heard := by
    intro l hl
    refine ⟨?_, hl.heard fun m hm => by cases hm⟩
    rw [hl.transcript]
    exact hl.quiet
  unfold AppServerClient.launch at h
  split at h
  · cases h
    exact ⟨rfl, by simp⟩
  · split_ifs at h
    · cases h
      exact ⟨rfl, by simp⟩
    · split at h
      next l _ heq =>
        rw [heq] at hgrows
        cases h
        exact ⟨(htranscript l hgrows).1, by simp⟩
      next e l _ heq =>
        rw [heq] at hgrows
        cases h
        exact ⟨(htranscript l hgrows).1, by simp⟩
      next threadId l _ heq =>
        rw [heq] at hgrows
        cases h
        refine ⟨(htranscript l hgrows).1, ?_⟩
        intro client hclient
        cases hclient
        exact htranscript l hgrows

end Codec

end Psst
