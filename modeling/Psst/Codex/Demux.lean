import Psst.Codex.JsonLines
import Psst.Core.Secret

/-!
# Which message answers a request

Client and App Server number their requests on their own. A request completes with the first
response under its id and queues every other message, as long as no request of the server comes
in under that id first, and no deadline passes in the middle of a line.
-/

namespace Psst

open Json

/-! ## What arrives -/

/-- What one call of `read_from_wire` gets: a message, or a failure, which may have cut a line
in two. -/
inductive Read where
  | message (m : Value)
  | failed (e : AppServerError) (cut : Bool)

namespace Read

def result : Read → Except AppServerError Value
  | .message m => .ok m
  | .failed e _ => .error e

def message? : Read → Option Value
  | .message m => some m
  | .failed _ _ => none

def of : Except AppServerError Value → Read
  | .ok m => .message m
  | .error e => .failed e false

@[simp] theorem result_of (found : Except AppServerError Value) : (of found).result = found := by
  cases found <;> rfl

end Read

/-- A response under the id: a message that carries it and names no method. -/
def responds (id : UInt64) (message : Value) : Bool :=
  carries id message && (message.get "method").isNone

section Codec

variable [SerdeJson]

/-- What the calls of `read_from_wire` get from these events, one after the other. -/
def readsFrom (bytes : List UInt8) : List WireEvent → List Read
  | [] => []
  | .octet byte :: events =>
    if byte = 10 then .of (parseLine (bytes ++ [byte])) :: readsFrom [] events
    else readsFrom (bytes ++ [byte]) events
  | .elapsed :: events => .failed .timeout (!bytes.isEmpty) :: readsFrom [] events
  | .ended :: events => .of (parseLine bytes) :: readsFrom [] events
  | .broken :: events => .failed .exited false :: readsFrom [] events

/-- The messages that the octets spell, whatever deadlines pass in between. -/
def messagesFrom (bytes : List UInt8) : List WireEvent → List Value
  | [] => []
  | .octet byte :: events =>
    if byte = 10 then (parseLine (bytes ++ [byte])).toOption.toList ++ messagesFrom [] events
    else messagesFrom (bytes ++ [byte]) events
  | .elapsed :: events => messagesFrom bytes events
  | .ended :: events | .broken :: events => messagesFrom [] events

/-- A line that the end of the file cuts off is no message. -/
theorem parseLine_of_open {bytes : List UInt8} (h : 10 ∉ bytes) :
    ∃ e, parseLine bytes = .error e := by
  unfold parseLine
  split_ifs with hempty hlast
  · exact ⟨_, rfl⟩
  · exact ⟨_, rfl⟩
  · have hmem : (10 : UInt8) ∈ bytes := List.mem_of_getLast? (by
      by_contra hne
      exact hlast (Or.inr hne))
    exact absurd hmem h

/-- One read takes the first of the reads to come. Unless it cuts a line, the messages after it
are those before it without the one it returns. -/
theorem readUntil_cases (events : List WireEvent) :
    ∀ bytes : List UInt8, 10 ∉ bytes →
      (readUntil 10 bytes events = none ∧ readsFrom bytes events = [])
      ∨ ∃ found rest read, readUntil 10 bytes events = some (found, rest)
          ∧ found.bind parseLine = read.result
          ∧ readsFrom bytes events = read :: readsFrom [] rest
          ∧ rest.length < events.length
          ∧ ((∀ e, read ≠ .failed e true) →
              messagesFrom bytes events = read.message?.toList ++ messagesFrom [] rest) := by
  induction events with
  | nil =>
      intro bytes _
      exact Or.inl ⟨rfl, rfl⟩
  | cons event events ih =>
      intro bytes hopen
      cases event with
      | octet byte =>
          by_cases hbyte : byte = 10
          · refine Or.inr ⟨.ok (bytes ++ [byte]), events, .of (parseLine (bytes ++ [byte])),
              by rw [readUntil, if_pos hbyte], (Read.result_of _).symm, by rw [readsFrom, if_pos hbyte],
              Nat.lt_succ_self _, fun _ => ?_⟩
            rw [messagesFrom, if_pos hbyte]
            cases parseLine (bytes ++ [byte]) <;> rfl
          · -- the line goes on
            have hopen' : 10 ∉ bytes ++ [byte] := by
              intro h
              rcases List.mem_append.mp h with h | h
              · exact hopen h
              · exact hbyte (List.mem_singleton.mp h).symm
            rw [readUntil, if_neg hbyte, readsFrom, if_neg hbyte, messagesFrom, if_neg hbyte]
            rcases ih (bytes ++ [byte]) hopen' with hnone | ⟨found, rest, read, h⟩
            · exact Or.inl hnone
            · obtain ⟨huntil, hresult, hreads, hlt, hmessages⟩ := h
              exact Or.inr ⟨found, rest, read, huntil, hresult, hreads,
                Nat.lt_succ_of_lt hlt, hmessages⟩
      | elapsed =>
          refine Or.inr ⟨.error .timeout, events, .failed .timeout (!bytes.isEmpty), rfl, rfl, rfl,
            Nat.lt_succ_self _, fun hwhole => ?_⟩
          have hempty : bytes = [] := by
            cases bytes with
            | nil => rfl
            | cons byte bytes => exact absurd rfl (hwhole .timeout)
          subst hempty
          rfl
      | ended =>
          obtain ⟨e, he⟩ := parseLine_of_open hopen
          refine Or.inr ⟨.ok bytes, events, .of (parseLine bytes), rfl, (Read.result_of _).symm, rfl,
            Nat.lt_succ_self _, fun _ => ?_⟩
          rw [he]
          rfl
      | broken =>
          exact Or.inr ⟨.error .exited, events, .failed .exited false, rfl, rfl, rfl,
            Nat.lt_succ_self _, fun _ => rfl⟩

/-- The reads to come. -/
def JsonLines.reads (l : JsonLines) : List Read := readsFrom [] l.reader

/-- The messages to come. -/
def JsonLines.messages (l : JsonLines) : List Value := messagesFrom [] l.reader

/-- **One read of the wire.** -/
theorem JsonLines.readFromWire_cases (l : JsonLines) :
    (l.readFromWire = (none, l) ∧ l.reads = [])
      ∨ ∃ read l', l.readFromWire = (some read.result, l') ∧ l.reads = read :: l'.reads
          ∧ l'.reader.length < l.reader.length ∧ l'.pending = l.pending
          ∧ ((∀ e, read ≠ .failed e true) →
              l.messages = read.message?.toList ++ l'.messages) := by
  unfold readFromWire
  rcases readUntil_cases l.reader [] (by simp) with ⟨huntil, hreads⟩ | ⟨found, rest, read, h⟩
  · rw [huntil]
    exact Or.inl ⟨rfl, hreads⟩
  · obtain ⟨huntil, hresult, hreads, hlt, hmessages⟩ := h
    rw [huntil]
    refine Or.inr ⟨read, ⟨rest, l.pending, l.transcript ++ read.result.toOption.toList.map .received⟩,
      ?_, hreads, hlt, rfl, hmessages⟩
    simp only [hresult]

/-! ## Which message answers -/

/-- The reads of a call under which nothing can be confused: the first message under the id is a
response, and no deadline passes in the middle of a line. -/
def clear (id : UInt64) : List Read → Bool
  | [] => true
  | .failed _ cut :: _ => !cut
  | .message m :: reads => if carries id m then (m.get "method").isNone else clear id reads

/-- How a request ends, from the reads it made. -/
inductive Completes (id : UInt64) :
    List Read → Option (Except AppServerError Value) → Prop where
  | response {skipped : List Value} {m : Value} (before : ∀ x ∈ skipped, responds id x = false)
      (answers : responds id m = true) :
      Completes id (skipped.map .message ++ [.message m]) (some (reply m))
  | failed {skipped : List Value} {e : AppServerError} {cut : Bool}
      (before : ∀ x ∈ skipped, responds id x = false) :
      Completes id (skipped.map .message ++ [.failed e cut]) (some (.error e))
  | waiting {skipped : List Value} (before : ∀ x ∈ skipped, responds id x = false) :
      Completes id (skipped.map .message) none

omit [SerdeJson] in
/-- A request that has read one message completes with it, if it is a response. -/
theorem Completes.of_message {id : UInt64} {m : Value} {result : Except AppServerError Value}
    (h : Completes id [.message m] (some result)) : responds id m = true := by
  generalize hreads : [Read.message m] = reads at h
  cases h with
  | @response skipped m' before answers =>
      cases skipped with
      | nil =>
          cases hreads
          exact answers
      | cons x skipped => simp at hreads
  | @failed skipped e cut before =>
      cases skipped with
      | nil => cases hreads
      | cons x skipped => simp at hreads

/-- The messages of some reads that do not answer the request. -/
def others (id : UInt64) (reads : List Read) : List Value :=
  (reads.filterMap Read.message?).filter fun m => !responds id m

/-- What the loop of `request` does from `l` to `l'`. -/
structure Awaited (id : UInt64) (l l' : JsonLines) (taken : List Read)
    (outcome : Option (Except AppServerError Value)) : Prop where
  completes : Completes id taken outcome
  reads : l.reads = taken ++ l'.reads
  pending : l'.pending = l.pending ++ others id taken
  messages : l.messages = taken.filterMap Read.message? ++ l'.messages
  waits : outcome = none → l'.reads = []

/-- A message that does not answer is queued, and the loop goes on. -/
theorem Awaited.skip {id : UInt64} {l l₁ l' : JsonLines} {taken : List Read} {m : Value}
    {outcome : Option (Except AppServerError Value)} (hreads : l.reads = .message m :: l₁.reads)
    (hpending : l₁.pending = l.pending ++ [m]) (hmessages : l.messages = m :: l₁.messages)
    (hskip : responds id m = false) (h : Awaited id l₁ l' taken outcome) :
    Awaited id l l' (.message m :: taken) outcome where
  completes := by
    have hbefore : ∀ skipped : List Value, (∀ x ∈ skipped, responds id x = false) →
        ∀ x ∈ m :: skipped, responds id x = false := by
      intro skipped hs x hx
      rcases List.mem_cons.mp hx with rfl | hx
      · exact hskip
      · exact hs x hx
    cases h.completes with
    | response before answers => exact .response (hbefore _ before) answers
    | failed before => exact .failed (hbefore _ before)
    | waiting before => exact .waiting (hbefore _ before)
  reads := by rw [hreads, h.reads, List.cons_append]
  pending := by
    have hothers : others id (.message m :: taken) = m :: others id taken := by
      simp [others, Read.message?, hskip]
    rw [h.pending, hpending, hothers, List.append_assoc, List.singleton_append]
  messages := by
    rw [hmessages, h.messages]
    rfl
  waits := h.waits

/-- **The loop of `request`**, by induction on its turns: it ends at the first response. -/
theorem JsonLines.awaitResponse_awaited {id : UInt64} (fuel : Nat) :
    ∀ l : JsonLines, l.reader.length < fuel → clear id l.reads = true →
      ∃ taken, Awaited id l (l.awaitResponse id fuel).2 taken (l.awaitResponse id fuel).1 := by
  induction fuel with
  | zero =>
      intro l hfuel _
      omega
  | succ fuel ih =>
      intro l hfuel hclear
      have before : ∀ x ∈ ([] : List Value), responds id x = false := by simp
      rw [awaitResponse]
      rcases l.readFromWire_cases with ⟨hread, hreads⟩ | ⟨read, l₁, hread, hreads, hlt, hpending, hm⟩
      · rw [hread]
        exact ⟨[], .waiting before, rfl, (List.append_nil _).symm, rfl,
          fun _ => hreads⟩
      · rw [hread]
        rw [hreads] at hclear
        cases read with
        | failed e cut =>
            have hwhole : ∀ e', Read.failed e cut ≠ .failed e' true := by
              intro e' heq
              cases heq
              cases hclear
            refine ⟨[.failed e cut], .failed before, hreads, ?_, hm hwhole,
              fun h => by cases h⟩
            show l₁.pending = _
            rw [hpending]
            exact (List.append_nil _).symm
        | message m =>
            have hmessages := hm fun e h => by cases h
            simp only [Read.result]
            rw [clear] at hclear
            by_cases hcarries : carries id m = true
            · -- no request of the server, so this is the response
              rw [if_pos hcarries] at hclear ⊢
              have hanswers : responds id m = true := by
                rw [responds, hcarries, hclear]
                rfl
              refine ⟨[.message m], .response before hanswers, hreads, ?_,
                hmessages, fun h => by cases h⟩
              rw [hpending, others]
              simp [Read.message?, hanswers]
            · have hcarries : carries id m = false := by simpa using hcarries
              rw [hcarries] at hclear ⊢
              rw [if_neg (by simp)] at hclear ⊢
              have hskip : responds id m = false := by
                rw [responds, hcarries]
                rfl
              let queued : JsonLines := { l₁ with pending := l₁.pending ++ [m] }
              have hshort : queued.reader.length < fuel := by
                show l₁.reader.length < fuel
                omega
              have hqueued : queued.pending = l.pending ++ [m] := by
                show l₁.pending ++ [m] = _
                rw [hpending]
              have hnext : l.reads = .message m :: queued.reads := hreads
              obtain ⟨taken, h⟩ := ih queued hshort hclear
              exact ⟨_, h.skip hnext hqueued hmessages hskip⟩

/-! ## Runs -/

/-- A call of the client, with what its write comes to. -/
inductive ClientCall where
  | request (id : UInt64) (method : String) (params : Value) (sink : Sink)
  | read

/-- A call, the reads it made and what it returned; nothing yet if it still waits. -/
structure CallRecord where
  call : ClientCall
  reads : List Read
  outcome : Option (Except AppServerError Value)

structure Demux where
  lines : JsonLines
  log : List CallRecord

def JsonLines.perform (l : JsonLines) :
    ClientCall → Option (Except AppServerError Value) × JsonLines
  | .request id method params sink => l.request id method params sink
  | .read => l.readWithTimeout

namespace Demux

/-- The next call, if the last one has returned. -/
def step (s : Demux) (call : ClientCall) : Option Demux :=
  if s.log.getLast?.any fun record => record.outcome.isNone then none
  else
    let (outcome, lines) := s.lines.perform call
    let reads := s.lines.reads.take (s.lines.reads.length - lines.reads.length)
    some ⟨lines, s.log ++ [⟨call, reads, outcome⟩]⟩

/-- Nothing that the call reads can be confused. -/
def clear (s : Demux) : ClientCall → Bool
  | .request id method params sink =>
    match s.lines.write (JsonLines.requestFrame id method params) sink with
    | (.ok (), l) => Psst.clear id l.reads
    | (.error _, _) => true
  | .read =>
    match s.lines.pending, s.lines.reads with
    | [], .failed _ cut :: _ => !cut
    | _, _ => true

def Clear (s : Demux) (call : ClientCall) : Prop := s.clear call = true

instance (s : Demux) (call : ClientCall) : Decidable (s.Clear call) :=
  inferInstanceAs (Decidable (_ = _))

end Demux

/-- The client on the events that its pipe and its clock bring. -/
def demuxLts (script : List WireEvent) : Lts Demux ClientCall :=
  .ofStep (fun s => s = ⟨.new script, []⟩) Demux.step

namespace CallRecord

/-- The messages of a call that answered no request. -/
def others (r : CallRecord) : List Value :=
  match r.call with
  | .request id _ _ _ => Psst.others id r.reads
  | .read => r.reads.filterMap Read.message?

/-- The message that a read returned. -/
def returned (r : CallRecord) : Option Value :=
  match r.call, r.outcome with
  | .read, some (.ok m) => some m
  | _, _ => none

/-- A request that went out completes with the first response. -/
def Answered (r : CallRecord) : Prop :=
  ∀ id method params sink, r.call = .request id method params sink →
    Completes id r.reads r.outcome ∨ (r.reads = [] ∧ ∃ e, r.outcome = some (.error e))

end CallRecord

/-- **Requests are answered by their responses**, every other message is returned once and in
order, and no line is lost. -/
structure Demux.Demultiplexed (script : List WireEvent) (s : Demux) : Prop where
  answered : ∀ r ∈ s.log, r.Answered
  order : s.log.flatMap CallRecord.others = s.log.filterMap CallRecord.returned ++ s.lines.pending
  arrived : (s.log.flatMap fun r => r.reads.filterMap Read.message?) ++ s.lines.messages
    = messagesFrom [] script
  waits : ∀ r, s.log.getLast? = some r → r.outcome = none → s.lines.reads = []

/-- What one call does from `l` to `l'`. -/
structure Performed (l l' : JsonLines) (r : CallRecord) : Prop where
  reads : l.reads = r.reads ++ l'.reads
  messages : l.messages = r.reads.filterMap Read.message? ++ l'.messages
  queue : l.pending ++ r.others = r.returned.toList ++ l'.pending
  answered : r.Answered
  waits : r.outcome = none → l'.reads = []

/-- A write touches neither what is to come nor the queue. -/
theorem JsonLines.write_frame (value : Value) (sink : Sink) (l : JsonLines) :
    (l.write value sink).2.reader = l.reader ∧ (l.write value sink).2.pending = l.pending := by
  unfold write
  split
  · exact ⟨rfl, rfl⟩
  · cases sink <;> exact ⟨rfl, rfl⟩

theorem JsonLines.request_performed {id : UInt64} {method : String} {params : Value} {sink : Sink}
    {s : Demux} (hclear : s.Clear (.request id method params sink)) :
    ∃ taken, Performed s.lines (s.lines.request id method params sink).2
      ⟨.request id method params sink, taken, (s.lines.request id method params sink).1⟩ := by
  have hframe := s.lines.write_frame (requestFrame id method params) sink
  simp only [Demux.Clear, Demux.clear] at hclear
  unfold request
  revert hframe hclear
  rcases s.lines.write (requestFrame id method params) sink with ⟨e | ⟨⟩, l⟩
  · -- the request did not go out
    rintro - ⟨hreader, hpending⟩
    have hreads : l.reads = s.lines.reads := congrArg (readsFrom []) hreader
    have hmessages : l.messages = s.lines.messages := congrArg (messagesFrom []) hreader
    refine ⟨[], hreads.symm, hmessages.symm, ?_, ?_, fun h => by cases h⟩
    · show s.lines.pending ++ [] = [] ++ l.pending
      rw [hpending, List.append_nil, List.nil_append]
    · intro _ _ _ _ _
      exact Or.inr ⟨rfl, e, rfl⟩
  · rintro hclear ⟨hreader, hpending⟩
    have hreads : l.reads = s.lines.reads := congrArg (readsFrom []) hreader
    have hmessages : l.messages = s.lines.messages := congrArg (messagesFrom []) hreader
    obtain ⟨taken, h⟩ := JsonLines.awaitResponse_awaited (l.reader.length + 1) l
      (Nat.lt_succ_self _) hclear
    refine ⟨taken, hreads.symm.trans h.reads, hmessages.symm.trans h.messages, ?_, ?_, h.waits⟩
    · show s.lines.pending ++ Psst.others id taken = [] ++ _
      rw [h.pending, hpending, List.nil_append]
    · intro _ _ _ _ hcall
      cases hcall
      exact Or.inl h.completes

omit [SerdeJson] in
/-- A read is no request. -/
theorem CallRecord.answered_read (reads : List Read)
    (outcome : Option (Except AppServerError Value)) : Answered ⟨.read, reads, outcome⟩ := by
  intro _ _ _ _ hcall
  cases hcall

theorem JsonLines.read_performed {s : Demux} (hclear : s.Clear .read) :
    ∃ taken, Performed s.lines s.lines.readWithTimeout.2
      ⟨.read, taken, s.lines.readWithTimeout.1⟩ := by
  unfold Demux.Clear Demux.clear at hclear
  unfold readWithTimeout
  cases hqueue : s.lines.pending with
  | cons m pending =>
      refine ⟨[], rfl, rfl, ?_, CallRecord.answered_read _ _, fun h => by cases h⟩
      rw [hqueue]
      exact List.append_nil _
  | nil =>
      rw [hqueue] at hclear
      rcases s.lines.readFromWire_cases with ⟨hread, hreads⟩ | ⟨read, l, hread, hreads, -, hpending, hm⟩
      · rw [hread]
        refine ⟨[], rfl, rfl, ?_, CallRecord.answered_read _ _, fun _ => hreads⟩
        rw [hqueue]
        rfl
      · rw [hread]
        rw [hreads] at hclear
        rw [hqueue] at hpending
        cases read with
        | message m =>
            have hmessages := hm fun e h => by cases h
            refine ⟨[.message m], hreads, hmessages, ?_, CallRecord.answered_read _ _,
              fun h => by cases h⟩
            show s.lines.pending ++ [m] = [m] ++ l.pending
            rw [hqueue, hpending]
            rfl
        | failed e cut =>
            have hwhole : ∀ e', Read.failed e cut ≠ .failed e' true := by
              intro e' heq
              cases heq
              cases hclear
            refine ⟨[.failed e cut], hreads, hm hwhole, ?_, CallRecord.answered_read _ _,
              fun h => by cases h⟩
            show s.lines.pending ++ [] = [] ++ l.pending
            rw [hqueue, hpending]

/-- One call. -/
theorem Demux.step_cases {s t : Demux} {call : ClientCall} (hclear : s.Clear call)
    (h : s.step call = some t) :
    ∃ record, t.log = s.log ++ [record] ∧ Performed s.lines t.lines record := by
  have hperformed : ∃ taken, Performed s.lines (s.lines.perform call).2
      ⟨call, taken, (s.lines.perform call).1⟩ := by
    cases call with
    | request id method params sink => exact JsonLines.request_performed hclear
    | read => exact JsonLines.read_performed hclear
  obtain ⟨taken, hp⟩ := hperformed
  unfold step at h
  split at h
  · cases h
  · cases h
    have htaken : s.lines.reads.take
        (s.lines.reads.length - (s.lines.perform call).2.reads.length) = taken := by
      have hreads : s.lines.reads = taken ++ (s.lines.perform call).2.reads := hp.reads
      rw [hreads, List.length_append, Nat.add_sub_cancel, List.take_left]
    refine ⟨_, rfl, ?_⟩
    show Performed s.lines (s.lines.perform call).2 ⟨call, s.lines.reads.take
      (s.lines.reads.length - (s.lines.perform call).2.reads.length), (s.lines.perform call).1⟩
    rw [htaken]
    exact hp

/-- **Messages of the App Server are demultiplexed**, in every run whose calls are undisturbed:
no request of the server comes in under the id that a request of the client waits for before its
response does, and no deadline passes in the middle of a line. -/
theorem messages_demultiplexed {script : List WireEvent} {s : Demux}
    (h : (demuxLts script).Reach Demux.Clear s) : s.Demultiplexed script := by
  refine h.invariant ?_ ?_
  · rintro s rfl
    exact ⟨(fun r hr => by cases hr), rfl, rfl, fun r hr => by cases hr⟩
  · intro s call t hinv hclear hstep
    obtain ⟨record, hlog, hp⟩ := Demux.step_cases hclear hstep
    refine ⟨?_, ?_, ?_, ?_⟩
    · intro r hr
      rw [hlog] at hr
      rcases List.mem_append.mp hr with hold | hnew
      · exact hinv.answered r hold
      · rw [List.mem_singleton.mp hnew]
        exact hp.answered
    · -- the queue takes what the call skipped and gives what it returned
      rw [hlog, List.flatMap_append, List.filterMap_append, hinv.order, List.flatMap_singleton,
        List.append_assoc, List.append_assoc]
      have hreturned : [record].filterMap CallRecord.returned = record.returned.toList := by
        cases hret : record.returned <;> simp [hret]
      rw [hreturned, hp.queue]
    · rw [← hinv.arrived, hp.messages, hlog, List.flatMap_append, List.flatMap_singleton,
        List.append_assoc]
    · intro r hr hwaits
      rw [hlog, List.getLast?_append] at hr
      cases hr
      exact hp.waits hwaits

end Codec

namespace Sample

/-- `{"id":3,"method":"item/tool/call"}`: a request of the server. -/
def toolCall : Value :=
  .object [("id", .number (.posInt 3)), ("method", .string "item/tool/call")]

/-- `{"id":3,"result":{}}`: the response to the client's request. -/
def answer : Value := .object [("id", .number (.posInt 3)), ("result", .object [])]

/-- `{"method":"turn/started"}` -/
def notice : Value := .object [("method", .string "turn/started")]

def toolCallLine : List UInt8 := asBytes "\x7b\"id\":3,\"method\":\"item/tool/call\"\x7d"

def answerLine : List UInt8 := asBytes "\x7b\"id\":3,\"result\":\x7b\x7d\x7d"

def noticeLine : List UInt8 := asBytes "\x7b\"method\":\"turn/started\"\x7d"

/-- `serde_json` on the three lines. -/
@[reducible] def threeLines : SerdeJson where
  fromSlice bytes :=
    if bytes = toolCallLine then some toolCall
    else if bytes = answerLine then some answer
    else if bytes = noticeLine then some notice
    else none
  toVec _ := []

def line (bytes : List UInt8) : List WireEvent := bytes.map .octet ++ [.octet 10]

/-- The request that starts a turn goes out under id 3. -/
def startTurn : ClientCall := .request 3 "turn/start" .null .taken

def answeredWithEmpty (s : Demux) : Bool :=
  match s.log with
  | [⟨_, _, some (.ok (.object []))⟩, _] => true
  | _ => false

/-- The request has read one message, a request itself, and failed. -/
def failedWithProtocol (s : Demux) : Bool :=
  match s.log with
  | [⟨.request 3 _ _ _, [.message m], some (.error .protocol)⟩] => (m.get "method").isSome
  | _ => false

end Sample

open Sample in
/-- A notification and the response; the notification is read afterwards. -/
theorem messages_demultiplexed_notice :
    letI : SerdeJson := threeLines
    ∃ s, s.Demultiplexed (line noticeLine ++ line answerLine) ∧ answeredWithEmpty s = true := by
  let _ : SerdeJson := threeLines
  have hrun : (Lts.follow Demux.step Demux.Clear
      ⟨.new (line noticeLine ++ line answerLine), []⟩ [startTurn, .read]).any answeredWithEmpty
        = true := by
    decide
  obtain ⟨s, hs, hcheck⟩ := Lts.exists_steps_of_follow _ hrun
  exact ⟨s, messages_demultiplexed ⟨_, rfl, hs⟩, hcheck⟩

open Sample in
/-- **A request of the server is taken for the response.** Its id is the one the client waits
for, so the client's request fails, and the server's request is never read. -/
theorem server_request_taken_for_response :
    letI : SerdeJson := threeLines
    ¬ ∀ s, (demuxLts (line toolCallLine ++ line answerLine)).Reach Lts.always s →
        s.Demultiplexed (line toolCallLine ++ line answerLine) := by
  let _ : SerdeJson := threeLines
  intro hclaim
  have hrun : (Lts.follow Demux.step Lts.always
      ⟨.new (line toolCallLine ++ line answerLine), []⟩ [startTurn]).any failedWithProtocol
        = true := by
    decide
  obtain ⟨s, hs, hcheck⟩ := Lts.exists_steps_of_follow _ hrun
  have hdemux := hclaim s ⟨_, rfl, hs⟩
  unfold failedWithProtocol at hcheck
  split at hcheck
  · next hlog =>
      have hanswered := hdemux.answered _ (by rw [hlog]; exact List.mem_singleton_self _)
      rcases hanswered _ _ _ _ rfl with hcompletes | ⟨hnone, -⟩
      · have hresponds := hcompletes.of_message
        rw [responds, Bool.and_eq_true] at hresponds
        rw [Option.isNone_iff_eq_none.mp hresponds.2] at hcheck
        cases hcheck
      · cases hnone
  · cases hcheck

end Psst
