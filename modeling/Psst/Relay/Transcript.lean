import Psst.Lib.Cursor
import Psst.Relay.Answer
import Psst.Relay.Archive
import Psst.Store.Growth
import Psst.Store.View

/-!
# Reading a transcript page by page

A client reads the transcript of one squad from the start, each time passing the `next_after`
of the page before, while the relay keeps executing commands of any member. One counter numbers
the messages of all squads in commit order, so a later message is always past the cursor: what
the client has read is exactly the squad's messages up to it.
-/

namespace Psst

open Table

/-! ## The messages of a squad -/

/-- The stored records, in the order of the table. -/
def Tables.records (t : Tables) : List MessageRecord := t.messages.map MessageRow.record

/-- The squad with this identity has this name. -/
def Tables.names (t : Tables) (squad : SquadName) (id : SquadId) : Bool :=
  t.squads.any fun q => decide (q.name = squad) && decide (q.id = id)

/-- The committed messages of a squad. -/
def Tables.squadMessages (t : Tables) (squad : SquadName) : List MessageRecord :=
  t.records.filter fun record => t.names squad record.semantics.squad

theorem Tables.names_eq_true {t : Tables} {squad : SquadName} {id : SquadId} :
    t.names squad id = true ↔ ∃ q ∈ t.squads, q.name = squad ∧ q.id = id := by
  simp [Tables.names]

section Growth

variable {s t : Store}

/-- A squad keeps its name. -/
theorem Store.Grows.names_eq (h : s.Grows t) {q : SquadRecord} (hq : q ∈ s.squads)
    (squad : SquadName) : t.names squad q.id = s.names squad q.id := by
  obtain ⟨q', hq', hid, hname, -⟩ := h.squads q hq
  have hs : s.names squad q.id = true ↔ q.name = squad := by
    rw [Tables.names_eq_true]
    constructor
    · rintro ⟨p, hp, hpname, hpid⟩
      rw [← hpname, s.constraints.squadId.eq hp hq hpid]
    · exact fun hn => ⟨q, hq, hn, rfl⟩
  have ht : t.names squad q.id = true ↔ q.name = squad := by
    rw [Tables.names_eq_true]
    constructor
    · rintro ⟨p, hp, hpname, hpid⟩
      rw [← hpname, ← hname, t.constraints.squadId.eq hp hq' (hpid.trans hid.symm)]
    · exact fun hn => ⟨q', hq', hname.trans hn, hid⟩
  rw [Bool.eq_iff_iff, hs, ht]

/-- Every message belongs to a stored squad. -/
theorem Store.squad_of_record {record : MessageRecord} (h : record ∈ s.records) :
    ∃ q ∈ s.squads, q.id = record.semantics.squad := by
  obtain ⟨m, hm, rfl⟩ := List.mem_map.mp h
  obtain ⟨sender, hsender, -, hsquad⟩ := s.constraints.messageSender m hm
  obtain ⟨q, hq, hid⟩ := s.constraints.membershipSquad sender hsender
  exact ⟨q, hq, hid.trans hsquad⟩

/-- Records stay as they are, and a new one is numbered past all of them. -/
def Store.Appends (s t : Store) : Prop :=
  ∃ new : List MessageRecord, t.records = s.records ++ new
    ∧ ∀ record ∈ new, 0 < record.sequence ∧ ∀ o ∈ s.records, o.sequence < record.sequence

variable [Sha256] {c : Context}

theorem Change.appends {u : Store} (h : Change c t u) (hs : s.Appends t) : s.Appends u := by
  obtain ⟨new, hnew, hpast⟩ := hs
  rcases h.messages_cases with heq | ⟨request, heq⟩ | ⟨recipient, now, ids, -, heq⟩
  · exact ⟨new, by rw [Tables.records, heq]; exact hnew, hpast⟩
  · refine ⟨new ++ [(request.row t.nextSequence).record], ?_, ?_⟩
    · rw [Tables.records, heq, List.map_append, ← List.append_assoc, ← hnew]
      rfl
    · intro record hrecord
      rcases List.mem_append.mp hrecord with hrecord | hrecord
      · exact hpast record hrecord
      · -- the new number is past everything stored, the rows of `s` included
        rw [List.mem_singleton.mp hrecord]
        refine ⟨Nat.succ_pos _, fun o ho => ?_⟩
        have hmem : o ∈ t.records := by
          rw [hnew]
          exact List.mem_append_left _ ho
        obtain ⟨m, hm, rfl⟩ := List.mem_map.mp hmem
        exact t.sequence_lt_next hm
  · refine ⟨new, ?_, hpast⟩
    have hcolumn : (t.toTables.acknowledgeAll recipient now ids).messages.map MessageRow.record
        = t.messages.map MessageRow.record :=
      map_updateWhere MessageRow.record (by intro m; rfl)
    rw [Tables.records, heq, hcolumn]
    exact hnew

theorem Store.execute_appends (s : Store) (task : Task) :
    s.Appends (s.execute task.command task.now task.generated).2 := by
  rw [Store.execute_snd]
  exact Changes.keeps (fun _ _ hchange ht => hchange.appends ht) (s.exec_changes_any _)
    ⟨[], (List.append_nil _).symm, fun _ h => by cases h⟩

theorem Store.execute_grows (s : Store) (task : Task) :
    s.Grows (s.execute task.command task.now task.generated).2 := by
  rw [Store.execute_snd]
  exact s.exec_grows _

omit [Sha256] in
/-- What a squad has said only grows. -/
theorem Store.Appends.squadMessages (h : s.Appends t) (hgrows : s.Grows t) (squad : SquadName) :
    ∃ new, t.squadMessages squad = s.squadMessages squad ++ new
      ∧ ∀ record ∈ new, 0 < record.sequence ∧ ∀ o ∈ s.records, o.sequence < record.sequence := by
  obtain ⟨new, hnew, hpast⟩ := h
  refine ⟨new.filter fun record => t.names squad record.semantics.squad, ?_, ?_⟩
  · rw [Tables.squadMessages, hnew, List.filter_append]
    congr 1
    apply List.filter_congr
    intro record hrecord
    obtain ⟨q, hq, hid⟩ := s.squad_of_record hrecord
    rw [← hid]
    exact hgrows.names_eq hq squad
  · exact fun record hrecord => hpast record (List.mem_filter.mp hrecord).1

end Growth

theorem Store.Sequenced.squadMessages {s : Store} (h : s.Sequenced) (squad : SquadName) :
    Cursor.Ordered MessageRecord.sequence (s.squadMessages squad) := by
  have hrecords : Cursor.Ordered MessageRecord.sequence s.records :=
    List.pairwise_map.mpr (List.pairwise_map.mp h)
  exact hrecords.filter _

/-! ## The reader -/

/-- What a page shows of a stored message. -/
structure MessageDto.Shows (dto : MessageDto) (squad : SquadName) (record : MessageRecord) :
    Prop where
  sequence : dto.sequence = record.sequence
  id : dto.id = record.id
  squad : dto.squad = squad
  body : dto.body = record.semantics.body
  priority : dto.priority = record.semantics.priority
  replyTo : dto.replyTo = record.semantics.replyTo
  correlationId : dto.correlationId = record.semantics.correlationId
  createdAt : timestamp record.createdAt = .ok dto.createdAt

/-- A client on its way through a transcript, and the store it reads from. -/
structure Reader where
  store : Store
  /-- the `after` of the next request -/
  cursor : Nat
  pages : List TranscriptResponse

/-- Everything the client has read. -/
def Reader.messages (r : Reader) : List MessageDto := r.pages.flatMap TranscriptResponse.messages

inductive ReaderStep where
  /-- any command of any member, a refused read of this client included -/
  | command (task : Task)
  | read (credential : Credential) (limit : Nat) (now : UnixMillis)

section Reading

variable [Sha256]

/-- The request for the next page. -/
def Reader.request (r : Reader) (squad : SquadName) (credential : Credential) (limit : Nat) :
    StoreCommand :=
  .transcript credential ⟨squad, r.cursor, limit⟩

/-- The page a request is answered with. -/
def Reader.page? (r : Reader) (squad : SquadName) (credential : Credential) (limit : Nat)
    (now : UnixMillis) : Option TranscriptResponse :=
  match (r.store.execute (r.request squad credential limit) now none).1 with
  | .ok (.transcript views) => (transcriptHandler views).toOption
  | _ => none

theorem Reader.emits_of_page? {r : Reader} {squad : SquadName} {credential : Credential}
    {limit : Nat} {now : UnixMillis} {page : TranscriptResponse}
    (h : r.page? squad credential limit now = some page) :
    r.store.Emits (r.request squad credential limit) now none (.transcript page) := by
  unfold Reader.page? at h
  split at h
  · rename_i views hreply
    refine ⟨.transcript views, hreply, ?_⟩
    show ResponseBody.transcript <$> transcriptHandler views = _
    cases hpage : transcriptHandler views with
    | error e =>
        rw [hpage] at h
        cases h
    | ok page' =>
        rw [hpage] at h
        cases h
        rfl
  · cases h

inductive Reader.Step (squad : SquadName) : Reader → ReaderStep → Reader → Prop where
  | command (r : Reader) (task : Task) :
      Step squad r (.command task)
        { r with store := (r.store.execute task.command task.now task.generated).2 }
  /-- an empty page has no `next_after`, and the client asks from the same place again -/
  | read {r : Reader} {credential : Credential} {limit : Nat} {now : UnixMillis}
      {page : TranscriptResponse}
      (answer : r.store.Emits (r.request squad credential limit) now none (.transcript page)) :
      Step squad r (.read credential limit now)
        { store := (r.store.execute (r.request squad credential limit) now none).2
          cursor := page.nextAfter.getD r.cursor
          pages := r.pages ++ [page] }

def readerLts (squad : SquadName) : Lts Reader ReaderStep where
  init r := r = ⟨Store.empty, 0, []⟩
  step := Reader.Step squad

/-- The commands of the others, one after the other. -/
theorem steps_reader_perform {squad : SquadName} (tasks : List Task) :
    ∀ r : Reader, (readerLts squad).Steps Lts.always r
      { r with store := r.store.perform tasks } := by
  induction tasks with
  | nil => exact fun r => .refl r
  | cons task tasks ih =>
      intro r
      have hfirst : (readerLts squad).Steps Lts.always r _ :=
        (Lts.Steps.refl r).tail trivial (Reader.Step.command r task)
      exact hfirst.trans (ih _)

/-! ## One page -/

variable {s : Store} {squad : SquadName}

theorem Store.Emits.transcript {credential : Credential} {query : TranscriptByName}
    {now : UnixMillis} {page : TranscriptResponse}
    (h : s.Emits (.transcript credential query) now none (.transcript page)) :
    ∃ views, (authenticatedTranscriptViews (session credential now) query).run s = .ok (views, s)
      ∧ transcriptHandler views = .ok page := by
  obtain ⟨reply, hreply, hbody⟩ := h
  rcases Tx.commit_cases (authenticatedTranscriptViews (session credential now) query) s with
    ⟨e, -, hc⟩ | ⟨views, t, hrun, hc⟩
  · simp only [Store.execute, Store.answer, hc] at hreply
    cases hreply
  · simp only [Store.execute, Store.answer, hc] at hreply
    cases hreply
    have hstate := authenticatedTranscriptViews_readOnly _ _ _ _ _ hrun
    obtain ⟨page', hpage, heq⟩ := Traverse.map_eq_ok.mp hbody
    cases heq
    exact ⟨views, by rw [hrun, hstate], hpage⟩

omit [Sha256] in
theorem Store.Views.shows {m : MessageRow} {view : MessageView} {dto : MessageDto}
    (h : s.Views m view) (hdto : messageDto view = .ok dto) {q : SquadRecord} (hq : q ∈ s.squads)
    (hid : q.id = m.squadId) : dto.Shows q.name m.record := by
  obtain ⟨createdAt, acknowledgedAt, hcreated, -, rfl⟩ := messageDto_eq_ok hdto
  obtain ⟨p, hp, hpid, hpname⟩ := h.squad
  have hname : view.squad = q.name := by
    rw [← hpname, s.constraints.squadId.eq hp hq (hpid.trans hid.symm)]
  rw [h.message] at hcreated
  exact ⟨by rw [h.message], by rw [h.message], hname, by rw [h.message], by rw [h.message],
    by rw [h.message], by rw [h.message], hcreated⟩

omit [Sha256] in
/-- The rows of a page are the next messages of the squad. -/
theorem Store.Sequenced.records_transcriptRows (h : s.Sequenced) {q : SquadRecord}
    (hq : q ∈ s.squads) (after limit : Nat) :
    (s.transcriptRows q.id after limit).map MessageRow.record
      = Cursor.page MessageRecord.sequence after limit (s.squadMessages q.name) := by
  rw [h.transcriptRows_eq, Cursor.page, Tables.squadMessages, Tables.records, List.map_take,
    List.filter_filter, List.filter_map]
  congr 2
  apply List.filter_congr
  intro m hm
  have hnames : s.names q.name m.squadId = decide (m.squadId = q.id) := by
    rw [Bool.eq_iff_iff, Tables.names_eq_true, decide_eq_true_eq]
    constructor
    · rintro ⟨p, hp, hname, hid⟩
      rw [← hid, s.constraints.squadName.eq hp hq hname]
    · exact fun hid => ⟨q, hq, rfl, hid.symm⟩
  show _ = (decide (after < m.sequence) && s.names q.name m.squadId)
  simp only [hnames, Nat.cast_lt]
  exact Bool.and_comm _ _

/-- **A page shows the next messages of the squad**, and its `next_after` the last of them. -/
theorem Store.Emits.page (hs : s.Sequenced) {credential : Credential} {after limit : Nat}
    {now : UnixMillis} {page : TranscriptResponse}
    (h : s.Emits (.transcript credential ⟨squad, after, limit⟩) now none (.transcript page)) :
    1 ≤ limit
      ∧ List.Forall₂ (fun record dto => dto.Shows squad record)
          (Cursor.page MessageRecord.sequence after limit (s.squadMessages squad)) page.messages
      ∧ page.nextAfter = page.messages.getLast?.map MessageDto.sequence := by
  obtain ⟨views, hrun, hpage⟩ := h.transcript
  obtain ⟨⟨hlimit, -⟩, ⟨i, m, q, -, hq, -, hname, hviews⟩, -⟩ :=
    authenticatedTranscriptViews_eq_ok hrun
  change q.name = squad at hname
  change List.Forall₂ s.Views (s.transcriptRows q.id after limit) views at hviews
  obtain ⟨hdtos, hnext⟩ := transcriptHandler_eq_ok hpage
  refine ⟨hlimit, ?_, hnext⟩
  rw [← hname, ← hs.records_transcriptRows hq, List.forall₂_map_left_iff]
  refine Traverse.imp_of_mem (Traverse.comp hviews hdtos) ?_
  rintro o ho dto ⟨view, hview, hdto⟩
  have hsquad : q.id = o.squadId := by
    rw [hs.transcriptRows_eq] at ho
    have hin := (List.mem_filter.mp (List.mem_of_mem_take ho)).2
    simp only [Bool.and_eq_true, decide_eq_true_eq] at hin
    exact hin.1.symm
  exact hview.shows hdto hq hsquad

/-! ## A whole run -/

/-- What the client has read, against what the store holds. -/
structure Reader.Accounts (squad : SquadName) (r : Reader) : Prop where
  reach : commandLts.Reach Lts.always r.store
  shown : List.Forall₂ (fun record dto => dto.Shows squad record)
    (Cursor.upTo MessageRecord.sequence r.cursor (r.store.squadMessages squad)) r.messages
  /-- nothing that is stored later is numbered up to the cursor -/
  cursor : r.cursor = 0 ∨ ∃ record ∈ r.store.records, record.sequence = r.cursor
  pages : ∀ page ∈ r.pages, page.nextAfter = page.messages.getLast?.map MessageDto.sequence

variable {r r' : Reader}

theorem Reader.Accounts.sequenced (h : r.Accounts squad) : r.store.Sequenced :=
  reach_sequenced (commandLts_reach h.reach)

/-- A command of any member leaves the account right. -/
theorem Reader.Accounts.execute (h : r.Accounts squad) (task : Task) :
    Reader.Accounts squad
      { r with store := (r.store.execute task.command task.now task.generated).2 } := by
  have happends := r.store.execute_appends task
  obtain ⟨new, hnew, hpast⟩ := happends.squadMessages (r.store.execute_grows task) squad
  have hcursor : ∀ record ∈ new, r.cursor < record.sequence := by
    intro record hrecord
    rcases h.cursor with hzero | ⟨o, ho, heq⟩
    · rw [hzero]
      exact (hpast record hrecord).1
    · rw [← heq]
      exact (hpast record hrecord).2 o ho
  refine ⟨h.reach.steps ((Lts.Steps.refl _).tail trivial rfl), ?_, ?_, h.pages⟩
  · show List.Forall₂ _ (Cursor.upTo _ r.cursor (Tables.squadMessages _ squad)) r.messages
    rw [hnew, Cursor.upTo_append hcursor]
    exact h.shown
  · rcases h.cursor with hzero | ⟨o, ho, heq⟩
    · exact Or.inl hzero
    · obtain ⟨new, hrecords, -⟩ := happends
      refine Or.inr ⟨o, ?_, heq⟩
      show o ∈ Tables.records _
      rw [hrecords]
      exact List.mem_append_left _ ho

omit [Sha256] in
theorem sequences_of_shown {records : List MessageRecord} {messages : List MessageDto}
    (h : List.Forall₂ (fun record dto => dto.Shows squad record) records messages) :
    messages.map MessageDto.sequence = records.map MessageRecord.sequence :=
  Traverse.map_eq_map (fun _ _ hshows => hshows.sequence) h

/-- A page continues the account. -/
theorem Reader.Accounts.read (h : r.Accounts squad) {credential : Credential} {limit : Nat}
    {now : UnixMillis} {page : TranscriptResponse}
    (hanswer : r.store.Emits (r.request squad credential limit) now none (.transcript page)) :
    Reader.Accounts squad
      { store := (r.store.execute (r.request squad credential limit) now none).2
        cursor := page.nextAfter.getD r.cursor
        pages := r.pages ++ [page] } := by
  obtain ⟨-, hshown, hnext⟩ := Store.Emits.page h.sequenced hanswer
  have hsame : (r.store.execute (r.request squad credential limit) now none).2 = r.store :=
    (authenticatedTranscriptViews_readOnly _ _).commit_snd _
  have hcursor : page.nextAfter.getD r.cursor
      = Cursor.next MessageRecord.sequence r.cursor
          (Cursor.page MessageRecord.sequence r.cursor limit (r.store.squadMessages squad)) := by
    rw [hnext, Cursor.next, ← List.getLast?_map, ← List.getLast?_map, sequences_of_shown hshown]
  rw [hsame]
  refine ⟨h.reach, ?_, ?_, ?_⟩
  · have hmessages : Reader.messages ⟨r.store, page.nextAfter.getD r.cursor, r.pages ++ [page]⟩
        = r.messages ++ page.messages := by
      simp [Reader.messages]
    rw [hmessages]
    show List.Forall₂ _ (Cursor.upTo _ (page.nextAfter.getD r.cursor) _) _
    rw [hcursor, ← Cursor.upTo_append_page (h.sequenced.squadMessages squad)]
    exact List.rel_append h.shown hshown
  · -- the last row of the page is stored; an empty page leaves the cursor
    show page.nextAfter.getD r.cursor = 0
      ∨ ∃ record ∈ r.store.records, record.sequence = page.nextAfter.getD r.cursor
    rw [hcursor, Cursor.next]
    cases hlast : (Cursor.page MessageRecord.sequence r.cursor limit
        (r.store.squadMessages squad)).getLast? with
    | none => exact h.cursor
    | some last =>
        have hpage := List.mem_of_mem_take (List.mem_of_getLast? hlast)
        have hsquad := (List.mem_filter.mp hpage).1
        exact Or.inr ⟨last, (List.mem_filter.mp hsquad).1, rfl⟩
  · intro p hp
    rcases List.mem_append.mp hp with hp | hp
    · exact h.pages p hp
    · rw [List.mem_singleton.mp hp]
      exact hnext

theorem Reader.Accounts.step (h : r.Accounts squad) {l : ReaderStep}
    (hstep : (readerLts squad).step r l r') : r'.Accounts squad := by
  cases hstep with
  | command task => exact h.execute task
  | read answer => exact h.read answer

theorem reach_accounts (hreach : (readerLts squad).Reach Lts.always r) : r.Accounts squad := by
  refine hreach.invariant ?_ fun _ _ _ h _ hstep => h.step hstep
  rintro r rfl
  exact ⟨⟨_, rfl, .refl _⟩, .nil, Or.inl rfl, fun _ hp => by cases hp⟩

/-- **A transcript read page by page is complete and free of duplicates.** The messages read are
in strictly increasing order and messages of the squad; a page has a `next_after`, that of its
last message, exactly when it has a message; and whenever the answer is an empty page, the client
has read every committed message of the squad, each once and in order. -/
theorem transcript_complete (hreach : (readerLts squad).Reach Lts.always r) :
    (r.messages.map MessageDto.sequence).Pairwise (· < ·)
      ∧ (∀ dto ∈ r.messages, ∃ record ∈ r.store.squadMessages squad, dto.Shows squad record)
      ∧ (∀ page ∈ r.pages, (page.nextAfter = none ↔ page.messages = [])
          ∧ ∀ last ∈ page.messages.getLast?, page.nextAfter = some last.sequence)
      ∧ ∀ credential limit now page,
          r.store.Emits (r.request squad credential limit) now none (.transcript page) →
            page.messages = [] →
              List.Forall₂ (fun record dto => dto.Shows squad record)
                (r.store.squadMessages squad) r.messages := by
  have h := reach_accounts hreach
  have hordered := h.sequenced.squadMessages squad
  refine ⟨?_, ?_, ?_, ?_⟩
  · rw [sequences_of_shown h.shown]
    exact List.pairwise_map.mpr (hordered.filter _)
  · intro dto hdto
    obtain ⟨record, hrecord, hshows⟩ := Traverse.exists_of_mem_right h.shown hdto
    exact ⟨record, (List.mem_filter.mp hrecord).1, hshows⟩
  · intro page hpage
    rw [h.pages page hpage]
    constructor
    · rw [Option.map_eq_none_iff, List.getLast?_eq_none_iff]
    · intro last hlast
      rw [Option.mem_def.mp hlast]
      rfl
  · intro credential limit now page hanswer hempty
    obtain ⟨hlimit, hshown, -⟩ := Store.Emits.page h.sequenced hanswer
    rw [hempty, List.forall₂_nil_right_iff] at hshown
    have hall := h.shown
    rw [Cursor.upTo_of_page_eq_nil hordered hlimit hshown] at hall
    exact hall

end Reading

namespace Sample

/-- Alice has joined `alpha` and sent a message to herself; she starts to read. -/
def atStart : Reader where
  store := Store.empty.perform (archiving.take 1 ++
    [⟨.send ⟨aliceInstance, aliceToken⟩
        { id := ⟨"msg_note", by decide⟩
          recipient := aliceName
          recipientMembershipId := none
          body := note
          priority := .normal
          replyTo := none
          correlationId := none
          dedupeKey := noteKey }, instant 110, none⟩])
  cursor := 0
  pages := []

/-- The reader after its first page. -/
def afterPage (page : TranscriptResponse) : Reader where
  store := (atStart.store.execute (atStart.request alpha ⟨aliceInstance, aliceToken⟩ 1)
    (instant 120) none).2
  cursor := page.nextAfter.getD 0
  pages := [page]

theorem atStart_reach : (readerLts alpha).Reach Lts.always atStart :=
  ⟨_, rfl, steps_reader_perform _ _⟩

end Sample

open Sample in
/-- Alice reads her note with the first page; the second page is empty, and she has read all. -/
theorem transcript_complete_alice :
    ∃ page, (readerLts alpha).Reach Lts.always (afterPage page)
      ∧ (afterPage page).messages.map MessageDto.sequence = [1]
      ∧ List.Forall₂ (fun record dto => dto.Shows alpha record)
          ((afterPage page).store.squadMessages alpha) (afterPage page).messages := by
  have hfirst : (atStart.page? alpha ⟨aliceInstance, aliceToken⟩ 1 ⟨120, by decide⟩).map
      (fun p => (p.messages.map MessageDto.sequence, p.nextAfter)) = some ([1], some 1) := by
    decide
  obtain ⟨page, hpage, heq⟩ := Option.map_eq_some_iff.mp hfirst
  obtain ⟨hsequences, hnext⟩ := Prod.mk.inj heq
  have hreach : (readerLts alpha).Reach Lts.always (afterPage page) :=
    atStart_reach.steps ((Lts.Steps.refl _).tail trivial
      (Reader.Step.read (Reader.emits_of_page? hpage)))
  have hsecond : (Reader.page? ⟨(afterPage page).store, 1, []⟩ alpha ⟨aliceInstance, aliceToken⟩ 5
      ⟨130, by decide⟩).map (fun p => p.messages.length) = some 0 := by
    show (Reader.page? ⟨(atStart.store.execute (atStart.request alpha ⟨aliceInstance, aliceToken⟩
      1) ⟨120, by decide⟩ none).2, 1, []⟩ alpha ⟨aliceInstance, aliceToken⟩ 5
      ⟨130, by decide⟩).map (fun p => p.messages.length) = some 0
    decide
  obtain ⟨last, hlast, hempty⟩ := Option.map_eq_some_iff.mp hsecond
  have hanswer : (afterPage page).store.Emits
      ((afterPage page).request alpha ⟨aliceInstance, aliceToken⟩ 5) ⟨130, by decide⟩ none
      (.transcript last) := by
    have h := Reader.emits_of_page? hlast
    unfold Reader.request at h ⊢
    rw [show (afterPage page).cursor = 1 by rw [afterPage, hnext]; rfl]
    exact h
  refine ⟨page, hreach, ?_, ?_⟩
  · simpa [Reader.messages, afterPage] using hsequences
  · exact (transcript_complete hreach).2.2.2 _ _ _ last hanswer (List.length_eq_zero_iff.mp hempty)

end Psst
