import Psst.Cli.Extract

/-!
# What was validated is read back

Every accepted command reads back the values that its grammar has checked, and the command line
panics on the single argument `message send` only.
-/

namespace Psst.Cli

/-! ## `listen` -/

/-- The options of `listen`: how long to wait, and whether to acknowledge. -/
structure ListenOptions where
  wait : Option (String × Nat)
  ack : Bool

namespace ListenOptions

def waitTokens (o : ListenOptions) : List OsString :=
  match o.wait with
  | none => []
  | some wait => [asBytes "--wait", asBytes wait.1]

def ackTokens (o : ListenOptions) : List OsString :=
  if o.ack then [asBytes "--ack"] else []

/-- **What the grammar of `listen` accepts**: each option at most once, in either order. -/
structure Accepted (o : ListenOptions) (args : List OsString) : Prop where
  tokens : args = o.waitTokens ++ o.ackTokens ∨ args = o.ackTokens ++ o.waitTokens
  within : ∀ wait ∈ o.wait, parseU16 wait.1 = some wait.2 ∧ 1 ≤ wait.2 ∧ wait.2 ≤ 30

end ListenOptions

/-- One turn of the loop. -/
theorem listenGrammar_cons (wait ack : Bool) (arg : OsString) (rest : List OsString) :
    listenGrammar wait ack (arg :: rest)
      = if toStr arg = some "--wait" ∧ wait = false then
          boundedNumber rest.head? 1 30 && listenGrammar true ack rest.tail
        else if toStr arg = some "--ack" ∧ ack = false then listenGrammar wait true rest
        else false := by
  cases rest with
  | nil => rw [listenGrammar.eq_def]; rfl
  | cons value rest => rw [listenGrammar.eq_def]; rfl

theorem listenGrammar_both {args : List OsString} (h : listenGrammar true true args = true) :
    args = [] := by
  cases args with
  | nil => rfl
  | cons arg rest => simp [listenGrammar_cons] at h

theorem listenGrammar_wait {args : List OsString} (h : listenGrammar true false args = true) :
    args = [] ∨ args = [asBytes "--ack"] := by
  cases args with
  | nil => exact Or.inl rfl
  | cons arg rest =>
      rw [listenGrammar_cons, if_neg (by simp)] at h
      split_ifs at h with hack
      rw [listenGrammar_both h, toStr_eq_some.mp hack.1]
      exact Or.inr rfl

/-- A wait, and what is left after it. -/
theorem listenGrammar_waits {ack : Bool} {arg : OsString} {rest : List OsString}
    (hwait : toStr arg = some "--wait") (h : listenGrammar false ack (arg :: rest) = true) :
    ∃ text n rest', arg :: rest = [asBytes "--wait", asBytes text] ++ rest'
      ∧ (parseU16 text = some n ∧ 1 ≤ n ∧ n ≤ 30) ∧ listenGrammar true ack rest' = true := by
  rw [listenGrammar_cons, if_pos ⟨hwait, rfl⟩, Bool.and_eq_true] at h
  obtain ⟨text, n, hvalue, hparse, hmin, hmax⟩ := boundedNumber_eq_true.mp h.1
  refine ⟨text, n, rest.tail, ?_, ⟨hparse, hmin, hmax⟩, h.2⟩
  rw [toStr_eq_some.mp hwait, List.cons_append, List.singleton_append, ← cons_of_head? hvalue]

theorem listenGrammar_ack {args : List OsString} (h : listenGrammar false true args = true) :
    args = [] ∨ ∃ text n, args = [asBytes "--wait", asBytes text]
      ∧ parseU16 text = some n ∧ 1 ≤ n ∧ n ≤ 30 := by
  cases args with
  | nil => exact Or.inl rfl
  | cons arg rest =>
      by_cases hwait : toStr arg = some "--wait"
      · obtain ⟨text, n, rest', hargs, hn, hrest⟩ := listenGrammar_waits hwait h
        rw [listenGrammar_both hrest, List.append_nil] at hargs
        exact Or.inr ⟨text, n, hargs, hn⟩
      · rw [listenGrammar_cons, if_neg (by simp [hwait]), if_neg (by simp)] at h
        cases h

/-- **The grammar of `listen`.** -/
theorem listenGrammar_accepts {args : List OsString}
    (h : listenGrammar false false args = true) : ∃ o : ListenOptions, o.Accepted args := by
  cases args with
  | nil => exact ⟨⟨none, false⟩, Or.inl rfl, by simp⟩
  | cons arg rest =>
      by_cases hwait : toStr arg = some "--wait"
      · obtain ⟨text, n, rest', hargs, hn, hrest⟩ := listenGrammar_waits hwait h
        have hwithin : ∀ wait ∈ some (text, n),
            parseU16 wait.1 = some wait.2 ∧ 1 ≤ wait.2 ∧ wait.2 ≤ 30 := by
          intro wait hwait
          rw [← Option.some.inj hwait]
          exact hn
        rcases listenGrammar_wait hrest with hnil | hack
        · exact ⟨⟨some (text, n), false⟩, Or.inl (by rw [hargs, hnil]; rfl), hwithin⟩
        · exact ⟨⟨some (text, n), true⟩, Or.inl (by rw [hargs, hack]; rfl), hwithin⟩
      · rw [listenGrammar_cons, if_neg (by simp [hwait])] at h
        split_ifs at h with hack
        have harg := toStr_eq_some.mp hack.1
        rcases listenGrammar_ack h with hnil | ⟨text, n, hrest, hn⟩
        · exact ⟨⟨none, true⟩, Or.inl (by rw [harg, hnil]; rfl), by simp⟩
        · refine ⟨⟨some (text, n), true⟩, Or.inr (by rw [harg, hrest]; rfl), ?_⟩
          intro wait hwait
          rw [← Option.some.inj hwait]
          exact hn

/-- **`listen` reads back its options**, thirty seconds being the default. -/
theorem listenArguments_eq {o : ListenOptions} {args : List OsString}
    (h : o.Accepted args) :
    listenArguments (asBytes "listen" :: args)
      = some ⟨(o.wait.map Prod.snd).getD 30, o.ack⟩ := by
  obtain ⟨wait, ack⟩ := o
  have hlisten : (asBytes "listen" == asBytes "--wait") = false := by decide
  have hlisten' : (asBytes "listen" == asBytes "--ack") = false := by decide
  have hack : (asBytes "--ack" == asBytes "--wait") = false := by decide
  have hwait : (asBytes "--wait" == asBytes "--ack") = false := by decide
  cases wait with
  | none =>
      have hargs : args = ListenOptions.ackTokens ⟨none, ack⟩ := by
        rcases h.tokens with htokens | htokens
        · exact htokens
        · rw [htokens]
          exact List.append_nil _
      rw [hargs]
      cases ack with
      | false => simp [listenArguments, ListenOptions.ackTokens, hlisten']
      | true => simp [listenArguments, ListenOptions.ackTokens, hlisten, hlisten']
  | some wait =>
      obtain ⟨text, n⟩ := wait
      obtain ⟨hparse, hmin, hmax⟩ := h.within (text, n) rfl
      have hread : parseU8 text = some n := parseUnsigned_mono hparse (by omega)
      -- a number is not taken for the acknowledgement
      have hack' : parseU16 "--ack" = none := by decide
      have htext : (asBytes text == asBytes "--ack") = false := by
        refine beq_eq_false_iff_ne.mpr fun heq => ?_
        rw [asBytes_inj.mp heq, hack'] at hparse
        cases hparse
      have hargs := h.tokens
      cases ack with
      | false =>
          have hargs' : args = [asBytes "--wait", asBytes text] := by
            simpa [ListenOptions.waitTokens, ListenOptions.ackTokens] using hargs
          simp [hargs', listenArguments, hlisten, hlisten', hwait, htext, hread]
      | true =>
          simp only [ListenOptions.waitTokens, ListenOptions.ackTokens] at hargs
          rcases hargs with rfl | rfl
          · simp [listenArguments, hlisten, hread]
          · simp [listenArguments, hlisten, hack, hread]

/-! ## The commands with pairs -/

structure JoinReads (args : List OsString) (values : List (String × String))
    (joined : JoinArguments) : Prop where
  pairs : OptionPairs (args.drop 3) ["--name", "--role", "--mission"] values
  squad : args[2]? = some (asBytes joined.squad)
  squad_ne : joined.squad ≠ ""
  name : values.lookup "--name" = some joined.name
  role : values.lookup "--role" = some joined.role
  mission : values.lookup "--mission" = joined.mission

theorem joinArguments_reads {args : List OsString} (h : validJoinGrammar args = some true) :
    ∃ joined values, joinArguments args = some (some joined) ∧ JoinReads args values joined := by
  unfold validJoinGrammar at h
  split_ifs at h with hshort
  · cases h
  rw [not_or, Nat.not_lt] at hshort
  have hslice : slice 3 args = some (args.drop 3) := slice_eq_some (by omega)
  rw [hslice, Option.map_some, Option.some.injEq] at h
  obtain ⟨values, hpairs, hrequired⟩ := (Option.any_eq_true _ _).mp h
  simp only [List.all_cons, List.all_nil, Bool.and_true, Bool.and_eq_true] at hrequired
  obtain ⟨name, hname⟩ := Option.isSome_iff_exists.mp hrequired.1
  obtain ⟨role, hrole⟩ := Option.isSome_iff_exists.mp hrequired.2
  obtain ⟨squad, hsquad⟩ := Option.ne_none_iff_exists'.mp hshort.2
  obtain ⟨hsquad', hne⟩ := nonempty_eq_some.mp hsquad
  have hpairs' : parseOptionPairs (args.drop 3) ["--name", "--role", "--mission"] = some values :=
    hpairs
  refine ⟨⟨squad, name, role, values.lookup "--mission"⟩, values, ?_, ?_⟩
  · simp only [joinArguments, hslice, Option.bind_some, hpairs', hsquad, hname, hrole]
  · exact ⟨parseOptionPairs_eq_some hpairs', hsquad', hne, hname, hrole, rfl⟩

structure SendReads (args : List OsString) (values : List (String × String))
    (sent : SendArguments) : Prop where
  pairs : OptionPairs (args.drop 2) sendFlags values
  recipient : values.lookup "--to" = some sent.recipient
  body : (∃ text, values.lookup "--body" = some text ∧ values.lookup "--file" = none
      ∧ sent.body = .text text)
    ∨ ∃ path, values.lookup "--body" = none ∧ values.lookup "--file" = some path
      ∧ sent.body = .file path
  priority : (values.lookup "--priority" = some "high" ∧ sent.priority = .high)
    ∨ (values.lookup "--priority" = some "normal" ∨ values.lookup "--priority" = none)
      ∧ sent.priority = .normal
  replyTo : values.lookup "--reply-to" = sent.replyTo
  correlationId : values.lookup "--correlation-id" = sent.correlationId

/-- **A text or a file**, and never both. -/
theorem sendBody_reads {values : List (String × String)}
    (h : xor (values.lookup "--body").isSome (values.lookup "--file").isSome = true) :
    ∃ body, sendBody values = some body
      ∧ ((∃ text, values.lookup "--body" = some text ∧ values.lookup "--file" = none
          ∧ body = .text text)
        ∨ ∃ path, values.lookup "--body" = none ∧ values.lookup "--file" = some path
          ∧ body = .file path) := by
  unfold sendBody
  cases htext : values.lookup "--body" with
  | some text =>
      rw [htext] at h
      exact ⟨.text text, rfl, Or.inl ⟨text, rfl, by simpa using h, rfl⟩⟩
  | none =>
      rw [htext, Option.isSome_none, Bool.false_xor] at h
      obtain ⟨path, hpath⟩ := Option.isSome_iff_exists.mp h
      exact ⟨.file path, by rw [hpath]; rfl, Or.inr ⟨path, rfl, hpath, rfl⟩⟩

theorem sendArguments_reads {args : List OsString} (h : validSendGrammar args = some true) :
    ∃ sent values, sendArguments args = some sent ∧ SendReads args values sent := by
  obtain ⟨rest, hslice, hgrammar⟩ := Option.map_eq_some_iff.mp h
  obtain ⟨values, hpairs, hvalues⟩ := (Option.any_eq_true _ _).mp hgrammar
  simp only [Bool.and_eq_true] at hvalues
  obtain ⟨⟨hto, hsource⟩, hpriority⟩ := hvalues
  obtain ⟨recipient, hrecipient⟩ := Option.isSome_iff_exists.mp hto
  obtain ⟨body, hbody, hbody'⟩ := sendBody_reads hsource
  refine ⟨⟨recipient, body,
    if values.lookup "--priority" = some "high" then .high else .normal,
    values.lookup "--reply-to", values.lookup "--correlation-id"⟩, values, ?_, ?_⟩
  · simp only [sendArguments, hslice, Option.bind_some, hpairs, hrecipient, Option.map_some, hbody]
  · have hreads := parseOptionPairs_eq_some hpairs
    rw [eq_drop_of_slice hslice] at hreads
    refine ⟨hreads, hrecipient, hbody', ?_, rfl, rfl⟩
    cases hvalue : values.lookup "--priority" with
    | none => exact Or.inr ⟨Or.inr rfl, rfl⟩
    | some value =>
        rw [hvalue] at hpriority
        simp only [Option.all_some, Bool.or_eq_true, beq_iff_eq] at hpriority
        rcases hpriority with rfl | rfl
        · exact Or.inr ⟨Or.inl rfl, rfl⟩
        · exact Or.inl ⟨rfl, rfl⟩

structure TranscriptReads (args : List OsString) (values : List (String × String))
    (read : TranscriptArguments) : Prop where
  pairs : OptionPairs (args.drop 1) transcriptFlags values
  after : ∀ text, values.lookup "--after" = some text → parseI64 text = some read.after
  noAfter : values.lookup "--after" = none → read.after = 0
  limit : ∀ text, values.lookup "--limit" = some text → parseU16 text = some read.limit
  noLimit : values.lookup "--limit" = none → read.limit = 100
  after_nonneg : 0 ≤ read.after
  limit_pos : 1 ≤ read.limit
  limit_le : read.limit ≤ 100

theorem transcriptAfter_reads {values : List (String × String)}
    (h : ((values.lookup "--after").all fun value =>
      (parseI64 value).any fun n => 0 ≤ n) = true) :
    ∃ after, transcriptAfter values = some after
      ∧ (∀ text, values.lookup "--after" = some text → parseI64 text = some after)
      ∧ (values.lookup "--after" = none → after = 0) ∧ 0 ≤ after := by
  unfold transcriptAfter
  cases htext : values.lookup "--after" with
  | none => exact ⟨0, rfl, by simp, fun _ => rfl, by omega⟩
  | some text =>
      rw [htext] at h
      obtain ⟨n, hn, hle⟩ := (Option.any_eq_true _ _).mp h
      refine ⟨n, ?_, ?_, by simp, by simpa using hle⟩
      · show (parseI64 text).filter _ = some n
        rw [hn]
        exact Option.filter_eq_some_iff.mpr ⟨rfl, hle⟩
      · intro text' heq
        rw [← Option.some.inj heq, hn]

theorem transcriptLimit_reads {values : List (String × String)}
    (h : ((values.lookup "--limit").all fun value =>
      (parseU16 value).any fun n => 1 ≤ n && n ≤ 100) = true) :
    ∃ limit, transcriptLimit values = some limit
      ∧ (∀ text, values.lookup "--limit" = some text → parseU16 text = some limit)
      ∧ (values.lookup "--limit" = none → limit = 100) ∧ 1 ≤ limit ∧ limit ≤ 100 := by
  unfold transcriptLimit
  cases htext : values.lookup "--limit" with
  | none => exact ⟨100, rfl, by simp, fun _ => rfl, by omega, by omega⟩
  | some text =>
      rw [htext] at h
      obtain ⟨n, hn, hle⟩ := (Option.any_eq_true _ _).mp h
      refine ⟨n, hn, ?_, by simp, by simpa using hle⟩
      intro text' heq
      rw [← Option.some.inj heq, hn]

theorem transcriptArguments_reads {args : List OsString}
    (h : validTranscriptGrammar args = some true) :
    ∃ read values, transcriptArguments args = some read ∧ TranscriptReads args values read := by
  obtain ⟨rest, hslice, hgrammar⟩ := Option.map_eq_some_iff.mp h
  obtain ⟨values, hpairs, hvalues⟩ := (Option.any_eq_true _ _).mp hgrammar
  rw [Bool.and_eq_true] at hvalues
  obtain ⟨after, hafter, hread, hdefault, hnonneg⟩ := transcriptAfter_reads hvalues.1
  obtain ⟨limit, hlimit, hread', hdefault', hmin, hmax⟩ := transcriptLimit_reads hvalues.2
  have hreads := parseOptionPairs_eq_some hpairs
  rw [eq_drop_of_slice hslice] at hreads
  refine ⟨⟨after, limit⟩, values, ?_, ?_⟩
  · simp only [transcriptArguments, hslice, Option.bind_some, hpairs, hafter, hlimit,
      Option.map_some]
  · exact ⟨hreads, hread, hdefault, hread', hdefault', hnonneg, hmin, hmax⟩

/-! ## Every command -/

structure AckReads (args : List OsString) (ids : List String) : Prop where
  tokens : args.drop 2 = ids.map asBytes
  nonempty : ∀ id ∈ ids, id ≠ ""
  length_pos : 1 ≤ ids.length
  length_le : ids.length ≤ 100

theorem ackArguments_reads {args : List OsString} (hlength : 3 ≤ args.length ∧ args.length ≤ 102)
    (h : ((slice 2 args).map fun ids => ids.all fun id => (nonempty (some id)).isSome)
      = some true) :
    ∃ ids, ackArguments args = some ids ∧ AckReads args ids := by
  obtain ⟨rest, hslice, htexts⟩ := Option.map_eq_some_iff.mp h
  obtain ⟨ids, hids, hne⟩ := texts_of_nonempty htexts
  have hrest := eq_drop_of_slice hslice
  have hcount : ids.length = args.length - 2 := by
    rw [← List.length_drop, ← hrest, hids, List.length_map]
  refine ⟨ids, ?_, by rw [← hrest, hids], hne, by omega, by omega⟩
  rw [ackArguments, hslice, Option.map_some, hids, toStringLossy_texts]

/-- **A command reads back what its grammar has checked**: nothing is missing, the values are the
same, and they are within the protocol's bounds. -/
def ReadsBack : CliCommand → List OsString → Prop
  | .squadJoin, args =>
    ∃ joined values, joinArguments args = some (some joined) ∧ JoinReads args values joined
  | .messageSend, args => ∃ sent values, sendArguments args = some sent ∧ SendReads args values sent
  | .inbox, args =>
    ∃ options read, InboxOptions (args.drop 1) options
      ∧ read = options.foldl InboxOption.apply ⟨100, 0, []⟩
      ∧ inboxArguments args = some read ∧ read.Within
  | .listen, args =>
    ∃ o : ListenOptions, o.Accepted (args.drop 1)
      ∧ listenArguments args = some ⟨(o.wait.map Prod.snd).getD 30, o.ack⟩
  | .messageAcknowledge, args => ∃ ids, ackArguments args = some ids ∧ AckReads args ids
  | .transcript, args =>
    ∃ read values, transcriptArguments args = some read ∧ TranscriptReads args values read
  | _, _ => True

theorem firstArm_eq_none {arms : List (Option Bool × CliCommand)} (h : firstArm arms = none) :
    ∃ command, (none, command) ∈ arms := by
  fun_induction firstArm arms with
  | case1 => cases h
  | case2 command rest => exact ⟨command, List.mem_cons_self⟩
  | case3 command rest => cases h
  | case4 command rest ih =>
      obtain ⟨command', hmem⟩ := ih h
      exact ⟨command', List.mem_cons_of_mem _ hmem⟩

theorem firstArm_eq_some {arms : List (Option Bool × CliCommand)} {command : CliCommand}
    (h : firstArm arms = some (some command)) : (some true, command) ∈ arms := by
  fun_induction firstArm arms with
  | case1 => cases h
  | case2 command' rest => cases h
  | case3 command' rest =>
      cases h
      exact List.mem_cons_self
  | case4 command' rest ih => exact List.mem_cons_of_mem _ (ih h)

theorem guard_eq {c : Prop} [Decidable c] {guard result : Option Bool}
    (h : result = if c then guard else some false) (hresult : result ≠ some false) :
    c ∧ guard = result := by
  split_ifs at h with hc
  · exact ⟨hc, h.symm⟩
  · exact absurd h hresult

/-- An arm that is taken. -/
theorem arms_reads {args : List OsString} {command : CliCommand}
    (h : (some true, command) ∈ arms args) : ReadsBack command args := by
  simp only [arms, List.mem_cons, Prod.mk.injEq, List.not_mem_nil, or_false] at h
  have htrue : some true ≠ some false := by decide
  cases command with
  | squadJoin =>
      simp only [reduceCtorEq, and_false, false_or, or_false, and_true] at h
      exact joinArguments_reads (guard_eq h htrue).2
  | messageSend =>
      simp only [reduceCtorEq, and_false, false_or, or_false, and_true] at h
      exact sendArguments_reads (guard_eq h htrue).2
  | messageAcknowledge =>
      simp only [reduceCtorEq, and_false, false_or, or_false, and_true] at h
      obtain ⟨hlength, htexts⟩ := guard_eq (guard_eq h htrue).2.symm htrue
      exact ackArguments_reads hlength htexts
  | inbox =>
      simp only [reduceCtorEq, and_false, false_or, or_false, and_true] at h
      have hgrammar := Option.some.inj (guard_eq h htrue).2
      obtain ⟨options, hoptions, -, hread⟩ :=
        inboxGrammar_reads _ [] (args.drop 1) ⟨100, 0, []⟩ hgrammar
      have hdefaults : InboxArguments.Within ⟨100, 0, []⟩ := by
        constructor <;> decide
      exact ⟨options, _, hoptions, rfl, hread,
        foldl_apply_within hoptions.within hoptions.distinct hdefaults (Or.inl rfl)⟩
  | listen =>
      simp only [reduceCtorEq, and_false, false_or, or_false, and_true] at h
      obtain ⟨hfirst, hgrammar⟩ := guard_eq h htrue
      obtain ⟨o, ho⟩ := listenGrammar_accepts (Option.some.inj hgrammar)
      have hargs := cons_of_head? (beq_iff_eq.mp hfirst)
      refine ⟨o, ho, ?_⟩
      rw [hargs, ← List.drop_one]
      exact listenArguments_eq ho
  | transcript =>
      simp only [reduceCtorEq, and_false, false_or, or_false, and_true] at h
      exact transcriptArguments_reads (guard_eq h htrue).2
  | _ => trivial

/-- **Where the grammars panic**: `message send` is the key, and it is a single argument. -/
theorem arms_panic {args : List OsString} {command : CliCommand}
    (h : (none, command) ∈ arms args) : args = [asBytes "message send"] := by
  simp only [arms, List.mem_cons, Prod.mk.injEq, List.not_mem_nil, or_false] at h
  have hnone : (none : Option Bool) ≠ some false := by decide
  have hslice : ∀ {n : Nat}, n ≤ args.length → ∀ f : List OsString → Bool,
      (slice n args).map f ≠ none := by
    intro n hn f
    rw [slice_eq_some hn]
    exact Option.some_ne_none _
  cases command with
  | squadJoin =>
      simp only [reduceCtorEq, and_false, false_or, or_false, and_true] at h
      have hjoin := (guard_eq h hnone).2
      unfold validJoinGrammar at hjoin
      split_ifs at hjoin with hshort
      rw [not_or, Nat.not_lt] at hshort
      exact absurd hjoin (hslice (by omega) _)
  | messageSend =>
      simp only [reduceCtorEq, and_false, false_or, or_false, and_true] at h
      obtain ⟨hkey, hsend⟩ := guard_eq h hnone
      have hshort : args.length < 2 := by
        by_contra hlong
        exact hslice (Nat.not_lt.mp hlong) _ hsend
      match args, hshort with
      | [], _ => exact absurd hkey (by decide)
      | [arg], _ =>
        cases harg : toStr arg with
        | none =>
            have hempty : commandKey [arg] = "" := by
              simp [commandKey, harg]
            rw [hempty] at hkey
            exact absurd hkey (by decide)
        | some text =>
            have htext : commandKey [arg] = text := by
              simp [commandKey, harg]
            rw [toStr_eq_some.mp harg, ← htext, hkey]
  | messageAcknowledge =>
      simp only [reduceCtorEq, and_false, false_or, or_false, and_true] at h
      obtain ⟨hlength, htexts⟩ := guard_eq (guard_eq h hnone).2.symm hnone
      exact absurd htexts (hslice (by omega) _)
  | transcript =>
      simp only [reduceCtorEq, and_false, false_or, or_false, and_true] at h
      obtain ⟨hfirst, htexts⟩ := guard_eq h hnone
      have hargs := cons_of_head? (beq_iff_eq.mp hfirst)
      have hlength : 1 ≤ args.length := by
        rw [hargs, List.length_cons]
        omega
      exact absurd htexts (hslice hlength _)
  | _ =>
      -- every other guard is a check that does not panic
      simp only [reduceCtorEq, and_false, false_or, or_false, and_true] at h
        <;> exact absurd (guard_eq h hnone).2 (Option.some_ne_none _)

/-- The arguments after the global options. -/
def commandPart (arguments : List OsString) : Option (List OsString) :=
  let args := arguments.drop 1
  match globalOptions [] ⟨none, none, none, leadingJsonRequested args⟩ args with
  | .ok (_, rest) => some rest
  | .error _ => none

section Parse

variable [SocketAddress]

theorem parseDeferred_panics : parseDeferred [asBytes "message send"] = fun _ => none := by
  funext json
  have hnone : firstArm (arms [asBytes "message send"]) = none := by decide
  rw [parseDeferred, hnone]
  rfl

theorem parseCommand_panics (json : Bool) :
    parseCommand [asBytes "message send"] json = none := by
  simp [parseCommand, parseDeferred_panics]

theorem parseDeferred_eq_none {args : List OsString} {json : Bool}
    (h : parseDeferred args json = none) : args = [asBytes "message send"] := by
  obtain ⟨command, hcommand⟩ := firstArm_eq_none (Option.map_eq_none_iff.mp h)
  exact arms_panic hcommand

theorem parseCommand_eq_none {args : List OsString} {json : Bool}
    (h : parseCommand args json = none) : args = [asBytes "message send"] := by
  unfold parseCommand at h
  split at h
  · cases h
  simp only at h
  split_ifs at h with hhealth hrelay hconfig hharness hlist hcreate hmission hdescribe
  · -- `start` is the second argument, so the rest begins within the arguments
    have hsecond : args[1]? = some (asBytes "start") := beq_iff_eq.mp hrelay.2
    obtain ⟨hlength, -⟩ := List.getElem?_eq_some_iff.mp hsecond
    rw [slice_eq_some hlength] at h
    cases h
  · -- the values of `squad create` are errors or a command
    split at h
    · cases h
    · split at h <;> cases h
  · exact parseDeferred_eq_none h

theorem parseDeferred_reads {args arguments : List OsString} {json : Bool} {command : CliCommand}
    (h : parseDeferred args json = some (.ok (.deferred command arguments))) :
    ReadsBack command arguments := by
  obtain ⟨found, hfound, hresult⟩ := Option.map_eq_some_iff.mp h
  cases found with
  | none => cases hresult
  | some found =>
      cases hresult
      exact arms_reads (firstArm_eq_some hfound)

theorem parseCommand_reads {args arguments : List OsString} {json : Bool} {command : CliCommand}
    (h : parseCommand args json = some (.ok (.deferred command arguments))) :
    ReadsBack command arguments := by
  unfold parseCommand at h
  split at h
  · cases h
  simp only at h
  split_ifs at h with hhealth hrelay hconfig hharness hlist hcreate hmission hdescribe
  · cases h
  · obtain ⟨rest, -, hrest⟩ := Option.map_eq_some_iff.mp h
    unfold parseRelayStart at hrest
    cases hstart : relayStartFrom json [] ⟨none, none, false, none⟩ rest with
    | error e =>
        rw [hstart] at hrest
        cases hrest
    | ok started =>
        rw [hstart] at hrest
        cases hrest
  · cases h
  · cases h
  · cases h
  · cases h
  · split at h
    · cases h
    · split at h <;> cases h
  · cases hsquad : commandArg args[2]? json .squadDescribe with
    | error e =>
        rw [hsquad] at h
        cases h
    | ok squad =>
        rw [hsquad] at h
        cases h
  · exact parseDeferred_reads h

/-- The parser panics when its command does. -/
theorem parse_eq_none {arguments : List OsString} (h : parse arguments = none) :
    commandPart arguments = some [asBytes "message send"] := by
  simp only [parse] at h
  split_ifs at h
  unfold commandPart
  simp only
  cases hglobal : globalOptions [] ⟨none, none, none, leadingJsonRequested (arguments.drop 1)⟩
      (arguments.drop 1) with
  | error e =>
      rw [hglobal] at h
      cases h
  | ok parsed =>
      rw [hglobal] at h
      show some parsed.2 = _
      rw [parseCommand_eq_none (Option.map_eq_none_iff.mp h)]

theorem parse_panics {arguments : List OsString}
    (h : commandPart arguments = some [asBytes "message send"]) : parse arguments = none := by
  unfold commandPart at h
  simp only at h
  split at h
  next global rest hglobal =>
    cases h
    simp only [parse]
    rw [if_neg, if_neg, hglobal]
    · show (parseCommand _ _).map _ = none
      rw [parseCommand_panics]
      rfl
    · rintro (hargs | hargs)
      · rw [hargs] at hglobal
        cases hglobal
      · rw [hargs] at hglobal
        cases hglobal
    · rintro (hargs | hargs | hargs)
      · rw [hargs] at hglobal
        cases hglobal
      · rw [hargs] at hglobal
        cases hglobal
      · rw [hargs] at hglobal
        cases hglobal
  next => cases h

theorem parse_reads {arguments args : List OsString} {global : GlobalOptions}
    {command : CliCommand}
    (h : parse arguments = some (.ok (.command global (.deferred command args)))) :
    ReadsBack command args := by
  simp only [parse] at h
  split_ifs at h
  · cases h
  · cases h
  split at h
  · cases h
  next global' rest hglobal =>
    obtain ⟨result, hresult, heq⟩ := Option.map_eq_some_iff.mp h
    cases result with
    | error e => cases heq
    | ok parsed =>
        cases heq
        exact parseCommand_reads hresult

/-- **What a command line promises**: the parser returns, and an accepted command reads back what
its grammar has checked. -/
def ParsesAndReadsBack (arguments : List OsString) : Prop :=
  ∃ result, parse arguments = some result
    ∧ ∀ global command args, result = .ok (.command global (.deferred command args)) →
      ReadsBack command args

/-- **The command line never panics, and reads back what it has checked, exactly when** the command
is not the single argument `message send`. -/
theorem command_line_iff (arguments : List OsString) :
    ParsesAndReadsBack arguments ↔ commandPart arguments ≠ some [asBytes "message send"] := by
  constructor
  · rintro ⟨result, hresult, -⟩ hpart
    rw [parse_panics hpart] at hresult
    cases hresult
  · intro hpart
    cases hresult : parse arguments with
    | none => exact absurd (parse_eq_none hresult) hpart
    | some result =>
        refine ⟨result, hresult, fun global command args heq => ?_⟩
        rw [heq] at hresult
        exact parse_reads hresult

end Parse

/-- `psst "message send"`: both words are one argument, and the grammar cuts off two. The addresses
are not looked at, so they are any texts here. -/
theorem command_line_panics :
    ¬ @ParsesAndReadsBack ⟨String, some⟩ [asBytes "psst", asBytes "message send"] := by
  rintro ⟨result, hresult, -⟩
  have hpart : commandPart [asBytes "psst", asBytes "message send"]
      = some [asBytes "message send"] := by decide
  rw [@parse_panics ⟨String, some⟩ _ hpart] at hresult
  cases hresult

end Psst.Cli
