import Psst.Cli.Parse
import Psst.Core.State

/-!
# Reading the arguments again

A command that needs a profile is executed from its arguments, which are scanned a second time.
What the second scan takes for granted the grammar has checked, and it reads the same values.
The grammar itself can panic, on one command line.
-/

namespace Psst.Cli

/-! ## The second scan -/

structure JoinArguments where
  squad : String
  name : String
  role : String
  mission : Option String

/-- The arguments that `execute_join` reads; `none` inside is an invalid input. -/
def joinArguments (args : List OsString) : Option (Option JoinArguments) :=
  (slice 3 args).bind fun rest =>
    match parseOptionPairs rest ["--name", "--role", "--mission"], nonempty args[2]? with
    | some values, some squad =>
      match values.lookup "--name", values.lookup "--role" with
      | some name, some role => some (some ⟨squad, name, role, values.lookup "--mission"⟩)
      | _, _ => none
    | _, _ => some none

inductive SendBody where
  | text (body : String)
  | file (path : String)
  deriving DecidableEq

structure SendArguments where
  recipient : String
  body : SendBody
  priority : MessagePriority
  replyTo : Option String
  correlationId : Option String

/-- A body, or the file it is read from. -/
def sendBody (values : List (String × String)) : Option SendBody :=
  match values.lookup "--body" with
  | some body => some (.text body)
  | none => (values.lookup "--file").map .file

/-- The arguments that `execute_send` reads. -/
def sendArguments (args : List OsString) : Option SendArguments :=
  (slice 2 args).bind fun rest =>
    (parseOptionPairs rest sendFlags).bind fun values =>
      let priority :=
        if values.lookup "--priority" = some "high" then MessagePriority.high else .normal
      (sendBody values).bind fun body =>
        (values.lookup "--to").map fun recipient =>
          ⟨recipient, body, priority, values.lookup "--reply-to", values.lookup "--correlation-id"⟩

/-- The arguments that `execute_ack` reads. -/
def ackArguments (args : List OsString) : Option (List String) :=
  (slice 2 args).map fun ids => ids.map toStringLossy

structure TranscriptArguments where
  after : Int
  limit : Nat

def transcriptAfter (values : List (String × String)) : Option Int :=
  match values.lookup "--after" with
  | none => some 0
  | some text => (parseI64 text).filter fun n => 0 ≤ n

def transcriptLimit (values : List (String × String)) : Option Nat :=
  match values.lookup "--limit" with
  | none => some 100
  | some text => parseU16 text

/-- The arguments that `execute_transcript` reads. -/
def transcriptArguments (args : List OsString) : Option TranscriptArguments :=
  (slice 1 args).bind fun rest =>
    (parseOptionPairs rest transcriptFlags).bind fun values =>
      (transcriptAfter values).bind fun after =>
        (transcriptLimit values).map fun limit => ⟨after, limit⟩

structure ListenArguments where
  wait : Nat
  ack : Bool
  deriving DecidableEq

/-- The arguments that `execute_listen_until` reads. -/
def listenArguments (args : List OsString) : Option ListenArguments :=
  let wait :=
    match (args.zip args.tail).find? fun window => window.1 == asBytes "--wait" with
    | none => some 30
    | some window => parseU8 (toStringLossy window.2)
  wait.map fun wait => ⟨wait, args.any fun arg => arg == asBytes "--ack"⟩

structure InboxArguments where
  limit : Nat
  wait : Nat
  ack : List String

/-- The loop of `inbox_arguments`. -/
def inboxArgumentsFrom : Nat → InboxArguments → List OsString → Option InboxArguments
  | 0, _, _ => none
  | _ + 1, read, [] => some read
  | fuel + 1, read, arg :: rest =>
    if toStr arg = some "--limit" then
      rest.head?.bind fun value =>
        (parseU16 (toStringLossy value)).bind fun limit =>
          inboxArgumentsFrom fuel { read with limit := limit } rest.tail
    else if toStr arg = some "--wait" then
      rest.head?.bind fun value =>
        (parseU8 (toStringLossy value)).bind fun wait =>
          inboxArgumentsFrom fuel { read with wait := wait } rest.tail
    else if toStr arg = some "--ack" then
      inboxArgumentsFrom fuel
        { read with
          ack := read.ack ++ (rest.takeWhile fun arg => !startsOption arg).map toStringLossy }
        (rest.dropWhile fun arg => !startsOption arg)
    else none

/-- `inbox_arguments` -/
def inboxArguments (args : List OsString) : Option InboxArguments :=
  inboxArgumentsFrom (args.length + 1) ⟨100, 0, []⟩ (args.drop 1)

/-! ## What a grammar has checked -/

/-- An option of `inbox`, with the number that its text spells. -/
inductive InboxOption where
  | limit (text : String) (n : Nat)
  | wait (text : String) (n : Nat)
  | ack (ids : List String)

namespace InboxOption

def tokens : InboxOption → List OsString
  | limit text _ => [asBytes "--limit", asBytes text]
  | wait text _ => [asBytes "--wait", asBytes text]
  | ack ids => asBytes "--ack" :: ids.map asBytes

def flag : InboxOption → String
  | limit _ _ => "--limit"
  | wait _ _ => "--wait"
  | ack _ => "--ack"

/-- Within the protocol's bounds. -/
def Within : InboxOption → Prop
  | limit text n => parseU16 text = some n ∧ 1 ≤ n ∧ n ≤ 100
  | wait text n => parseU16 text = some n ∧ n ≤ 30
  | ack ids =>
    1 ≤ ids.length ∧ ids.length ≤ 100
      ∧ ∀ id ∈ ids, id ≠ "" ∧ startsOption (asBytes id) = false

/-- What an option says, over what was said before. -/
def apply (read : InboxArguments) : InboxOption → InboxArguments
  | limit _ n => { read with limit := n }
  | wait _ n => { read with wait := n }
  | ack ids => { read with ack := read.ack ++ ids }

end InboxOption

/-- **What the grammar of `inbox` accepts**: options within the bounds, each at most once. -/
structure InboxOptions (args : List OsString) (options : List InboxOption) : Prop where
  tokens : args = options.flatMap InboxOption.tokens
  within : ∀ o ∈ options, o.Within
  distinct : (options.map InboxOption.flag).Nodup

/-! ## `inbox` -/

/-- Arguments that are all texts. -/
theorem texts_of_nonempty {as : List OsString}
    (h : (as.all fun a => (nonempty (some a)).isSome) = true) :
    ∃ texts : List String, as = texts.map asBytes ∧ ∀ text ∈ texts, text ≠ "" := by
  induction as with
  | nil => exact ⟨[], rfl, by simp⟩
  | cons a as ih =>
      rw [List.all_cons, Bool.and_eq_true] at h
      obtain ⟨text, htext⟩ := Option.isSome_iff_exists.mp h.1
      obtain ⟨ha, hne⟩ := nonempty_eq_some.mp htext
      obtain ⟨texts, htexts, hall⟩ := ih h.2
      refine ⟨text :: texts, ?_, List.forall_mem_cons.mpr ⟨hne, hall⟩⟩
      rw [htexts, Option.some.inj ha]
      rfl

theorem toStringLossy_texts (texts : List String) :
    (texts.map asBytes).map toStringLossy = texts := by
  induction texts with
  | nil => rfl
  | cons text texts ih =>
      rw [List.map_cons, List.map_cons, ih, toStringLossy_asBytes]

theorem cons_of_head? {rest : List OsString} {a : OsString} (h : rest.head? = some a) :
    rest = a :: rest.tail := by
  cases rest with
  | nil => cases h
  | cons b rest =>
      cases h
      rfl

/-- **The two scans of `inbox`** go through the same options. -/
theorem inboxGrammar_reads (fuel : Nat) :
    ∀ (seen : List String) (args : List OsString) (read : InboxArguments),
      inboxGrammar fuel seen args = true →
      ∃ options, InboxOptions args options ∧ (∀ o ∈ options, o.flag ∉ seen)
        ∧ inboxArgumentsFrom fuel read args = some (options.foldl InboxOption.apply read) := by
  induction fuel with
  | zero =>
      intro seen args read h
      cases h
  | succ fuel ih =>
      intro seen args read h
      cases args with
      | nil =>
          refine ⟨[], ⟨rfl, by simp, List.nodup_nil⟩, by simp, rfl⟩
      | cons arg rest =>
          rw [inboxGrammar] at h
          split at h
          · cases h
          next flag hflag =>
            have harg := toStr_eq_some.mp hflag
            -- an option, and what is read after it
            have hoption : ∀ (o : InboxOption) (rest' : List OsString),
                arg :: rest = o.tokens ++ rest' → o.flag = flag → flag ∉ seen → o.Within →
                inboxGrammar fuel (flag :: seen) rest' = true →
                inboxArgumentsFrom (fuel + 1) read (arg :: rest)
                  = inboxArgumentsFrom fuel (o.apply read) rest' →
                ∃ options, InboxOptions (arg :: rest) options ∧ (∀ o ∈ options, o.flag ∉ seen)
                  ∧ inboxArgumentsFrom (fuel + 1) read (arg :: rest)
                    = some (options.foldl InboxOption.apply read) := by
              intro o rest' htokens hname hfresh hwithin hgrammar hread
              obtain ⟨options, hoptions, hothers, hrest⟩ := ih _ rest' (o.apply read) hgrammar
              refine ⟨o :: options, ⟨?_, ?_, ?_⟩, ?_, ?_⟩
              · rw [htokens, List.flatMap_cons, ← hoptions.tokens]
              · exact List.forall_mem_cons.mpr ⟨hwithin, hoptions.within⟩
              · rw [List.map_cons, List.nodup_cons]
                refine ⟨?_, hoptions.distinct⟩
                rintro hmem
                obtain ⟨o', ho', heq⟩ := List.mem_map.mp hmem
                exact hothers o' ho' (by rw [heq, hname]; exact List.mem_cons_self)
              · refine List.forall_mem_cons.mpr ⟨by rw [hname]; exact hfresh, ?_⟩
                exact fun o' ho' hseen => hothers o' ho' (List.mem_cons_of_mem _ hseen)
              · rw [hread, hrest]
                rfl
            split_ifs at h with hseen hlimit hwait hack
            · rw [Bool.and_eq_true] at h
              obtain ⟨text, n, hvalue, hparse, hmin, hmax⟩ := boundedNumber_eq_true.mp h.1
              have hrest := cons_of_head? hvalue
              apply hoption (.limit text n) rest.tail
              · rw [harg, hlimit, hrest]
                rfl
              · exact hlimit.symm
              · exact hseen
              · exact ⟨hparse, hmin, hmax⟩
              · exact h.2
              · have hname : toStr arg = some "--limit" := by rw [hflag, hlimit]
                rw [inboxArgumentsFrom, if_pos hname, hvalue, Option.bind_some,
                  toStringLossy_asBytes, hparse]
                rfl
            · rw [Bool.and_eq_true] at h
              obtain ⟨text, n, hvalue, hparse, -, hmax⟩ := boundedNumber_eq_true.mp h.1
              have hrest := cons_of_head? hvalue
              apply hoption (.wait text n) rest.tail
              · rw [harg, hwait, hrest]
                rfl
              · exact hwait.symm
              · exact hseen
              · exact ⟨hparse, hmax⟩
              · exact h.2
              · have hname : toStr arg = some "--wait" := by rw [hflag, hwait]
                have hother : toStr arg ≠ some "--limit" := by
                  rw [hname]
                  decide
                -- the number that the grammar reads into sixteen bits fits eight
                have hread : parseU8 text = some n := parseUnsigned_mono hparse (by omega)
                rw [inboxArgumentsFrom, if_neg hother, if_pos hname, hvalue, Option.bind_some,
                  toStringLossy_asBytes, hread]
                rfl
            · simp only [Bool.and_eq_true, Bool.not_eq_true', decide_eq_true_eq] at h
              obtain ⟨⟨⟨htexts, hsome⟩, hfew⟩, hgrammar⟩ := h
              obtain ⟨ids, hids, hne⟩ := texts_of_nonempty htexts
              have hlength := congrArg List.length hids
              rw [List.length_map] at hlength
              apply hoption (.ack ids) (rest.dropWhile fun arg => !startsOption arg)
              · show arg :: rest = asBytes "--ack" :: ids.map asBytes ++ _
                rw [← hids, List.cons_append, List.takeWhile_append_dropWhile, harg, hack]
              · exact hack.symm
              · exact hseen
              · refine ⟨?_, by omega, fun id hid => ⟨hne id hid, ?_⟩⟩
                · rw [← hlength]
                  exact List.length_pos_iff.mpr (List.isEmpty_eq_false_iff.mp hsome)
                · have hmem : asBytes id ∈ rest.takeWhile fun arg => !startsOption arg := by
                    rw [hids]
                    exact List.mem_map_of_mem hid
                  simpa using List.all_eq_true.mp List.all_takeWhile _ hmem
              · exact hgrammar
              · have hname : toStr arg = some "--ack" := by rw [hflag, hack]
                have hlimit' : toStr arg ≠ some "--limit" := by
                  rw [hname]
                  decide
                have hwait' : toStr arg ≠ some "--wait" := by
                  rw [hname]
                  decide
                rw [inboxArgumentsFrom, if_neg hlimit', if_neg hwait', if_pos hname, hids,
                  toStringLossy_texts]
                rfl

/-- Within the protocol's bounds. -/
structure InboxArguments.Within (read : InboxArguments) : Prop where
  limit_pos : 1 ≤ read.limit
  limit_le : read.limit ≤ 100
  wait_le : read.wait ≤ 30
  ack_le : read.ack.length ≤ 100

/-- **What `inbox` reads is within the bounds**, since a list of identifiers is there only
once. -/
theorem foldl_apply_within {options : List InboxOption} {read : InboxArguments}
    (hwithin : ∀ o ∈ options, o.Within) (hdistinct : (options.map InboxOption.flag).Nodup)
    (hread : read.Within) (hack : read.ack = [] ∨ "--ack" ∉ options.map InboxOption.flag) :
    (options.foldl InboxOption.apply read).Within := by
  induction options generalizing read with
  | nil => exact hread
  | cons o options ih =>
      rw [List.map_cons, List.nodup_cons] at hdistinct
      rw [List.forall_mem_cons] at hwithin
      rw [List.map_cons, List.mem_cons, not_or] at hack
      rw [List.foldl_cons]
      cases o with
      | limit text n =>
          obtain ⟨-, hmin, hmax⟩ := hwithin.1
          apply ih hwithin.2 hdistinct.2
          · exact { hread with limit_pos := hmin, limit_le := hmax }
          · exact hack.imp id And.right
      | wait text n =>
          apply ih hwithin.2 hdistinct.2
          · exact { hread with wait_le := hwithin.1.2 }
          · exact hack.imp id And.right
      | ack ids =>
          -- nothing was acknowledged before, and nothing is after
          have hnone : read.ack = [] := hack.resolve_right fun h => h.1 rfl
          apply ih hwithin.2 hdistinct.2
          · have hids : (read.ack ++ ids).length ≤ 100 := by
              rw [hnone, List.nil_append]
              exact hwithin.1.2.1
            exact { hread with ack_le := hids }
          · exact Or.inr hdistinct.1

end Psst.Cli
