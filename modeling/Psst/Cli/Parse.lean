import Psst.Cli.Args

/-!
# Parsing the command line

`parse` takes the global options off the arguments and recognizes the command in the rest. The
commands that need a profile are recognized by a key, the first two arguments with a blank between
them, and keep their arguments to be read again when they are executed.
-/

namespace Psst.Cli

/-- `SocketAddr` and its parser. Nothing about it is assumed. -/
class SocketAddress where
  Addr : Type
  fromStr : String → Option Addr

inductive CliCommand where
  | invocation
  | relayStart
  | health
  | configShowEffective
  | profileList
  | profileShow
  | squadList
  | squadCreate
  | squadDescribe
  | squadArchive
  | squadJoin
  | squadLeave
  | squadRoster
  | messageSend
  | inbox
  | listen
  | messageAcknowledge
  | transcript
  | status
  | harnessStatus
  | databaseInfo
  | databaseBackup
  | databaseIntegrityCheck
  deriving DecidableEq

structure GlobalOptions where
  relay : Option String
  profile : Option String
  config : Option OsString
  json : Bool

structure RelayStartArgs [SocketAddress] where
  bind : Option SocketAddress.Addr
  dataDir : Option OsString
  allowLan : Bool
  logLevel : Option String

inductive ParsedCommand [SocketAddress] where
  | relayStart (arguments : RelayStartArgs)
  | health
  | configShowEffective
  | harnessStatus
  | squadList
  | squadCreate (squad mission : String)
  | squadDescribe (squad : String)
  | deferred (command : CliCommand) (arguments : List OsString)

inductive Invocation [SocketAddress] where
  | help
  | version
  | command (options : GlobalOptions) (command : ParsedCommand)

structure ParseError where
  command : Option CliCommand
  json : Bool

/-! ## Values -/

/-- `string_arg` -/
def stringArg (value : Option OsString) (json : Bool) : Except ParseError String :=
  match nonempty value with
  | some value => .ok value
  | none => .error ⟨none, json⟩

/-- `os_arg` -/
def osArg (value : Option OsString) (json : Bool) : Except ParseError OsString :=
  match value.filter fun value => !value.isEmpty with
  | some value => .ok value
  | none => .error ⟨none, json⟩

/-- The error of a value, for a command. -/
def forCommand {α : Type} (command : CliCommand) (json : Bool) :
    Except ParseError α → Except ParseError α
  | .ok value => .ok value
  | .error _ => .error ⟨some command, json⟩

/-- `command_arg` -/
def commandArg (value : Option OsString) (json : Bool) (command : CliCommand) :
    Except ParseError String :=
  forCommand command json (stringArg value json)

/-- `command_os_arg` -/
def commandOsArg (value : Option OsString) (json : Bool) (command : CliCommand) :
    Except ParseError OsString :=
  forCommand command json (osArg value json)

/-! ## Global options -/

/-- `leading_json_requested` -/
def leadingJsonRequested : List OsString → Bool
  | [] => false
  | arg :: rest =>
    if toStr arg = some "--json" then true
    else if toStr arg = some "--relay" ∨ toStr arg = some "--profile"
        ∨ toStr arg = some "--config" then
      match rest with
      | [] => false
      | value :: rest =>
        match toStr value with
        | none => false
        | some text => if text.toList.head? = some '-' then false else leadingJsonRequested rest
    else false

/-- The loop of `parse` over the global options, and the arguments it leaves. -/
def globalOptions (seen : List String) (global : GlobalOptions) :
    List OsString → Except ParseError (GlobalOptions × List OsString)
  | [] => .ok (global, [])
  | arg :: rest =>
    if toStr arg = some "--json" then
      if "--json" ∈ seen then .error ⟨none, true⟩
      else globalOptions ("--json" :: seen) global rest
    else if toStr arg = some "--relay" then
      if "--relay" ∈ seen then .error ⟨none, global.json⟩
      else
        match rest with
        | [] => .error ⟨none, global.json⟩
        | value :: rest =>
          match stringArg (some value) global.json with
          | .error e => .error e
          | .ok relay =>
            globalOptions ("--relay" :: seen) { global with relay := some relay } rest
    else if toStr arg = some "--profile" then
      if "--profile" ∈ seen then .error ⟨none, global.json⟩
      else
        match rest with
        | [] => .error ⟨none, global.json⟩
        | value :: rest =>
          match stringArg (some value) global.json with
          | .error e => .error e
          | .ok profile =>
            globalOptions ("--profile" :: seen) { global with profile := some profile } rest
    else if toStr arg = some "--config" then
      if "--config" ∈ seen then .error ⟨none, global.json⟩
      else
        match rest with
        | [] => .error ⟨none, global.json⟩
        | value :: rest =>
          match osArg (some value) global.json with
          | .error e => .error e
          | .ok config =>
            globalOptions ("--config" :: seen) { global with config := some config } rest
    else .ok (global, arg :: rest)

/-! ## Grammars -/

/-- `valid_named_options` -/
def validNamedOptions (args : List OsString) (required optional : List String) : Bool :=
  (parseOptionPairs args (required ++ optional)).any fun values =>
    required.all fun flag => (values.lookup flag).isSome

/-- `valid_join_grammar` -/
def validJoinGrammar (args : List OsString) : Option Bool :=
  if args.length < 7 ∨ nonempty args[2]? = none then some false
  else (slice 3 args).map fun rest => validNamedOptions rest ["--name", "--role"] ["--mission"]

def sendFlags : List String :=
  ["--to", "--body", "--file", "--priority", "--reply-to", "--correlation-id"]

/-- `valid_send_grammar` -/
def validSendGrammar (args : List OsString) : Option Bool :=
  (slice 2 args).map fun rest =>
    (parseOptionPairs rest sendFlags).any fun options =>
      (options.lookup "--to").isSome
        && xor (options.lookup "--body").isSome (options.lookup "--file").isSome
        && (options.lookup "--priority").all fun value => value == "normal" || value == "high"

/-- An argument that ends a list of identifiers. -/
def startsOption (arg : OsString) : Bool := "--".toList.isPrefixOf (toStringLossy arg).toList

/-- The loop of `valid_inbox_grammar`. Every turn takes an argument, so there are no more turns
than arguments. -/
def inboxGrammar : Nat → List String → List OsString → Bool
  | 0, _, _ => false
  | _ + 1, _, [] => true
  | fuel + 1, seen, arg :: rest =>
    match toStr arg with
    | none => false
    | some flag =>
      if flag ∈ seen then false
      else if flag = "--limit" then
        boundedNumber rest.head? 1 100 && inboxGrammar fuel (flag :: seen) rest.tail
      else if flag = "--wait" then
        boundedNumber rest.head? 0 30 && inboxGrammar fuel (flag :: seen) rest.tail
      else if flag = "--ack" then
        let ids := rest.takeWhile fun arg => !startsOption arg
        (ids.all fun id => (nonempty (some id)).isSome) && !ids.isEmpty
          && decide (ids.length ≤ 100)
          && inboxGrammar fuel (flag :: seen) (rest.dropWhile fun arg => !startsOption arg)
      else false

/-- `valid_inbox_grammar` -/
def validInboxGrammar (args : List OsString) : Bool :=
  inboxGrammar (args.length + 1) [] (args.drop 1)

/-- The loop of `valid_listen_grammar`. -/
def listenGrammar : Bool → Bool → List OsString → Bool
  | _, _, [] => true
  | wait, ack, arg :: rest =>
    if toStr arg = some "--wait" ∧ wait = false then
      match rest with
      | [] => false
      | value :: rest => boundedNumber (some value) 1 30 && listenGrammar true ack rest
    else if toStr arg = some "--ack" ∧ ack = false then listenGrammar wait true rest
    else false

/-- `valid_listen_grammar` -/
def validListenGrammar (args : List OsString) : Bool := listenGrammar false false (args.drop 1)

def transcriptFlags : List String := ["--after", "--limit"]

/-- `valid_transcript_grammar` -/
def validTranscriptGrammar (args : List OsString) : Option Bool :=
  (slice 1 args).map fun rest =>
    (parseOptionPairs rest transcriptFlags).any fun options =>
      ((options.lookup "--after").all fun value => (parseI64 value).any fun n => 0 ≤ n)
        && (options.lookup "--limit").all fun value =>
          (parseU16 value).any fun n => 1 ≤ n && n ≤ 100

/-! ## Commands -/

section Parse

variable [SocketAddress]

/-- The loop of `parse_relay_start`. -/
def relayStartFrom (json : Bool) (seen : List String) (parsed : RelayStartArgs) :
    List OsString → Except ParseError RelayStartArgs
  | [] => .ok parsed
  | arg :: rest =>
    let refused : ParseError := ⟨some .relayStart, json⟩
    if toStr arg = some "--bind" ∧ "--bind" ∉ seen then
      match rest with
      | [] => .error refused
      | value :: rest =>
        match commandArg (some value) json .relayStart with
        | .error e => .error e
        | .ok text =>
          match SocketAddress.fromStr text with
          | none => .error refused
          | some addr =>
            relayStartFrom json ("--bind" :: seen) { parsed with bind := some addr } rest
    else if toStr arg = some "--data-dir" ∧ "--data-dir" ∉ seen then
      match rest with
      | [] => .error refused
      | value :: rest =>
        match commandOsArg (some value) json .relayStart with
        | .error e => .error e
        | .ok dir =>
          relayStartFrom json ("--data-dir" :: seen) { parsed with dataDir := some dir } rest
    else if toStr arg = some "--allow-lan" ∧ "--allow-lan" ∉ seen then
      relayStartFrom json ("--allow-lan" :: seen) { parsed with allowLan := true } rest
    else if toStr arg = some "--log" ∧ "--log" ∉ seen then
      match rest with
      | [] => .error refused
      | value :: rest =>
        match commandArg (some value) json .relayStart with
        | .error e => .error e
        | .ok level =>
          relayStartFrom json ("--log" :: seen) { parsed with logLevel := some level } rest
    else .error refused

/-- `parse_relay_start` -/
def parseRelayStart (args : List OsString) (json : Bool) : Except ParseError ParsedCommand :=
  (relayStartFrom json [] ⟨none, none, false, none⟩ args).map .relayStart

/-- `deferred_identity` -/
def deferredIdentity (args : List OsString) : Option CliCommand :=
  match args.head?.bind toStr, args[1]?.bind toStr with
  | some "relay", some "start" => some .relayStart
  | some "health", _ => some .health
  | some "config", some "show" => some .configShowEffective
  | some "harness", some "status" => some .harnessStatus
  | some "profile", some "list" => some .profileList
  | some "profile", some "show" => some .profileShow
  | some "squad", some "archive" => some .squadArchive
  | some "squad", some "list" => some .squadList
  | some "squad", some "create" => some .squadCreate
  | some "squad", some "describe" => some .squadDescribe
  | some "squad", some "join" => some .squadJoin
  | some "squad", some "leave" => some .squadLeave
  | some "squad", some "roster" => some .squadRoster
  | some "message", some "send" => some .messageSend
  | some "message", some "acknowledge" => some .messageAcknowledge
  | some "database", some "info" => some .databaseInfo
  | some "database", some "backup" => some .databaseBackup
  | some "database", some "integrity-check" => some .databaseIntegrityCheck
  | some "inbox", _ => some .inbox
  | some "listen", _ => some .listen
  | some "transcript", _ => some .transcript
  | some "status", _ => some .status
  | _, _ => none

/-- The key of a command: the texts among its first two arguments. -/
def commandKey (args : List OsString) : String :=
  " ".intercalate ((args.take 2).filterMap toStr)

/-- The arms of the match on the key, with their guards in order. -/
def arms (args : List OsString) : List (Option Bool × CliCommand) :=
  let key := commandKey args
  let first (text : String) : Bool := args.head? == some (asBytes text)
  let keyed (text : String) (guard : Option Bool) : Option Bool :=
    if key = text then guard else some false
  let named (text : String) (guard : Option Bool) : Option Bool :=
    if first text then guard else some false
  [(keyed "profile list" (some (args.length == 2)), .profileList),
    (keyed "profile show" (some (args.length == 2
      || (args.length == 3 && (nonempty args[2]?).isSome))), .profileShow),
    (keyed "squad archive" (some (args.length == 3 && (nonempty args[2]?).isSome)), .squadArchive),
    (keyed "squad join" (validJoinGrammar args), .squadJoin),
    (keyed "squad leave" (some (args.length == 2)), .squadLeave),
    (keyed "squad roster" (some (args.length == 2)), .squadRoster),
    (keyed "message send" (validSendGrammar args), .messageSend),
    (keyed "message acknowledge" (if 3 ≤ args.length ∧ args.length ≤ 102 then
      (slice 2 args).map fun ids => ids.all fun id => (nonempty (some id)).isSome
      else some false), .messageAcknowledge),
    (keyed "database info" (some (args.length == 2)), .databaseInfo),
    (keyed "database backup" (some (args.length == 3 && (nonempty args[2]?).isSome)),
      .databaseBackup),
    (keyed "database integrity-check" (some (args.length == 2)), .databaseIntegrityCheck),
    (named "inbox" (some (validInboxGrammar args)), .inbox),
    (named "listen" (some (validListenGrammar args)), .listen),
    (named "transcript" (validTranscriptGrammar args), .transcript),
    (named "status" (some (args.length == 1)), .status)]

/-- The first arm whose guard holds; a guard that panics before it ends the search. -/
def firstArm : List (Option Bool × CliCommand) → Option (Option CliCommand)
  | [] => some none
  | (none, _) :: _ => none
  | (some true, command) :: _ => some (some command)
  | (some false, _) :: rest => firstArm rest

/-- `parse_deferred` -/
def parseDeferred (args : List OsString) (json : Bool) :
    Option (Except ParseError ParsedCommand) :=
  (firstArm (arms args)).map fun
    | some command => .ok (.deferred command args)
    | none => .error ⟨deferredIdentity args, json⟩

/-- `parse_command` -/
def parseCommand (args : List OsString) (json : Bool) :
    Option (Except ParseError ParsedCommand) :=
  match args.head?.bind toStr with
  | none => some (.error ⟨none, json⟩)
  | some head =>
    let second (text : String) : Bool := args[1]? == some (asBytes text)
    if head = "health" ∧ args.length = 1 then some (.ok .health)
    else if head = "relay" ∧ second "start" then
      (slice 2 args).map fun rest => parseRelayStart rest json
    else if head = "config" ∧ second "show" ∧ args[2]? = some (asBytes "--effective")
        ∧ args.length = 3 then
      some (.ok .configShowEffective)
    else if head = "harness" ∧ second "status" ∧ args.length = 2 then some (.ok .harnessStatus)
    else if head = "squad" ∧ second "list" ∧ args.length = 2 then some (.ok .squadList)
    else if head = "squad" ∧ second "create" then
      if args.length ≠ 5 ∨ args[3]? ≠ some (asBytes "--mission") then
        some (.error ⟨some .squadCreate, json⟩)
      else
        match commandArg args[2]? json .squadCreate with
        | .error e => some (.error e)
        | .ok squad =>
          match commandArg args[4]? json .squadCreate with
          | .error e => some (.error e)
          | .ok mission => some (.ok (.squadCreate squad mission))
    else if head = "squad" ∧ second "describe" ∧ args.length = 3 then
      some ((commandArg args[2]? json .squadDescribe).map .squadDescribe)
    else parseDeferred args json

/-- `parse` -/
def parse (arguments : List OsString) : Option (Except ParseError Invocation) :=
  let args := arguments.drop 1
  if args = [] ∨ args = [asBytes "--help"] ∨ args = [asBytes "-h"] then some (.ok .help)
  else if args = [asBytes "--version"] ∨ args = [asBytes "-V"] then some (.ok .version)
  else
    match globalOptions [] ⟨none, none, none, leadingJsonRequested args⟩ args with
    | .error e => some (.error e)
    | .ok (global, rest) =>
      (parseCommand rest global.json).map fun result => result.map (.command global)

end Parse

end Psst.Cli
