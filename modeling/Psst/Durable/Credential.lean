import Psst.Durable.Record
import Psst.Protocol.Auth

/-!
# The session credential on disk

The record that holds a session's authority, under the whole binding it is for, and the file
protocol that replaces it. The temporary name is always the same, so a store first removes what an
earlier one left there.
-/

namespace Psst.Durable

open Json Directory

/-! ## Bindings -/

structure CredentialBinding where
  relayOrigin : String
  profile : String
  squadId : String
  memberId : String
  deriving DecidableEq

def CredentialBinding.new [Crates] (relayOrigin profile squadId memberId : String) :
    Except Failure CredentialBinding :=
  match canonicalRelayOrigin relayOrigin with
  | none => .error .invalidData
  | some relayOrigin =>
    if validProfileName profile = false ∨ (OpaqueId.check .squad squadId).isOk = false
        ∨ (OpaqueId.check .membership memberId).isOk = false then
      .error .invalidData
    else .ok ⟨relayOrigin, profile, squadId, memberId⟩

/-! ## Records -/

def credentialVersion : UInt32 := 1

def maxCredentialBytes : Nat := 16 * 1024

structure Record where
  version : UInt32
  relayOrigin : String
  profile : String
  squadId : String
  memberId : String
  instanceId : String
  authorization : String
  deriving DecidableEq

/-- `HeaderValue::from_str` followed by `to_str`: visible ASCII, blanks and tabs. -/
def visible (c : Char) : Bool := c.toNat == 9 || (decide (32 ≤ c.toNat) && decide (c.toNat < 127))

def headerText (s : String) : Bool := s.toList.all visible

namespace Record

/-- The record `store` writes. The header value of a credential is text. -/
def of (binding : CredentialBinding) (credential : Credential) : Record where
  version := credentialVersion
  relayOrigin := binding.relayOrigin
  profile := binding.profile
  squadId := binding.squadId
  memberId := binding.memberId
  instanceId := credential.instanceId.val
  authorization := SessionCredential.authorizationHeader credential

def fields : List String :=
  ["version", "relay_origin", "profile", "squad_id", "member_id", "instance_id", "authorization"]

def members (r : Record) : Members :=
  [("version", .number r.version), ("relay_origin", .string r.relayOrigin),
    ("profile", .string r.profile), ("squad_id", .string r.squadId),
    ("member_id", .string r.memberId), ("instance_id", .string r.instanceId),
    ("authorization", .string r.authorization)]

def deserialize (v : Value) : Option Record := do
  let members ← structMembers fields v
  let version ← (members.lookup "version").bind asU32
  let relayOrigin ← (members.lookup "relay_origin").bind Value.asStr
  let profile ← (members.lookup "profile").bind Value.asStr
  let squadId ← (members.lookup "squad_id").bind Value.asStr
  let memberId ← (members.lookup "member_id").bind Value.asStr
  let instanceId ← (members.lookup "instance_id").bind Value.asStr
  let authorization ← (members.lookup "authorization").bind Value.asStr
  return ⟨version, relayOrigin, profile, squadId, memberId, instanceId, authorization⟩

/-- **The codec.** -/
theorem deserialize_value (r : Record) : deserialize r.members.value = some r := by
  have hmembers : structMembers fields r.members.value
      = some (r.members.map fun m => (m.1, m.2.value)) :=
    structMembers_value rfl (by decide)
  have htext : ∀ (key : String) (v : String), r.members.lookup key = some (.string v) →
      (List.lookup key (r.members.map fun m => (m.1, m.2.value))).bind Value.asStr = some v := by
    intro key v hkey
    rw [lookup_value hkey, Option.bind_some, asStr_string]
  have hversion : (List.lookup "version" (r.members.map fun m => (m.1, m.2.value))).bind asU32
      = some r.version := by
    have hkey : r.members.lookup "version" = some (.number r.version) := rfl
    rw [lookup_value hkey, Option.bind_some, asU32_number]
  unfold deserialize
  apply bind_eq_some hmembers
  apply bind_eq_some hversion
  apply bind_eq_some (htext "relay_origin" r.relayOrigin rfl)
  apply bind_eq_some (htext "profile" r.profile rfl)
  apply bind_eq_some (htext "squad_id" r.squadId rfl)
  apply bind_eq_some (htext "member_id" r.memberId rfl)
  apply bind_eq_some (htext "instance_id" r.instanceId rfl)
  apply bind_eq_some (htext "authorization" r.authorization rfl)
  rfl

/-- The credential of a record that is for the expected binding. -/
def credential (r : Record) : Except Failure Credential :=
  if headerText r.authorization = false then .error .invalidData
  else
    match bearerPrefix.toList.isPrefixOf? r.authorization.toList with
    | none => .error .invalidData
    | some raw =>
      match SessionCredential.parseSessionValue (String.ofList raw) with
      | .error _ => .error .invalidData
      | .ok credential =>
        if credential.instanceId.val ≠ r.instanceId then .error .invalidData else .ok credential

/-! ### What is written is read -/

theorem visible_of_alphanumeric {c : Char} (h : isAsciiAlphanumeric c = true) :
    visible c = true := by
  unfold isAsciiAlphanumeric isAsciiLowercase isAsciiDigit at h
  simp only [Bool.or_eq_true, Bool.and_eq_true, decide_eq_true_eq, Char.le_def,
    UInt32.le_iff_toNat_le] at h
  have ha : ('a'.val).toNat = 97 := rfl
  have hz : ('z'.val).toNat = 122 := rfl
  have h0 : ('0'.val).toNat = 48 := rfl
  have h9 : ('9'.val).toNat = 57 := rfl
  have hA : ('A'.val).toNat = 65 := rfl
  have hZ : ('Z'.val).toNat = 90 := rfl
  unfold visible
  simp only [Bool.or_eq_true, Bool.and_eq_true, decide_eq_true_eq, beq_iff_eq]
  show c.val.toNat = 9 ∨ 32 ≤ c.val.toNat ∧ c.val.toNat < 127
  omega

theorem visible_of_symbol {c : Char} (h : c ∈ Base64Url.alphabet) : visible c = true := by
  have hall : Base64Url.alphabet.all visible = true := by decide
  exact List.all_eq_true.mp hall c h

/-- The header value of a credential is text. -/
theorem headerText_header (c : Credential) :
    headerText (SessionCredential.authorizationHeader c) = true := by
  have hprefix : bearerPrefix.toList.all visible = true := by decide
  have hinstance : c.instanceId.val.toList.all visible = true := by
    rw [List.all_eq_true]
    intro ch hch
    rcases c.instanceId.chars hch with h | rfl | rfl
    · exact visible_of_alphanumeric h
    · decide
    · decide
  have htoken : c.resumeToken.val.toList.all visible = true := by
    obtain ⟨bytes, -, -, hencode⟩ := c.resumeToken.bytes
    rw [hencode, List.all_eq_true]
    exact fun ch hch => visible_of_symbol (Base64Url.encode_mem bytes ch hch)
  have hdot : visible '.' = true := by decide
  rw [headerText, SessionCredential.authorizationHeader, String.toList_append, List.all_append,
    SessionCredential.toList_encoded, List.all_append, List.all_cons, hprefix, hinstance, hdot,
    htoken]
  rfl

/-- **A record gives back the credential it was written for.** -/
theorem credential_of (binding : CredentialBinding) (c : Credential) :
    (Record.of binding c).credential = .ok c := by
  have hprefix : bearerPrefix.toList.isPrefixOf? (SessionCredential.authorizationHeader c).toList
      = some (SessionCredential.encoded c).toList := by
    rw [List.isPrefixOf?_eq_some_iff_append_eq, SessionCredential.authorizationHeader,
      String.toList_append]
  have hparse := SessionCredential.parseSessionValue_encoded c
  have htext := headerText_header c
  unfold credential
  simp only [Record.of, htext, hprefix, String.ofList_toList, hparse]
  simp

end Record

/-! ## The store -/

/-- `CredentialFault`. `CrashAfterFlush` is not an outcome: it stops the program after `sync_all`,
as a crash does anywhere. -/
inductive CredentialFault where
  | none
  | beforeWrite
  | beforeFlush
  | beforePermission
  | beforeReplace
  deriving DecidableEq

namespace CredentialStore

/-- `temp_prefix`, on Unix the whole temporary name. -/
def tempPrefix (target : Name) : Name := "." ++ target ++ ".credential-tmp-"

def storeBytesUnix (target : Name) (bytes : List UInt8) (fault : CredentialFault) : Io Unit :=
  -- whether there was anything to remove does not matter
  .act (.unlink (tempPrefix target)) fun _ =>
  if fault = .beforeWrite then fail .injected else
  call (.create (tempPrefix target) 0o600) fun file =>
  call (.metadata file) fun metadata =>
  if ¬ restricted metadata.1 then fail .unsafePermissions else
  call (.writeAll file bytes) fun _ =>
  if fault = .beforeFlush then fail .injected else
  call (.syncAll file) fun _ =>
  if fault = .beforePermission then fail .injected else
  call (.metadata file) fun metadata =>
  if ¬ restricted metadata.1 then fail .unsafePermissions else
  if fault = .beforeReplace then fail .injected else
  call (.rename (tempPrefix target) target) fun _ =>
  call .syncDirectory fun _ => done ()

/-- `reject_substitution`. -/
def rejectSubstitution {α : Type} (target : Name) (k : Io α) : Io α :=
  .act (.isLink target) fun
    | .ok true => fail .substitution
    | .ok false => k
    | .error .noEntry => k
    | .error e => fail (.os e)

def storeWithFault [Crates] (target : Name) (binding : CredentialBinding) (credential : Credential)
    (fault : CredentialFault) : Io Unit :=
  match CredentialBinding.new binding.relayOrigin binding.profile binding.squadId
      binding.memberId with
  | .error e => fail e
  | .ok _ =>
    rejectSubstitution target
      (storeBytesUnix target (Record.of binding credential).members.toVec fault)

def store [Crates] (target : Name) (binding : CredentialBinding) (credential : Credential) :
    Io Unit :=
  storeWithFault target binding credential .none

def load [Crates] (target : Name) (expected : CredentialBinding) : Io Credential :=
  match CredentialBinding.new expected.relayOrigin expected.profile expected.squadId
      expected.memberId with
  | .error e => fail e
  | .ok _ =>
    call (.openRead target) fun
      -- a directory or a special file fails one of the checks below, whichever its mode is
      | none => fail .invalidData
      | some file =>
        call (.metadata file) fun metadata =>
        if ¬ restricted metadata.1 then fail .unsafePermissions else
        call (.metadata file) fun metadata =>
        if metadata.2 = 0 ∨ maxCredentialBytes < metadata.2 then fail .invalidData else
        call (.readToEnd file (maxCredentialBytes + 1)) fun bytes =>
        if maxCredentialBytes < bytes.length then fail .invalidData else
        match (Crates.parseJson bytes).bind Record.deserialize with
        | none => fail .invalidData
        | some record =>
          match CredentialBinding.new record.relayOrigin record.profile record.squadId
              record.memberId with
          | .error e => fail e
          | .ok recordBinding =>
            if record.version ≠ credentialVersion ∨ recordBinding ≠ expected
                ∨ (OpaqueId.check .instance record.instanceId).isOk = false then
              fail .bindingMismatch
            else
              match record.credential with
              | .error e => fail e
              | .ok credential => done credential

/-- `recover_temps`, when the store is opened. -/
def recoverTemps (target : Name) : Io Unit :=
  .act (.unlink (tempPrefix target)) fun
    | .ok _ => done ()
    | .error .noEntry => done ()
    | .error e => fail (.os e)

/-! ### Loading -/

section Load

variable [Crates] {d : Volume} {target : Name} {draw : (n : Nat) → Fin n → UInt8}
  {expected : CredentialBinding}

/-- What the octets of a target that may be read are loaded as. -/
def contentCredential (expected : CredentialBinding) (content : List UInt8) :
    Except Failure Credential :=
  if content.length = 0 ∨ maxCredentialBytes < content.length then .error .invalidData
  else
    match (Crates.parseJson content).bind Record.deserialize with
    | none => .error .invalidData
    | some record =>
      match CredentialBinding.new record.relayOrigin record.profile record.squadId
          record.memberId with
      | .error e => .error e
      | .ok recordBinding =>
        if record.version ≠ credentialVersion ∨ recordBinding ≠ expected
            ∨ (OpaqueId.check .instance record.instanceId).isOk = false then
          .error .bindingMismatch
        else record.credential

/-- What the target is loaded as. -/
def credentialAt (expected : CredentialBinding) : Option Node → Except Failure Credential
  | none => .error (.os .noEntry)
  | some .link => .error (.os .loop)
  | some .directory | some .special => .error .invalidData
  | some (.file f) =>
    if ¬ restricted f.mode then .error .unsafePermissions else contentCredential expected f.content

/-- What `load` returns, of the target alone. -/
def loadAt (expected : CredentialBinding) (node : Option Node) : Except Failure Credential :=
  match CredentialBinding.new expected.relayOrigin expected.profile expected.squadId
      expected.memberId with
  | .error e => .error e
  | .ok _ => credentialAt expected node

/-- **Loading depends on the target alone.** -/
theorem answer_load (d : Volume) (target : Name) (expected : CredentialBinding) :
    answer (load target expected) d = loadAt expected (d.node target) := by
  unfold answer load loadAt
  split
  · rfl
  · cases hlive : d.live target with
    | none =>
        have hopen : handle (fun _ _ => 0) (.openRead target) d = (.error .noEntry, d) := by
          simp only [handle, hlive]
        rw [run_call_error hopen, Volume.node, hlive]
        rfl
    | some entry =>
        cases entry with
        | file i =>
            have hlt := d.named _ (List.mem_cons_self ..) target i hlive
            have hfile : d.files[i]? = some d.files[i] := List.getElem?_eq_getElem hlt
            have hopen : handle (fun _ _ => 0) (.openRead target) d = (.ok (some i), d) := by
              simp only [handle, hlive]
            have hmetadata : handle (fun _ _ => 0) (.metadata i) d
                = (.ok (d.files[i].mode, d.files[i].content.length), d) := by
              simp only [handle, hfile]
            have hread : handle (fun _ _ => 0) (.readToEnd i (maxCredentialBytes + 1)) d
                = (.ok (d.files[i].content.take (maxCredentialBytes + 1)), d) := by
              simp only [handle, hfile]
            rw [run_call_ok hopen, Volume.node_of_file hlive hfile]
            dsimp only [credentialAt]
            rw [run_call_ok hmetadata]
            dsimp only
            split
            · rfl
            · rw [run_call_ok hmetadata, contentCredential]
              dsimp only
              split
              · rfl
              · rename_i hlength
                rw [not_or, not_lt] at hlength
                -- a content within the limit is read whole
                have htake : d.files[i].content.take (maxCredentialBytes + 1)
                    = d.files[i].content :=
                  List.take_of_length_le (Nat.le_succ_of_le hlength.2)
                rw [run_call_ok hread, htake, if_neg (not_lt.mpr hlength.2)]
                split
                · rfl
                · split
                  · rfl
                  · split
                    · rfl
                    · cases Record.credential _ <;> rfl
        | link =>
            have hopen : handle (fun _ _ => 0) (.openRead target) d = (.error .loop, d) := by
              simp only [handle, hlive]
            rw [run_call_error hopen, Volume.node, hlive]
            rfl
        | directory =>
            have hopen : handle (fun _ _ => 0) (.openRead target) d = (.ok none, d) := by
              simp only [handle, hlive]
            rw [run_call_ok hopen, Volume.node, hlive]
            rfl
        | special =>
            have hopen : handle (fun _ _ => 0) (.openRead target) d = (.ok none, d) := by
              simp only [handle, hlive]
            rw [run_call_ok hopen, Volume.node, hlive]
            rfl

end Load

/-! ### Storing -/

section Store

variable {d₀ d : Volume} {target : Name} {bytes : List UInt8} {fault : CredentialFault}

theorem tempPrefix_ne (target : Name) : tempPrefix target ≠ target := by
  intro heq
  have hlength := congrArg (fun s => s.toList.length) heq
  simp only [tempPrefix, String.toList_append, List.length_append] at hlength
  have hdot : ".".toList.length = 1 := rfl
  omega

/-- **The file protocol** replaces the target atomically, whatever the fault. -/
theorem safe_storeBytesUnix (h : Unreplaced d₀ target d) :
    (replacing d₀ target ⟨bytes, 0o600, true⟩).Safe (Complete d₀ target ⟨bytes, 0o600, true⟩)
      (storeBytesUnix target bytes fault) d := by
  unfold storeBytesUnix
  apply Arena.Safe.alone_act
  intro r d₁ hunlinked
  have h₁ : Unreplaced d₀ target d₁ := by
    cases hunlinked.of_unlink with
    | inl hsame => rw [hsame]; exact h
    | inr hgone => rw [hgone]; exact h.unlink (tempPrefix_ne target)
  refine ⟨Or.inl h₁, ?_⟩
  split
  · exact safe_fail _
  apply safe_call_create h₁ (tempPrefix_ne target)
  intro file d₂ hcreated
  apply safe_call_look (fun _ _ hlook => hlook.of_metadata) hcreated.toUnreplaced
  intro metadata
  split
  · exact safe_fail _
  apply safe_call_writeAll hcreated
  intro d₃ hwritten
  split
  · exact safe_fail _
  apply safe_call_syncAll hwritten
  intro d₄ hsynced
  split
  · exact safe_fail _
  apply safe_call_look (fun _ _ hlook => hlook.of_metadata) hsynced.toUnreplaced
  intro metadata
  split
  · exact safe_fail _
  split
  · exact safe_fail _
  apply safe_call_rename hsynced
  intro d₅ hrenamed
  exact safe_call_syncDirectory hrenamed

theorem safe_rejectSubstitution {final : File} {k : Io Unit} (h : Unreplaced d₀ target d)
    (hk : (replacing d₀ target final).Safe (Complete d₀ target final) k d) :
    (replacing d₀ target final).Safe (Complete d₀ target final) (rejectSubstitution target k) d := by
  apply Arena.Safe.alone_act
  intro r d' hperforms
  obtain rfl := hperforms.of_isLink
  refine ⟨Or.inl h, ?_⟩
  split
  · exact safe_fail _
  · exact hk
  · exact hk
  · exact safe_fail _

theorem safe_storeWithFault [Crates] (binding : CredentialBinding) (credential : Credential) :
    (replacing d₀ target ⟨(Record.of binding credential).members.toVec, 0o600, true⟩).Safe
      (Complete d₀ target ⟨(Record.of binding credential).members.toVec, 0o600, true⟩)
      (storeWithFault target binding credential fault) d₀ := by
  unfold storeWithFault
  split
  · exact safe_fail _
  · exact safe_rejectSubstitution (.refl d₀ target) (safe_storeBytesUnix (.refl d₀ target))

/-- The target may be replaced: it is no link and no directory. -/
def Storable (d : Volume) (target : Name) : Prop :=
  d.node target ≠ some .link ∧ d.node target ≠ some .directory

theorem Storable.live (h : Storable d target) :
    d.live target ≠ some .link ∧ d.live target ≠ some .directory := by
  refine ⟨fun hlink => h.1 ?_, fun hdirectory => h.2 ?_⟩
  · rw [Volume.node, hlink]
  · rw [Volume.node, hdirectory]

/-- Calls that are all answered carry the file protocol to its end, whatever file an earlier store
has left under the temporary name. -/
theorem run_storeBytesUnix {draw : (n : Nat) → Fin n → UInt8}
    (htemp : d.live (tempPrefix target) ≠ some .directory)
    (htarget : d.live target ≠ some .directory) :
    ((storeBytesUnix target bytes .none).run (handle draw) d).1 = .ok () := by
  have hne := tempPrefix_ne target
  -- after the removal the temporary name is free and the target is as before
  have hunlinked : ∃ d₁, (handle draw (.unlink (tempPrefix target)) d).2 = d₁
      ∧ d₁.live (tempPrefix target) = none ∧ d₁.live target = d.live target := by
    cases hentry : d.live (tempPrefix target) with
    | none =>
        have hunlink : handle draw (.unlink (tempPrefix target)) d = (.error .noEntry, d) := by
          simp only [handle, hentry]
        exact ⟨d, by rw [hunlink], hentry, rfl⟩
    | some entry =>
        have hunlink : handle draw (.unlink (tempPrefix target)) d
            = (.ok (), d.unlink (tempPrefix target)) := by
          rw [hentry] at htemp
          cases entry with
          | directory => exact absurd rfl htemp
          | file i => simp only [handle, hentry]
          | link => simp only [handle, hentry]
          | special => simp only [handle, hentry]
        refine ⟨d.unlink (tempPrefix target), by rw [hunlink], Function.update_self .., ?_⟩
        show Function.update d.live _ none target = d.live target
        rw [Function.update_of_ne (Ne.symm hne)]
  obtain ⟨d₁, hunlink, hfree, hlive⟩ := hunlinked
  let d₂ := d₁.create (tempPrefix target) 0o600
  let d₃ := d₂.write d₁.files.length bytes
  let d₄ := d₃.syncFile d₁.files.length
  let d₅ := d₄.rename (tempPrefix target) target
  have hkept : d₄.live target ≠ some .directory := by
    show Function.update d₁.live _ _ target ≠ _
    rw [Function.update_of_ne (Ne.symm hne), hlive]
    exact htarget
  have hstaged : Staged d₁ target (tempPrefix target) d₁.files.length ⟨[], 0o600, false⟩ d₂ :=
    (Unreplaced.refl d₁ target).create hne
  have hcreate : handle draw (.create (tempPrefix target) 0o600) d₁ = (.ok d₁.files.length, d₂) :=
    handle_create hfree
  have hmetadata₂ : handle draw (.metadata d₁.files.length) d₂ = (.ok (0o600, 0), d₂) := by
    simp only [handle, show d₂.files[d₁.files.length]? = _ from hstaged.file]
    rfl
  have hwrite : handle draw (.writeAll d₁.files.length bytes) d₂ = (.ok (), d₃) := rfl
  have hsync : handle draw (.syncAll d₁.files.length) d₃ = (.ok (), d₄) := rfl
  have hmetadata₄ : handle draw (.metadata d₁.files.length) d₄
      = (.ok (0o600, bytes.length), d₄) := by
    simp only [handle, show d₄.files[d₁.files.length]? = _ from ((hstaged.write bytes).syncFile).file]
    rfl
  have hrename : handle draw (.rename (tempPrefix target) target) d₄ = (.ok (), d₅) :=
    handle_rename hstaged.entry hkept
  have hdirectory : handle draw .syncDirectory d₅ = (.ok (), d₅.syncDirectory) := rfl
  have hmode : restricted 0o600 := by decide
  unfold storeBytesUnix
  rw [Prog.run_act, hunlink]
  simp only [reduceCtorEq, if_false]
  rw [run_call_ok hcreate, run_call_ok hmetadata₂, if_neg (not_not.mpr hmode), run_call_ok hwrite,
    run_call_ok hsync, run_call_ok hmetadata₄, if_neg (not_not.mpr hmode), run_call_ok hrename,
    run_call_ok hdirectory]
  rfl

/-- **A store that is not disturbed succeeds.** -/
theorem run_store [Crates] {binding : CredentialBinding} {credential : Credential}
    {draw : (n : Nat) → Fin n → UInt8}
    (hbinding : CredentialBinding.new binding.relayOrigin binding.profile binding.squadId
      binding.memberId = .ok binding)
    (htarget : Storable d target) (htemp : d.live (tempPrefix target) ≠ some .directory) :
    ((store target binding credential).run (handle draw) d).1 = .ok () := by
  have hrun : ((storeBytesUnix target (Record.of binding credential).members.toVec .none).run
      (handle draw) d).1 = .ok () :=
    run_storeBytesUnix htemp htarget.live.2
  unfold store storeWithFault
  rw [hbinding]
  dsimp only
  unfold rejectSubstitution
  cases hentry : d.live target with
  | none =>
      have hlink : handle draw (.isLink target) d = (.error .noEntry, d) := by
        simp only [handle, hentry]
      rw [Prog.run_act, hlink]
      exact hrun
  | some entry =>
      have hne : entry ≠ .link := by
        rintro rfl
        exact htarget.live.1 hentry
      have hlink : handle draw (.isLink target) d = (.ok false, d) := by
        simp only [handle, hentry, hne, decide_false]
      rw [Prog.run_act, hlink]
      exact hrun

/-- No store renames anything onto the temporary name. -/
theorem only_storeWithFault [Crates] (target : Name) (binding : CredentialBinding)
    (credential : Credential) (fault : CredentialFault) :
    (storeWithFault target binding credential fault).Only
      fun a => ∀ source, a ≠ .rename source (tempPrefix target) := by
  have hbytes : (storeBytesUnix target (Record.of binding credential).members.toVec fault).Only
      fun a => ∀ source, a ≠ .rename source (tempPrefix target) := by
    have hrename : ∀ source : Name, Action.rename (tempPrefix target) target
        ≠ .rename source (tempPrefix target) := by
      intro source heq
      rw [Action.rename.injEq] at heq
      exact tempPrefix_ne target heq.2.symm
    unfold storeBytesUnix
    refine ⟨fun source heq => (by cases heq), fun _ => ?_⟩
    split
    · exact trivial
    apply only_call (fun source heq => by cases heq)
    intro file
    apply only_call (fun source heq => by cases heq)
    intro metadata
    split
    · exact trivial
    apply only_call (fun source heq => by cases heq)
    intro _
    split
    · exact trivial
    apply only_call (fun source heq => by cases heq)
    intro _
    split
    · exact trivial
    apply only_call (fun source heq => by cases heq)
    intro metadata
    split
    · exact trivial
    split
    · exact trivial
    apply only_call hrename
    intro _
    apply only_call (fun source heq => by cases heq)
    exact fun _ => trivial
  unfold storeWithFault
  split
  · exact trivial
  · refine ⟨fun source heq => (by cases heq), fun r => ?_⟩
    dsimp only
    split
    · exact trivial
    · exact hbytes
    · exact hbytes
    · exact trivial

end Store

end CredentialStore

end Psst.Durable
