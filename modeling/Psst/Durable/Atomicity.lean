import Psst.Durable.Confirmation
import Psst.Durable.Credential

/-!
# Records are replaced atomically and read back exactly

What the journal and the credential store promise together: a later load finds the previous record
or the new one, whatever was stopped where and whatever was left in the directory. The journal keeps
the promise for every record; the credential store for every record that `load` will read, since its
`store` does not look at the size.
-/

namespace Psst.Durable

open Directory

/-! ## The journal -/

/-- What is promised about storing one journal record. -/
structure JournalLaws [Crates] (value : LeaveJournal) : Prop where
  /-- Old or new, and new after a success. -/
  atomic : ∀ target fault d,
    Atomic (LeaveJournalStore.storeWithFault target value fault) target
      (answer (LeaveJournalStore.load target value.binding)) (.ok (some value)) d
  atomicByKey : ∀ target fault d origin, canonicalRelayOrigin origin = some value.relayOrigin →
    Atomic (LeaveJournalStore.storeWithFault target value fault) target
      (answer (LeaveJournalStore.loadForProfileKey target origin value.profile))
      (.ok (some (value, value.binding))) d
  /-- What a load for any binding finds was there before, or is the new record under its own
  binding. -/
  bound : ∀ target fault d p d' binding found,
    (LeaveJournalStore.storeWithFault target value fault).Passes Performs d p d' →
      answer (LeaveJournalStore.load target binding) d' = .ok (some found) →
        answer (LeaveJournalStore.load target binding) d = .ok (some found)
          ∨ (found = value ∧ binding = value.binding)
  /-- Nothing but the target is read. -/
  unread : ∀ target binding (d d' : Volume), d.node target = d'.node target →
    answer (LeaveJournalStore.load target binding) d
      = answer (LeaveJournalStore.load target binding) d'
  /-- An interrupted store does not stand in the way of a later one. -/
  unobstructed : ∀ target fault d p d', LeaveJournalStore.Storable d target →
    (LeaveJournalStore.storeWithFault target value fault).Passes Performs d p d' →
      ∀ later draw, later.validateRecord = .ok () →
        later.members.toVec.length ≤ maxJournalBytes →
        d'.live (LeaveJournalStore.tempName target (draw 16)) = none →
          ((LeaveJournalStore.store target later).run (handle draw) d').1 = .ok ()

section Journal

open LeaveJournalStore

variable [Crates] {value : LeaveJournal}

/-- Wherever a store is stopped, the target is as before, or it is the new record's file and the
record was accepted. -/
theorem node_of_passes {target : Name} {fault : JournalFault} {d d' : Volume} {p : Io Unit}
    (hpasses : (storeWithFault target value fault).Passes Performs d p d') :
    d'.node target = d.node target
      ∨ (d'.node target = some (.file ⟨value.members.toVec, 0o600, true⟩)
        ∧ value.validateRecord = .ok () ∧ value.members.toVec.length ≤ maxJournalBytes) := by
  by_cases haccepted : value.validateRecord = .ok ()
      ∧ value.members.toVec.length ≤ maxJournalBytes
  · have hfound := found_of_safe (safe_storeWithFault value) rfl hpasses
    exact hfound.live.imp id fun hnew => ⟨hnew, haccepted⟩
  · obtain ⟨e, he⟩ := storeWithFault_refused target fault haccepted
    rw [he] at hpasses
    cases hpasses with
    | stop => exact Or.inl rfl

theorem journalLaws (hread : value.ReadsBack) : JournalLaws value where
  atomic target fault d :=
    atomic_store hread target fault d (forBinding value.binding)
      (fun d => answer_load d target value.binding) fun hvalid => forBinding_some hvalid
  atomicByKey target fault d origin horigin :=
    atomic_store hread target fault d (forProfileKey value.relayOrigin value.profile)
      (fun d => answer_loadForProfileKey d target origin value.profile value.relayOrigin horigin)
      fun hvalid => forProfileKey_some hvalid
  bound := by
    intro target fault d p d' binding found hpasses hload
    rcases node_of_passes hpasses with hold | ⟨hnew, hvalid, hsize⟩
    · rw [answer_load, hold, ← answer_load] at hload
      exact Or.inl hload
    · obtain ⟨hrecord, hfor⟩ := recordAt_of_load hload
      rw [hnew, recordAt_stored hread hvalid hsize] at hrecord
      cases hrecord
      exact Or.inr ⟨rfl, (LeaveJournal.validate_eq_ok.mp hfor).2⟩
  unread := by
    intro target binding d d' hnode
    rw [answer_load, answer_load, hnode]
  unobstructed := by
    intro target fault d p d' hstorable hpasses later draw hvalid hsize hfresh
    apply run_store hvalid hsize _ hfresh
    rcases node_of_passes hpasses with hold | ⟨hnew, -⟩
    · unfold Storable
      rw [hold]
      exact hstorable
    · have hmode : restricted 0o600 := by decide
      exact Or.inr ⟨_, hnew, hmode⟩

end Journal

/-! ## The credential -/

/-- What is promised about storing one credential. -/
structure CredentialLaws [Crates] (binding : CredentialBinding) (credential : Credential) : Prop where
  /-- Old or new, and new after a success. -/
  atomic : ∀ target fault d,
    Atomic (CredentialStore.storeWithFault target binding credential fault) target
      (answer (CredentialStore.load target binding)) (.ok credential) d
  /-- What a load for any binding finds was there before, or is the new credential under its own
  binding. -/
  bound : ∀ target fault d p d' expected found,
    (CredentialStore.storeWithFault target binding credential fault).Passes Performs d p d' →
      answer (CredentialStore.load target expected) d' = .ok found →
        answer (CredentialStore.load target expected) d = .ok found
          ∨ (found = credential ∧ expected = binding)
  /-- Nothing but the target is read. -/
  unread : ∀ target expected (d d' : Volume), d.node target = d'.node target →
    answer (CredentialStore.load target expected) d = answer (CredentialStore.load target expected) d'
  /-- An interrupted store does not stand in the way of a later one. -/
  unobstructed : ∀ target fault d p d', CredentialStore.Storable d target →
    d.live (CredentialStore.tempPrefix target) ≠ some .directory →
    (CredentialStore.storeWithFault target binding credential fault).Passes Performs d p d' →
      ∀ later draw,
        ((CredentialStore.store target binding later).run (handle draw) d').1 = .ok ()

section Credential

open CredentialStore

variable [Crates] {binding expected : CredentialBinding} {credential : Credential}

/-- What `load` makes of a stored record: nothing, if it is too long; otherwise the credential, if
the binding is the one expected. -/
theorem contentCredential_stored
    (hbinding : CredentialBinding.new binding.relayOrigin binding.profile binding.squadId
      binding.memberId = .ok binding)
    (hread : (Record.of binding credential).members.ReadsBack) :
    contentCredential expected (Record.of binding credential).members.toVec
      = if maxCredentialBytes < (Record.of binding credential).members.toVec.length then
          .error .invalidData
        else if binding ≠ expected then .error .bindingMismatch
        else .ok credential := by
  have hjson : Crates.parseJson (Record.of binding credential).members.toVec
      = some (Record.of binding credential).members.value := hread
  have hempty : (Record.of binding credential).members.toVec.length ≠ 0 := by
    rw [Ne, List.length_eq_zero_iff]
    exact Members.toVec_ne_nil _
  have hinstance : (OpaqueId.check .instance credential.instanceId.val).isOk = true := by
    rw [credential.instanceId.valid]
    rfl
  have hnew : CredentialBinding.new (Record.of binding credential).relayOrigin
      (Record.of binding credential).profile (Record.of binding credential).squadId
      (Record.of binding credential).memberId = .ok binding := hbinding
  unfold contentCredential
  by_cases hsize : maxCredentialBytes < (Record.of binding credential).members.toVec.length
  · rw [if_pos (Or.inr hsize), if_pos hsize]
  · rw [if_neg (not_or.mpr ⟨hempty, hsize⟩), if_neg hsize, hjson, Option.bind_some,
      Record.deserialize_value]
    dsimp only
    rw [hnew]
    dsimp only
    by_cases hexpected : binding = expected
    · have hchecks : ¬ ((Record.of binding credential).version ≠ credentialVersion
          ∨ binding ≠ expected
          ∨ (OpaqueId.check .instance (Record.of binding credential).instanceId).isOk = false) := by
        rw [not_or, not_or, not_not, not_not]
        refine ⟨rfl, hexpected, ?_⟩
        show ¬ (OpaqueId.check .instance credential.instanceId.val).isOk = false
        rw [hinstance]
        exact Bool.noConfusion
      rw [if_neg hchecks, if_neg (not_not.mpr hexpected), Record.credential_of]
    · rw [if_pos (Or.inr (Or.inl hexpected)), if_pos hexpected]

theorem loadAt_stored
    (hbinding : CredentialBinding.new binding.relayOrigin binding.profile binding.squadId
      binding.memberId = .ok binding)
    (hread : (Record.of binding credential).members.ReadsBack)
    (hsize : (Record.of binding credential).members.toVec.length ≤ maxCredentialBytes) :
    loadAt binding (some (.file ⟨(Record.of binding credential).members.toVec, 0o600, true⟩))
      = .ok credential := by
  have hmode : ¬ ¬ restricted 0o600 := not_not.mpr (by decide)
  unfold loadAt
  rw [hbinding]
  show (if ¬ restricted 0o600 then .error .unsafePermissions else contentCredential binding _) = _
  rw [if_neg hmode, contentCredential_stored hbinding hread, if_neg (not_lt.mpr hsize),
    if_neg (not_not.mpr rfl)]

/-- A stored credential is found for its own binding only. -/
theorem of_loadAt_stored {found : Credential}
    (hbinding : CredentialBinding.new binding.relayOrigin binding.profile binding.squadId
      binding.memberId = .ok binding)
    (hread : (Record.of binding credential).members.ReadsBack)
    (h : loadAt expected (some (.file ⟨(Record.of binding credential).members.toVec, 0o600, true⟩))
      = .ok found) :
    (Record.of binding credential).members.toVec.length ≤ maxCredentialBytes
      ∧ found = credential ∧ expected = binding := by
  have hmode : ¬ ¬ restricted 0o600 := not_not.mpr (by decide)
  unfold loadAt at h
  split at h
  · cases h
  · change (if ¬ restricted 0o600 then .error .unsafePermissions
      else contentCredential expected _) = .ok found at h
    rw [if_neg hmode, contentCredential_stored hbinding hread] at h
    split at h
    · cases h
    · rename_i hsize
      split at h
      · cases h
      · rename_i hexpected
        cases h
        exact ⟨not_lt.mp hsize, rfl, (not_not.mp hexpected).symm⟩

theorem credentialLaws
    (hbinding : CredentialBinding.new binding.relayOrigin binding.profile binding.squadId
      binding.memberId = .ok binding)
    (hread : (Record.of binding credential).members.ReadsBack)
    (hsize : (Record.of binding credential).members.toVec.length ≤ maxCredentialBytes) :
    CredentialLaws binding credential where
  atomic target fault d :=
    atomic_of_safe (loadAt binding) (fun d => answer_load d target binding)
      (safe_storeWithFault binding credential) rfl (loadAt_stored hbinding hread hsize)
  bound := by
    intro target fault d p d' expected found hpasses hload
    have hfound := found_of_safe (safe_storeWithFault binding credential) rfl hpasses
    rw [answer_load] at hload
    cases hfound.live with
    | inl hold =>
        rw [hold, ← answer_load] at hload
        exact Or.inl hload
    | inr hnew =>
        rw [hnew] at hload
        exact Or.inr (of_loadAt_stored hbinding hread hload).2
  unread := by
    intro target expected d d' hnode
    rw [answer_load, answer_load, hnode]
  unobstructed := by
    intro target fault d p d' hstorable htemp hpasses later draw
    have hfound := found_of_safe (safe_storeWithFault binding credential) rfl hpasses
    have htemp' : d'.live (tempPrefix target) ≠ some .directory :=
      hpasses.keeps (fun a s r t ha hperforms => hperforms.not_directory ha)
        (only_storeWithFault target binding credential fault) htemp
    apply run_store hbinding _ htemp'
    cases hfound.live with
    | inl hold =>
        unfold Storable
        rw [hold]
        exact hstorable
    | inr hnew =>
        unfold Storable
        rw [hnew]
        exact ⟨(fun hlink => by cases hlink), (fun hdirectory => by cases hdirectory)⟩

/-- **The credential store** keeps its promise exactly for the records that `load` will read. -/
theorem credentialLaws_iff
    (hbinding : CredentialBinding.new binding.relayOrigin binding.profile binding.squadId
      binding.memberId = .ok binding)
    (hread : (Record.of binding credential).members.ReadsBack) :
    CredentialLaws binding credential
      ↔ (Record.of binding credential).members.toVec.length ≤ maxCredentialBytes := by
  refine ⟨fun hlaws => ?_, credentialLaws hbinding hread⟩
  -- store it in an empty directory: the store succeeds, so the load has to
  have hok : ((store "credential.json" binding credential).run (handle fun _ _ => 0)
      Volume.empty).1 = .ok () :=
    run_store hbinding ⟨(fun h => by cases h), (fun h => by cases h)⟩ (fun h => by cases h)
  have hpasses := passes_of_run (fun _ _ => 0) (store "credential.json" binding credential)
    Volume.empty
  rw [hok] at hpasses
  have hload := (hlaws.atomic "credential.json" .none Volume.empty).succeeded _ hpasses
  have hfound := found_of_safe (safe_storeWithFault binding credential) rfl hpasses
  rw [answer_load, hfound.ok rfl] at hload
  exact (of_loadAt_stored hbinding hread hload).1

end Credential

/-! ## Both -/

/-- **Durable records.** The journal keeps its promise for every record. The credential store keeps
it exactly for the records within the limit that only `load` knows. -/
theorem durable_records_iff [Crates] {value : LeaveJournal} {binding : CredentialBinding}
    {credential : Credential} (hjournal : value.ReadsBack)
    (hbinding : CredentialBinding.new binding.relayOrigin binding.profile binding.squadId
      binding.memberId = .ok binding)
    (hrecord : (Record.of binding credential).members.ReadsBack) :
    JournalLaws value
      ∧ (CredentialLaws binding credential
        ↔ (Record.of binding credential).members.toVec.length ≤ maxCredentialBytes) :=
  ⟨journalLaws hjournal, credentialLaws_iff hbinding hrecord⟩

/-! ### One credential -/

namespace DefaultProfile

def credential : Credential where
  instanceId := ⟨"ins_one", by decide⟩
  resumeToken := .generate (List.replicate 32 0) rfl

/-- A binding to a relay whose origin is this text. -/
def bindingOf (origin : String) : CredentialBinding := ⟨origin, "default", "sqd_alpha", "mem_worker"⟩

/-- The crates on the intent, on the credential under one origin, and on that origin. -/
@[reducible] def cratesFor (origin : String) : Crates where
  parseUrl raw :=
    if raw = origin then some ⟨"http", "", none, some "relay", none, "/", none, none⟩ else none
  urlText _ := origin ++ "/"
  parseJson bytes :=
    if bytes = (Record.of (bindingOf origin) credential).members.toVec then
      some (Record.of (bindingOf origin) credential).members.value
    else some intent.members.value
  parseRfc3339 input :=
    [issuedAt, confirmedAt].find? fun t => decide (String.ofList t.display = input)

theorem binding_new {origin : String} (h : origin.toList.reverse.head? ≠ some '/') :
    @CredentialBinding.new (cratesFor origin) (bindingOf origin).relayOrigin
      (bindingOf origin).profile (bindingOf origin).squadId (bindingOf origin).memberId
        = .ok (bindingOf origin) := by
  let _ := cratesFor origin
  have hparse : Crates.parseUrl (bindingOf origin).relayOrigin
      = some ⟨"http", "", none, some "relay", none, "/", none, none⟩ := if_pos rfl
  have hcanonical : canonicalRelayOrigin (bindingOf origin).relayOrigin = some origin := by
    unfold canonicalRelayOrigin
    rw [hparse]
    simp only [ne_eq, not_true_eq_false, false_and, or_self, reduceCtorEq, if_false]
    show some (trimEndSlashes (origin ++ "/")) = some origin
    rw [trimEndSlashes_slash h]
  have hchecks : ¬ (validProfileName (bindingOf origin).profile = false
      ∨ (OpaqueId.check .squad (bindingOf origin).squadId).isOk = false
      ∨ (OpaqueId.check .membership (bindingOf origin).memberId).isOk = false) := by
    have hprofile : validProfileName "default" = true := by decide
    have hsquad : (OpaqueId.check .squad "sqd_alpha").isOk = true := by decide
    have hmember : (OpaqueId.check .membership "mem_worker").isOk = true := by decide
    simp [bindingOf, hprofile, hsquad, hmember]
  unfold CredentialBinding.new
  rw [hcanonical]
  exact if_neg hchecks

theorem readsBack_record (origin : String) :
    @Members.ReadsBack (cratesFor origin) (Record.of (bindingOf origin) credential).members :=
  if_pos rfl

theorem readsBack_intent_for : @LeaveJournal.ReadsBack (cratesFor origin) intent :=
  @LeaveJournal.ReadsBack.mk (cratesFor origin) intent
    (if_neg (by decide : intent.members.toVec
      ≠ (Record.of (bindingOf origin) credential).members.toVec))
    readsBack_intent.createdAt readsBack_intent.confirmedAt

set_option maxRecDepth 4000 in
theorem record_size :
    (Record.of (bindingOf origin) credential).members.toVec.length ≤ maxCredentialBytes := by
  rw [Members.toVec, Json.length_octets]
  decide

/-- An origin with a long host. -/
def longOrigin (n : Nat) : String := "http://" ++ String.ofList (List.replicate (n + 1) 'a')

theorem longOrigin_toList (n : Nat) :
    (longOrigin n).toList = "http://".toList ++ List.replicate (n + 1) 'a' := by
  have hhost : (String.ofList (List.replicate (n + 1) 'a')).toList = List.replicate (n + 1) 'a' :=
    String.toList_ofList
  rw [longOrigin, String.toList_append, hhost]

theorem longOrigin_trimmed (n : Nat) : (longOrigin n).toList.reverse.head? ≠ some '/' := by
  have hlast : (longOrigin n).toList.reverse.head? = some 'a' := by
    rw [longOrigin_toList, List.reverse_append, List.reverse_replicate, List.replicate_succ]
    rfl
  rw [hlast]
  decide

theorem longOrigin_size (n : Nat) : (longOrigin n).utf8ByteSize = n + 8 := by
  have hlength : ∀ n : Nat, Json.weight Json.utf8 (List.replicate n 'a') = n := by
    intro n
    induction n with
    | zero => rfl
    | succ n ih =>
        have hone : Json.utf8 'a' = 1 := by decide
        rw [List.replicate_succ, Json.weight_cons, ih, hone, Nat.add_comm]
  have hscheme : Json.weight Json.utf8 "http://".toList = 7 := by decide
  rw [← Json.weight_utf8_toList, longOrigin_toList, Json.weight_append, hlength, hscheme]
  omega

theorem longOrigin_plain (n : Nat) : ∀ c ∈ (longOrigin n).toList, Json.Plain c := by
  intro c hc
  rw [longOrigin_toList, List.mem_append] at hc
  cases hc with
  | inl hscheme =>
      have hall : ("http://".toList.all fun c => decide (Json.Plain c)) = true := by decide
      exact of_decide_eq_true (List.all_eq_true.mp hall c hscheme)
  | inr hhost =>
      rw [List.eq_of_mem_replicate hhost]
      decide

/-- A record is longer than its origin. -/
theorem size_lt_record (n : Nat) :
    n < (Record.of (bindingOf (longOrigin n)) credential).members.toVec.length := by
  have hmem : ("relay_origin", Scalar.string (longOrigin n))
      ∈ (Record.of (bindingOf (longOrigin n)) credential).members :=
    List.mem_cons_of_mem _ (List.mem_cons_self ..)
  have hle := Members.le_length_toVec hmem
  have htext : Json.weight Json.utf8 (Scalar.string (longOrigin n)).text
      = 2 + (longOrigin n).utf8ByteSize :=
    Json.weight_utf8_str_of_plain (longOrigin_plain n)
  dsimp only at hle
  rw [htext, longOrigin_size] at hle
  omega

/-- A credential whose record is over the limit is stored without complaint and cannot be
loaded. -/
theorem unreadable_of_oversized {origin : String} (htrimmed : origin.toList.reverse.head? ≠ some '/')
    (hsize : maxCredentialBytes < (Record.of (bindingOf origin) credential).members.toVec.length) :
    ((@CredentialStore.store (cratesFor origin) "credential.json" (bindingOf origin)
        credential).run (handle draw) Volume.empty).1 = .ok ()
      ∧ answer (@CredentialStore.load (cratesFor origin) "credential.json" (bindingOf origin))
          ((@CredentialStore.store (cratesFor origin) "credential.json" (bindingOf origin)
            credential).run (handle draw) Volume.empty).2 = .error .invalidData := by
  let _ := cratesFor origin
  have hbinding := binding_new htrimmed
  have hok : ((CredentialStore.store "credential.json" (bindingOf origin) credential).run
      (handle draw) Volume.empty).1 = .ok () :=
    CredentialStore.run_store hbinding ⟨(fun h => by cases h), (fun h => by cases h)⟩
      (fun h => by cases h)
  have hpasses := passes_of_run draw
    (CredentialStore.store "credential.json" (bindingOf origin) credential) Volume.empty
  rw [hok] at hpasses
  have hfound := found_of_safe
    (CredentialStore.safe_storeWithFault (bindingOf origin) credential) rfl hpasses
  have hmode : ¬ ¬ restricted 0o600 := not_not.mpr (by decide)
  refine ⟨hok, ?_⟩
  rw [CredentialStore.answer_load, hfound.ok rfl]
  unfold CredentialStore.loadAt
  rw [hbinding]
  show (if ¬ restricted 0o600 then .error .unsafePermissions
    else CredentialStore.contentCredential (bindingOf origin) _) = _
  rw [if_neg hmode, contentCredential_stored hbinding (readsBack_record origin), if_pos hsize]

end DefaultProfile

open DefaultProfile in
theorem durable_records_iff_default :
    @JournalLaws (cratesFor origin) intent
      ∧ @CredentialLaws (cratesFor origin) (bindingOf origin) credential :=
  let _ := cratesFor origin
  have hboth := durable_records_iff readsBack_intent_for (binding_new (by decide))
    (readsBack_record origin)
  ⟨hboth.1, hboth.2.mpr record_size⟩

open DefaultProfile in
/-- A credential under an origin of 17 kilobytes. -/
theorem oversized_credential_unreadable :
    ((@CredentialStore.store (cratesFor (longOrigin 17000)) "credential.json"
        (bindingOf (longOrigin 17000)) credential).run (handle draw) Volume.empty).1 = .ok ()
      ∧ answer (@CredentialStore.load (cratesFor (longOrigin 17000)) "credential.json"
          (bindingOf (longOrigin 17000)))
          ((@CredentialStore.store (cratesFor (longOrigin 17000)) "credential.json"
            (bindingOf (longOrigin 17000)) credential).run (handle draw) Volume.empty).2
              = .error .invalidData :=
  have hmax : maxCredentialBytes ≤ 17000 := by decide
  unreadable_of_oversized (longOrigin_trimmed 17000) (Nat.lt_of_le_of_lt hmax (size_lt_record 17000))

end Psst.Durable
