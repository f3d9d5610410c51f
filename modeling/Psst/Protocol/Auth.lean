import Psst.Core.Identifier
import Psst.Lib.Json
import Psst.Lib.Unsigned
import Psst.Protocol.Api

/-!
# The session credential as a header value

An instance identifier and a resume token around one dot, after `Bearer ` in the authorization
header. Both parts have one spelling, so a credential has one too.
-/

namespace Psst

/-! ## base64url -/

namespace Base64Url

set_option maxRecDepth 3000 in
theorem sextet_symbol {n : Nat} (h : n < 64) : sextet (symbol n) = some n := by
  have hall : ∀ m : Fin 64, sextet (symbol m.val) = some m.val := by decide
  exact hall ⟨n, h⟩

theorem symbol_mem (n : Nat) : symbol n ∈ alphabet := by
  unfold symbol
  rw [List.getD_eq_getElem?_getD]
  cases h : alphabet[n]? with
  | none => exact (by decide : 'A' ∈ alphabet)
  | some c => exact List.mem_of_getElem? h

/-- Three octets are four sextets, and come back from them. -/
theorem decode_encode (bytes : List UInt8) : decode (encode bytes) = some bytes := by
  induction bytes using encode.induct with
  | case1 => rfl
  | case2 a =>
      have ha := a.toNat_lt
      have hfirst : sextet (symbol (a.toNat / 4)) = some (a.toNat / 4) := sextet_symbol (by omega)
      have hlast : sextet (symbol (a.toNat % 4 * 16)) = some (a.toNat % 4 * 16) :=
        sextet_symbol (by omega)
      have hback : a.toNat / 4 * 4 + a.toNat % 4 * 16 / 16 = a.toNat := by omega
      simp only [encode, decode, hfirst, hlast, Option.bind_eq_bind, Option.bind_some]
      rw [if_pos (by omega), hback, UInt8.ofNat_toNat]
  | case3 a b =>
      have ha := a.toNat_lt
      have hb := b.toNat_lt
      have hfirst : sextet (symbol (a.toNat / 4)) = some (a.toNat / 4) := sextet_symbol (by omega)
      have hsecond : sextet (symbol (a.toNat % 4 * 16 + b.toNat / 16))
          = some (a.toNat % 4 * 16 + b.toNat / 16) := sextet_symbol (by omega)
      have hlast : sextet (symbol (b.toNat % 16 * 4)) = some (b.toNat % 16 * 4) :=
        sextet_symbol (by omega)
      have hfront : a.toNat / 4 * 4 + (a.toNat % 4 * 16 + b.toNat / 16) / 16 = a.toNat := by omega
      have hback : (a.toNat % 4 * 16 + b.toNat / 16) % 16 * 16 + b.toNat % 16 * 4 / 4
          = b.toNat := by omega
      simp only [encode, decode, hfirst, hsecond, hlast, Option.bind_eq_bind, Option.bind_some]
      rw [if_pos (by omega), hfront, hback, UInt8.ofNat_toNat, UInt8.ofNat_toNat]
  | case4 a b c rest ih =>
      have ha := a.toNat_lt
      have hb := b.toNat_lt
      have hc := c.toNat_lt
      have hfirst : sextet (symbol (a.toNat / 4)) = some (a.toNat / 4) := sextet_symbol (by omega)
      have hsecond : sextet (symbol (a.toNat % 4 * 16 + b.toNat / 16))
          = some (a.toNat % 4 * 16 + b.toNat / 16) := sextet_symbol (by omega)
      have hthird : sextet (symbol (b.toNat % 16 * 4 + c.toNat / 64))
          = some (b.toNat % 16 * 4 + c.toNat / 64) := sextet_symbol (by omega)
      have hlast : sextet (symbol (c.toNat % 64)) = some (c.toNat % 64) := sextet_symbol (by omega)
      have hfront : a.toNat / 4 * 4 + (a.toNat % 4 * 16 + b.toNat / 16) / 16 = a.toNat := by omega
      have hmiddle : (a.toNat % 4 * 16 + b.toNat / 16) % 16 * 16
          + (b.toNat % 16 * 4 + c.toNat / 64) / 4 = b.toNat := by omega
      have hback : (b.toNat % 16 * 4 + c.toNat / 64) % 4 * 64 + c.toNat % 64 = c.toNat := by omega
      simp only [encode, decode, hfirst, hsecond, hthird, hlast, ih, Option.bind_eq_bind,
        Option.bind_some]
      rw [hfront, hmiddle, hback, UInt8.ofNat_toNat, UInt8.ofNat_toNat, UInt8.ofNat_toNat]

theorem length_encode (bytes : List UInt8) :
    (encode bytes).length = (4 * bytes.length + 2) / 3 := by
  induction bytes using encode.induct with
  | case1 => rfl
  | case2 a => simp [encode]
  | case3 a b => simp [encode]
  | case4 a b c rest ih =>
      simp only [encode, List.length_cons, ih]
      omega

theorem encode_mem (bytes : List UInt8) : ∀ c ∈ encode bytes, c ∈ alphabet := by
  induction bytes using encode.induct with
  | case1 => exact fun c hc => by cases hc
  | case2 a => simp [encode, symbol_mem]
  | case3 a b => simp [encode, symbol_mem]
  | case4 a b c rest ih => simpa [encode, symbol_mem] using ih

end Base64Url

/-! ## Tokens -/

/-- Symbols are ASCII. -/
theorem size_ofList_of_alphabet {symbols : List Char}
    (h : ∀ c ∈ symbols, c ∈ Base64Url.alphabet) :
    (String.ofList symbols).utf8ByteSize = symbols.length := by
  have hall : (Base64Url.alphabet.all fun c => Json.utf8 c == 1) = true := by decide
  have hone : ∀ c ∈ Base64Url.alphabet, Json.utf8 c = 1 :=
    fun c hc => eq_of_beq (List.all_eq_true.mp hall c hc)
  rw [Json.utf8ByteSize_ofList]
  induction symbols with
  | nil => rfl
  | cons c rest ih =>
      rw [Json.weight_cons, hone c (h c (List.mem_cons_self ..)),
        ih fun d hd => h d (List.mem_cons_of_mem _ hd), List.length_cons, Nat.add_comm]

/-- The encoding of 32 bytes is accepted as a token. -/
theorem ResumeToken.check_encode {bytes : List UInt8} (h : bytes.length = tokenBytes) :
    ResumeToken.check (String.ofList (Base64Url.encode bytes)) = .ok () := by
  have hsize : (String.ofList (Base64Url.encode bytes)).utf8ByteSize = tokenEncodedLength := by
    rw [size_ofList_of_alphabet (Base64Url.encode_mem bytes), Base64Url.length_encode, h]
    rfl
  unfold ResumeToken.check
  rw [if_neg (not_not.mpr hsize), String.toList_ofList, Base64Url.decode_encode]
  have hcanonical : ¬ (bytes.length ≠ tokenBytes
      ∨ Base64Url.encode bytes ≠ Base64Url.encode bytes) := by
    simp [h]
  exact if_neg hcanonical

/-- `ResumeToken::generate`, with the bytes the system's random source filled in. -/
def ResumeToken.generate (bytes : List UInt8) (h : bytes.length = tokenBytes) : ResumeToken :=
  ⟨String.ofList (Base64Url.encode bytes), check_encode h⟩

/-- A token is the encoding of its 32 bytes. -/
theorem ResumeToken.bytes (token : ResumeToken) :
    ∃ bytes, Base64Url.decode token.val.toList = some bytes ∧ bytes.length = tokenBytes
      ∧ token.val.toList = Base64Url.encode bytes := by
  have hvalid := token.valid
  unfold ResumeToken.check at hvalid
  split at hvalid
  · cases hvalid
  · split at hvalid
    · cases hvalid
    · rename_i bytes hdecode
      split at hvalid
      · cases hvalid
      · rename_i hcanonical
        rw [not_or, not_not, not_not] at hcanonical
        exact ⟨bytes, hdecode, hcanonical.1, hcanonical.2.symm⟩

theorem ResumeToken.size_eq (token : ResumeToken) :
    token.val.utf8ByteSize = tokenEncodedLength := by
  have hvalid := token.valid
  unfold ResumeToken.check at hvalid
  split at hvalid
  · cases hvalid
  · rename_i hsize
    exact not_not.mp hsize

theorem ResumeToken.not_mem_dot (token : ResumeToken) : '.' ∉ token.val.toList := by
  obtain ⟨bytes, -, -, hencode⟩ := token.bytes
  have hdot : '.' ∉ Base64Url.alphabet := by decide
  rw [hencode]
  exact fun hmem => hdot (Base64Url.encode_mem bytes _ hmem)

theorem OpaqueId.not_mem_dot {kind : IdKind} (id : OpaqueId kind) : '.' ∉ id.val.toList := by
  intro hmem
  have hdot : ¬ (isAsciiAlphanumeric '.' = true ∨ '.' = '-' ∨ '.' = '_') := by decide
  exact hdot (id.chars hmem)

/-! ## The codec -/

def bearerPrefix : String := "Bearer "

def maxCredentialLength : Nat := 172

namespace SessionCredential

def invalidCredential : InvalidValue := ⟨"authorization", "is not a valid session credential"⟩

def encoded (c : Credential) : String := c.instanceId.val ++ "." ++ c.resumeToken.val

/-- The value `authorization_header` sends. -/
def authorizationHeader (c : Credential) : String := bearerPrefix ++ encoded c

def parseSessionValue (value : String) : Except InvalidValue Credential :=
  if value.isEmpty = true ∨ maxCredentialLength < value.utf8ByteSize
      ∨ value.toList.count '.' ≠ 1 then
    .error invalidCredential
  else
    match Unsigned.splitOnce '.' value.toList with
    | none => .error invalidCredential
    | some (instance', token) =>
      match Validated.new (OpaqueId.check .instance) (String.ofList instance') with
      | .error _ => .error invalidCredential
      | .ok instanceId =>
        match Validated.new ResumeToken.check (String.ofList token) with
        | .error _ => .error invalidCredential
        | .ok resumeToken => .ok ⟨instanceId, resumeToken⟩

def parseAuthorization (value : String) : Except InvalidValue Credential :=
  if bearerPrefix.utf8ByteSize + maxCredentialLength < value.utf8ByteSize then
    .error invalidCredential
  else
    match bearerPrefix.toList.isPrefixOf? value.toList with
    | none => .error invalidCredential
    | some encoded => parseSessionValue (String.ofList encoded)

theorem toList_encoded (c : Credential) :
    (encoded c).toList = c.instanceId.val.toList ++ '.' :: c.resumeToken.val.toList := by
  rw [encoded, String.toList_append, String.toList_append, List.append_assoc]
  rfl

/-- The longest identifier, the dot and a token are 172 bytes. -/
theorem size_encoded_le (c : Credential) : (encoded c).utf8ByteSize ≤ maxCredentialLength := by
  have hid := c.instanceId.size_le
  have htoken := c.resumeToken.size_eq
  have hdot : ".".utf8ByteSize = 1 := rfl
  have hlength : tokenEncodedLength = 43 := rfl
  have hmax : maxCredentialLength = 172 := rfl
  rw [encoded, String.utf8ByteSize_append, String.utf8ByteSize_append]
  omega

theorem count_encoded (c : Credential) : (encoded c).toList.count '.' = 1 := by
  rw [toList_encoded, List.count_append, List.count_cons_self,
    List.count_eq_zero_of_not_mem c.instanceId.not_mem_dot,
    List.count_eq_zero_of_not_mem c.resumeToken.not_mem_dot]

theorem splitOnce_encoded (c : Credential) :
    Unsigned.splitOnce '.' (encoded c).toList
      = some (c.instanceId.val.toList, c.resumeToken.val.toList) := by
  rw [toList_encoded]
  exact Unsigned.splitOnce_append c.instanceId.not_mem_dot _

theorem isEmpty_encoded (c : Credential) : (encoded c).isEmpty = false := by
  rw [Bool.eq_false_iff]
  intro hempty
  have hcount := count_encoded c
  rw [String.isEmpty_iff.mp hempty] at hcount
  cases hcount

/-- What is written is read back. -/
theorem parseSessionValue_encoded (c : Credential) : parseSessionValue (encoded c) = .ok c := by
  have hshape : ¬ ((encoded c).isEmpty = true ∨ maxCredentialLength < (encoded c).utf8ByteSize
      ∨ (encoded c).toList.count '.' ≠ 1) := by
    rw [isEmpty_encoded, count_encoded, not_or, not_or, not_lt]
    exact ⟨Bool.false_ne_true, size_encoded_le c, not_not.mpr rfl⟩
  unfold parseSessionValue
  rw [if_neg hshape, splitOnce_encoded]
  simp only [String.ofList_toList, Validated.new_val]

/-- What is read was written so. -/
theorem encoded_of_parseSessionValue {value : String} {c : Credential}
    (h : parseSessionValue value = .ok c) : encoded c = value := by
  unfold parseSessionValue at h
  split at h
  · cases h
  · split at h
    · cases h
    · rename_i instance' token hsplit
      split at h
      · cases h
      · rename_i instanceId hinstance
        split at h
        · cases h
        · rename_i resumeToken htoken
          cases h
          apply String.toList_injective
          rw [toList_encoded, Validated.val_of_new hinstance, Validated.val_of_new htoken,
            String.toList_ofList, String.toList_ofList]
          exact (Unsigned.append_of_splitOnce hsplit).symm

theorem parseAuthorization_header (c : Credential) :
    parseAuthorization (authorizationHeader c) = .ok c := by
  have hsize : ¬ bearerPrefix.utf8ByteSize + maxCredentialLength
      < (authorizationHeader c).utf8ByteSize := by
    have hle := size_encoded_le c
    rw [authorizationHeader, String.utf8ByteSize_append]
    omega
  have hprefix : bearerPrefix.toList.isPrefixOf? (authorizationHeader c).toList
      = some (encoded c).toList := by
    rw [List.isPrefixOf?_eq_some_iff_append_eq, authorizationHeader, String.toList_append]
  unfold parseAuthorization
  rw [if_neg hsize, hprefix]
  show parseSessionValue (String.ofList (encoded c).toList) = .ok c
  rw [String.ofList_toList, parseSessionValue_encoded]

theorem header_of_parseAuthorization {value : String} {c : Credential}
    (h : parseAuthorization value = .ok c) : authorizationHeader c = value := by
  unfold parseAuthorization at h
  split at h
  · cases h
  · split at h
    · cases h
    · rename_i rest hprefix
      have hencoded := encoded_of_parseSessionValue h
      apply String.toList_injective
      rw [authorizationHeader, String.toList_append, hencoded, String.toList_ofList]
      exact List.isPrefixOf?_eq_some_iff_append_eq.mp hprefix

end SessionCredential

open SessionCredential in
/-- **The session credential codec.** Every instance identifier with every 32-byte token is read
back from its one spelling, bare and after `Bearer`, within the length limit; and a value that is
read is the spelling of what it is read as, so that a credential has no other one. -/
theorem session_credential_codec :
    (∀ (instanceId : InstanceId) (bytes : List UInt8) (h : bytes.length = tokenBytes),
        parseSessionValue (encoded ⟨instanceId, .generate bytes h⟩)
            = .ok ⟨instanceId, .generate bytes h⟩
          ∧ parseAuthorization (authorizationHeader ⟨instanceId, .generate bytes h⟩)
            = .ok ⟨instanceId, .generate bytes h⟩
          ∧ (encoded ⟨instanceId, .generate bytes h⟩).utf8ByteSize ≤ maxCredentialLength)
      ∧ (∀ token : ResumeToken, ∃ bytes h, token = .generate bytes h
          ∧ Base64Url.decode token.val.toList = some bytes)
      ∧ (∀ value c, parseSessionValue value = .ok c → encoded c = value)
      ∧ ∀ value c, parseAuthorization value = .ok c → authorizationHeader c = value := by
  refine ⟨fun instanceId bytes h => ?_, fun token => ?_, fun _ _ => encoded_of_parseSessionValue,
    fun _ _ => header_of_parseAuthorization⟩
  · exact ⟨parseSessionValue_encoded _, parseAuthorization_header _, size_encoded_le _⟩
  · obtain ⟨bytes, hdecode, hlength, hencode⟩ := token.bytes
    refine ⟨bytes, hlength, Validated.ext ?_, hdecode⟩
    apply String.toList_injective
    show token.val.toList = (String.ofList (Base64Url.encode bytes)).toList
    rw [String.toList_ofList, hencode]

end Psst
