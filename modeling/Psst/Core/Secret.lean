import Psst.Core.Value

/-!
# Continuity secrets

The resume token is the unique 43-character base64url encoding (no padding) of 32 bytes.
The base64 engine is the `base64` crate's `URL_SAFE_NO_PAD`: it accepts only its own
alphabet, rejects padding and a single trailing symbol, and rejects non-zero trailing
bits. SHA-256 comes from the `sha2` crate and stays a parameter.
-/

namespace Psst

/-! ## base64url without padding -/

namespace Base64Url

/-- The URL-safe alphabet, in symbol order. -/
def alphabet : List Char :=
  "ABCDEFGHIJKLMNOPQRSTUVWXYZabcdefghijklmnopqrstuvwxyz0123456789-_".toList

/-- The symbol of a sextet. -/
def symbol (n : Nat) : Char := alphabet.getD n 'A'

/-- The sextet of a symbol. -/
def sextet (c : Char) : Option Nat := alphabet.findIdx? (· == c)

def encode : List UInt8 → List Char
  | [] => []
  | [a] => [symbol (a.toNat / 4), symbol (a.toNat % 4 * 16)]
  | [a, b] =>
    [symbol (a.toNat / 4), symbol (a.toNat % 4 * 16 + b.toNat / 16), symbol (b.toNat % 16 * 4)]
  | a :: b :: c :: rest =>
    symbol (a.toNat / 4) :: symbol (a.toNat % 4 * 16 + b.toNat / 16)
      :: symbol (b.toNat % 16 * 4 + c.toNat / 64) :: symbol (c.toNat % 64) :: encode rest

def decode : List Char → Option (List UInt8)
  | [] => some []
  | [_] => none
  | [p, q] => do
    let x ← sextet p
    let y ← sextet q
    -- the low four bits of the last symbol carry nothing
    if y % 16 = 0 then some [.ofNat (x * 4 + y / 16)] else none
  | [p, q, r] => do
    let x ← sextet p
    let y ← sextet q
    let z ← sextet r
    if z % 4 = 0 then some [.ofNat (x * 4 + y / 16), .ofNat (y % 16 * 16 + z / 4)] else none
  | p :: q :: r :: s :: rest => do
    let x ← sextet p
    let y ← sextet q
    let z ← sextet r
    let w ← sextet s
    let tail ← decode rest
    some (.ofNat (x * 4 + y / 16) :: .ofNat (y % 16 * 16 + z / 4) :: .ofNat (z % 4 * 64 + w)
      :: tail)

example : decode ['_', '_', '8'] = some [255, 255] := by decide

example : decode ['_', '_', '_'] = none := by decide

end Base64Url

/-! ## Resume tokens -/

def tokenBytes : Nat := 32

def tokenEncodedLength : Nat := 43

/-- The checks of `ResumeToken::from_encoded`, in order. -/
def ResumeToken.check (value : String) : Except InvalidValue Unit :=
  if value.utf8ByteSize ≠ tokenEncodedLength then
    .error ⟨"resume_token", "must be a canonical 256-bit token"⟩
  else
    match Base64Url.decode value.toList with
    | none => .error ⟨"resume_token", "must be canonical base64url without padding"⟩
    | some decoded =>
      if decoded.length ≠ tokenBytes ∨ Base64Url.encode decoded ≠ value.toList then
        .error ⟨"resume_token", "must be a canonical 256-bit token"⟩
      else .ok ()

abbrev ResumeToken := Validated ResumeToken.check

/-! ## SHA-256 -/

/-- A 256-bit digest. -/
abbrev Digest := BitVec 256

/-- The digest of the `sha2` crate. Nothing about it is assumed. -/
class Sha256 where
  digest : List UInt8 → Digest

/-- `str::as_bytes`. -/
def asBytes (s : String) : List UInt8 := s.toByteArray.data.toList

end Psst
