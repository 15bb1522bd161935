import Chrony.Ntp.Packet
import Chrony.Nts.Siv

/-!
# NTS Authenticator and Encrypted Extension Fields

The field which authenticates the packet before it and holds encrypted extension fields, from
`nts_ntp_auth.c`.

## Main results

* `generateAuthEF_length`: the length of a packet with an authenticator.
* `decryptAuthEF_eq_some`: what is authenticated by the field.
-/

namespace Chrony.Nts

open Lib Bytes Ntp

/-- `NTS_MIN_UNPADDED_NONCE_LENGTH`. -/
def ntsMinUnpaddedNonceLength : ℕ := 16

/-- `get_padding_length`. -/
def getPaddingLength (length : ℕ) : ℕ := if length % 4 ≠ 0 then 4 - length % 4 else 0

/-- `get_padded_length`. -/
def getPaddedLength (length : ℕ) : ℕ := length + getPaddingLength length

/-- `get_padded_length` of a minimum length, which can be negative. The remainder is
computed as unsigned. -/
def getPaddedMinLength (length : ℤ) : ℤ :=
  length + if length % 4 ≠ 0 then 4 - length % 4 else 0

/-- The lengths of the parts of an authenticator. -/
structure AuthLengths where
  nonce : ℕ
  ciphertext : ℕ
  additionalPadding : ℕ

/-- The lengths in `NNA_GenerateAuthEF`. -/
def authLengths (algorithm : SivAlgorithm) (maxNonceLength plaintextLength : ℕ)
    (minEfLength : ℤ) : AuthLengths :=
  let maxSivNonceLength := sivMaxNonceLength algorithm
  let nonceLength := min maxNonceLength maxSivNonceLength
  let ciphertextLength := sivTagLength + plaintextLength
  let authLength := 4 + getPaddedLength nonceLength + getPaddedLength ciphertextLength
  let additionalPadding := max (getPaddedMinLength minEfLength - authLength - 4) 0
  let additionalPadding :=
    max (min ntsMinUnpaddedNonceLength maxSivNonceLength - nonceLength -
      getPaddingLength nonceLength : ℤ) additionalPadding
  ⟨nonceLength, ciphertextLength, additionalPadding.toNat⟩

/-- The length of the body of the field. -/
def AuthLengths.total (lengths : AuthLengths) : ℕ :=
  4 + getPaddedLength lengths.nonce + getPaddedLength lengths.ciphertext +
    lengths.additionalPadding

/-- The body of the field. -/
def authBody (lengths : AuthLengths) (nonce ciphertext : List Byte) : List Byte :=
  encode16 lengths.nonce ++ encode16 lengths.ciphertext ++ nonce ++
    List.replicate (getPaddingLength lengths.nonce) 0 ++ ciphertext ++
    List.replicate (getPaddingLength lengths.ciphertext + lengths.additionalPadding) 0

/-- `NNA_GenerateAuthEF`. The length of the buffer of the nonce is `max_nonce_length`. -/
def generateAuthEF (siv : Siv) (inst : SivInstance) (packet : List Byte) (info : PacketInfo)
    (nonce plaintext : List Byte) (minEfLength : ℤ) : Option (List Byte × PacketInfo) :=
  if nonce.length = 0 then none
  else
    let lengths := authLengths inst.algorithm nonce.length plaintext.length minEfLength
    let nonce := nonce.take lengths.nonce
    match siv.encryptWith inst nonce (packet.take info.length) plaintext with
    | none => none
    | some ciphertext => addField packet info ntpEfNtsAuthAndEef (authBody lengths nonce ciphertext)

/-- The nonce and the ciphertext in an authenticator, which are read from the packet. -/
structure AuthField where
  nonce : List Byte
  ciphertext : List Byte
  deriving DecidableEq, Repr

/-- The first part of `NNA_DecryptAuthEF`, before the decryption. The lengths of the nonce and
the ciphertext are checked against the length of the body, but the header is not included. -/
def readAuthEF (algorithm : SivAlgorithm) (packet : List Byte) (info : PacketInfo)
    (efStart bufferLength : ℕ) : Option AuthField :=
  match parseField packet info.length efStart with
  | none => none
  | some (field, _) =>
      if field.type ≠ ntpEfNtsAuthAndEef ∨ field.bodyLength < 4 then none
      else
        let nonceLength := decode16 field.body
        let ciphertextLength := decode16 (field.body.drop 2)
        if getPaddedLength nonceLength + getPaddedLength ciphertextLength > field.bodyLength then
          none
        else if nonceLength < 1 ∨ ciphertextLength < sivTagLength ∨
            ciphertextLength - sivTagLength > bufferLength then none
        else if 4 + min ntsMinUnpaddedNonceLength (sivMaxNonceLength algorithm) +
            getPaddedLength ciphertextLength > field.bodyLength then none
        else
          some ⟨slice packet (efStart + 8) nonceLength,
            slice packet (efStart + 8 + getPaddedLength nonceLength) ciphertextLength⟩

/-- `NNA_DecryptAuthEF`. -/
def decryptAuthEF (siv : Siv) (inst : SivInstance) (packet : List Byte) (info : PacketInfo)
    (efStart bufferLength : ℕ) : Option (List Byte) :=
  match readAuthEF inst.algorithm packet info efStart bufferLength with
  | none => none
  | some field =>
      siv.decryptWith inst field.nonce (packet.take efStart) field.ciphertext

variable {siv : Siv}

/-- **What is authenticated by the field**: the packet before it. -/
theorem decryptAuthEF_eq_some {inst : SivInstance} {packet : List Byte} {info : PacketInfo}
    {efStart bufferLength : ℕ} {plaintext : List Byte}
    (h : decryptAuthEF siv inst packet info efStart bufferLength = some plaintext) :
    ∃ field key, readAuthEF inst.algorithm packet info efStart bufferLength = some field ∧
      inst.key = some key ∧ siv.decrypt inst.algorithm key field.nonce (packet.take efStart)
        field.ciphertext = some plaintext := by
  rw [decryptAuthEF] at h
  split at h
  · cases h
  next field hfield =>
      obtain ⟨key, hkey, -, hdecrypt⟩ := decryptWith_eq_some h
      exact ⟨field, key, hfield, hkey, hdecrypt⟩

/-- The length of the body of an authenticator. -/
theorem length_authBody {lengths : AuthLengths} {nonce ciphertext : List Byte}
    (hnonce : nonce.length = lengths.nonce) (hciphertext : ciphertext.length = lengths.ciphertext) :
    (authBody lengths nonce ciphertext).length = lengths.total := by
  simp only [authBody, AuthLengths.total, getPaddedLength, List.length_append, length_encode16,
    List.length_replicate, hnonce, hciphertext]
  omega

theorem length_take_nonce (algorithm : SivAlgorithm) (nonce : List Byte) (plaintextLength : ℕ)
    (minEfLength : ℤ) :
    (nonce.take (authLengths algorithm nonce.length plaintextLength minEfLength).nonce).length =
      (authLengths algorithm nonce.length plaintextLength minEfLength).nonce := by
  rw [List.length_take]
  exact min_eq_left (min_le_left _ _)

/-- **The length of a packet with an authenticator.** -/
theorem generateAuthEF_length {inst : SivInstance} {packet packet' : List Byte}
    {info info' : PacketInfo} {nonce plaintext : List Byte} {minEfLength : ℤ}
    (h : generateAuthEF siv inst packet info nonce plaintext minEfLength = some (packet', info')) :
    info'.length = info.length +
      (4 + (authLengths inst.algorithm nonce.length plaintext.length minEfLength).total) := by
  rw [generateAuthEF] at h
  split at h
  · cases h
  · dsimp only at h
    split at h
    · cases h
    next ciphertext hencrypt =>
        obtain ⟨-, hlength⟩ := decryptWith_encryptWith hencrypt
        obtain ⟨-, rfl, -⟩ := addField_eq_some h
        dsimp only
        rw [length_authBody (length_take_nonce ..) (hlength.trans (Nat.add_comm _ _))]

end Chrony.Nts
