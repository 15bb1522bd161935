import Chrony.Lib.Bytes

/-!
# SIV Algorithms

Authenticated encryption with associated data, which is provided by a cryptographic library.
The lengths of keys, nonces and tags are those set in `siv_nettle.c` and `siv_gnutls.c`. It
is assumed that a message which was encrypted is decrypted with the same key, nonce and
associated data.
-/

namespace Chrony.Nts

open Lib Bytes

/-- `SIV_Algorithm`. -/
inductive SivAlgorithm
  | invalid
  | aesSivCmac256
  | aesSivCmac384
  | aesSivCmac512
  | aes128GcmSiv
  | aes256GcmSiv
  deriving DecidableEq, Repr

/-- `SIV_MAX_KEY_LENGTH`. -/
def sivMaxKeyLength : ℕ := 32

/-- The length of tags. -/
def sivTagLength : ℕ := 16

/-- **The cryptographic library.** The arguments of the functions are the algorithm, the key,
the nonce, the associated data, and the plaintext or the ciphertext. -/
structure Siv where
  /-- Whether the algorithm is available. -/
  supported : SivAlgorithm → Bool
  encrypt : SivAlgorithm → List Byte → List Byte → List Byte → List Byte → List Byte
  decrypt : SivAlgorithm → List Byte → List Byte → List Byte → List Byte → Option (List Byte)
  length_encrypt : ∀ algorithm key nonce assoc plaintext,
    (encrypt algorithm key nonce assoc plaintext).length = plaintext.length + sivTagLength
  decrypt_encrypt : ∀ algorithm key nonce assoc plaintext,
    decrypt algorithm key nonce assoc (encrypt algorithm key nonce assoc plaintext) =
      some plaintext
  length_decrypt : ∀ algorithm key nonce assoc ciphertext plaintext,
    decrypt algorithm key nonce assoc ciphertext = some plaintext →
      ciphertext.length = plaintext.length + sivTagLength

/-- `SIV_GetKeyLength`. It is zero if the algorithm is not available. -/
def Siv.keyLength (siv : Siv) (algorithm : SivAlgorithm) : ℕ :=
  if siv.supported algorithm then
    match algorithm with
    | .aesSivCmac256 => 32
    | .aes128GcmSiv => 16
    | _ => 0
  else 0

/-- `SIV_GetMinNonceLength`. -/
def sivMinNonceLength : SivAlgorithm → ℕ
  | .aes128GcmSiv => 12
  | _ => 1

/-- `SIV_GetMaxNonceLength`. -/
def sivMaxNonceLength : SivAlgorithm → ℕ
  | .aes128GcmSiv => 12
  | _ => 2 ^ 31 - 1

/-- `SIV_Instance`. -/
structure SivInstance where
  algorithm : SivAlgorithm
  key : Option (List Byte)
  deriving DecidableEq, Repr

/-- `SIV_CreateInstance`. -/
def Siv.createInstance (siv : Siv) (algorithm : SivAlgorithm) : Option SivInstance :=
  if siv.keyLength algorithm = 0 then none else some ⟨algorithm, none⟩

/-- `SIV_SetKey`. It returns none if the key cannot be set. -/
def Siv.setKey (siv : Siv) (inst : SivInstance) (key : List Byte) : Option SivInstance :=
  if key.length ≠ siv.keyLength inst.algorithm then none else some { inst with key := some key }

/-- The nonces which are accepted by the algorithm of an instance. -/
def SivInstance.acceptsNonce (inst : SivInstance) (nonce : List Byte) : Bool :=
  sivMinNonceLength inst.algorithm ≤ nonce.length ∧
    nonce.length ≤ sivMaxNonceLength inst.algorithm

/-- `SIV_Encrypt`. -/
def Siv.encryptWith (siv : Siv) (inst : SivInstance) (nonce assoc plaintext : List Byte) :
    Option (List Byte) :=
  match inst.key with
  | none => none
  | some key =>
      if inst.acceptsNonce nonce then some (siv.encrypt inst.algorithm key nonce assoc plaintext)
      else none

/-- `SIV_Decrypt`. -/
def Siv.decryptWith (siv : Siv) (inst : SivInstance) (nonce assoc ciphertext : List Byte) :
    Option (List Byte) :=
  match inst.key with
  | none => none
  | some key =>
      if inst.acceptsNonce nonce then siv.decrypt inst.algorithm key nonce assoc ciphertext
      else none

variable {siv : Siv}

theorem keyLength_le (siv : Siv) (algorithm : SivAlgorithm) :
    siv.keyLength algorithm ≤ sivMaxKeyLength := by
  unfold Siv.keyLength
  split
  · cases algorithm <;> decide
  · decide

/-- **What is encrypted is decrypted to the same plaintext.** -/
theorem decryptWith_encryptWith {inst : SivInstance} {nonce assoc plaintext ciphertext : List Byte}
    (h : siv.encryptWith inst nonce assoc plaintext = some ciphertext) :
    siv.decryptWith inst nonce assoc ciphertext = some plaintext ∧
      ciphertext.length = plaintext.length + sivTagLength := by
  rw [Siv.encryptWith] at h
  split at h
  · cases h
  next key hkey =>
      split at h
      next hnonce =>
          obtain rfl := Option.some.inj h
          rw [Siv.decryptWith, hkey]
          dsimp only
          rw [if_pos hnonce]
          exact ⟨siv.decrypt_encrypt .., siv.length_encrypt ..⟩
      next => cases h

theorem decryptWith_eq_some {inst : SivInstance} {nonce assoc ciphertext plaintext : List Byte}
    (h : siv.decryptWith inst nonce assoc ciphertext = some plaintext) : ∃ key,
      inst.key = some key ∧ inst.acceptsNonce nonce = true ∧
      siv.decrypt inst.algorithm key nonce assoc ciphertext = some plaintext := by
  rw [Siv.decryptWith] at h
  split at h
  · cases h
  next key hkey =>
      split at h
      next hnonce => exact ⟨key, hkey, hnonce, h⟩
      next => cases h

theorem setKey_eq_some {inst inst' : SivInstance} {key : List Byte}
    (h : siv.setKey inst key = some inst') :
    inst' = { inst with key := some key } ∧ key.length = siv.keyLength inst.algorithm := by
  rw [Siv.setKey] at h
  split at h
  · cases h
  next hlength => exact ⟨(Option.some.inj h).symm, not_not.mp hlength⟩

/-! ### A library for tests -/

/-- The tag is valid if it has only zeros. There is no secrecy. -/
def sampleSiv : Siv where
  supported _ := true
  encrypt _ _ _ _ plaintext := plaintext ++ List.replicate sivTagLength 0
  decrypt _ _ _ _ ciphertext :=
    if sivTagLength ≤ ciphertext.length ∧
        ciphertext.drop (ciphertext.length - sivTagLength) = List.replicate sivTagLength 0 then
      some (ciphertext.take (ciphertext.length - sivTagLength))
    else none
  length_encrypt _ _ _ _ plaintext := by
    rw [List.length_append, List.length_replicate]
  decrypt_encrypt _ _ _ _ plaintext := by
    rw [List.length_append, List.length_replicate, Nat.add_sub_cancel, List.drop_left,
      List.take_left]
    exact if_pos ⟨Nat.le_add_left _ _, rfl⟩
  length_decrypt _ _ _ _ ciphertext plaintext h := by
    split at h
    next hle =>
        obtain rfl := Option.some.inj h
        rw [List.length_take]
        omega
    next => cases h

end Chrony.Nts
