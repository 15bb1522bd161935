import Chrony.Lib.Bytes

/-!
# Symmetric Keys

The keys of `keys.c`, which are found by their numbers, and the digests which are made with
them. The hash functions and the ciphers belong to libraries. Their digests are cut to the
length of the buffer they are written to.

## Main results

* `KeyStore.getKeyById_fst`: the cache of the last key does not change which key is found.
* `keyCheckAuth_eq`: which digests are accepted.
-/

namespace Chrony.Keys

open Lib Bytes

/-- `MAX_HASH_LENGTH`. -/
def maxHashLength : ℕ := 64

/-- The functions of the libraries, with their whole digests: of a hash function with a number,
and of a cipher with a number and a key. -/
structure Digests where
  hash : ℕ → List Byte → List Byte
  cmac : ℕ → List Byte → List Byte → List Byte

/-- `HSH_Hash`. -/
def hshHash (digests : Digests) (id : ℕ) (in1 in2 : List Byte) (outLength : ℕ) : List Byte :=
  (digests.hash id (in1 ++ in2)).take outLength

/-- `CMC_Instance`. -/
structure CmcInstance where
  algorithm : ℕ
  key : List Byte
  deriving DecidableEq, Repr

/-- `CMC_Hash`. -/
def cmcHash (digests : Digests) (inst : CmcInstance) (data : List Byte) (outLength : ℕ) :
    List Byte :=
  (digests.cmac inst.algorithm inst.key data).take outLength

/-- The data of a key, by its `KeyClass`. -/
inductive KeyData
  | ntpMac (value : List Byte) (hashId : ℕ)
  | cmac (inst : CmcInstance)
  deriving DecidableEq, Repr

/-- `Key`. -/
structure Key where
  id : ℕ
  data : KeyData
  deriving DecidableEq, Repr

/-- The whole digest of data with a key. -/
def Key.digest (digests : Digests) (key : Key) (data : List Byte) : List Byte :=
  match key.data with
  | .ntpMac value hashId => digests.hash hashId (value ++ data)
  | .cmac inst => digests.cmac inst.algorithm inst.key data

/-- `generate_auth`. -/
def generateAuth (digests : Digests) (key : Key) (data : List Byte) (authLength : ℕ) :
    List Byte :=
  match key.data with
  | .ntpMac value hashId => hshHash digests hashId value data authLength
  | .cmac inst => cmcHash digests inst data authLength

/-- `check_auth`. -/
def checkAuth (digests : Digests) (key : Key) (data auth : List Byte) (truncLength : ℕ) : Bool :=
  let buf := generateAuth digests key data maxHashLength
  min buf.length truncLength = auth.length && buf.take auth.length = auth

theorem generateAuth_eq (digests : Digests) (key : Key) (data : List Byte) (authLength : ℕ) :
    generateAuth digests key data authLength = (key.digest digests data).take authLength := by
  rw [generateAuth, Key.digest]
  cases key.data with
  | ntpMac value hashId => rfl
  | cmac inst => rfl

/-- **The accepted digest** is the whole one, cut to both lengths. -/
theorem checkAuth_eq (digests : Digests) (key : Key) (data auth : List Byte) (truncLength : ℕ) :
    checkAuth digests key data auth truncLength =
      decide (auth = (key.digest digests data).take (min maxHashLength truncLength)) := by
  rw [checkAuth, generateAuth_eq, Nat.min_comm maxHashLength, ← List.take_take, Bool.eq_iff_iff]
  generalize (key.digest digests data).take maxHashLength = buf
  simp only [Bool.and_eq_true, decide_eq_true_eq]
  constructor
  · rintro ⟨hlength, htake⟩
    rw [← htake, ← hlength, List.take_eq_take_iff]
    omega
  · rintro rfl
    constructor
    · rw [List.length_take, Nat.min_comm]
    · rw [List.length_take, List.take_eq_take_iff]
      omega

/-! ### The keys -/

/-- The position of a key in the array. `bsearch` finds it in the sorted array. Which of
several keys with one number it finds is not specified. -/
def lookupIn (keys : List Key) (id : ℕ) : Option ℕ := keys.findIdx? (·.id = id)

/-- The last key which was found. -/
structure KeyCache where
  keyId : ℕ
  keyPos : ℕ
  deriving DecidableEq, Repr

/-- The loaded keys, with the cache if it is valid. The array is not changed before the cache
is invalidated. -/
structure KeyStore where
  keys : List Key
  cache : Option KeyCache
  coherent : ∀ c ∈ cache, lookupIn keys c.keyId = some c.keyPos

/-- `lookup_key`. -/
def KeyStore.lookupKey (store : KeyStore) (id : ℕ) : Option ℕ := lookupIn store.keys id

/-- The position from the cache. -/
def KeyStore.cached (store : KeyStore) (keyId : ℕ) : Option ℕ :=
  match store.cache with
  | some c => if keyId = c.keyId then some c.keyPos else none
  | none => none

/-- A key is remembered. -/
def KeyStore.remember (store : KeyStore) (keyId position : ℕ)
    (h : store.lookupKey keyId = some position) : KeyStore where
  keys := store.keys
  cache := some ⟨keyId, position⟩
  coherent := by
    rintro c ⟨⟩
    exact h

/-- `get_key_by_id`. -/
def KeyStore.getKeyById (store : KeyStore) (keyId : ℕ) : Option Key × KeyStore :=
  match store.cached keyId with
  | some position => (store.keys[position]?, store)
  | none =>
      match h : store.lookupKey keyId with
      | some position => (store.keys[position]?, store.remember keyId position h)
      | none => (none, store)

/-- `KEY_GenerateAuth`. It returns the digest which was written. -/
def keyGenerateAuth (digests : Digests) (store : KeyStore) (keyId : ℕ) (data : List Byte)
    (authLength : ℕ) : List Byte × KeyStore :=
  let r := store.getKeyById keyId
  match r.1 with
  | none => ([], r.2)
  | some key => (generateAuth digests key data authLength, r.2)

/-- `KEY_CheckAuth`. -/
def keyCheckAuth (digests : Digests) (store : KeyStore) (keyId : ℕ) (data auth : List Byte)
    (truncLength : ℕ) : Bool × KeyStore :=
  let r := store.getKeyById keyId
  match r.1 with
  | none => (false, r.2)
  | some key => (checkAuth digests key data auth truncLength, r.2)

theorem KeyStore.cached_eq_some {store : KeyStore} {keyId position : ℕ}
    (h : store.cached keyId = some position) : store.lookupKey keyId = some position := by
  rw [KeyStore.cached] at h
  split at h
  next c hc =>
      split at h
      next heq =>
          obtain rfl := Option.some.inj h
          rw [heq]
          exact store.coherent c hc
      next => cases h
  next => cases h

/-- **The cache does not change which key is found.** -/
theorem KeyStore.getKeyById_fst (store : KeyStore) (keyId : ℕ) :
    (store.getKeyById keyId).1 = (store.lookupKey keyId).bind (store.keys[·]?) := by
  rw [KeyStore.getKeyById]
  split
  next position hcached => rw [KeyStore.cached_eq_some hcached, Option.bind_some]
  next =>
      split
      next position hlookup => exact (congrArg (Option.bind · (store.keys[·]?)) hlookup).symm
      next hlookup => exact (congrArg (Option.bind · (store.keys[·]?)) hlookup).symm

/-- A lookup does not change the keys. -/
@[simp] theorem KeyStore.keys_getKeyById (store : KeyStore) (keyId : ℕ) :
    (store.getKeyById keyId).2.keys = store.keys := by
  rw [KeyStore.getKeyById]
  split
  · rfl
  · split
    · rfl
    · rfl

/-- **Which key is found does not depend on the keys which were found before.** -/
theorem KeyStore.getKeyById_getKeyById (store : KeyStore) (keyId id : ℕ) :
    ((store.getKeyById keyId).2.getKeyById id).1 = (store.getKeyById id).1 := by
  simp only [KeyStore.getKeyById_fst, KeyStore.lookupKey, KeyStore.keys_getKeyById]

/-- The digest of a known key. -/
theorem keyGenerateAuth_eq {digests : Digests} {store : KeyStore} {keyId : ℕ} {key : Key}
    (h : (store.getKeyById keyId).1 = some key) (data : List Byte) (authLength : ℕ) :
    keyGenerateAuth digests store keyId data authLength =
      ((key.digest digests data).take authLength, (store.getKeyById keyId).2) := by
  rw [keyGenerateAuth, h]
  dsimp only
  rw [generateAuth_eq]

/-- **The digest which is accepted with a known key.** -/
theorem keyCheckAuth_eq {digests : Digests} {store : KeyStore} {keyId : ℕ} {key : Key}
    (h : (store.getKeyById keyId).1 = some key) (data auth : List Byte) (truncLength : ℕ) :
    (keyCheckAuth digests store keyId data auth truncLength).1 =
      decide (auth = (key.digest digests data).take (min maxHashLength truncLength)) := by
  rw [keyCheckAuth, h]
  dsimp only
  rw [checkAuth_eq]

end Chrony.Keys
