import Chrony.Nts.ServerKeys

/-!
# Cookies of the NTS Server

The key at an index has the index in its ID in all states of the server. A cookie is decoded
as long as the key is at its index, which is not changed by the following rotations until the
index is reached again.

## Main results

* `run_cookies`: the keys and the cookies of a server in any reachable state.
-/

namespace Chrony.Nts

open Lib Bytes

variable {siv : Siv}

/-! ### Keys -/

/-- The instance of a key is one of its algorithm. -/
def ServerKey.Matches (siv : Siv) (key : ServerKey) : Prop :=
  ∀ inst, key.siv = some inst → inst.algorithm = key.sivAlgorithm ∧
    siv.keyLength key.sivAlgorithm ≠ 0 ∧
    key.nonceLength = min (sivMaxNonceLength key.sivAlgorithm) maxCookieNonceLength

/-- **A key which can be used.** -/
structure ServerKey.Ready (siv : Siv) (key : ServerKey) : Prop where
  inst : key.siv =
    some ⟨key.sivAlgorithm, some (key.key.take (siv.keyLength key.sivAlgorithm))⟩
  keyLength : siv.keyLength key.sivAlgorithm ≠ 0
  nonceLength : key.nonceLength = min (sivMaxNonceLength key.sivAlgorithm) maxCookieNonceLength

theorem ServerKey.Ready.matches {key : ServerKey} (h : key.Ready siv) : key.Matches siv := by
  intro inst hinst
  obtain rfl := Option.some.inj (h.inst.symm.trans hinst)
  exact ⟨rfl, h.keyLength, h.nonceLength⟩

/-- Keys which are ready are given by their ID, bytes and algorithm. -/
theorem ServerKey.Ready.ext {key key' : ServerKey} (h : key.Ready siv) (h' : key'.Ready siv)
    (hid : key.id = key'.id) (hkey : key.key = key'.key)
    (halgorithm : key.sivAlgorithm = key'.sivAlgorithm) : key = key' := by
  have hinst := h.inst
  have hinst' := h'.inst
  have hnonce := h.nonceLength
  have hnonce' := h'.nonceLength
  obtain ⟨id, bytes, algorithm, inst, nonceLength⟩ := key
  obtain ⟨id', bytes', algorithm', inst', nonceLength'⟩ := key'
  dsimp only at *
  subst hid hkey halgorithm
  rw [hinst, hinst', hnonce, hnonce']

theorem withAlgorithm_eq {key : ServerKey} (h : key.Matches siv) (algorithm : SivAlgorithm) :
    (key.withAlgorithm siv algorithm).Matches siv ∧
      (key.withAlgorithm siv algorithm).sivAlgorithm = algorithm ∧
      (key.withAlgorithm siv algorithm).id = key.id ∧
      (key.withAlgorithm siv algorithm).key = key.key := by
  rw [ServerKey.withAlgorithm]
  split
  · refine ⟨fun inst hinst => ?_, rfl, rfl, rfl⟩
    dsimp only at hinst
    rw [Siv.createInstance] at hinst
    split at hinst
    · cases hinst
    next hlength =>
        obtain rfl := Option.some.inj hinst
        exact ⟨rfl, hlength, rfl⟩
  next hsame =>
      rw [not_or, not_not] at hsame
      exact ⟨h, hsame.2, rfl, rfl⟩

/-- **A key is ready when its instance is updated.** -/
theorem updateKeySiv_ready {key key' : ServerKey} {algorithm : SivAlgorithm}
    (hkey : updateKeySiv siv key algorithm = some key') (h : key.Matches siv) :
    key'.Ready siv ∧ key'.id = key.id ∧ key'.key = key.key ∧ key'.sivAlgorithm = algorithm := by
  obtain ⟨hmatches, halgorithm, hid, hbytes⟩ := withAlgorithm_eq h algorithm
  rw [updateKeySiv] at hkey
  split at hkey
  · cases hkey
  next inst hinst =>
      split at hkey
      · cases hkey
      next inst' hset =>
          obtain rfl := Option.some.inj hkey
          obtain ⟨rfl, -⟩ := setKey_eq_some hset
          obtain ⟨hinstAlgorithm, hlength, hnonce⟩ := hmatches inst hinst
          refine ⟨⟨?_, hlength, hnonce⟩, hid, hbytes, halgorithm⟩
          dsimp only
          rw [hinstAlgorithm]

/-- A key which is long enough for the algorithm can be set. -/
theorem updateKeySiv_succeeds {key : ServerKey} {algorithm : SivAlgorithm} (h : key.Matches siv)
    (halgorithm : siv.keyLength algorithm ≠ 0)
    (hlength : siv.keyLength algorithm ≤ key.key.length) :
    ∃ key', updateKeySiv siv key algorithm = some key' := by
  obtain ⟨hmatches, halg, -, hbytes⟩ := withAlgorithm_eq h algorithm
  have hinst : (key.withAlgorithm siv algorithm).siv ≠ none := by
    rw [ServerKey.withAlgorithm]
    split
    · dsimp only
      rw [Siv.createInstance, if_neg halgorithm]
      exact Option.some_ne_none _
    next hsame => exact fun hnone => hsame (.inl hnone)
  obtain ⟨inst, hinst⟩ := Option.ne_none_iff_exists'.mp hinst
  rw [updateKeySiv, hinst]
  dsimp only
  rw [Siv.setKey, (hmatches inst hinst).1, halg, hbytes, List.length_take_of_le hlength,
    if_neg (not_not.mpr rfl)]
  exact ⟨_, rfl⟩

/-! ### The invariant of the server -/

@[simp] theorem serverKeys_setKey_self (server : KeyServer) (index : ℕ) (key : ServerKey) :
    (server.setKey index key).serverKeys index = key :=
  Function.update_self ..

theorem serverKeys_setKey_of_ne (server : KeyServer) {index i : ℕ} (h : i ≠ index)
    (key : ServerKey) : (server.setKey index key).serverKeys i = server.serverKeys i :=
  Function.update_of_ne h ..

/-- **The keys are ready, and they are at the index in their ID.** -/
structure KeyServer.Sound (siv : Siv) (server : KeyServer) : Prop where
  current : server.currentServerKey < maxServerKeys
  ready : ∀ i < maxServerKeys, (server.serverKeys i).Ready siv
  index : ∀ i < maxServerKeys, (server.serverKeys i).id.toNat % maxServerKeys = i

/-- The index is in the lowest bits of a new ID. -/
theorem keyId_mod (id : BitVec 32) {index : ℕ} (h : index < maxServerKeys) :
    (id &&& (-1#32) <<< keyIdIndexBits ||| BitVec.ofNat 32 index).toNat % maxServerKeys =
      index := by
  have hand : (id &&& (-1#32) <<< keyIdIndexBits ||| BitVec.ofNat 32 index) &&& 3#32 =
      BitVec.ofNat 32 index := by
    have hindex : BitVec.ofNat 32 index &&& 3#32 = BitVec.ofNat 32 index := by
      have hcases : index = 0 ∨ index = 1 ∨ index = 2 ∨ index = 3 := by
        rw [maxServerKeys, keyIdIndexBits] at h
        omega
      rcases hcases with rfl | rfl | rfl | rfl <;> rfl
    have hmask : (-1#32) <<< keyIdIndexBits &&& 3#32 = 0#32 := rfl
    rw [BitVec.and_or_distrib_right, BitVec.and_assoc, hmask, hindex, BitVec.and_zero,
      BitVec.zero_or]
  have hnat := congrArg BitVec.toNat hand
  have hlt : index < 2 ^ 32 := lt_of_lt_of_le h (by decide)
  rw [BitVec.toNat_and, BitVec.toNat_ofNat index, Nat.mod_eq_of_lt hlt] at hnat
  exact (Nat.and_two_pow_sub_one_eq_mod _ 2).symm.trans hnat

theorem generateKey_eq {server server' : KeyServer} {index : ℕ} {random : KeyRandom}
    (hindex : index < maxServerKeys) (hmatches : (server.serverKeys index).Matches siv)
    (h : generateKey siv server index random = some server') :
    ∃ key, server' = server.setKey index key ∧ key.Ready siv ∧
      key.id.toNat % maxServerKeys = index := by
  obtain ⟨key, hkey, h⟩ := Option.bind_eq_some_iff.mp h
  obtain rfl := Option.some.inj h
  obtain ⟨hready, hid, -⟩ := updateKeySiv_ready hkey hmatches
  refine ⟨key, rfl, hready, ?_⟩
  rw [hid]
  exact keyId_mod random.id hindex

/-- A key is set at the index in its ID. -/
theorem KeyServer.Sound.setKey {server : KeyServer} (h : server.Sound siv) {index : ℕ}
    {key : ServerKey} (hready : key.Ready siv) (hid : key.id.toNat % maxServerKeys = index) :
    (server.setKey index key).Sound siv := by
  refine ⟨h.current, fun i hi => ?_, fun i hi => ?_⟩
  · by_cases heq : i = index
    · rw [heq, serverKeys_setKey_self]
      exact hready
    · rw [serverKeys_setKey_of_ne _ heq]
      exact h.ready i hi
  · by_cases heq : i = index
    · rw [heq, serverKeys_setKey_self]
      exact hid
    · rw [serverKeys_setKey_of_ne _ heq]
      exact h.index i hi

/-- The keys which were already generated in the initialisation. -/
theorem generateKeys_eq {random : ℕ → KeyRandom} {n : ℕ} (hn : n ≤ maxServerKeys)
    {server : KeyServer}
    (h : generateKeys siv random n ⟨fun _ => emptyKey, 0⟩ = some server) :
    (∀ i < n, (server.serverKeys i).Ready siv ∧
      (server.serverKeys i).id.toNat % maxServerKeys = i) ∧
      ∀ i ≥ n, server.serverKeys i = emptyKey := by
  induction n generalizing server with
  | zero =>
      obtain rfl := Option.some.inj h
      exact ⟨fun i hi => absurd hi (Nat.not_lt_zero i), fun _ _ => rfl⟩
  | succ n ih =>
      obtain ⟨server₁, h₁, h⟩ := Option.bind_eq_some_iff.mp h
      obtain ⟨hready₁, hempty₁⟩ := ih (Nat.le_of_succ_le hn) h₁
      have hmatches : (server₁.serverKeys n).Matches siv := by
        rw [hempty₁ n (Nat.le_refl n)]
        nofun
      obtain ⟨key, rfl, hready, hid⟩ := generateKey_eq hn hmatches h
      refine ⟨fun i hi => ?_, fun i hi => ?_⟩
      · by_cases heq : i = n
        · rw [heq, serverKeys_setKey_self]
          exact ⟨hready, hid⟩
        · rw [serverKeys_setKey_of_ne _ heq]
          exact hready₁ i (by omega)
      · rw [serverKeys_setKey_of_ne _ (by omega)]
        exact hempty₁ i (by omega)

theorem generateKey_succeeds {server : KeyServer} {index : ℕ}
    (hmatches : (server.serverKeys index).Matches siv)
    (halgorithm : siv.keyLength (newKeyAlgorithm siv) ≠ 0) (random : KeyRandom) :
    ∃ server', generateKey siv server index random = some server' := by
  rw [generateKey]
  dsimp only
  set key : ServerKey := { server.serverKeys index with
    key := (List.range (siv.keyLength (newKeyAlgorithm siv))).map random.key ++
      List.replicate (sivMaxKeyLength - siv.keyLength (newKeyAlgorithm siv)) 0
    id := random.id &&& (-1#32) <<< keyIdIndexBits ||| BitVec.ofNat 32 index } with hkey
  have hlength : siv.keyLength (newKeyAlgorithm siv) ≤ key.key.length := by
    rw [hkey]
    dsimp only
    rw [List.length_append, List.length_map, List.length_range]
    exact Nat.le_add_right _ _
  obtain ⟨key', hkey'⟩ := updateKeySiv_succeeds (show key.Matches siv from hmatches)
    halgorithm hlength
  rw [hkey']
  exact ⟨_, rfl⟩

/-- **The initialisation succeeds** if new keys have an algorithm which is supported. -/
theorem initialiseKeys_succeeds (halgorithm : siv.keyLength (newKeyAlgorithm siv) ≠ 0)
    (random : ℕ → KeyRandom) : ∃ server, initialiseKeys siv random = some server := by
  have hkeys : ∀ n ≤ maxServerKeys, ∃ server,
      generateKeys siv random n ⟨fun _ => emptyKey, 0⟩ = some server := by
    intro n hn
    induction n with
    | zero => exact ⟨_, rfl⟩
    | succ n ih =>
        obtain ⟨server, hserver⟩ := ih (Nat.le_of_succ_le hn)
        obtain ⟨-, hempty⟩ := generateKeys_eq (Nat.le_of_succ_le hn) hserver
        have hmatches : (server.serverKeys n).Matches siv := by
          rw [hempty n (Nat.le_refl n)]
          nofun
        rw [generateKeys, hserver]
        exact generateKey_succeeds hmatches halgorithm (random n)
  obtain ⟨server, hserver⟩ := hkeys maxServerKeys (Nat.le_refl _)
  rw [initialiseKeys, hserver]
  exact ⟨_, rfl⟩

theorem initialiseKeys_sound {random : ℕ → KeyRandom} {server : KeyServer}
    (h : initialiseKeys siv random = some server) : server.Sound siv := by
  obtain ⟨server₁, h₁, h⟩ := Option.bind_eq_some_iff.mp h
  obtain rfl := Option.some.inj h
  obtain ⟨hkeys, -⟩ := generateKeys_eq (Nat.le_refl _) h₁
  exact ⟨Nat.sub_lt (by decide) Nat.one_pos, fun i hi => (hkeys i hi).1,
    fun i hi => (hkeys i hi).2⟩

theorem mod_maxServerKeys_lt (n : ℕ) : n % maxServerKeys < maxServerKeys :=
  Nat.mod_lt n (by decide)

/-- A rotation replaces one key. -/
theorem keyTimeout_eq {server server' : KeyServer} {random : KeyRandom} (hsound : server.Sound siv)
    (h : keyTimeout siv server random = some server') :
    server'.Sound siv ∧
      server'.currentServerKey = (server.currentServerKey + 1) % maxServerKeys ∧
      ∀ i ≠ (server.currentServerKey + 1 + futureKeys) % maxServerKeys,
        server'.serverKeys i = server.serverKeys i := by
  have hsound₁ : KeyServer.Sound siv { server with
      currentServerKey := (server.currentServerKey + 1) % maxServerKeys } :=
    ⟨mod_maxServerKeys_lt _, hsound.ready, hsound.index⟩
  obtain ⟨key, rfl, hready, hid⟩ := generateKey_eq (mod_maxServerKeys_lt _)
    (hsound₁.ready _ (mod_maxServerKeys_lt _)).matches h
  refine ⟨hsound₁.setKey hready hid, rfl, fun i hi => ?_⟩
  refine Function.update_of_ne (fun heq => hi (heq.trans ?_)) _ _
  exact Nat.mod_add_mod _ _ _

theorem storeKeys_sound {server server' : KeyServer} {index index' : ℕ}
    {keys : List (BitVec 32 × List Byte × SivAlgorithm)} (hsound : server.Sound siv)
    (h : storeKeys siv server index keys = some (server', index')) : server'.Sound siv := by
  induction keys generalizing server index with
  | nil =>
      obtain ⟨rfl, -⟩ := Prod.mk.inj (Option.some.inj h)
      exact hsound
  | cons key keys ih =>
      obtain ⟨id, bytes, algorithm⟩ := key
      obtain ⟨key, hkey, h⟩ := Option.bind_eq_some_iff.mp h
      obtain ⟨hready, hid, -⟩ := updateKeySiv_ready hkey
        (hsound.ready _ (mod_maxServerKeys_lt _)).matches
      refine ih (hsound.setKey hready ?_) h
      rw [hid]

theorem loadKeys_sound {server server' : KeyServer} {lines : List KeyLine}
    (hsound : server.Sound siv) (h : loadKeys siv server lines = some server') :
    server'.Sound siv := by
  rw [loadKeys] at h
  split at h
  · obtain rfl := Option.some.inj h
    exact hsound
  · split at h
    · obtain rfl := Option.some.inj h
      exact hsound
    · obtain ⟨⟨server₁, index⟩, hstore, h⟩ := Option.bind_eq_some_iff.mp h
      obtain rfl := Option.some.inj h
      have hsound₁ := storeKeys_sound hsound hstore
      exact ⟨mod_maxServerKeys_lt _, hsound₁.ready, hsound₁.index⟩

/-- **Each change of the keys keeps the invariant.** -/
theorem KeyServer.step_sound {server server' : KeyServer} {step : KeyStep}
    (hsound : server.Sound siv) (h : server.step siv step = some server') :
    server'.Sound siv := by
  cases step with
  | rotate random => exact (keyTimeout_eq hsound h).1
  | load lines => exact loadKeys_sound hsound h

theorem KeyServer.run_sound {server server' : KeyServer} {steps : List KeyStep}
    (hsound : server.Sound siv) (h : server.run siv steps = some server') :
    server'.Sound siv := by
  induction steps generalizing server with
  | nil =>
      obtain rfl := Option.some.inj h
      exact hsound
  | cons step steps ih =>
      obtain ⟨server₁, hstep, h⟩ := Option.bind_eq_some_iff.mp h
      exact ih (KeyServer.step_sound hsound hstep) h

/-- **The current key is kept in the following rotations**, until its index is reached by
the keys which are generated in advance. -/
theorem run_rotations {server server' : KeyServer} (hsound : server.Sound siv)
    {rotations : List KeyRandom} {c k : ℕ}
    (hcurrent : server.currentServerKey = (c + k) % maxServerKeys)
    (hlength : k + rotations.length ≤ maxServerKeys - futureKeys - 1)
    (h : server.run siv (rotations.map .rotate) = some server') :
    server'.serverKeys c = server.serverKeys c := by
  induction rotations generalizing server k with
  | nil =>
      obtain rfl := Option.some.inj h
      rfl
  | cons random rotations ih =>
      obtain ⟨server₁, hstep, h⟩ := Option.bind_eq_some_iff.mp h
      obtain ⟨hsound₁, hcurrent₁, hkept⟩ := keyTimeout_eq hsound hstep
      rw [List.length_cons] at hlength
      have hcurrent' : server₁.currentServerKey = (c + (k + 1)) % maxServerKeys := by
        rw [hcurrent₁, hcurrent, Nat.mod_add_mod, Nat.add_assoc]
      rw [ih hsound₁ hcurrent' (by omega) h]
      refine hkept c fun heq => ?_
      rw [hcurrent, show maxServerKeys = 4 from rfl, show futureKeys = 1 from rfl] at *
      omega

/-! ### Cookies -/

/-- A context with keys of the length of its algorithm. -/
def NkeContext.Valid (context : NkeContext) : Prop :=
  context.s2c.length = context.c2s.length ∧
    contextAlgorithm context.c2s.length = some context.algorithm

theorem contextAlgorithm_eq_some {n : ℕ} {algorithm : SivAlgorithm}
    (h : contextAlgorithm n = some algorithm) :
    (n = 16 ∧ algorithm = .aes128GcmSiv) ∨ (n = 32 ∧ algorithm = .aesSivCmac256) := by
  rw [contextAlgorithm] at h
  split at h
  next hn => exact .inl ⟨hn, (Option.some.inj h).symm⟩
  · split at h
    next hn => exact .inr ⟨hn, (Option.some.inj h).symm⟩
    · cases h

theorem cookieNonceLength_valid (algorithm : SivAlgorithm) :
    sivMinNonceLength algorithm ≤ min (sivMaxNonceLength algorithm) maxCookieNonceLength ∧
      min (sivMaxNonceLength algorithm) maxCookieNonceLength ≤ sivMaxNonceLength algorithm := by
  cases algorithm <;> decide

/-- **A cookie is decoded by a server which has its key.** -/
theorem exists_cookie {server : KeyServer} {context : NkeContext} {key : ServerKey}
    (hkey : server.serverKeys server.currentServerKey = key) (hready : key.Ready siv)
    (hcontext : context.Valid) (random : ℕ → Byte) :
    ∃ cookie, generateCookie siv server context random = some cookie ∧
      ∀ server' : KeyServer, server'.serverKeys (key.id.toNat % maxServerKeys) = key →
        decodeCookie siv server' cookie = some context := by
  obtain ⟨hlength, halgorithm⟩ := hcontext
  have hkeyLength : context.c2s.length = 16 ∨ context.c2s.length = 32 :=
    (contextAlgorithm_eq_some halgorithm).imp And.left And.left
  have hnonceLength : (cookieNonce random key.nonceLength).length = key.nonceLength := by
    rw [cookieNonce, List.length_map, List.length_range]
  have hnonce : SivInstance.acceptsNonce ⟨key.sivAlgorithm, some (key.key.take
      (siv.keyLength key.sivAlgorithm))⟩ (cookieNonce random key.nonceLength) = true := by
    rw [SivInstance.acceptsNonce, hnonceLength, hready.nonceLength]
    exact decide_eq_true (cookieNonceLength_valid key.sivAlgorithm)
  obtain ⟨ciphertext, hencrypt⟩ : ∃ ciphertext, siv.encryptWith ⟨key.sivAlgorithm, some
      (key.key.take (siv.keyLength key.sivAlgorithm))⟩ (cookieNonce random key.nonceLength) []
        (context.c2s ++ context.s2c) = some ciphertext := by
    rw [Siv.encryptWith]
    exact ⟨_, if_pos hnonce⟩
  obtain ⟨hdecrypt, hciphertext⟩ := decryptWith_encryptWith hencrypt
  rw [List.length_append] at hciphertext
  have hmax : sivMaxKeyLength = 32 := rfl
  have htag : sivTagLength = 16 := rfl
  refine ⟨encode32 key.id.toNat ++ cookieNonce random key.nonceLength ++ ciphertext, ?_,
    fun server' hkey' => ?_⟩
  · rw [generateCookie, if_neg (by omega), hkey]
    dsimp only
    rw [hready.inst]
    dsimp only
    rw [hencrypt]
  · have hid : decode32 (encode32 key.id.toNat ++ cookieNonce random key.nonceLength ++
        ciphertext) = key.id.toNat := by
      rw [List.append_assoc]
      exact decode32_encode32 key.id.isLt _
    have htotal : (encode32 key.id.toNat ++ cookieNonce random key.nonceLength ++
        ciphertext).length = 4 + key.nonceLength + ciphertext.length := by
      rw [List.length_append, List.length_append, length_encode32, hnonceLength]
    have hslice : slice (encode32 key.id.toNat ++ cookieNonce random key.nonceLength ++
        ciphertext) 4 key.nonceLength = cookieNonce random key.nonceLength := by
      have hslice := slice_append (encode32 key.id.toNat) (cookieNonce random key.nonceLength)
        ciphertext
      rw [hnonceLength, length_encode32] at hslice
      rw [List.append_assoc]
      exact hslice
    have hdrop : (encode32 key.id.toNat ++ cookieNonce random key.nonceLength ++
        ciphertext).drop (4 + key.nonceLength) = ciphertext := by
      refine List.drop_left' ?_
      rw [List.length_append, length_encode32, hnonceLength]
    have hhalf : (context.c2s ++ context.s2c).length / 2 = context.c2s.length := by
      rw [List.length_append]
      omega
    rw [decodeCookie, htotal, if_neg (by omega), hid]
    dsimp only
    rw [hkey', if_neg (not_not.mpr rfl), if_neg (by omega), if_neg (by omega), hready.inst]
    dsimp only
    rw [hslice, hdrop, hdecrypt]
    dsimp only
    rw [decodeContext, hhalf, halgorithm, List.take_left, List.drop_left]
    rfl

/-- **What is known of a cookie which is decoded.** -/
theorem decodeCookie_eq_some {server : KeyServer} {cookie : List Byte} {context : NkeContext}
    (h : decodeCookie siv server cookie = some context) : ∃ key inst,
      key = server.serverKeys (decode32 cookie % maxServerKeys) ∧
      decode32 cookie = key.id.toNat ∧ key.siv = some inst ∧
      cookie.length = 4 + key.nonceLength + 2 * context.c2s.length + sivTagLength ∧
      siv.decryptWith inst (slice cookie 4 key.nonceLength) []
        (cookie.drop (4 + key.nonceLength)) = some (context.c2s ++ context.s2c) ∧
      context.Valid := by
  rw [decodeCookie] at h
  split at h
  · cases h
  · dsimp only at h
    split at h
    · cases h
    next hid =>
        split at h
        · cases h
        · split at h
          · cases h
          · split at h
            · cases h
            next inst hinst =>
                split at h
                · cases h
                next plaintext hdecrypt =>
                    obtain ⟨key', -, -, hraw⟩ := decryptWith_eq_some hdecrypt
                    have hlength := siv.length_decrypt _ _ _ _ _ _ hraw
                    rw [List.length_drop] at hlength
                    rw [decodeContext] at h
                    obtain ⟨algorithm, halgorithm, rfl⟩ := Option.map_eq_some_iff.mp h
                    have hhalf : (plaintext.take (plaintext.length / 2)).length =
                        plaintext.length / 2 := by
                      rw [List.length_take]
                      omega
                    refine ⟨_, inst, rfl, not_not.mp hid, hinst, ?_, ?_, ?_, ?_⟩
                    · dsimp only
                      rw [hhalf]
                      omega
                    · rw [List.take_append_drop]
                      exact hdecrypt
                    · dsimp only
                      rw [hhalf, List.length_drop]
                      omega
                    · dsimp only
                      rw [hhalf]
                      exact halgorithm

/-! ### Helpers -/

/-- The helper has only keys with a matching instance, or none. -/
def KeyServer.Usable (siv : Siv) (helper : KeyServer) : Prop :=
  (helper.serverKeys helper.currentServerKey).Matches siv

/-- **A helper gets the current key of the server.** -/
theorem handleHelperRequest_eq {helper helper' : KeyServer} {req : HelperRequest}
    (hhelper : helper.Usable siv) (h : handleHelperRequest siv helper req = some helper') :
    (helper'.serverKeys helper'.currentServerKey).Ready siv ∧
      (helper'.serverKeys helper'.currentServerKey).id = req.keyId ∧
      (helper'.serverKeys helper'.currentServerKey).key = req.key ∧
      (helper'.serverKeys helper'.currentServerKey).sivAlgorithm = req.sivAlgorithm := by
  obtain ⟨key, hkey, h⟩ := Option.bind_eq_some_iff.mp h
  obtain rfl := Option.some.inj h
  have hcurrent : (helper.setKey helper.currentServerKey key).currentServerKey =
    helper.currentServerKey := rfl
  rw [hcurrent, serverKeys_setKey_self]
  exact updateKeySiv_ready hkey hhelper

theorem handleHelperRequests_usable {helper helper' : KeyServer} {reqs : List HelperRequest}
    (hhelper : helper.Usable siv)
    (h : reqs.foldlM (handleHelperRequest siv) helper = some helper') : helper'.Usable siv := by
  induction reqs generalizing helper with
  | nil =>
      obtain rfl := Option.some.inj h
      exact hhelper
  | cons req reqs ih =>
      obtain ⟨helper₁, hreq, h⟩ := Option.bind_eq_some_iff.mp h
      exact ih (handleHelperRequest_eq hhelper hreq).1.matches h

/-- **The keys and cookies of the server**, in every state which can be reached.
- The key at an index has an ID with the index.
- For every valid context a cookie can be made, which is decoded to the context by every
  server which still has the current key at its index.
- It is the same with cookies of a helper process which has got the current key in a request.
- The current key is at its index through the next rotations of the keys.
- Other cookies are rejected. -/
theorem run_cookies {random : ℕ → KeyRandom} {steps : List KeyStep} {initial server : KeyServer}
    (hinit : initialiseKeys siv random = some initial)
    (hrun : initial.run siv steps = some server) :
    (∀ i < maxServerKeys, (server.serverKeys i).id.toNat % maxServerKeys = i) ∧
    (∀ context : NkeContext, context.Valid → ∀ nonce, ∃ cookie,
      generateCookie siv server context nonce = some cookie ∧
      ∀ server' : KeyServer, server'.serverKeys server.currentServerKey =
        server.serverKeys server.currentServerKey →
          decodeCookie siv server' cookie = some context) ∧
    (∀ (random : ℕ → KeyRandom) (reqs : List HelperRequest) (helper₀ helper helper' : KeyServer),
      initialiseKeys siv random = some helper₀ →
      reqs.foldlM (handleHelperRequest siv) helper₀ = some helper →
      handleHelperRequest siv helper (helperRequest server) = some helper' →
      ∀ context : NkeContext, context.Valid → ∀ nonce, ∃ cookie,
        generateCookie siv helper' context nonce = some cookie ∧
        ∀ server' : KeyServer, server'.serverKeys server.currentServerKey =
          server.serverKeys server.currentServerKey →
            decodeCookie siv server' cookie = some context) ∧
    (∀ (rotations : List KeyRandom) (server' : KeyServer),
      rotations.length ≤ maxServerKeys - futureKeys - 1 →
      server.run siv (rotations.map .rotate) = some server' →
        server'.serverKeys server.currentServerKey =
          server.serverKeys server.currentServerKey) ∧
    (∀ cookie context, decodeCookie siv server cookie = some context → ∃ key inst,
      key = server.serverKeys (decode32 cookie % maxServerKeys) ∧
      decode32 cookie = key.id.toNat ∧ key.siv = some inst ∧
      cookie.length = 4 + key.nonceLength + 2 * context.c2s.length + sivTagLength ∧
      siv.decryptWith inst (slice cookie 4 key.nonceLength) []
        (cookie.drop (4 + key.nonceLength)) = some (context.c2s ++ context.s2c) ∧
      context.Valid) := by
  have hsound := KeyServer.run_sound (initialiseKeys_sound hinit) hrun
  have hready := hsound.ready _ hsound.current
  have hindex := hsound.index _ hsound.current
  refine ⟨hsound.index, fun context hcontext nonce => ?_, ?_, ?_,
    fun cookie context => decodeCookie_eq_some⟩
  · obtain ⟨cookie, hcookie, hdecode⟩ := exists_cookie rfl hready hcontext nonce
    rw [hindex] at hdecode
    exact ⟨cookie, hcookie, hdecode⟩
  · intro random' reqs helper₀ helper helper' hinit' hreqs hreq context hcontext nonce
    have hsound₀ := initialiseKeys_sound hinit'
    have husable := handleHelperRequests_usable (hsound₀.ready _ hsound₀.current).matches hreqs
    obtain ⟨hready', hid, hkey, halgorithm⟩ := handleHelperRequest_eq husable hreq
    have heq := hready'.ext hready hid hkey halgorithm
    obtain ⟨cookie, hcookie, hdecode⟩ := exists_cookie heq hready hcontext nonce
    rw [hindex] at hdecode
    exact ⟨cookie, hcookie, hdecode⟩
  · intro rotations server' hlength hrotations
    refine run_rotations hsound (k := 0) ?_ (by omega) hrotations
    rw [Nat.add_zero, Nat.mod_eq_of_lt hsound.current]

/-- A server which has rotated its keys. -/
theorem run_cookies_sampleSiv : ∃ initial server,
    initialiseKeys sampleSiv (fun n => ⟨fun i => BitVec.ofNat 8 (n + i), 0⟩) = some initial ∧
      initial.run sampleSiv [.rotate ⟨fun _ => 5, 0x12345678⟩] = some server ∧
      ∀ context : NkeContext, context.Valid → ∀ nonce, ∃ cookie,
        generateCookie sampleSiv server context nonce = some cookie ∧
          decodeCookie sampleSiv server cookie = some context := by
  obtain ⟨initial, hinit⟩ :=
    initialiseKeys_succeeds (show sampleSiv.keyLength (newKeyAlgorithm sampleSiv) ≠ 0 by decide)
      (fun n => ⟨fun i => BitVec.ofNat 8 (n + i), 0⟩)
  have hsome : (initialiseKeys sampleSiv (fun n => ⟨fun i => BitVec.ofNat 8 (n + i), 0⟩)).bind
      (fun initial => initial.run sampleSiv [.rotate ⟨fun _ => 5, 0x12345678⟩]) ≠ none := by
    decide +kernel
  rw [hinit, Option.bind_some] at hsome
  obtain ⟨server, hrun⟩ := Option.ne_none_iff_exists'.mp hsome
  refine ⟨initial, server, hinit, hrun, fun context hcontext nonce => ?_⟩
  obtain ⟨cookie, hcookie, hdecode⟩ := (run_cookies hinit hrun).2.1 context hcontext nonce
  exact ⟨cookie, hcookie, hdecode server rfl⟩

end Chrony.Nts
