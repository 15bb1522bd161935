import Chrony.Nts.Cookies
import Chrony.Strings
import Mathlib.Data.List.Nodup

/-!
# Dump Files of Server Keys

The server saves its keys to a file when they change, and loads them when it is started, in
order to decode the cookies which were sent before. The keys are written in the order in which
they are used, and the position of a key is found from its ID when it is loaded. The functions
are `save_keys` and `load_keys` of `nts_ke_server.c`, here with the text of the file. An age of
the last key is in the file, which is not modelled in the server.

## Main results

* `loadKeysFile_cases`: what is loaded from any file.
* `fileKeys_dumpText`: the keys which are found in a saved file.
* `run_dump`: the keys of a server in any reachable state are restored from the saved file.
-/

namespace Chrony.Nts

open Lib Bytes

variable {siv : Siv}

/-! ### Saving -/

/-- The age of the last key, as it is printed by `%.1f`. A number has only as many digits as
there are in the largest double. -/
inductive KeyAge
  | tenths (n : ℕ) (h : n < 10 * 2 ^ 1024)
  | infinite

/-- The age in the format `%.1f`. -/
def KeyAge.print : KeyAge → List Char
  | .tenths n _ => Nat.toDigits 10 (n / 10) ++ ['.', Nat.digitChar (n % 10)]
  | .infinite => ['i', 'n', 'f']

/-- The number of an algorithm. -/
def sivNumber : SivAlgorithm → ℕ
  | .invalid => 0
  | .aesSivCmac256 => 15
  | .aesSivCmac384 => 16
  | .aesSivCmac512 => 17
  | .aes128GcmSiv => 30
  | .aes256GcmSiv => 31

/-- `DUMP_IDENTIFIER`. -/
def dumpIdentifier : List Char := ['N', 'K', 'S', '1', '\n']

/-- `OLD_DUMP_IDENTIFIER`. -/
def oldDumpIdentifier : List Char := ['N', 'K', 'S', '0', '\n']

/-- The line with a key, unless the key cannot be printed. -/
def dumpKey (siv : Siv) (key : ServerKey) : Option (List Char) :=
  let keyLength := siv.keyLength key.sivAlgorithm
  if keyLength > sivMaxKeyLength then none
  else
    (bytesToHex (key.key.take keyLength) (2 * sivMaxKeyLength + 1)).map fun hex =>
      hexDigits 8 key.id.toNat ++ ' ' :: (hex ++ ' ' ::
        (Nat.toDigits 10 (sivNumber key.sivAlgorithm) ++ ['\n']))

/-- The keys are saved from the oldest one. -/
def KeyServer.dumpIndex (server : KeyServer) (i : ℕ) : ℕ :=
  (server.currentServerKey + i + 1 + futureKeys) % maxServerKeys

/-- What is printed by `save_keys`, one call of `fprintf` after another. -/
def dumpLines (siv : Siv) (server : KeyServer) (age : KeyAge) : List (Option (List Char)) :=
  some (dumpIdentifier ++ (age.print ++ ['\n'])) ::
    (List.range maxServerKeys).map fun i => dumpKey siv (server.serverKeys (server.dumpIndex i))

/-- The complete file. -/
def dumpText (siv : Siv) (server : KeyServer) (age : KeyAge) : Option (List Char) :=
  ((dumpLines siv server age).mapM id).map List.flatten

/-- The files in the dump directory: `ntskeys` and `ntskeys.tmp`. -/
structure DumpDir where
  dump : Option (List Char)
  tmp : Option (List Char)
  deriving DecidableEq

/-- The result of `UTI_OpenFile` for the temporary file. -/
inductive Opening
  /-- The file cannot be created. An old one can be removed before. -/
  | failed (removed : Bool)
  /-- The file is created, but `fdopen` fails. -/
  | created
  | opened
  deriving DecidableEq

/-- The results of the functions of the system in one call of `save_keys`. -/
structure SaveIo where
  opening : Opening
  /-- Whether each `fprintf` succeeds. -/
  prints : ℕ → Bool
  /-- The number of characters which are stored when the file is closed, or none if all of them
  are stored. The result of `fclose` is not checked. -/
  stored : Option ℕ
  /-- Whether `rename` succeeds. -/
  renames : Bool
  /-- Whether `unlink` succeeds. -/
  unlinks : Bool

/-- The contents of the file after it is closed. -/
def SaveIo.store (io : SaveIo) (text : List Char) : List Char :=
  match io.stored with
  | none => text
  | some n => text.take n

/-- The calls of `fprintf`, with the printed text, and whether all of them succeeded. A part of
a line can be printed when it fails. -/
def printLines (prints : ℕ → Bool) : ℕ → List (Option (List Char)) → List Char × Bool
  | _, [] => ([], true)
  | _, none :: _ => ([], false)
  | n, some line :: lines =>
      if prints n then (line ++ (printLines prints (n + 1) lines).1,
        (printLines prints (n + 1) lines).2)
      else (line, false)

/-- `save_keys`. Nothing is done when the rotation of keys is disabled. -/
def saveKeys (siv : Siv) (rotationInterval : ℕ) (server : KeyServer) (age : KeyAge) (io : SaveIo)
    (dir : DumpDir) : DumpDir :=
  if rotationInterval = 0 then dir
  else
    match io.opening with
    | .failed removed => { dir with tmp := if removed then none else dir.tmp }
    | .created => { dir with tmp := some [] }
    | .opened =>
        match printLines io.prints 0 (dumpLines siv server age) with
        | (text, false) =>
            -- the file which is removed is not the temporary one
            ⟨if io.unlinks then none else dir.dump, some (io.store text)⟩
        | (text, true) =>
            if io.renames then ⟨some (io.store text), none⟩
            else { dir with tmp := if io.unlinks then none else some (io.store text) }

/-! ### Loading -/

/-- The second line of the file, which has the algorithm only in the old format. -/
def scanHeader (oldVer : Bool) (line : List Char) : Option ℤ :=
  match oldVer, splitString line with
  | false, [age] => if scansDouble age then some 0 else none
  | true, [algorithm, age] =>
      (scanInt algorithm).bind fun algorithm => if scansDouble age then some algorithm else none
  | _, _ => none

/-- A line with a key. -/
def scanLine (oldVer : Bool) (algorithm : ℤ) (line : List Char) : Option KeyLine :=
  match oldVer, splitString line with
  | false, [id, key, algorithm] => do
      let id ← scanHex id
      let algorithm ← scanInt algorithm
      some ⟨id, key, algorithm⟩
  | true, [id, key] => do
      let id ← scanHex id
      some ⟨id, key, algorithm⟩
  | _, _ => none

/-- The size of the buffer for lines. -/
def lineSize : ℕ := 1024

/-- The first loop of `load_keys`, which must read all keys. -/
def readFileKeys (siv : Siv) (oldVer : Bool) (algorithm : ℤ) :
    ℕ → Option (BitVec 32) → List Char → Option (List (BitVec 32 × List Byte × SivAlgorithm))
  | 0, _, _ => some []
  | n + 1, prev, file =>
      match fgets lineSize file with
      | none => none
      | some (line, file) => do
          let line ← scanLine oldVer algorithm line
          let key ← loadKey siv line
          if prev.any fun prev => !isNextId prev key.1 then none
          else
            let keys ← readFileKeys siv oldVer algorithm n (some key.1) file
            some (key :: keys)

/-- The keys in a file, if it is valid. -/
def fileKeys (siv : Siv) (file : List Char) :
    Option (List (BitVec 32 × List Byte × SivAlgorithm)) :=
  match fgets lineSize file with
  | none => none
  | some (line, file) =>
      if line ≠ dumpIdentifier ∧ line ≠ oldDumpIdentifier then none
      else
        let oldVer : Bool := line ≠ dumpIdentifier
        match fgets lineSize file with
        | none => none
        | some (line, file) => do
            let algorithm ← scanHeader oldVer line
            readFileKeys siv oldVer algorithm maxServerKeys none file

/-- `load_keys` with the contents of the file, or none if it cannot be opened. It returns
whether the keys were loaded, and nothing if the process ends. -/
def loadKeysFile (siv : Siv) (server : KeyServer) (file : Option (List Char)) :
    Option (Bool × KeyServer) :=
  match file.bind (fileKeys siv) with
  | none => some (false, server)
  | some keys => do
      let r ← storeKeys siv server 0 keys
      some (true, { r.1 with
        currentServerKey := (r.2 + maxServerKeys - futureKeys) % maxServerKeys })

/-! ### A printed line -/

theorem lt_of_isDigit {c : Char} (h : c.isDigit = true) : ' ' < c := by
  have h : 48 ≤ c.toNat := by
    rw [Char.isDigit, Bool.and_eq_true, decide_eq_true_eq, decide_eq_true_eq] at h
    exact h.1
  exact (Nat.lt_of_lt_of_le (by decide) h : 32 < c.toNat)

theorem isWord_toDigits (n : ℕ) : IsWord (Nat.toDigits 10 n) where
  ne_nil := Nat.toDigits_ne_nil
  printable _ hc := lt_of_isDigit (Nat.isDigit_of_mem_toDigits (by decide) (by decide) hc)

theorem isWord_hexDigits (n : ℕ) : IsWord (hexDigits 8 n) where
  ne_nil := by
    rw [← List.length_pos_iff, length_hexDigits]
    decide
  printable _ hc := lt_of_hexValue (isSome_hexValue_of_mem_hexDigits hc)

/-- A printed key, which is not empty. -/
theorem isWord_bytesToHex {bytes : List Byte} {hexLength : ℕ} {hex : List Char}
    (h : bytesToHex bytes hexLength = some hex) (hne : bytes ≠ []) :
    IsWord hex ∧ hex.length = 2 * bytes.length ∧ hex.length < hexLength := by
  rw [bytesToHex] at h
  split at h
  · cases h
  next hfits =>
      obtain rfl := Option.some.inj h
      have hlength : (bytes.flatMap fun b =>
          [hexDigit (b.toNat / 16), hexDigit (b.toNat % 16)]).length = 2 * bytes.length := by
        simp [List.length_flatMap, Nat.mul_comm]
      refine ⟨⟨?_, fun c hc => ?_⟩, hlength, ?_⟩
      · rw [← List.length_pos_iff, hlength]
        exact Nat.mul_pos two_pos (List.length_pos_iff.mpr hne)
      · obtain ⟨b, -, hc⟩ := List.mem_flatMap.mp hc
        have hb := b.isLt
        have hdigit : ∀ n < 16, ' ' < hexDigit n := fun n hn => by
          refine lt_of_hexValue ?_
          rw [hexValue_hexDigit n hn]
          rfl
        rcases List.mem_cons.mp hc with rfl | hc
        · exact hdigit _ (by omega)
        · obtain rfl := List.mem_singleton.mp hc
          exact hdigit _ (by omega)
      · rw [hlength]
        omega

/-- The bytes after a key are zero. -/
def ServerKey.Padded (siv : Siv) (key : ServerKey) : Prop :=
  key.key.length = sivMaxKeyLength ∧ key.key.drop (siv.keyLength key.sivAlgorithm) =
    List.replicate (sivMaxKeyLength - siv.keyLength key.sivAlgorithm) 0

/-- What is saved of a key. -/
def ServerKey.saved (key : ServerKey) : BitVec 32 × List Byte × SivAlgorithm :=
  (key.id, key.key, key.sivAlgorithm)

theorem scanInt_sivNumber (algorithm : SivAlgorithm) :
    scanInt (Nat.toDigits 10 (sivNumber algorithm)) = some (sivNumber algorithm : ℤ) := by
  cases algorithm <;> decide

theorem sivAlgorithm_sivNumber (algorithm : SivAlgorithm) :
    sivAlgorithm (sivNumber algorithm) = algorithm := by
  cases algorithm <;> rfl

theorem length_toDigits_sivNumber (algorithm : SivAlgorithm) :
    (Nat.toDigits 10 (sivNumber algorithm)).length ≤ 2 := by
  cases algorithm <;> decide

/-- **A key is found in the line which was printed for it.** -/
theorem dumpKey_eq_some {key : ServerKey} (hready : key.Ready siv) (hpadded : key.Padded siv) :
    ∃ line, dumpKey siv key = some (line ++ ['\n']) ∧ (∀ c ∈ line, ' ' ≤ c) ∧
      line.length + 1 < lineSize ∧
      ((scanLine false 0 (line ++ ['\n'])).bind fun line => loadKey siv line) =
        some key.saved := by
  have hle := keyLength_le siv key.sivAlgorithm
  have htake : (key.key.take (siv.keyLength key.sivAlgorithm)).length =
      siv.keyLength key.sivAlgorithm := by
    rw [List.length_take, hpadded.1]
    exact min_eq_left hle
  have hne : key.key.take (siv.keyLength key.sivAlgorithm) ≠ [] := by
    rw [← List.length_pos_iff, htake]
    exact Nat.pos_of_ne_zero hready.keyLength
  obtain ⟨hex, hhex⟩ : ∃ hex, bytesToHex (key.key.take (siv.keyLength key.sivAlgorithm))
      (2 * sivMaxKeyLength + 1) = some hex := by
    rw [bytesToHex, if_neg]
    · exact ⟨_, rfl⟩
    · omega
  obtain ⟨hword, hlength, hfits⟩ := isWord_bytesToHex hhex hne
  have hid := isWord_hexDigits key.id.toNat
  have hnumber := isWord_toDigits (sivNumber key.sivAlgorithm)
  refine ⟨hexDigits 8 key.id.toNat ++ ' ' :: (hex ++ ' ' ::
    Nat.toDigits 10 (sivNumber key.sivAlgorithm)), ?_, fun c hc => ?_, ?_, ?_⟩
  · rw [dumpKey, if_neg (Nat.not_lt.mpr hle), hhex]
    simp only [Option.map_some, List.append_assoc, List.cons_append]
  · simp only [List.mem_append, List.mem_cons] at hc
    rcases hc with hc | rfl | hc | rfl | hc
    · exact Nat.le_of_lt (hid.printable c hc)
    · exact Nat.le_refl _
    · exact Nat.le_of_lt (hword.printable c hc)
    · exact Nat.le_refl _
    · exact Nat.le_of_lt (hnumber.printable c hc)
  · have htwo := length_toDigits_sivNumber key.sivAlgorithm
    simp only [List.length_append, List.length_cons, length_hexDigits]
    rw [sivMaxKeyLength] at hfits
    rw [lineSize]
    omega
  · have hsplit : splitString ((hexDigits 8 key.id.toNat ++ ' ' :: (hex ++ ' ' ::
        Nat.toDigits 10 (sivNumber key.sivAlgorithm))) ++ ['\n']) =
        [hexDigits 8 key.id.toNat, hex, Nat.toDigits 10 (sivNumber key.sivAlgorithm)] := by
      simp only [List.append_assoc, List.cons_append]
      rw [splitString_word hid (by decide), splitString_word hword (by decide),
        splitString_word hnumber (by decide)]
      rfl
    unfold scanLine
    rw [hsplit]
    simp only [scanHex_hexDigits, scanInt_sivNumber, Option.bind_eq_bind, Option.bind_some]
    rw [loadKey]
    dsimp only
    rw [sivAlgorithm_sivNumber, hexToBytes_bytesToHex hhex (htake.le.trans hle), if_neg,
      ← hpadded.2, List.take_append_drop]
    · rfl
    · rw [not_or, not_not]
      exact ⟨hready.keyLength, htake⟩

/-- The age is printed as one word, which is a number. -/
theorem KeyAge.isWord_print (age : KeyAge) :
    IsWord age.print ∧ age.print.length + 1 < lineSize := by
  cases age with
  | infinite =>
      have hprintable : KeyAge.infinite.print.all (' ' < ·) = true := by decide
      exact ⟨⟨by decide, fun c hc => of_decide_eq_true (List.all_eq_true.mp hprintable c hc)⟩,
        by decide⟩
  | tenths n h =>
      have hword := isWord_toDigits (n / 10)
      have hlast : ∀ k < 10, ' ' < Nat.digitChar k := by decide
      have hlength : (Nat.toDigits 10 (n / 10)).length ≤ 512 := by
        rw [Nat.length_toDigits_le_iff (by decide) (by decide)]
        calc
          n / 10 < 2 ^ 1024 := Nat.div_lt_of_lt_mul h
          _ = 16 ^ 256 := by rw [show 16 = 2 ^ 4 by rfl, ← Nat.pow_mul]
          _ ≤ 100 ^ 256 := Nat.pow_le_pow_left (by decide) 256
          _ = 10 ^ 512 := by rw [show 100 = 10 ^ 2 by rfl, ← Nat.pow_mul]
      refine ⟨⟨?_, fun c hc => ?_⟩, ?_⟩
      · exact List.append_ne_nil_of_left_ne_nil hword.ne_nil _
      · rw [KeyAge.print] at hc
        simp only [List.mem_append, List.mem_cons, List.not_mem_nil, or_false] at hc
        rcases hc with hc | rfl | rfl
        · exact hword.printable c hc
        · decide
        · exact hlast _ (Nat.mod_lt n (by decide))
      · rw [KeyAge.print, List.length_append, lineSize]
        dsimp only [List.length_cons, List.length_nil]
        omega

theorem KeyAge.scansDouble_print (age : KeyAge) : scansDouble age.print = true := by
  cases age with
  | infinite => rfl
  | tenths n h =>
      rw [KeyAge.print]
      cases hdigits : Nat.toDigits 10 (n / 10) with
      | nil => exact absurd hdigits Nat.toDigits_ne_nil
      | cons c s =>
          refine scansDouble_of_decValue ?_ _
          have hc : c ∈ Nat.toDigits 10 (n / 10) := by
            rw [hdigits]
            exact List.mem_cons_self
          have hdigit := Nat.isDigit_of_mem_toDigits (by decide) (by decide) hc
          rw [Char.isDigit, Bool.and_eq_true, decide_eq_true_eq, decide_eq_true_eq] at hdigit
          have hdigit : '0' ≤ c ∧ c ≤ '9' := hdigit
          rw [decValue, if_pos hdigit]
          rfl

/-- The header which was printed. -/
theorem scanHeader_print (age : KeyAge) : scanHeader false (age.print ++ ['\n']) = some 0 := by
  have hsplit : splitString (age.print ++ ['\n']) = [age.print] := by
    rw [splitString_word age.isWord_print.1 (by decide)]
    rfl
  unfold scanHeader
  rw [hsplit]
  dsimp only
  rw [if_pos age.scansDouble_print]

/-! ### A printed file -/

/-- The IDs of keys follow one another. -/
def IdChain : Option (BitVec 32) → List (BitVec 32 × List Byte × SivAlgorithm) → Prop
  | _, [] => True
  | prev, key :: keys => (prev.any fun prev => !isNextId prev key.1) = false ∧
      IdChain (some key.1) keys

/-- **The keys are found in the lines which were printed for them.** -/
theorem readFileKeys_dumpKeys {prev : Option (BitVec 32)} {keys : List ServerKey}
    (hready : ∀ key ∈ keys, key.Ready siv) (hpadded : ∀ key ∈ keys, key.Padded siv)
    (hchain : IdChain prev (keys.map ServerKey.saved)) :
    ∃ lines : List (List Char), keys.map (dumpKey siv) = lines.map some ∧ ∀ file,
      readFileKeys siv false 0 keys.length prev (lines.flatten ++ file) =
        some (keys.map ServerKey.saved) := by
  induction keys generalizing prev with
  | nil => exact ⟨[], rfl, fun _ => rfl⟩
  | cons key keys ih =>
      obtain ⟨line, hdump, hprintable, hsize, hload⟩ :=
        dumpKey_eq_some (hready key List.mem_cons_self) (hpadded key List.mem_cons_self)
      obtain ⟨lines, hlines, hread⟩ := ih (fun k hk => hready k (List.mem_cons_of_mem _ hk))
        (fun k hk => hpadded k (List.mem_cons_of_mem _ hk)) hchain.2
      obtain ⟨keyLine, hscan, hload⟩ := Option.bind_eq_some_iff.mp hload
      refine ⟨(line ++ ['\n']) :: lines, ?_, fun file => ?_⟩
      · rw [List.map_cons, hdump, hlines]
        rfl
      · rw [List.flatten_cons, List.append_assoc, List.append_assoc, List.singleton_append,
          List.length_cons, readFileKeys, fgets_line _ hprintable hsize]
        dsimp only
        rw [hscan, Option.bind_eq_bind, Option.bind_some, hload, Option.bind_eq_bind,
          Option.bind_some, hchain.1, if_neg Bool.false_ne_true, hread file]
        rfl

/-- The keys in the order in which they are saved. -/
def KeyServer.dumpKeys (server : KeyServer) : List ServerKey :=
  (List.range maxServerKeys).map fun i => server.serverKeys (server.dumpIndex i)

/-- **The keys of a server which can be saved.** -/
structure KeyServer.Saved (siv : Siv) (server : KeyServer) : Prop where
  sound : server.Sound siv
  padded : ∀ i < maxServerKeys, (server.serverKeys i).Padded siv

theorem KeyServer.dumpIndex_lt (server : KeyServer) (i : ℕ) :
    server.dumpIndex i < maxServerKeys :=
  mod_maxServerKeys_lt _

theorem maxServerKeys_eq : maxServerKeys = 4 := rfl

/-- An ID follows another one if it has the next index. -/
theorem isNextId_eq {prev id : BitVec 32} :
    isNextId prev id = true ↔ id.toNat % maxServerKeys = (prev.toNat + 1) % maxServerKeys := by
  have hprev := prev.isLt
  have hid := id.isLt
  rw [isNextId, decide_eq_true_iff, BitVec.toNat_sub, maxServerKeys_eq]
  omega

/-- The IDs of saved keys follow one another. -/
theorem idChain_dumpKeys {server : KeyServer} (h : server.Sound siv) :
    IdChain none (server.dumpKeys.map ServerKey.saved) := by
  have hnext : ∀ i, isNextId (server.serverKeys (server.dumpIndex i)).id
      (server.serverKeys (server.dumpIndex (i + 1))).id = true := by
    intro i
    rw [isNextId_eq, h.index _ (server.dumpIndex_lt _), Nat.add_mod,
      h.index _ (server.dumpIndex_lt _), KeyServer.dumpIndex, KeyServer.dumpIndex,
      maxServerKeys_eq]
    omega
  have hany : ∀ i, ((some (server.serverKeys (server.dumpIndex i)).id).any fun prev =>
      !isNextId prev (server.serverKeys (server.dumpIndex (i + 1))).id) = false := by
    intro i
    rw [Option.any_some, hnext]
    rfl
  exact ⟨rfl, hany 0, hany 1, hany 2, True.intro⟩

/-- **The keys of a server are found in its saved file.** -/
theorem fileKeys_dumpText {server : KeyServer} (h : server.Saved siv) (age : KeyAge) :
    ∃ file, dumpText siv server age = some file ∧
      fileKeys siv file = some (server.dumpKeys.map ServerKey.saved) := by
  have hmem : ∀ key ∈ server.dumpKeys, ∃ i < maxServerKeys, key = server.serverKeys i := by
    intro key hkey
    obtain ⟨i, -, rfl⟩ := List.mem_map.mp hkey
    exact ⟨_, server.dumpIndex_lt i, rfl⟩
  have hready : ∀ key ∈ server.dumpKeys, key.Ready siv := by
    intro key hkey
    obtain ⟨i, hi, rfl⟩ := hmem key hkey
    exact h.sound.ready i hi
  have hpadded : ∀ key ∈ server.dumpKeys, key.Padded siv := by
    intro key hkey
    obtain ⟨i, hi, rfl⟩ := hmem key hkey
    exact h.padded i hi
  obtain ⟨lines, hlines, hread⟩ :=
    readFileKeys_dumpKeys hready hpadded (idChain_dumpKeys h.sound)
  have hread := hread []
  obtain ⟨hword, hsize⟩ := age.isWord_print
  refine ⟨dumpIdentifier ++ (age.print ++ ['\n']) ++ lines.flatten, ?_, ?_⟩
  · have hdump : dumpLines siv server age =
        ((dumpIdentifier ++ (age.print ++ ['\n'])) :: lines).map some := by
      rw [dumpLines, List.map_cons, ← hlines, KeyServer.dumpKeys, List.map_map]
      rfl
    rw [dumpText, hdump, List.mapM_map]
    have hpure : (id ∘ some : List Char → Option (List Char)) = pure := rfl
    rw [hpure, List.mapM_pure, List.map_id']
    rfl
  · have hheader : fgets lineSize (dumpIdentifier ++ (age.print ++ ['\n']) ++ lines.flatten) =
        some (dumpIdentifier, age.print ++ '\n' :: lines.flatten) := by
      have hline : fgets lineSize (['N', 'K', 'S', '1'] ++ '\n' ::
          (age.print ++ '\n' :: lines.flatten)) =
          some (['N', 'K', 'S', '1'] ++ ['\n'], age.print ++ '\n' :: lines.flatten) := by
        have hprintable : ['N', 'K', 'S', '1'].all (' ' ≤ ·) = true := by decide
        exact fgets_line _ (fun c hc => of_decide_eq_true (List.all_eq_true.mp hprintable c hc))
          (by decide)
      simpa [dumpIdentifier] using hline
    rw [fileKeys, hheader]
    dsimp only
    rw [if_neg (fun hne => hne.1 rfl),
      fgets_line _ (fun c hc => Nat.le_of_lt (hword.printable c hc)) hsize]
    dsimp only
    have hversion : decide (dumpIdentifier ≠ dumpIdentifier) = false := decide_eq_false (· rfl)
    rw [hversion, scanHeader_print, Option.bind_eq_bind, Option.bind_some]
    rw [List.append_nil] at hread
    exact hread

/-! ### Any file -/

/-- The index of a key from a file. -/
def savedIndex (key : BitVec 32 × List Byte × SivAlgorithm) : ℕ := key.1.toNat % maxServerKeys

/-- A key from a file which is valid. -/
structure LoadedKey (siv : Siv) (key : BitVec 32 × List Byte × SivAlgorithm) : Prop where
  keyLength : siv.keyLength key.2.2 ≠ 0
  length : key.2.1.length = sivMaxKeyLength
  drop : key.2.1.drop (siv.keyLength key.2.2) =
    List.replicate (sivMaxKeyLength - siv.keyLength key.2.2) 0

theorem loadKey_eq_some {line : KeyLine} {key : BitVec 32 × List Byte × SivAlgorithm}
    (h : loadKey siv line = some key) : LoadedKey siv key := by
  rw [loadKey] at h
  split at h
  · cases h
  next hvalid =>
      rw [not_or, not_not] at hvalid
      obtain ⟨hlength, hkey⟩ := hvalid
      obtain rfl := Option.some.inj h
      have hle := keyLength_le siv (sivAlgorithm line.algorithm)
      refine ⟨hlength, ?_, ?_⟩
      · rw [List.length_append, hkey, List.length_replicate]
        omega
      · rw [List.drop_append_of_le_length hkey.ge, ← hkey, List.drop_length, List.nil_append]

/-- The first loop reads lines with keys. -/
theorem readFileKeys_eq_some {oldVer : Bool} {algorithm : ℤ} {n : ℕ} {prev : Option (BitVec 32)}
    {file : List Char} {keys : List (BitVec 32 × List Byte × SivAlgorithm)}
    (h : readFileKeys siv oldVer algorithm n prev file = some keys) :
    ∃ lines, lines.length = n ∧ readKeys siv prev lines = some keys := by
  induction n generalizing prev file keys with
  | zero => exact ⟨[], rfl, h⟩
  | succ n ih =>
      rw [readFileKeys] at h
      split at h
      · cases h
      next line file hline =>
          obtain ⟨keyLine, -, h⟩ := Option.bind_eq_some_iff.mp h
          obtain ⟨key, hkey, h⟩ := Option.bind_eq_some_iff.mp h
          split at h
          · cases h
          next hnext =>
              obtain ⟨keys', hkeys, h⟩ := Option.bind_eq_some_iff.mp h
              obtain ⟨lines, hlength, hread⟩ := ih hkeys
              refine ⟨keyLine :: lines, congrArg (· + 1) hlength, ?_⟩
              rw [readKeys, hkey, Option.bind_eq_bind, Option.bind_some, if_neg hnext, hread]
              exact h

theorem readKeys_eq_some {prev : Option (BitVec 32)} {lines : List KeyLine}
    {keys : List (BitVec 32 × List Byte × SivAlgorithm)} (h : readKeys siv prev lines = some keys) :
    keys.length = lines.length ∧ IdChain prev keys ∧ ∀ key ∈ keys, LoadedKey siv key := by
  induction lines generalizing prev keys with
  | nil =>
      obtain rfl := Option.some.inj h
      exact ⟨rfl, True.intro, fun key hkey => absurd hkey List.not_mem_nil⟩
  | cons line lines ih =>
      rw [readKeys] at h
      obtain ⟨key, hkey, h⟩ := Option.bind_eq_some_iff.mp h
      split at h
      · cases h
      next hnext =>
          obtain ⟨keys', hkeys, h⟩ := Option.bind_eq_some_iff.mp h
          obtain rfl := Option.some.inj h
          obtain ⟨hlength, hchain, hloaded⟩ := ih hkeys
          refine ⟨congrArg (· + 1) hlength, ⟨Bool.eq_false_iff.mpr hnext, hchain⟩, ?_⟩
          intro k hk
          rcases List.mem_cons.mp hk with rfl | hk
          · exact loadKey_eq_some hkey
          · exact hloaded k hk

/-- The index of each key follows from the first one. -/
theorem IdChain.savedIndex_eq {keys : List (BitVec 32 × List Byte × SivAlgorithm)}
    {prev : Option (BitVec 32)} (h : IdChain prev keys) (start : ℕ)
    (hstart : ∀ key, keys.head? = some key → savedIndex key = start % maxServerKeys) :
    keys.map savedIndex = (List.range keys.length).map fun i => (start + i) % maxServerKeys := by
  induction keys generalizing prev start with
  | nil => rfl
  | cons key keys ih =>
      have hkey := hstart key rfl
      rw [List.map_cons, List.length_cons, List.range_succ_eq_map, List.map_cons, List.map_map,
        hkey, Nat.add_zero, ih h.2 (start + 1)]
      · congr 1
        refine List.map_congr_left fun i _ => ?_
        dsimp only [Function.comp_apply]
        congr 1
        omega
      · intro key' hkey'
        cases keys with
        | nil => cases hkey'
        | cons next keys =>
            obtain rfl := Option.some.inj hkey'
            have hnext : isNextId key.1 next.1 = true := by
              have hany := h.2.1
              rw [Option.any_some] at hany
              simpa using hany
            rw [savedIndex] at hkey ⊢
            rw [isNextId_eq.mp hnext, Nat.add_mod, hkey, ← Nat.add_mod]

/-- The key of a server is one from a file. -/
def ServerKey.Holds (key : ServerKey) (saved : BitVec 32 × List Byte × SivAlgorithm) : Prop :=
  key.saved = saved

/-- The process does not end when a valid key is set. -/
theorem updateKeySiv_isSome (key : ServerKey) {algorithm : SivAlgorithm}
    (h : key.Matches siv) (hlength : siv.keyLength algorithm ≠ 0)
    (hkey : key.key.length = sivMaxKeyLength) :
    ∃ key', updateKeySiv siv key algorithm = some key' := by
  obtain ⟨hmatches, halgorithm, -, hbytes⟩ := withAlgorithm_eq h algorithm
  have hinst : ∃ inst, (key.withAlgorithm siv algorithm).siv = some inst := by
    rw [ServerKey.withAlgorithm]
    split
    · dsimp only
      rw [Siv.createInstance, if_neg hlength]
      exact ⟨_, rfl⟩
    next hsame =>
        rw [not_or] at hsame
        exact Option.ne_none_iff_exists'.mp hsame.1
  obtain ⟨inst, hinst⟩ := hinst
  have hset : ∃ inst', siv.setKey inst ((key.withAlgorithm siv algorithm).key.take
      (siv.keyLength (key.withAlgorithm siv algorithm).sivAlgorithm)) = some inst' := by
    rw [Siv.setKey, if_neg]
    · exact ⟨_, rfl⟩
    · rw [not_not, (hmatches inst hinst).1, halgorithm, hbytes, List.length_take, hkey]
      exact min_eq_left (keyLength_le siv algorithm)
  obtain ⟨inst', hset⟩ := hset
  refine ⟨{ key.withAlgorithm siv algorithm with siv := some inst' }, ?_⟩
  rw [updateKeySiv]
  dsimp only
  rw [hinst]
  dsimp only
  rw [hset]

/-- **The second loop stores each key at its index**, if the indices are different. -/
theorem storeKeys_spec {server : KeyServer} {keys : List (BitVec 32 × List Byte × SivAlgorithm)}
    (hsound : server.Sound siv) (hloaded : ∀ key ∈ keys, LoadedKey siv key)
    (hnodup : (keys.map savedIndex).Nodup) (index : ℕ) :
    ∃ server', storeKeys siv server index keys =
        some (server', ((keys.map savedIndex).getLast?).getD index) ∧
      server'.Sound siv ∧
      (∀ key ∈ keys, (server'.serverKeys (savedIndex key)).Holds key) ∧
      ∀ i ∉ keys.map savedIndex, server'.serverKeys i = server.serverKeys i := by
  induction keys generalizing server index with
  | nil => exact ⟨server, rfl, hsound, fun key hkey => absurd hkey List.not_mem_nil, fun _ _ => rfl⟩
  | cons key keys ih =>
      rw [List.map_cons, List.nodup_cons] at hnodup
      have hkey := hloaded key List.mem_cons_self
      have hlt : savedIndex key < maxServerKeys := mod_maxServerKeys_lt _
      have hmatches := (hsound.ready _ hlt).matches
      obtain ⟨key', hkey'⟩ := updateKeySiv_isSome { server.serverKeys (savedIndex key) with
        id := key.1
        key := key.2.1 } hmatches hkey.keyLength hkey.length
      obtain ⟨hready, hid, hbytes, halgorithm⟩ := updateKeySiv_ready hkey' hmatches
      have hholds : key'.Holds key := by
        rw [ServerKey.Holds, ServerKey.saved, hid, hbytes, halgorithm]
      have hsound' : (server.setKey (savedIndex key) key').Sound siv :=
        hsound.setKey hready (congrArg (·.toNat % maxServerKeys) hid)
      obtain ⟨server', hstore, hsound', hkeys, hothers⟩ :=
        ih hsound' (fun k hk => hloaded k (List.mem_cons_of_mem _ hk)) hnodup.2 (savedIndex key)
      refine ⟨server', ?_, hsound', fun k hk => ?_, fun i hi => ?_⟩
      · rw [storeKeys]
        dsimp only
        rw [savedIndex] at hkey'
        rw [hkey', Option.bind_eq_bind, Option.bind_some]
        rw [savedIndex] at hstore
        rw [hstore, List.map_cons, List.getLast?_cons]
        rfl
      · rcases List.mem_cons.mp hk with rfl | hk
        · rw [hothers _ hnodup.1, serverKeys_setKey_self]
          exact hholds
        · exact hkeys k hk
      · rw [List.map_cons, List.mem_cons, not_or] at hi
        rw [hothers i hi.2, serverKeys_setKey_of_ne _ hi.1]

/-- **What is loaded from a file**: each index has the key with this index in its ID, and there
is only one such key in the file. -/
structure KeyServer.Loaded (keys : List (BitVec 32 × List Byte × SivAlgorithm))
    (server : KeyServer) : Prop where
  length : keys.length = maxServerKeys
  replaced : ∀ i < maxServerKeys, ∃ key ∈ keys, savedIndex key = i ∧
    (server.serverKeys i).Holds key ∧ ∀ key' ∈ keys, savedIndex key' = i → key' = key
  current : ∀ key, keys.getLast? = some key →
    server.currentServerKey = (savedIndex key + maxServerKeys - futureKeys) % maxServerKeys

/-- The indices of keys from a file. -/
theorem fileKeys_eq_some {file : List Char}
    {keys : List (BitVec 32 × List Byte × SivAlgorithm)} (h : fileKeys siv file = some keys) :
    (∃ lines, lines.length = maxServerKeys ∧ readKeys siv none lines = some keys) ∧
      keys.length = maxServerKeys ∧ (∀ key ∈ keys, LoadedKey siv key) ∧
      ∃ start, keys.map savedIndex =
        (List.range maxServerKeys).map fun i => (start + i) % maxServerKeys := by
  have hread : ∃ oldVer algorithm file',
      readFileKeys siv oldVer algorithm maxServerKeys none file' = some keys := by
    rw [fileKeys] at h
    split at h
    · cases h
    · split at h
      · cases h
      · dsimp only at h
        split at h
        · cases h
        · obtain ⟨algorithm, -, h⟩ := Option.bind_eq_some_iff.mp h
          exact ⟨_, _, _, h⟩
  obtain ⟨oldVer, algorithm, file', hread⟩ := hread
  obtain ⟨lines, hlines, hread⟩ := readFileKeys_eq_some hread
  obtain ⟨hlength, hchain, hloaded⟩ := readKeys_eq_some hread
  rw [hlines] at hlength
  refine ⟨⟨lines, hlines, hread⟩, hlength, hloaded, ?_⟩
  have hindices := hchain.savedIndex_eq ((keys.head?.map savedIndex).getD 0) fun key hkey => by
    rw [hkey, Option.map_some, Option.getD_some, savedIndex, Nat.mod_mod]
  rw [hlength] at hindices
  exact ⟨_, hindices⟩

/-- The indices of keys which follow one another are all different. -/
theorem nodup_range_mod (start : ℕ) :
    ((List.range maxServerKeys).map fun i => (start + i) % maxServerKeys).Nodup := by
  refine List.Nodup.map_on (fun i hi j hj heq => ?_) List.nodup_range
  rw [List.mem_range, maxServerKeys_eq] at hi hj
  rw [maxServerKeys_eq] at heq
  omega

theorem mem_range_mod (start : ℕ) {i : ℕ} (hi : i < maxServerKeys) :
    i ∈ (List.range maxServerKeys).map fun i => (start + i) % maxServerKeys := by
  rw [maxServerKeys_eq] at *
  refine List.mem_map.mpr ⟨(i + 4 - start % 4) % 4, List.mem_range.mpr (by omega), ?_⟩
  omega

/-- **All keys are loaded from a file, or none of them.** The process does not end. -/
theorem loadKeysFile_cases {server : KeyServer} (hsound : server.Sound siv)
    (file : Option (List Char)) :
    (file.bind (fileKeys siv) = none ∧ loadKeysFile siv server file = some (false, server)) ∨
      ∃ keys server', file.bind (fileKeys siv) = some keys ∧
        loadKeysFile siv server file = some (true, server') ∧ server'.Sound siv ∧
        server'.Loaded keys ∧ ∀ key ∈ keys, LoadedKey siv key := by
  rw [loadKeysFile]
  cases hkeys : file.bind (fileKeys siv) with
  | none => exact .inl ⟨rfl, rfl⟩
  | some keys =>
      obtain ⟨file', -, hfile⟩ := Option.bind_eq_some_iff.mp hkeys
      obtain ⟨-, hlength, hloaded, start, hindices⟩ := fileKeys_eq_some hfile
      have hnodup : (keys.map savedIndex).Nodup := hindices ▸ nodup_range_mod start
      obtain ⟨server', hstore, hsound', hholds, -⟩ := storeKeys_spec hsound hloaded hnodup 0
      refine .inr ⟨keys, { server' with
        currentServerKey := (((keys.map savedIndex).getLast?).getD 0 + maxServerKeys - futureKeys) %
          maxServerKeys }, rfl, ?_, ?_, ⟨hlength, fun i hi => ?_, fun key hkey => ?_⟩, hloaded⟩
      · dsimp only
        rw [hstore]
        rfl
      · exact ⟨mod_maxServerKeys_lt _, hsound'.ready, hsound'.index⟩
      · have hmem : i ∈ keys.map savedIndex := hindices ▸ mem_range_mod start hi
        obtain ⟨key, hkey, rfl⟩ := List.mem_map.mp hmem
        refine ⟨key, hkey, rfl, hholds key hkey, fun key' hkey' heq => ?_⟩
        exact List.inj_on_of_nodup_map hnodup hkey' hkey heq
      · rw [List.getLast?_map, hkey]
        rfl

/-! ### Runs -/

/-- The changes of the keys of a process. Files are given by their contents. -/
inductive KeyFileStep
  /-- `key_timeout`, before the keys are saved. -/
  | rotate (random : KeyRandom)
  /-- `load_keys`. -/
  | load (file : Option (List Char))

/-- One change. -/
def KeyServer.fileStep (siv : Siv) (server : KeyServer) : KeyFileStep → Option KeyServer
  | .rotate random => keyTimeout siv server random
  | .load file => (loadKeysFile siv server file).map Prod.snd

/-- Several changes. -/
def KeyServer.fileRun (siv : Siv) (server : KeyServer) (steps : List KeyFileStep) :
    Option KeyServer :=
  steps.foldlM (KeyServer.fileStep siv) server

/-- **The text of a file makes no difference** to what is loaded from its lines. -/
theorem KeyServer.fileStep_refines {server server' : KeyServer} {step : KeyFileStep}
    (h : server.fileStep siv step = some server') :
    ∃ step', server.step siv step' = some server' := by
  cases step with
  | rotate random => exact ⟨.rotate random, h⟩
  | load file =>
      rw [KeyServer.fileStep, loadKeysFile] at h
      split at h
      · obtain rfl := Option.some.inj h
        exact ⟨.load [], rfl⟩
      next keys hkeys =>
          obtain ⟨file', -, hfile⟩ := Option.bind_eq_some_iff.mp hkeys
          obtain ⟨⟨lines, hlines, hread⟩, hlength, -⟩ := fileKeys_eq_some hfile
          refine ⟨.load lines, ?_⟩
          rw [KeyServer.step, loadKeys, List.take_of_length_le hlines.le, hread]
          dsimp only
          rw [if_neg hlength.ge.not_gt]
          obtain ⟨r, hr, rfl⟩ := Option.map_eq_some_iff.mp h
          obtain ⟨stored, hstored, hr⟩ := Option.bind_eq_some_iff.mp hr
          rw [hstored]
          obtain rfl := Option.some.inj hr
          rfl

theorem generateKey_padded {server server' : KeyServer} {index : ℕ} {random : KeyRandom}
    (h : generateKey siv server index random = some server')
    (hmatches : (server.serverKeys index).Matches siv) :
    (server'.serverKeys index).Padded siv ∧
      ∀ i ≠ index, server'.serverKeys i = server.serverKeys i := by
  obtain ⟨key, hkey, h⟩ := Option.bind_eq_some_iff.mp h
  obtain rfl := Option.some.inj h
  obtain ⟨-, -, hbytes, halgorithm⟩ := updateKeySiv_ready hkey hmatches
  have hle := keyLength_le siv (newKeyAlgorithm siv)
  refine ⟨?_, fun i hi => serverKeys_setKey_of_ne _ hi _⟩
  rw [serverKeys_setKey_self, ServerKey.Padded, hbytes, halgorithm]
  refine ⟨?_, ?_⟩
  · rw [List.length_append, List.length_map, List.length_range, List.length_replicate]
    omega
  · refine (List.drop_left' ?_)
    rw [List.length_map, List.length_range]

theorem generateKeys_padded {random : ℕ → KeyRandom} {n : ℕ} (hn : n ≤ maxServerKeys)
    {server : KeyServer}
    (h : generateKeys siv random n ⟨fun _ => emptyKey, 0⟩ = some server) :
    ∀ i < n, (server.serverKeys i).Padded siv := by
  induction n generalizing server with
  | zero => exact fun i hi => absurd hi (Nat.not_lt_zero i)
  | succ n ih =>
      obtain ⟨server₁, h₁, h⟩ := Option.bind_eq_some_iff.mp h
      have hmatches : (server₁.serverKeys n).Matches siv := by
        rw [(generateKeys_eq (Nat.le_of_succ_le hn) h₁).2 n (Nat.le_refl n)]
        nofun
      obtain ⟨hpadded, hothers⟩ := generateKey_padded h hmatches
      intro i hi
      by_cases heq : i = n
      · exact heq ▸ hpadded
      · rw [hothers i heq]
        exact ih (Nat.le_of_succ_le hn) h₁ i (by omega)

theorem initialiseKeys_saved {random : ℕ → KeyRandom} {server : KeyServer}
    (h : initialiseKeys siv random = some server) : server.Saved siv := by
  refine ⟨initialiseKeys_sound h, ?_⟩
  obtain ⟨server₁, h₁, h⟩ := Option.bind_eq_some_iff.mp h
  obtain rfl := Option.some.inj h
  have hpadded := generateKeys_padded (Nat.le_refl _) h₁
  exact hpadded

/-- **Each change keeps the keys such that they can be saved.** -/
theorem KeyServer.fileStep_saved {server server' : KeyServer} {step : KeyFileStep}
    (hsaved : server.Saved siv) (h : server.fileStep siv step = some server') :
    server'.Saved siv := by
  cases step with
  | rotate random =>
      obtain ⟨hsound, -, hothers⟩ := keyTimeout_eq hsaved.sound h
      refine ⟨hsound, fun i hi => ?_⟩
      by_cases heq : i = (server.currentServerKey + 1 + futureKeys) % maxServerKeys
      · have hready := hsaved.sound.ready _ (mod_maxServerKeys_lt
          ((server.currentServerKey + 1) % maxServerKeys + futureKeys))
        have h : generateKey siv { server with
            currentServerKey := (server.currentServerKey + 1) % maxServerKeys }
            (((server.currentServerKey + 1) % maxServerKeys + futureKeys) % maxServerKeys) random =
              some server' := h
        obtain ⟨hpadded, -⟩ := generateKey_padded h hready.matches
        rw [Nat.mod_add_mod] at hpadded
        exact heq ▸ hpadded
      · rw [hothers i heq]
        exact hsaved.padded i hi
  | load file =>
      rw [KeyServer.fileStep] at h
      rcases loadKeysFile_cases hsaved.sound file with
        ⟨-, hload⟩ | ⟨keys, server₁, -, hload, hsound, hkeys, hloaded⟩
      · rw [hload] at h
        exact Option.some.inj h ▸ hsaved
      · rw [hload] at h
        obtain rfl : server₁ = server' := Option.some.inj h
        refine ⟨hsound, fun i hi => ?_⟩
        obtain ⟨key, hkey, -, hholds, -⟩ := hkeys.replaced i hi
        have hvalid := hloaded key hkey
        rw [← hholds] at hvalid
        exact ⟨hvalid.length, hvalid.drop⟩

theorem KeyServer.fileRun_saved {server server' : KeyServer} {steps : List KeyFileStep}
    (hsaved : server.Saved siv) (h : server.fileRun siv steps = some server') :
    server'.Saved siv := by
  induction steps generalizing server with
  | nil =>
      obtain rfl := Option.some.inj h
      exact hsaved
  | cons step steps ih =>
      obtain ⟨server₁, hstep, h⟩ := Option.bind_eq_some_iff.mp h
      exact ih (KeyServer.fileStep_saved hsaved hstep) h

/-- The functions of the system do not fail. -/
def SaveIo.NoErrors (io : SaveIo) : Prop :=
  io.opening = .opened ∧ (∀ n, io.prints n = true) ∧ io.stored = none ∧ io.renames = true

/-- All lines are printed, if each of them can be printed. -/
theorem printLines_eq {prints : ℕ → Bool} {lines : List (Option (List Char))} {text : List Char}
    {n : ℕ} (hlines : (lines.mapM id).map List.flatten = some text)
    (hprints : ∀ i < lines.length, prints (n + i) = true) :
    printLines prints n lines = (text, true) := by
  induction lines generalizing n text with
  | nil =>
      obtain rfl := Option.some.inj hlines
      rfl
  | cons line lines ih =>
      obtain ⟨all, hall, rfl⟩ := Option.map_eq_some_iff.mp hlines
      rw [List.mapM_cons] at hall
      cases line with
      | none => cases hall
      | some line =>
          obtain ⟨line', hline', hall⟩ := Option.bind_eq_some_iff.mp hall
          obtain ⟨rest, hrest, hall⟩ := Option.bind_eq_some_iff.mp hall
          obtain rfl := Option.some.inj hline'
          obtain rfl := Option.some.inj hall
          have hfirst : prints n = true := hprints 0 (Nat.succ_pos _)
          have hflatten : ((lines.mapM id).map List.flatten) = some rest.flatten := by
            rw [hrest]
            rfl
          rw [printLines, if_pos hfirst, ih hflatten fun i hi => ?_, List.flatten_cons]
          rw [Nat.add_assoc, Nat.add_comm 1 i]
          exact hprints (i + 1) (Nat.succ_lt_succ hi)

/-- The new file, when nothing fails. -/
theorem saveKeys_noErrors {server : KeyServer} {age : KeyAge} {text : List Char} {io : SaveIo}
    {rotationInterval : ℕ} (htext : dumpText siv server age = some text) (hio : io.NoErrors)
    (hrotation : 0 < rotationInterval) (dir : DumpDir) :
    saveKeys siv rotationInterval server age io dir = ⟨some text, none⟩ := by
  obtain ⟨hopening, hprints, hstored, hrenames⟩ := hio
  rw [saveKeys, if_neg hrotation.ne', hopening]
  dsimp only
  rw [printLines_eq htext fun i _ => hprints _]
  dsimp only
  rw [if_pos hrenames, SaveIo.store, hstored]

theorem ServerKey.Holds.eq {key key' : ServerKey} (h : key.Ready siv) (h' : key'.Ready siv)
    (hholds : key.Holds key'.saved) : key = key' := by
  obtain ⟨hid, hrest⟩ := Prod.mk.inj hholds
  obtain ⟨hkey, halgorithm⟩ := Prod.mk.inj hrest
  exact h.ext h' hid hkey halgorithm

/-- **The keys are restored from the saved file.** -/
theorem loadKeysFile_dumpText {server fresh : KeyServer} (h : server.Saved siv)
    (hfresh : fresh.Sound siv) {age : KeyAge} {text : List Char}
    (htext : dumpText siv server age = some text) :
    ∃ loaded, loadKeysFile siv fresh (some text) = some (true, loaded) ∧
      loaded.currentServerKey = server.currentServerKey ∧
      ∀ i < maxServerKeys, loaded.serverKeys i = server.serverKeys i := by
  obtain ⟨text', htext', hkeys⟩ := fileKeys_dumpText h age
  obtain rfl := Option.some.inj (htext.symm.trans htext')
  rcases loadKeysFile_cases hfresh (some text) with
    ⟨hnone, -⟩ | ⟨keys, loaded, hsome, hload, hsound, hloaded, -⟩
  · rw [Option.bind_some, hkeys] at hnone
    cases hnone
  · rw [Option.bind_some, hkeys] at hsome
    obtain rfl := Option.some.inj hsome
    refine ⟨loaded, hload, ?_, fun i hi => ?_⟩
    · have hcurrent := hloaded.current (server.serverKeys (server.dumpIndex 3)).saved rfl
      have hlt := h.sound.current
      have hindex := h.sound.index _ (server.dumpIndex_lt 3)
      rw [hcurrent, savedIndex, ServerKey.saved]
      dsimp only
      rw [hindex, KeyServer.dumpIndex, futureKeys, maxServerKeys_eq] at *
      omega
    · obtain ⟨key, hkey, hindex, hholds, -⟩ := hloaded.replaced i hi
      obtain ⟨key', hkey', rfl⟩ := List.mem_map.mp hkey
      obtain ⟨j, -, rfl⟩ := List.mem_map.mp hkey'
      have hj := h.sound.index _ (server.dumpIndex_lt j)
      have hij : server.dumpIndex j = i := hj.symm.trans hindex
      rw [hij] at hholds
      exact ServerKey.Holds.eq (hsound.ready i hi) (h.sound.ready i hi) hholds

/-- A cookie is decoded with the keys only. -/
theorem decodeCookie_congr {server server' : KeyServer}
    (h : ∀ i < maxServerKeys, server'.serverKeys i = server.serverKeys i) (cookie : List Byte) :
    decodeCookie siv server' cookie = decodeCookie siv server cookie := by
  rw [decodeCookie, decodeCookie]
  dsimp only
  rw [h _ (mod_maxServerKeys_lt _)]

/-- **The keys survive a restart of the server**: those of any reachable state are restored from
the file which was saved, and so the same cookies are decoded. From any other file, all keys
are replaced, each by the key with the same index in its ID, or nothing is changed. -/
theorem run_dump {random : ℕ → KeyRandom} {steps : List KeyFileStep} {initial server : KeyServer}
    (hinitial : initialiseKeys siv random = some initial)
    (hrun : initial.fileRun siv steps = some server) :
    (∀ rotationInterval age io dir random' fresh, 0 < rotationInterval → io.NoErrors →
      initialiseKeys siv random' = some fresh →
      ∃ loaded, loadKeysFile siv fresh
          (saveKeys siv rotationInterval server age io dir).dump = some (true, loaded) ∧
        loaded.currentServerKey = server.currentServerKey ∧
        (∀ i < maxServerKeys, loaded.serverKeys i = server.serverKeys i) ∧
        ∀ cookie, decodeCookie siv loaded cookie = decodeCookie siv server cookie) ∧
    ∀ file, loadKeysFile siv server file = some (false, server) ∨
      ∃ keys server', file.bind (fileKeys siv) = some keys ∧
        loadKeysFile siv server file = some (true, server') ∧ server'.Loaded keys := by
  have hsaved := KeyServer.fileRun_saved (initialiseKeys_saved hinitial) hrun
  constructor
  · intro rotationInterval age io dir random' fresh hrotation hio hfresh
    obtain ⟨text, htext, -⟩ := fileKeys_dumpText hsaved age
    obtain ⟨loaded, hload, hcurrent, hkeys⟩ :=
      loadKeysFile_dumpText hsaved (initialiseKeys_sound hfresh) htext
    rw [saveKeys_noErrors htext hio hrotation]
    exact ⟨loaded, hload, hcurrent, hkeys, decodeCookie_congr hkeys⟩
  · intro file
    rcases loadKeysFile_cases hsaved.sound file with
      ⟨-, hload⟩ | ⟨keys, server', hkeys, hload, -, hloaded, -⟩
    · exact .inl hload
    · exact .inr ⟨keys, server', hkeys, hload, hloaded⟩

/-- The random data of a key with zeros in its ID. -/
def sampleKeyRandom (i : ℕ) : KeyRandom := ⟨fun j => BitVec.ofNat 8 (i + j), 0⟩

/-- The results of the functions of the system, when nothing fails. -/
def sampleSaveIo : SaveIo := ⟨.opened, fun _ => true, none, true, true⟩

/-- The keys are saved after a rotation, when the first one is the current one again, and they
are loaded by a new process. -/
theorem run_dump_rotated : ∃ initial server fresh loaded,
    initialiseKeys sampleSiv sampleKeyRandom = some initial ∧
    initial.fileRun sampleSiv [.rotate (sampleKeyRandom 9)] = some server ∧
    initialiseKeys sampleSiv (fun i => sampleKeyRandom (i + 5)) = some fresh ∧
    loadKeysFile sampleSiv fresh
      (saveKeys sampleSiv 100 server .infinite sampleSaveIo ⟨none, none⟩).dump =
        some (true, loaded) ∧
    loaded.currentServerKey = server.currentServerKey ∧
    ∀ i < maxServerKeys, loaded.serverKeys i = server.serverKeys i := by
  obtain ⟨server, hserver⟩ := Option.isSome_iff_exists.mp
    (show ((initialiseKeys sampleSiv sampleKeyRandom).bind fun initial =>
      initial.fileRun sampleSiv [.rotate (sampleKeyRandom 9)]).isSome = true by decide +kernel)
  obtain ⟨initial, hinitial, hrun⟩ := Option.bind_eq_some_iff.mp hserver
  obtain ⟨fresh, hfresh⟩ := initialiseKeys_succeeds
    (show sampleSiv.keyLength (newKeyAlgorithm sampleSiv) ≠ 0 by decide)
    fun i => sampleKeyRandom (i + 5)
  have hio : sampleSaveIo.NoErrors := ⟨rfl, fun _ => rfl, rfl, rfl⟩
  obtain ⟨loaded, hload, hcurrent, hkeys, -⟩ :=
    (run_dump hinitial hrun).1 100 .infinite sampleSaveIo ⟨none, none⟩ _ fresh
    (by decide) hio hfresh
  exact ⟨initial, server, fresh, loaded, hinitial, hrun, hfresh, hload, hcurrent, hkeys⟩

end Chrony.Nts
