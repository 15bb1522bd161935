import Chrony.Nts.ClientRuns
import Mathlib.Algebra.Order.Floor.Div
import Mathlib.Data.List.Perm.Subperm
import Mathlib.Data.Rat.Floor

/-!
# Dump Files of the NTS Client

The keys and the cookies of a client are saved in a file when the client is stopped, and they are
loaded when it is started again. The functions are from `nts_ntp_client.c`, with a directory for
the files. A file is found by the address of the NTS-KE server. It is assumed that numbers and
addresses are read as they were written.

`save_cookies` writes the first slots of the ring buffer, whatever is in them. These are the unused
cookies only if the ring buffer starts at the first slot.

## Main results

* `loadCookies_saveCookies`: what is restored by `load_cookies`.
-/

namespace Chrony.Nts

open Lib Bytes

/-- The size of the buffers for lines. -/
def dumpLineSize : ℕ := 2 * nkeMaxCookieLength + 2

/-- A dump file. The keys and the cookies are hexadecimal strings. -/
structure CookieDump where
  name : List Char
  contextTime : ℚ
  ntpAddress : RemoteAddress
  contextId : BitVec 32
  algorithm : SivAlgorithm
  s2c : List Char
  c2s : List Char
  cookies : List (List Char)

/-- The dump files with the addresses in their names. -/
abbrev Dumps := List (IPAddr × CookieDump)

/-- A file is removed. -/
def Dumps.remove (dumps : Dumps) (address : IPAddr) : Dumps :=
  dumps.filter fun file => file.1 ≠ address

/-- The file with an address. -/
def Dumps.find (dumps : Dumps) (address : IPAddr) : Option CookieDump :=
  (List.find? (fun file => file.1 = address) dumps).map Prod.snd

/-- A number in the format `%.1f`. -/
def roundTenths (x : ℚ) : ℚ :=
  let n := ⌊10 * x⌋
  let rest := 10 * x - n
  (if rest < 1 / 2 ∨ (rest = 1 / 2 ∧ n % 2 = 0) then (n : ℚ) else n + 1) / 10

/-- The real time and the monotonic time of the last event. -/
structure EventTime where
  now : ℚ
  mono : ℚ

/-- The contents of a new file. There are none if something does not fit in a line. -/
def formatDump (inst : NncInstance) (time : EventTime) : Option CookieDump := do
  let s2c ← bytesToHex inst.context.s2c dumpLineSize
  let c2s ← bytesToHex inst.context.c2s dumpLineSize
  let cookies ← (List.range inst.numCookies).mapM fun i =>
    bytesToHex (inst.cookies i) dumpLineSize
  some {
    name := inst.name
    contextTime := roundTenths (inst.lastNkeSuccess - time.mono + time.now)
    ntpAddress := inst.ntpAddress
    contextId := inst.contextId
    algorithm := inst.context.algorithm
    s2c
    c2s
    cookies }

/-- `save_cookies`. -/
def saveCookies (inst : NncInstance) (dumps : Dumps) (time : EventTime) : Dumps :=
  let address := inst.ntsAddress.ipAddr
  if inst.numCookies < 1 ∨ !address.isReal then dumps
  else
    match formatDump inst time with
    | none => dumps.remove address
    | some dump => (address, dump) :: dumps.remove address

/-- Whether a line is read and it has exactly one word. -/
def isWordLine (line : List Char) : Bool :=
  line.length + 2 ≤ dumpLineSize ∧ line ≠ [] ∧ line.all fun c => !isSpace c

/-- The loop of `load_cookies`. It returns the cookies which were read, and whether they were
valid. -/
def readCookies : List (List Char) → List (List Byte) × Bool
  | [] => ([], true)
  | line :: lines =>
      if !isWordLine line then ([], false)
      else
        let cookie := hexToBytes line nkeMaxCookieLength
        if cookie.length = 0 then ([cookie], false)
        else
          let r := readCookies lines
          (cookie :: r.1, r.2)

/-- What `load_cookies` gets from other parts of the program. -/
structure LoadInput where
  time : EventTime
  /-- Whether `NSR_UpdateSourceNtpAddress` is successful. -/
  updated : Bool

/-- The end of `load_cookies` after an error. -/
def NncInstance.notLoaded (inst : NncInstance) : NncInstance :=
  { inst with context := invalidContext, altContext := invalidContext, numCookies := 0 }

/-- The last part of `load_cookies`, from the loop. -/
def loadLines (inst : NncInstance) (dump : CookieDump) (input : LoadInput) : NncInstance :=
  let r := readCookies (dump.cookies.take ntsMaxCookies)
  let inst := { inst with cookies := copyCookies inst.cookies r.1 }
  if !r.2 then inst.notLoaded
  else
    let inst := { inst with numCookies := r.1.length }
    let set := setNtpAddress inst dump.ntpAddress input.updated
    if !set.2 then set.1.notLoaded
    else
      { set.1 with
        lastNkeSuccess := min (dump.contextTime - input.time.now) 0 + input.time.mono
        contextId := dump.contextId }

/-- The part of `load_cookies` which reads a file. -/
def loadDump (siv : Siv) (inst : NncInstance) (dump : CookieDump) (input : LoadInput) :
    NncInstance :=
  let inst := { inst with siv := none }
  if !isWordLine dump.name ∨ dump.name ≠ inst.name ∨ !dump.ntpAddress.ipAddr.isReal then
    inst.notLoaded
  else
    let s2c := hexToBytes dump.s2c sivMaxKeyLength
    let c2s := hexToBytes dump.c2s sivMaxKeyLength
    let inst := { inst with
      altContext := { inst.altContext with algorithm := .invalid }
      context := ⟨dump.algorithm, c2s, s2c⟩ }
    if s2c.length ≠ siv.keyLength dump.algorithm ∨ s2c.length = 0 ∨ c2s.length ≠ s2c.length then
      inst.notLoaded
    else loadLines inst dump input

/-- `load_cookies`. The file is not loaded again. -/
def loadCookies (siv : Siv) (inst : NncInstance) (dumps : Dumps) (input : LoadInput) :
    NncInstance × Dumps :=
  match dumps.find inst.ntsAddress.ipAddr with
  | none => (inst, dumps)
  | some dump => (loadDump siv inst dump input, dumps.remove inst.ntsAddress.ipAddr)

/-- `NNC_CreateInstance`. -/
def createInstance (siv : Siv) (ntsAddress : RemoteAddress) (name : List Char)
    (ntpPort : BitVec 16) (dumps : Dumps) (input : LoadInput) : NncInstance × Dumps :=
  loadCookies siv (.create ntsAddress name ntpPort) dumps input

/-- `NNC_ChangeAddress`. -/
def changeAddress (siv : Siv) (inst : NncInstance) (address : IPAddr) (dumps : Dumps)
    (time : EventTime) (input : LoadInput) : NncInstance × Dumps :=
  let dumps := saveCookies inst dumps time
  let inst := { inst with
    ntsAddress := { inst.ntsAddress with ipAddr := address }
    ntpAddress := { inst.ntpAddress with ipAddr := address } }
  loadCookies siv inst.reset dumps input

/-! ### Lines of a file -/

variable {siv : Siv} {inst : NncInstance}

theorem isSpace_hexDigit : ∀ n < 16, isSpace (hexDigit n) = false := by decide

/-- **A cookie is written in a line with a single word.** -/
theorem exists_cookieLine {bytes : List Byte} (hpos : 1 ≤ bytes.length)
    (hle : bytes.length ≤ nkeMaxCookieLength) : ∃ line,
    bytesToHex bytes dumpLineSize = some line ∧ isWordLine line = true := by
  have hsize : dumpLineSize = 2 * nkeMaxCookieLength + 2 := rfl
  rw [bytesToHex, if_neg (by omega)]
  refine ⟨_, rfl, ?_⟩
  have hlength : (bytes.flatMap fun b =>
      [hexDigit (b.toNat / 16), hexDigit (b.toNat % 16)]).length = 2 * bytes.length := by
    simp [List.length_flatMap, Nat.mul_comm]
  rw [isWordLine, decide_eq_true_eq, hlength, List.all_eq_true]
  refine ⟨by omega, ?_, ?_⟩
  · intro hnil
    rw [hnil, List.length_nil] at hlength
    omega
  · intro c hc
    obtain ⟨b, -, hc⟩ := List.mem_flatMap.mp hc
    have hb := b.isLt
    simp only [List.mem_cons, List.not_mem_nil, or_false] at hc
    rcases hc with rfl | rfl
    · rw [isSpace_hexDigit _ (by omega)]
      rfl
    · rw [isSpace_hexDigit _ (by omega)]
      rfl

/-- The cookies in a file. -/
def CookieDump.stored (dump : CookieDump) : List (List Byte) :=
  dump.cookies.map fun line => hexToBytes line nkeMaxCookieLength

/-- Cookies which were read are those in the lines. -/
theorem readCookies_eq {lines : List (List Char)} (h : (readCookies lines).2 = true) :
    (readCookies lines).1 = lines.map fun line => hexToBytes line nkeMaxCookieLength := by
  induction lines with
  | nil => rfl
  | cons line lines ih =>
      rw [readCookies] at h ⊢
      split at h
      · cases h
      next hword =>
          rw [if_neg hword]
          dsimp only at h ⊢
          split at h
          · cases h
          next hempty =>
              rw [if_neg hempty]
              exact congrArg (_ :: ·) (ih h)

/-- **Cookies are read as they were written.** -/
theorem readCookies_written {l : List (List Byte)} (h : ∀ cookie ∈ l, IsCookie cookie) :
    ∃ lines, l.mapM (fun cookie => bytesToHex cookie dumpLineSize) = some lines ∧
      readCookies lines = (l, true) := by
  induction l with
  | nil => exact ⟨[], rfl, rfl⟩
  | cons cookie l ih =>
      obtain ⟨⟨hpos, hle, -⟩, hl⟩ := List.forall_mem_cons.mp h
      obtain ⟨line, hline, hword⟩ := exists_cookieLine hpos hle
      obtain ⟨lines, hlines, hread⟩ := ih hl
      refine ⟨line :: lines, ?_, ?_⟩
      · rw [List.mapM_cons, hline, hlines]
        rfl
      · rw [readCookies, if_neg (by rw [hword]; decide), hexToBytes_bytesToHex hline hle]
        dsimp only
        rw [if_neg (by omega), hread]

/-! ### Saving -/

/-- **The first slots of the ring buffer have the unused cookies.** -/
def NncInstance.InPlace (inst : NncInstance) : Prop :=
  (List.range inst.numCookies).map inst.cookies = inst.unused

instance (inst : NncInstance) : Decidable inst.InPlace := inferInstanceAs (Decidable (_ = _))

/-- **What is written in a file**: the unused cookies and the context, if the cookies are in the
first slots. -/
theorem formatDump_inPlace (h : inst.Valid siv) (hpos : 0 < inst.numCookies)
    (hplace : inst.InPlace) (time : EventTime) : ∃ dump, formatDump inst time = some dump ∧
      dump.name = inst.name ∧ dump.ntpAddress = inst.ntpAddress ∧
      dump.contextId = inst.contextId ∧ dump.algorithm = inst.context.algorithm ∧
      hexToBytes dump.s2c sivMaxKeyLength = inst.context.s2c ∧
      hexToBytes dump.c2s sivMaxKeyLength = inst.context.c2s ∧
      readCookies dump.cookies = (inst.unused, true) ∧ dump.stored = inst.unused := by
  have hkeys := h.context hpos
  have hkeyLength := keyLength_le siv inst.context.algorithm
  have hkey : ∀ key : List Byte, key.length = siv.keyLength inst.context.algorithm →
      ∃ line, bytesToHex key dumpLineSize = some line ∧ hexToBytes line sivMaxKeyLength = key := by
    intro key hlength
    have hmax : sivMaxKeyLength ≤ nkeMaxCookieLength := by decide
    have hpos' : 1 ≤ key.length := by
      rw [hlength]
      exact Nat.pos_of_ne_zero hkeys.pos
    obtain ⟨line, hline, -⟩ := exists_cookieLine hpos' (by omega)
    exact ⟨line, hline, hexToBytes_bytesToHex hline (by omega)⟩
  obtain ⟨s2c, hs2c, hs2c'⟩ := hkey _ hkeys.s2c
  obtain ⟨c2s, hc2s, hc2s'⟩ := hkey _ hkeys.c2s
  obtain ⟨lines, hlines, hread⟩ := readCookies_written h.cookies
  have hslots : (List.range inst.numCookies).mapM (fun i =>
      bytesToHex (inst.cookies i) dumpLineSize) = some lines := by
    rw [← hlines, ← hplace, List.mapM_map]
    rfl
  refine ⟨⟨inst.name, roundTenths (inst.lastNkeSuccess - time.mono + time.now), inst.ntpAddress,
    inst.contextId, inst.context.algorithm, s2c, c2s, lines⟩, ?_, rfl, rfl, rfl, rfl, hs2c', hc2s',
    hread, ?_⟩
  · rw [formatDump, hs2c, hc2s, hslots]
    rfl
  · have heq : (readCookies lines).1 = _ := readCookies_eq (by rw [hread])
    rw [hread] at heq
    exact heq.symm

/-! ### Loading -/

/-- An instance to which cookies can be loaded. -/
structure NncInstance.IsReset (inst : NncInstance) : Prop where
  numCookies : inst.numCookies = 0
  cookieIndex : inst.cookieIndex = 0
  altContext : inst.altContext.algorithm = .invalid
  siv : inst.siv = none
  ntpAddress : inst.ntsAddress.ipAddr.isReal = true → inst.ntpAddress.ipAddr.isReal = true

theorem NncInstance.IsReset.valid (siv : Siv) (h : inst.IsReset) : inst.Valid siv where
  numCookies := by
    rw [h.numCookies]
    exact Nat.zero_le _
  cookieIndex := by
    rw [h.cookieIndex]
    decide
  cookies := by
    rw [NncInstance.unused, h.numCookies]
    exact fun _ hc => absurd hc List.not_mem_nil
  sivKeys := by
    rw [h.siv]
    exact fun s hs => absurd hs.symm (Option.some_ne_none s)
  context hpos := by
    rw [h.numCookies] at hpos
    cases hpos
  altContext := .inl h.altContext
  ntpAddress := h.ntpAddress

/-- **What is loaded from a file**: all cookies in it, or none. -/
structure Loads (siv : Siv) (inst inst' : NncInstance) (dump : CookieDump) : Prop where
  unused : inst'.unused = [] ∨ inst'.unused = dump.stored.take ntsMaxCookies
  valid : inst'.Valid siv
  ntsAddress : inst'.ntsAddress = inst.ntsAddress

theorem notLoaded_loads {inst' : NncInstance} (dump : CookieDump) (hindex : inst'.cookieIndex = 0)
    (hsiv : inst'.siv = none) (hnts : inst'.ntsAddress = inst.ntsAddress)
    (hreal : inst'.ntsAddress.ipAddr.isReal = true → inst'.ntpAddress.ipAddr.isReal = true) :
    Loads siv inst inst'.notLoaded dump where
  unused := .inl rfl
  valid := (show inst'.notLoaded.IsReset from ⟨rfl, hindex, rfl, hsiv, hreal⟩).valid siv
  ntsAddress := hnts

theorem stored_take (dump : CookieDump) (n : ℕ) : dump.stored.take n =
    (dump.cookies.take n).map fun line => hexToBytes line nkeMaxCookieLength := by
  rw [CookieDump.stored, List.map_take]

/-- The cookies are stored from the first slot. -/
theorem loadLines_loads {inst' : NncInstance} {dump : CookieDump} (hindex : inst'.cookieIndex = 0)
    (hsiv : inst'.siv = none) (hnts : inst'.ntsAddress = inst.ntsAddress)
    (hreal : inst'.ntsAddress.ipAddr.isReal = true → inst'.ntpAddress.ipAddr.isReal = true)
    (haddress : dump.ntpAddress.ipAddr.isReal = true) (hkeys : inst'.context.HasKeys siv)
    (halt : inst'.altContext.algorithm = .invalid)
    (hcookies : ∀ cookie ∈ dump.stored, IsCookie cookie) (input : LoadInput) :
    Loads siv inst (loadLines inst' dump input) dump := by
  rw [loadLines]
  dsimp only
  split
  · exact notLoaded_loads dump hindex hsiv hnts hreal
  next hread =>
      have hlines := readCookies_eq
        (show (readCookies (dump.cookies.take ntsMaxCookies)).2 = true by
        simpa using hread)
      rw [← stored_take] at hlines
      rw [hlines]
      obtain ⟨address, hset, hsetReal⟩ := setNtpAddress_eq { inst' with
        cookies := copyCookies inst'.cookies (dump.stored.take ntsMaxCookies)
        numCookies := (dump.stored.take ntsMaxCookies).length } dump.ntpAddress input.updated
      rw [hset]
      have hreal' : inst'.ntsAddress.ipAddr.isReal = true → address.ipAddr.isReal = true :=
        fun h => hsetReal (.inr haddress) h (hreal h)
      have hle : (dump.stored.take ntsMaxCookies).length ≤ ntsMaxCookies := List.length_take_le _ _
      split
      · exact notLoaded_loads dump hindex hsiv hnts hreal'
      · have hunused : RingBuffer.view (copyCookies inst'.cookies (dump.stored.take ntsMaxCookies))
            inst'.cookieIndex ntsMaxCookies (dump.stored.take ntsMaxCookies).length =
              dump.stored.take ntsMaxCookies := by
          rw [hindex, copyCookies_view _ hle]
        refine ⟨.inr hunused, ⟨hle, ?_, ?_, ?_, fun _ => hkeys, .inl halt, hreal'⟩, hnts⟩
        · dsimp only
          rw [hindex]
          decide
        · intro cookie hmem
          have hmem' : cookie ∈ RingBuffer.view
              (copyCookies inst'.cookies (dump.stored.take ntsMaxCookies)) inst'.cookieIndex
                ntsMaxCookies (dump.stored.take ntsMaxCookies).length := hmem
          rw [hunused] at hmem'
          exact hcookies cookie (List.mem_of_mem_take hmem')
        · dsimp only
          rw [hsiv]
          nofun

theorem loadDump_loads (h : inst.IsReset) {dump : CookieDump}
    (hcookies : ∀ cookie ∈ dump.stored, IsCookie cookie) (input : LoadInput) :
    Loads siv inst (loadDump siv inst dump input) dump := by
  rw [loadDump]
  split
  · exact notLoaded_loads dump h.cookieIndex rfl rfl h.ntpAddress
  next hname =>
      dsimp only
      split
      · exact notLoaded_loads dump h.cookieIndex rfl rfl h.ntpAddress
      next hkeys =>
          simp only [Bool.not_eq_true', not_or, ne_eq, not_not, Bool.not_eq_false] at hname hkeys
          obtain ⟨hlength, hpos, heq⟩ := hkeys
          have hcontext : NkeContext.HasKeys siv ⟨dump.algorithm,
              hexToBytes dump.c2s sivMaxKeyLength, hexToBytes dump.s2c sivMaxKeyLength⟩ := by
            refine ⟨?_, heq.trans hlength, hlength⟩
            rw [← hlength]
            exact hpos
          refine loadLines_loads ?_ ?_ ?_ ?_ hname.2.2 ?_ ?_ hcookies input
          · exact h.cookieIndex
          · rfl
          · rfl
          · exact h.ntpAddress
          · exact hcontext
          · rfl

/-- The cookies in all files. -/
def Dumps.stored (dumps : Dumps) : List (List Byte) :=
  dumps.flatMap fun file => file.2.stored

theorem remove_stored_sublist (dumps : Dumps) (address : IPAddr) :
    (dumps.remove address).stored.Sublist dumps.stored := by
  rw [Dumps.stored, Dumps.stored, Dumps.remove]
  exact List.filter_sublist.flatMap _

/-- **A file is loaded at most once.** -/
theorem find_stored {dumps : Dumps} {address : IPAddr} {dump : CookieDump}
    (h : dumps.find address = some dump) :
    (dump.stored ++ (dumps.remove address).stored).Subperm dumps.stored := by
  induction dumps with
  | nil => cases h
  | cons file dumps ih =>
      have hcons : Dumps.stored (file :: dumps) = file.2.stored ++ Dumps.stored dumps :=
        List.flatMap_cons
      rw [hcons]
      by_cases haddress : file.1 = address
      · have hfind : Dumps.find (file :: dumps) address = some file.2 := by
          rw [Dumps.find, List.find?_cons_of_pos (by simpa using haddress)]
          rfl
        have hremove : Dumps.remove (file :: dumps) address = Dumps.remove dumps address := by
          rw [Dumps.remove, List.filter_cons_of_neg (by simpa using haddress)]
          rfl
        obtain rfl := Option.some.inj (hfind.symm.trans h)
        rw [hremove]
        exact ((List.Sublist.refl _).append (remove_stored_sublist dumps address)).subperm
      · have hfind : Dumps.find (file :: dumps) address = Dumps.find dumps address := by
          rw [Dumps.find, List.find?_cons_of_neg (by simpa using haddress)]
          rfl
        have hremove : Dumps.remove (file :: dumps) address =
            file :: Dumps.remove dumps address := by
          rw [Dumps.remove, List.filter_cons_of_pos (by simpa using haddress)]
          rfl
        have hstored : Dumps.stored (file :: Dumps.remove dumps address) =
            file.2.stored ++ (Dumps.remove dumps address).stored := List.flatMap_cons
        rw [hfind] at h
        rw [hremove, hstored]
        refine (List.perm_append_comm_assoc _ _ _).subperm.trans ?_
        exact (List.subperm_append_left _).mpr (ih h)

/-! ### Loading of saved cookies -/

/-- The cookies and the context of a file which was read. -/
theorem loadLines_eq {dump : CookieDump} {l : List (List Byte)} (hindex : inst.cookieIndex = 0)
    (hread : readCookies dump.cookies = (l, true)) (hle : l.length ≤ ntsMaxCookies)
    {input : LoadInput} (hupdated : input.updated = true) :
    (loadLines inst dump input).unused = l ∧
      (loadLines inst dump input).context = inst.context ∧
      (loadLines inst dump input).contextId = dump.contextId := by
  have hlength : dump.cookies.length = l.length := by
    have heq : (readCookies dump.cookies).1 = _ := readCookies_eq (by rw [hread])
    rw [hread] at heq
    dsimp only at heq
    rw [heq, List.length_map]
  have hset : ∀ inst : NncInstance,
      (setNtpAddress inst dump.ntpAddress input.updated).2 = true := by
    intro inst
    rw [setNtpAddress, hupdated]
    split
    · rfl
    · rfl
  have htake : dump.cookies.take ntsMaxCookies = dump.cookies := List.take_of_length_le (by omega)
  obtain ⟨address, heq, -⟩ := setNtpAddress_eq { inst with
    cookies := copyCookies inst.cookies l
    numCookies := l.length } dump.ntpAddress input.updated
  rw [loadLines, htake, hread]
  dsimp only
  rw [if_neg (by decide), hset, if_neg (by decide), heq]
  refine ⟨?_, rfl, rfl⟩
  rw [NncInstance.unused]
  dsimp only
  rw [hindex, copyCookies_view _ hle]

/-- **What is restored**: the unused cookies in their order, and the context. -/
theorem loadCookies_saveCookies (h : inst.Valid siv) (hplace : inst.InPlace)
    (hpos : 0 < inst.numCookies) (hreal : inst.ntsAddress.ipAddr.isReal = true)
    (hword : isWordLine inst.name = true) {inst' : NncInstance} (hreset : inst'.IsReset)
    (hname : inst'.name = inst.name) (hnts : inst'.ntsAddress = inst.ntsAddress) (dumps : Dumps)
    (time : EventTime) {input : LoadInput} (hupdated : input.updated = true) :
    let r := loadCookies siv inst' (saveCookies inst dumps time) input
    r.1.unused = inst.unused ∧ r.1.context = inst.context ∧ r.1.contextId = inst.contextId := by
  obtain ⟨dump, hdump, hdumpName, hntp, hid, halgorithm, hs2c, hc2s, hread, -⟩ :=
    formatDump_inPlace h hpos hplace time
  have hkeys := h.context hpos
  have hfind : Dumps.find ((inst.ntsAddress.ipAddr, dump) :: dumps.remove inst.ntsAddress.ipAddr)
      inst.ntsAddress.ipAddr = some dump := by
    simp [Dumps.find]
  have hne : ¬(inst.numCookies < 1 ∨ (!inst.ntsAddress.ipAddr.isReal) = true) := by
    rw [hreal]
    simp
    omega
  have hlength : inst.unused.length ≤ ntsMaxCookies := by
    rw [NncInstance.unused, RingBuffer.length_view]
    exact h.numCookies
  rw [saveCookies, if_neg hne, hdump, loadCookies, hnts]
  dsimp only
  rw [hfind]
  dsimp only
  rw [loadDump, hdumpName, hword, hname, hntp, h.ntpAddress hreal, halgorithm, hs2c, hc2s]
  rw [if_neg (by simp)]
  dsimp only
  have hcontext : ¬(inst.context.s2c.length ≠ siv.keyLength inst.context.algorithm ∨
      inst.context.s2c.length = 0 ∨ inst.context.c2s.length ≠ inst.context.s2c.length) := by
    have hzero := hkeys.pos
    rw [hkeys.s2c, hkeys.c2s]
    simp [hzero]
  rw [if_neg hcontext]
  rw [← hid]
  refine loadLines_eq ?_ hread hlength hupdated
  exact hreset.cookieIndex

end Chrony.Nts
