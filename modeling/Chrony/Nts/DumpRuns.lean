import Chrony.Nts.Dump

/-!
# Runs of the NTS Client with Dump Files

A client is used for some time, its cookies are saved, it is moved to another address, or it is
stopped and started again. The files must not bring back cookies which were already sent.

`save_cookies` writes the first slots of the ring buffer and it does not write anything if there
are no cookies. The unused cookies are restored if they are in the first slots, and if there is no
older file when the client is stopped without cookies.

## Main results

* `reachable_dumps`: the cookies which are restored, and those which are sent, in every run
  with the unused cookies in the first slots.
* `sent_twice`: a cookie which is sent twice in another run.
-/

namespace Chrony.Nts

open Lib Bytes

/-- A client with its history and the dump files. -/
structure DumpRun where
  client : ClientRun
  dumps : Dumps

/-- Steps of a client. -/
inductive DumpAction
  | client (action : ClientAction)
  /-- `NNC_DumpData`. -/
  | dumpData (time : EventTime)
  /-- `NNC_ChangeAddress`. -/
  | changeAddress (address : IPAddr) (time : EventTime) (input : LoadInput)
  /-- `NNC_DestroyInstance` and `NNC_CreateInstance`. -/
  | restart (ntsAddress : RemoteAddress) (name : List Char) (ntpPort : BitVec 16)
      (time : EventTime) (input : LoadInput)

/-- The client with another instance. -/
def DumpRun.withInst (c : DumpRun) (r : NncInstance × Dumps) : DumpRun :=
  ⟨{ c.client with inst := r.1 }, r.2⟩

/-- **One step.** -/
def DumpRun.step (siv : Siv) (config : ClientConfig) (c : DumpRun) :
    DumpAction → Except AssertFailed DumpRun
  | .client action => do
      let client ← c.client.step siv config action
      .ok { c with client }
  | .dumpData time => .ok { c with dumps := saveCookies c.client.inst c.dumps time }
  | .changeAddress address time input =>
      .ok (c.withInst (changeAddress siv c.client.inst address c.dumps time input))
  | .restart ntsAddress name ntpPort time input =>
      .ok (c.withInst (createInstance siv ntsAddress name ntpPort
        (saveCookies c.client.inst c.dumps time) input))

/-- The address of the file of a client. -/
def DumpRun.address (c : DumpRun) : IPAddr := c.client.inst.ntsAddress.ipAddr

/-- **The cookies can be saved**: they are in the first slots, and there is no older file if no
file is written. -/
structure DumpRun.CanSave (c : DumpRun) : Prop where
  inPlace : c.client.inst.InPlace
  noFile : c.client.inst.numCookies = 0 → c.dumps.find c.address = none

/-- The steps which save the right cookies. -/
def DumpRun.Saves (c : DumpRun) : DumpAction → Prop
  | .client _ => True
  | .dumpData _ => c.client.inst.InPlace
  | .changeAddress .. => c.CanSave
  | .restart .. => c.CanSave

/-- **The states which are reached by steps which save the right cookies.** -/
inductive DumpRun.Reachable (siv : Siv) (config : ClientConfig) : DumpRun → Prop
  | start (ntsAddress : RemoteAddress) (name : List Char) (ntpPort : BitVec 16) :
      Reachable siv config ⟨.start ntsAddress name ntpPort, []⟩
  | step {c c' : DumpRun} {action : DumpAction} (h : Reachable siv config c)
      (hsaves : c.Saves action) (hstep : c.step siv config action = .ok c') :
      Reachable siv config c'

variable {siv : Siv} {config : ClientConfig} {c c' : DumpRun}

/-! ### The invariant -/

/-- A file which was written by a client. -/
structure IsSaved (file : IPAddr × CookieDump) : Prop where
  address : file.1.isReal = true
  cookies : ∀ cookie ∈ file.2.stored, IsCookie cookie

/-- **The invariant.** Each cookie which was obtained is sent, unused or in a file of another
address, but only once. -/
structure DumpRun.Valid (siv : Siv) (c : DumpRun) : Prop where
  inst : c.client.inst.Valid siv
  files : ∀ file ∈ c.dumps, IsSaved file
  cookies : (c.client.sent ++ c.client.inst.unused ++ (c.dumps.remove c.address).stored).Subperm
    c.client.obtained

theorem mem_of_find {dumps : Dumps} {address : IPAddr} {dump : CookieDump}
    (h : dumps.find address = some dump) : (address, dump) ∈ dumps := by
  obtain ⟨file, hfile, rfl⟩ := Option.map_eq_some_iff.mp h
  have haddress : file.1 = address := by simpa using List.find?_some hfile
  obtain rfl := haddress
  exact List.mem_of_find?_eq_some hfile

theorem remove_eq_of_find {dumps : Dumps} {address : IPAddr} (h : dumps.find address = none) :
    dumps.remove address = dumps := by
  rw [Dumps.find, Option.map_eq_none_iff, List.find?_eq_none] at h
  exact List.filter_eq_self.mpr fun file hmem => by simpa using h file hmem

/-- **The file of the client is replaced.** -/
theorem saveCookies_inPlace (h : c.Valid siv) (hplace : c.client.inst.InPlace) (time : EventTime) :
    (c.dumps = saveCookies c.client.inst c.dumps time ∧
      (c.client.inst.numCookies = 0 ∨ c.dumps.find c.address = none)) ∨
    ∃ dump, saveCookies c.client.inst c.dumps time =
        (c.address, dump) :: c.dumps.remove c.address ∧ IsSaved (c.address, dump) ∧
      dump.stored = c.client.inst.unused := by
  rw [saveCookies]
  split
  next hnone =>
      refine .inl ⟨rfl, hnone.imp (by omega) fun hreal => ?_⟩
      cases hfind : c.dumps.find c.address with
      | none => rfl
      | some dump =>
          have haddress := (h.files _ (mem_of_find hfind)).address
          rw [DumpRun.address] at haddress
          rw [haddress] at hreal
          cases hreal
  next hsome =>
      simp only [not_or, Bool.not_eq_true', Bool.not_eq_false] at hsome
      obtain ⟨dump, hdump, -, -, -, -, -, -, -, hstored⟩ :=
        formatDump_inPlace h.inst (by omega) hplace time
      rw [hdump]
      refine .inr ⟨dump, rfl, ⟨hsome.2, ?_⟩, hstored⟩
      rw [hstored]
      exact h.inst.cookies

theorem saveCookies_files (h : c.Valid siv) (hplace : c.client.inst.InPlace) (time : EventTime) :
    ∀ file ∈ saveCookies c.client.inst c.dumps time, IsSaved file := by
  rcases saveCookies_inPlace h hplace time with ⟨heq, -⟩ | ⟨dump, heq, hsaved, -⟩
  · rw [← heq]
    exact h.files
  · rw [heq]
    intro file hmem
    rcases List.mem_cons.mp hmem with rfl | hmem
    · exact hsaved
    · exact h.files file (List.mem_of_mem_filter hmem)

/-- **After the client is stopped, the files have its unused cookies.** -/
theorem saveCookies_stored (h : c.Valid siv) (hsave : c.CanSave) (time : EventTime) :
    (saveCookies c.client.inst c.dumps time).stored.Subperm
      (c.client.inst.unused ++ (c.dumps.remove c.address).stored) := by
  rcases saveCookies_inPlace h hsave.inPlace time with ⟨heq, hnone⟩ | ⟨dump, heq, -, hstored⟩
  · rw [← heq, remove_eq_of_find (hnone.elim hsave.noFile id)]
    exact (List.sublist_append_right _ _).subperm
  · have hcons : Dumps.stored ((c.address, dump) :: c.dumps.remove c.address) =
        dump.stored ++ (c.dumps.remove c.address).stored := List.flatMap_cons
    rw [heq, hcons, hstored]

theorem remove_remove (dumps : Dumps) (address : IPAddr) :
    (dumps.remove address).remove address = dumps.remove address := by
  rw [Dumps.remove, Dumps.remove, List.filter_filter]
  simp

/-- **What was loaded is not in the files.** -/
theorem loadCookies_stored {inst : NncInstance} {dumps : Dumps} (h : inst.IsReset)
    (hfiles : ∀ file ∈ dumps, IsSaved file) (input : LoadInput) :
    let r := loadCookies siv inst dumps input
    (r.1.unused ++ (r.2.remove inst.ntsAddress.ipAddr).stored).Subperm dumps.stored ∧
      r.1.Valid siv ∧ r.1.ntsAddress = inst.ntsAddress ∧ ∀ file ∈ r.2, IsSaved file := by
  rw [loadCookies]
  split
  · have hunused : inst.unused = [] := by
      rw [NncInstance.unused, h.numCookies]
      rfl
    refine ⟨?_, h.valid siv, rfl, hfiles⟩
    dsimp only
    rw [hunused, List.nil_append]
    exact (remove_stored_sublist _ _).subperm
  next dump hfind =>
      have hloads : Loads siv inst (loadDump siv inst dump input) dump :=
        loadDump_loads h (hfiles _ (mem_of_find hfind)).cookies input
      refine ⟨?_, hloads.valid, hloads.ntsAddress, fun file hmem =>
        hfiles file (List.mem_of_mem_filter hmem)⟩
      dsimp only
      rw [remove_remove]
      refine List.Subperm.trans (List.Sublist.subperm ?_) (find_stored hfind)
      refine List.Sublist.append ?_ (List.Sublist.refl _)
      rcases hloads.unused with hunused | hunused
      · rw [hunused]
        exact List.nil_sublist _
      · rw [hunused]
        exact List.take_sublist _ _

/-! ### Steps -/

theorem valid_start (ntsAddress : RemoteAddress) (name : List Char) (ntpPort : BitVec 16) :
    DumpRun.Valid siv ⟨.start ntsAddress name ntpPort, []⟩ where
  inst := (start_valid siv ntsAddress name ntpPort).inst
  files := nofun
  cookies := List.Subperm.refl _

theorem step_client (h : c.Valid siv) {action : ClientAction}
    (hstep : c.step siv config (.client action) = .ok c') : c'.Valid siv := by
  obtain ⟨client, hclient, hkeeps⟩ := step_keeps config h.inst action
  obtain ⟨client', hclient', hc'⟩ := bind_eq_ok_iff.mp hstep
  obtain rfl := Except.ok.inj (hclient.symm.trans hclient')
  obtain rfl := Except.ok.inj hc'
  obtain ⟨new, hobtained, hcookies⟩ := hkeeps.cookies
  have haddress : DumpRun.address { c with client := client } = c.address :=
    congrArg RemoteAddress.ipAddr hkeeps.ntsAddress
  refine ⟨hkeeps.inst, h.files, ?_⟩
  rw [haddress]
  dsimp only
  rw [hobtained]
  refine ((hcookies.append (List.Sublist.refl _)).subperm).trans ?_
  rw [List.append_assoc (c.client.sent ++ c.client.inst.unused)]
  refine (List.Perm.append_left _ List.perm_append_comm).subperm.trans ?_
  rw [← List.append_assoc]
  exact (List.subperm_append_right _).mpr h.cookies

/-- The client gets another instance after its cookies were saved. -/
theorem withInst_valid (h : c.Valid siv) (hsave : c.CanSave) {inst : NncInstance}
    (hreset : inst.IsReset) (time : EventTime) (input : LoadInput) :
    (c.withInst
      (loadCookies siv inst (saveCookies c.client.inst c.dumps time) input)).Valid siv := by
  have hloaded : let r := loadCookies siv inst (saveCookies c.client.inst c.dumps time) input
      (r.1.unused ++ (r.2.remove inst.ntsAddress.ipAddr).stored).Subperm
        (saveCookies c.client.inst c.dumps time).stored ∧
      r.1.Valid siv ∧ r.1.ntsAddress = inst.ntsAddress ∧ ∀ file ∈ r.2, IsSaved file :=
    loadCookies_stored hreset (saveCookies_files h hsave.inPlace time) input
  obtain ⟨hstored, hvalid, haddress, hfiles⟩ := hloaded
  refine ⟨hvalid, hfiles, ?_⟩
  rw [DumpRun.address, DumpRun.withInst]
  dsimp only
  rw [haddress, List.append_assoc]
  refine List.Subperm.trans ?_ h.cookies
  rw [List.append_assoc]
  exact (List.subperm_append_left _).mpr (hstored.trans (saveCookies_stored h hsave time))

theorem step_valid (h : c.Valid siv) {action : DumpAction} (hsaves : c.Saves action)
    (hstep : c.step siv config action = .ok c') : c'.Valid siv := by
  cases action with
  | client action => exact step_client h hstep
  | dumpData time =>
      obtain rfl := Except.ok.inj hstep
      refine ⟨h.inst, saveCookies_files h hsaves time, ?_⟩
      -- the file of the client itself is not counted
      rcases saveCookies_inPlace h hsaves time with ⟨heq, -⟩ | ⟨dump, heq, -, -⟩
      · rw [← heq]
        exact h.cookies
      · have hremove : Dumps.remove ((c.address, dump) :: c.dumps.remove c.address) c.address =
            c.dumps.remove c.address := by
          rw [Dumps.remove, List.filter_cons_of_neg (by simp)]
          exact remove_remove c.dumps c.address
        rw [heq]
        change (_ ++ _ ++ Dumps.stored (Dumps.remove _ c.address)).Subperm _
        rw [hremove]
        exact h.cookies
  | changeAddress address time input =>
      obtain rfl := Except.ok.inj hstep
      exact withInst_valid h hsaves ⟨rfl, rfl, rfl, rfl, id⟩ time input
  | restart ntsAddress name ntpPort time input =>
      obtain rfl := Except.ok.inj hstep
      exact withInst_valid h hsaves ⟨rfl, rfl, rfl, rfl, id⟩ time input

theorem reachable_valid (h : DumpRun.Reachable siv config c) : c.Valid siv := by
  induction h with
  | start ntsAddress name ntpPort => exact valid_start ntsAddress name ntpPort
  | step _ hsaves hstep ih => exact step_valid ih hsaves hstep

/-- **Saved cookies are restored and they are not sent again**, if the steps of the run save the
right cookies. -/
theorem reachable_dumps (h : DumpRun.Reachable siv config c) :
    (∀ (inst : NncInstance) (time : EventTime) (input : LoadInput), c.CanSave →
      c.address.isReal = true → isWordLine c.client.inst.name = true → inst.IsReset →
      inst.name = c.client.inst.name → inst.ntsAddress = c.client.inst.ntsAddress →
      input.updated = true →
      let r := loadCookies siv inst (saveCookies c.client.inst c.dumps time) input
      r.1.unused = c.client.inst.unused ∧ (c.client.inst.unused ≠ [] →
        r.1.context = c.client.inst.context ∧ r.1.contextId = c.client.inst.contextId)) ∧
    (c.client.sent ++ c.client.inst.unused).Subperm c.client.obtained := by
  have hvalid := reachable_valid h
  refine ⟨?_, (List.sublist_append_left _ _).subperm.trans hvalid.cookies⟩
  intro inst time input hsave hreal hword hreset hname hnts hupdated
  by_cases hpos : 0 < c.client.inst.numCookies
  · obtain ⟨hunused, hcontext⟩ := loadCookies_saveCookies hvalid.inst hsave.inPlace hpos hreal
      hword hreset hname hnts c.dumps time hupdated
    exact ⟨hunused, fun _ => hcontext⟩
  · have hzero : c.client.inst.numCookies = 0 := by omega
    have hnil : c.client.inst.unused = [] := by
      rw [NncInstance.unused, hzero]
      rfl
    have hnil' : inst.unused = [] := by
      rw [NncInstance.unused, hreset.numCookies]
      rfl
    have hfind : c.dumps.find c.client.inst.ntsAddress.ipAddr = none := hsave.noFile hzero
    rw [saveCookies, if_pos (.inl (by omega)), loadCookies, hnts, hfind, hnil]
    exact ⟨hnil', fun hne => absurd rfl hne⟩

/-- The time in the samples. -/
def sampleTime : EventTime := ⟨1000, 10⟩

/-- A client which is stopped and started again. -/
def sampleRestart : DumpAction :=
  .restart ⟨.inet4 0x7f000001, 4460⟩ ['n', 't', 's'] 123 sampleTime ⟨sampleTime, true⟩

/-- Two cookies are obtained. -/
def sampleObtain : DumpAction :=
  .client (.prepare (samplePrepare 1 (some (sampleSession 2))))

theorem reachable_dumps_restart : ∃ c, DumpRun.Reachable sampleSiv ⟨[15], 1000⟩ c ∧
    c.client.inst.unused = [List.replicate 16 1, List.replicate 16 2] ∧
    (loadCookies sampleSiv (.create ⟨.inet4 0x7f000001, 4460⟩ ['n', 't', 's'] 123)
      (saveCookies c.client.inst c.dumps sampleTime) ⟨sampleTime, true⟩).1.unused =
        c.client.inst.unused ∧
    (c.client.sent ++ c.client.inst.unused).Subperm c.client.obtained := by
  obtain ⟨c, hstep, hc⟩ := exists_ok_of_map_toOption (show
    (DumpRun.step sampleSiv ⟨[15], 1000⟩ ⟨sampleStart, []⟩ sampleObtain).toOption.map
      (fun c => (decide c.client.inst.InPlace, c.client.inst.unused, c.address,
        c.client.inst.ntsAddress, c.client.inst.name)) =
      some (true, [List.replicate 16 1, List.replicate 16 2], .inet4 0x7f000001,
        ⟨.inet4 0x7f000001, 4460⟩, ['n', 't', 's']) by decide +kernel)
  simp only [Prod.mk.injEq, decide_eq_true_eq] at hc
  obtain ⟨hplace, hunused, haddress, hnts, hname⟩ := hc
  have hreach : DumpRun.Reachable sampleSiv ⟨[15], 1000⟩ c := by
    refine .step (.start _ _ _) ?_ hstep
    trivial
  have hsave : c.CanSave := by
    refine ⟨hplace, fun hzero => ?_⟩
    rw [NncInstance.unused, hzero] at hunused
    cases hunused
  obtain ⟨hrestored, hsent⟩ := reachable_dumps hreach
  refine ⟨c, hreach, hunused, ?_, hsent⟩
  refine (hrestored _ sampleTime ⟨sampleTime, true⟩ hsave ?_ ?_ ⟨rfl, rfl, rfl, rfl, id⟩ ?_ ?_
    rfl).1
  · rw [haddress]
    decide
  · rw [hname]
    decide +kernel
  · rw [hname]
    rfl
  · rw [hnts]
    rfl

/-- The cookies are used after they are restored. -/
def sampleReuse : List DumpAction :=
  [sampleObtain, .client (.generate (sampleHeader 3).1 (sampleHeader 3).2), sampleRestart,
    .client (.prepare (samplePrepare 2 none)),
    .client (.generate (sampleHeader 3).1 (sampleHeader 3).2)]

/-- **A cookie can be sent twice**, because the first slot is saved after its cookie was used. -/
theorem sent_twice : ∃ c, sampleReuse.foldlM (DumpRun.step sampleSiv ⟨[15], 1000⟩)
      ⟨sampleStart, []⟩ = .ok c ∧
    c.client.obtained = [List.replicate 16 1, List.replicate 16 2] ∧
    c.client.sent = [List.replicate 16 1, List.replicate 16 1] ∧
    ¬c.client.sent.Subperm c.client.obtained := by
  obtain ⟨c, hrun, hc⟩ := exists_ok_of_map_toOption (show
    (sampleReuse.foldlM (DumpRun.step sampleSiv ⟨[15], 1000⟩) ⟨sampleStart, []⟩).toOption.map
      (fun c => (c.client.obtained, c.client.sent)) =
        some ([List.replicate 16 1, List.replicate 16 2],
          [List.replicate 16 1, List.replicate 16 1]) by decide +kernel)
  obtain ⟨hobtained, hsent⟩ := Prod.mk.inj hc
  refine ⟨c, hrun, hobtained, hsent, ?_⟩
  rw [hobtained, hsent, List.subperm_iff_count]
  intro hcount
  have htwice := hcount (List.replicate 16 1)
  revert htwice
  decide +kernel

end Chrony.Nts
