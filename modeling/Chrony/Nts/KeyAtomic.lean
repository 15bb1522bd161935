import Chrony.Nts.KeyDump

/-!
# Replacement of the Dump File

The server keys are written to a temporary file, which is then renamed, in order to have a
complete file at all times. When a line cannot be written, it is not the temporary file that is
removed. When the end of the file is lost in `fclose`, the file is still renamed.

## Main results

* `run_replaced_iff`: when the file is replaced at once.
* `run_dump_lost`: a failure of `fprintf` after which the previous file is lost.
-/

namespace Chrony.Nts

open Lib Bytes

variable {siv : Siv}

/-! ### Atomic replacement -/

/-- The keys of a process, and the files in the dump directory. -/
structure KeyProcess where
  server : KeyServer
  dir : DumpDir

/-- What a process does with its keys. -/
inductive KeyProcessEvent
  | rotate (random : KeyRandom)
  | save (age : KeyAge) (io : SaveIo)

/-- `NKS_Initialise`, before the keys are saved if they could not be loaded. -/
def KeyProcess.start (siv : Siv) (random : ℕ → KeyRandom) (dir : DumpDir) : Option KeyProcess := do
  let server ← initialiseKeys siv random
  let r ← loadKeysFile siv server dir.dump
  some ⟨r.2, dir⟩

/-- One event. The keys are saved after each rotation, and also at other times. -/
def KeyProcess.step (siv : Siv) (rotationInterval : ℕ) (p : KeyProcess) :
    KeyProcessEvent → Option KeyProcess
  | .rotate random => (keyTimeout siv p.server random).map fun server => { p with server }
  | .save age io => some { p with dir := saveKeys siv rotationInterval p.server age io p.dir }

/-- A run of a process. -/
def KeyProcess.run (siv : Siv) (rotationInterval : ℕ) (random : ℕ → KeyRandom) (dir : DumpDir)
    (events : List KeyProcessEvent) : Option KeyProcess := do
  let p ← KeyProcess.start siv random dir
  events.foldlM (KeyProcess.step siv rotationInterval) p

/-- **A file is replaced at once, or it is kept**, and no temporary file is left. -/
def DumpDir.Replaced (text : List Char) (before after : DumpDir) : Prop :=
  (after.dump = before.dump ∨ after.dump = some text) ∧ after.tmp = none

/-- **Nothing fails after the temporary file was created**, or only the renaming of the file. If
nothing was created, there is no file from before. -/
def SaveIo.Safe (io : SaveIo) (rotationInterval : ℕ) (text : List Char) (dir : DumpDir) : Prop :=
  if rotationInterval = 0 then dir.tmp = none
  else
    match io.opening with
    | .failed removed => removed = true ∨ dir.tmp = none
    | .created => False
    | .opened => (∀ i < maxServerKeys + 1, io.prints i = true) ∧
        if io.renames then dir.dump = some (io.store text) ∨ io.store text = text
        else io.unlinks = true

theorem printLines_snd {prints : ℕ → Bool} {lines : List (Option (List Char))} {n : ℕ}
    (h : (printLines prints n lines).2 = true) : ∀ i < lines.length, prints (n + i) = true := by
  induction lines generalizing n with
  | nil => exact fun i hi => absurd hi (Nat.not_lt_zero i)
  | cons line lines ih =>
      cases line with
      | none => cases h
      | some line =>
          rw [printLines] at h
          split at h
          next hfirst =>
              intro i hi
              cases i with
              | zero => exact hfirst
              | succ i =>
                  rw [Nat.add_comm i, ← Nat.add_assoc]
                  exact ih h i (Nat.lt_of_succ_lt_succ hi)
          next => cases h

theorem length_dumpLines (siv : Siv) (server : KeyServer) (age : KeyAge) :
    (dumpLines siv server age).length = maxServerKeys + 1 := by
  rw [dumpLines, List.length_cons, List.length_map, List.length_range]

/-- **When a file is replaced at once.** -/
theorem saveKeys_replaced_iff {server : KeyServer} {age : KeyAge} {text : List Char}
    (htext : dumpText siv server age = some text) (rotationInterval : ℕ) (io : SaveIo)
    (dir : DumpDir) :
    dir.Replaced text (saveKeys siv rotationInterval server age io dir) ↔
      io.Safe rotationInterval text dir := by
  have hall : (∀ i < maxServerKeys + 1, io.prints i = true) →
      printLines io.prints 0 (dumpLines siv server age) = (text, true) := by
    intro hprints
    refine printLines_eq htext fun i hi => ?_
    rw [Nat.zero_add]
    exact hprints i (length_dumpLines siv server age ▸ hi)
  rw [DumpDir.Replaced, saveKeys, SaveIo.Safe]
  split
  · exact ⟨And.right, fun h => ⟨.inl rfl, h⟩⟩
  · cases hopening : io.opening with
    | failed removed =>
        cases removed with
        | true => exact ⟨fun _ => .inl rfl, fun _ => ⟨.inl rfl, rfl⟩⟩
        | false => exact ⟨fun h => .inr h.2, fun h => ⟨.inl rfl, h.resolve_left Bool.false_ne_true⟩⟩
    | created => exact ⟨fun h => absurd h.2 (Option.some_ne_none _), False.elim⟩
    | opened =>
        dsimp only
        cases hprint : printLines io.prints 0 (dumpLines siv server age) with
        | mk printed ok =>
            cases ok with
            | false =>
                refine ⟨fun h => absurd h.2 (Option.some_ne_none _), fun h => ?_⟩
                have hok := hprint.symm.trans (hall h.1)
                cases hok
            | true =>
                have hprints : ∀ i < maxServerKeys + 1, io.prints i = true := by
                  intro i hi
                  have hi := printLines_snd (congrArg Prod.snd hprint) i
                    ((length_dumpLines siv server age).symm ▸ hi)
                  rwa [Nat.zero_add] at hi
                obtain rfl : printed = text :=
                  congrArg Prod.fst (hprint.symm.trans (hall hprints))
                dsimp only
                split
                · constructor
                  · rintro ⟨hdump | hdump, -⟩
                    · exact ⟨hprints, .inl hdump.symm⟩
                    · exact ⟨hprints, .inr (Option.some.inj hdump)⟩
                  · rintro ⟨-, hdump | hdump⟩
                    · exact ⟨.inl hdump.symm, rfl⟩
                    · exact ⟨.inr (congrArg some hdump), rfl⟩
                · cases hunlinks : io.unlinks with
                  | true => exact ⟨fun _ => ⟨hprints, rfl⟩, fun _ => ⟨.inl rfl, rfl⟩⟩
                  | false =>
                      refine ⟨fun h => absurd h.2 (Option.some_ne_none _), fun h => ?_⟩
                      exact absurd h.2 Bool.false_ne_true

/-- The keys can be saved after every event, if they could be saved before. -/
theorem KeyProcess.step_saved {rotationInterval : ℕ} {p p' : KeyProcess} {event : KeyProcessEvent}
    (hsaved : p.server.Saved siv) (h : p.step siv rotationInterval event = some p') :
    p'.server.Saved siv := by
  cases event with
  | rotate random =>
      obtain ⟨server, hserver, rfl⟩ := Option.map_eq_some_iff.mp h
      have hstep : p.server.fileStep siv (.rotate random) = some server := hserver
      exact KeyServer.fileStep_saved hsaved hstep
  | save age io =>
      obtain rfl := Option.some.inj h
      exact hsaved

theorem KeyProcess.start_saved {random : ℕ → KeyRandom} {dir : DumpDir} {p : KeyProcess}
    (h : KeyProcess.start siv random dir = some p) : p.server.Saved siv := by
  obtain ⟨server, hserver, h⟩ := Option.bind_eq_some_iff.mp h
  obtain ⟨r, hload, h⟩ := Option.bind_eq_some_iff.mp h
  obtain rfl := Option.some.inj h
  have hstep : server.fileStep siv (.load dir.dump) = some r.2 := by
    rw [KeyServer.fileStep, hload]
    rfl
  exact KeyServer.fileStep_saved (initialiseKeys_saved hserver) hstep

/-- **The keys can be saved in every state of a process.** -/
theorem KeyProcess.run_saved {rotationInterval : ℕ} {random : ℕ → KeyRandom} {dir : DumpDir}
    {events : List KeyProcessEvent} {p : KeyProcess}
    (h : KeyProcess.run siv rotationInterval random dir events = some p) : p.server.Saved siv := by
  obtain ⟨p₀, hstart, hevents⟩ := Option.bind_eq_some_iff.mp h
  clear h
  have hsaved := KeyProcess.start_saved hstart
  clear hstart
  induction events generalizing p₀ with
  | nil =>
      obtain rfl := Option.some.inj hevents
      exact hsaved
  | cons event events ih =>
      obtain ⟨p₁, hstep, hevents⟩ := Option.bind_eq_some_iff.mp hevents
      exact ih p₁ hevents (KeyProcess.step_saved hsaved hstep)

/-- **When a file is replaced at once**, in any reachable state of a process. The keys can always
be printed. -/
theorem run_replaced_iff {rotationInterval : ℕ} {random : ℕ → KeyRandom} {dir : DumpDir}
    {events : List KeyProcessEvent} {p : KeyProcess}
    (h : KeyProcess.run siv rotationInterval random dir events = some p) (age : KeyAge)
    (io : SaveIo) : ∃ text, dumpText siv p.server age = some text ∧
      (p.dir.Replaced text (saveKeys siv rotationInterval p.server age io p.dir) ↔
        io.Safe rotationInterval text p.dir) := by
  obtain ⟨text, htext, -⟩ := fileKeys_dumpText (KeyProcess.run_saved h) age
  exact ⟨text, htext, saveKeys_replaced_iff htext rotationInterval io p.dir⟩

/-- A new process, which has loaded no keys and saves its own ones. -/
theorem exists_start : ∃ p text,
    KeyProcess.run sampleSiv 100 sampleKeyRandom ⟨none, none⟩ [.save .infinite sampleSaveIo] =
      some p ∧
    dumpText sampleSiv p.server .infinite = some text ∧ p.dir = ⟨some text, none⟩ := by
  obtain ⟨server, hserver⟩ := initialiseKeys_succeeds
    (show sampleSiv.keyLength (newKeyAlgorithm sampleSiv) ≠ 0 by decide) sampleKeyRandom
  obtain ⟨text, htext, -⟩ := fileKeys_dumpText (initialiseKeys_saved hserver) .infinite
  have hio : sampleSaveIo.NoErrors := ⟨rfl, fun _ => rfl, rfl, rfl⟩
  refine ⟨⟨server, ⟨some text, none⟩⟩, text, ?_, htext, rfl⟩
  have hstart : KeyProcess.start sampleSiv sampleKeyRandom ⟨none, none⟩ =
      some ⟨server, ⟨none, none⟩⟩ := by
    rw [KeyProcess.start, hserver]
    rfl
  rw [KeyProcess.run, hstart, Option.bind_eq_bind, Option.bind_some, List.foldlM_cons,
    KeyProcess.step, saveKeys_noErrors htext hio (by decide)]
  rfl

/-- The file is replaced when nothing fails. -/
theorem run_replaced_new : ∃ p text,
    KeyProcess.run sampleSiv 100 sampleKeyRandom ⟨none, none⟩ [.save .infinite sampleSaveIo] =
      some p ∧
    dumpText sampleSiv p.server .infinite = some text ∧
    p.dir.Replaced text (saveKeys sampleSiv 100 p.server .infinite sampleSaveIo p.dir) := by
  obtain ⟨p, -, hp, -⟩ := exists_start
  obtain ⟨text, htext, hiff⟩ := run_replaced_iff hp .infinite sampleSaveIo
  refine ⟨p, text, hp, htext, hiff.mpr ?_⟩
  exact ⟨fun _ _ => rfl, .inr rfl⟩

/-- The line with the first key cannot be printed. -/
def failingSaveIo : SaveIo := { sampleSaveIo with prints := fun n => n ≠ 1 }

/-- **The previous file is lost** when a line cannot be printed: it is removed in place of the
temporary file, which is left. -/
theorem run_dump_lost : ∃ p text tmp,
    KeyProcess.run sampleSiv 100 sampleKeyRandom ⟨none, none⟩ [.save .infinite sampleSaveIo] =
      some p ∧
    dumpText sampleSiv p.server .infinite = some text ∧ p.dir = ⟨some text, none⟩ ∧
    saveKeys sampleSiv 100 p.server .infinite failingSaveIo p.dir = ⟨none, some tmp⟩ ∧
    ¬p.dir.Replaced text (saveKeys sampleSiv 100 p.server .infinite failingSaveIo p.dir) := by
  obtain ⟨p, text, hp, htext, hdir⟩ := exists_start
  obtain ⟨printed, hprinted⟩ : ∃ printed, printLines failingSaveIo.prints 0
      (dumpLines sampleSiv p.server .infinite) = (printed, false) := by
    refine ⟨_, Prod.ext rfl (Bool.eq_false_iff.mpr fun hall => ?_)⟩
    have hone := printLines_snd hall 1 (by rw [length_dumpLines]; decide)
    exact absurd hone (by decide)
  have hsave : saveKeys sampleSiv 100 p.server .infinite failingSaveIo p.dir =
      ⟨none, some printed⟩ := by
    rw [saveKeys, if_neg (by decide), hprinted]
    rfl
  refine ⟨p, text, printed, hp, htext, hdir, hsave, fun hreplaced => ?_⟩
  rw [hsave] at hreplaced
  exact absurd hreplaced.2 (Option.some_ne_none _)

end Chrony.Nts
