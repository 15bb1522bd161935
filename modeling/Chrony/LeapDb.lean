import Chrony.Reference.Leap
import Chrony.Strings
import Mathlib.Data.List.Forall2

/-!
# Leap Second Database

The lookup of leap seconds in a `leap-seconds.list` file, and its cache. The functions are from
`leapdb.c`. A file is the list of its characters, or none if it cannot be opened, and the times are
exact numbers. The conversion which uses a time zone is a function of the system.

The list has comments, the times of its update and expiration, and an entry for each change of the
offset between TAI and UTC. The lookup goes through the entries with the offset of the previous one,
and compares their times to the end of the day.

## Main results

* `scanEntry_eq`: the state of the lookup after the entries of a list.
* `getListLeap_eq`: the lookup in a well-formed file.
* `getLeaps_eq`: the cache does not change the results of the lookup.
* `leapdb_lookups`: both for a list, in the terms of its entries.
-/

namespace Chrony.LeapDb

open Reference (Leap)

/-! ### Lookup in a list -/

/-- `LEAP_SEC_LIST_OFFSET`. -/
def leapSecListOffset : ℤ := 2208988800

/-- `sscanf` with `%lld`, which converts the number as `strtoll`. It returns the characters after
the number too. -/
def scanInt64 (s : List Char) : Option (ℤ × List Char) :=
  let (negative, s) := scanSign (s.dropWhile isSpace)
  (scanDigits decValue 10 none s).map fun value : ℕ =>
    (if negative then max (-(value : ℤ)) (-2 ^ 63) else min (value : ℤ) (2 ^ 63 - 1),
      s.dropWhile fun c => (decValue c).isSome)

/-- The variables of `get_list_leap` which are changed by the lines. -/
structure ListScan where
  retLeap : Leap
  retTaiOffset : ℤ
  prevLslTaiOffset : ℤ
  lslUpdated : ℤ
  lslExpiry : ℤ
  deriving DecidableEq

/-- The comparison of an entry with the rounded time. -/
def ListScan.entry (scan : ListScan) (when1900 lslWhen lslTaiOffset : ℤ) : ListScan :=
  let scan :=
    if when1900 = lslWhen then
      { scan with
        retLeap :=
          if lslTaiOffset > scan.prevLslTaiOffset then .insertSecond
          else if lslTaiOffset < scan.prevLslTaiOffset then .deleteSecond
          else scan.retLeap
        retTaiOffset := scan.prevLslTaiOffset }
    else if when1900 > lslWhen then { scan with retTaiOffset := lslTaiOffset }
    else scan
  { scan with prevLslTaiOffset := lslTaiOffset }

/-- A line of the list. It returns none if the line cannot be parsed. -/
def listLine (when1900 : ℤ) (scan : ListScan) (line : List Char) : Option ListScan :=
  if line.all isSpace then some scan
  else
    match line with
    | '#' :: '$' :: s => (scanInt64 s).map fun n => { scan with lslUpdated := n.1 }
    | '#' :: '@' :: s => (scanInt64 s).map fun n => { scan with lslExpiry := n.1 }
    | '#' :: _ => some scan
    | line => do
        let (lslWhen, s) ← scanInt64 line
        let lslTaiOffset ← scanInt s
        some (scan.entry when1900 lslWhen lslTaiOffset)

/-- The strings which are read by calls of `fgets` up to the end of the file. -/
def fgetsAll (size : ℕ) : ℕ → List Char → List (List Char)
  | 0, _ => []
  | fuel + 1, file =>
      match fgets size file with
      | none => []
      | some (line, file) => line :: fgetsAll size fuel file

/-- The end of the day, relative to the epoch of the list. -/
def endOfDay (t : ℤ) : ℤ := (t.tdiv 86400 + 1) * 86400 + leapSecListOffset

/-- `get_list_leap`, with the TAI offset which is returned if the list cannot be parsed. Each call
of `fgets` reads at least one character. -/
def getListLeap (file : Option (List Char)) (t taiOffset : ℤ) : Leap × ℤ :=
  match file with
  | none => (.normal, 0)
  | some file =>
      match (fgetsAll 1024 file.length file).foldlM (listLine (endOfDay t))
        ⟨.normal, 0, 10, 0, 0⟩ with
      | none => (.normal, taiOffset)
      | some scan =>
          if scan.lslUpdated = 0 ∨ scan.lslExpiry = 0 then (.normal, taiOffset)
          else (scan.retLeap, scan.retTaiOffset)

/-! ### Cached lookup -/

/-- The source of leap second data. -/
inductive LeapSrc
  | none
  | timezone
  | list
  deriving DecidableEq

/-- What is configured, with the function of the system for the time zone, which leaves the TAI
offset as it was if it fails, and the file of the list. -/
structure Sources where
  timezone : Option (ℤ → ℤ → Leap × ℤ)
  list : Option (Option (List Char))

/-- `check_leap_source`. -/
def checkLeapSource (src : ℤ → ℤ → Leap × ℤ) : Bool :=
  let r := src 1341014400 0
  let r' := src 1356912000 r.2
  r = (.insertSecond, 34) && r' = (.normal, 35)

/-- `LDB_Initialise`. -/
def initialise (sources : Sources) : LeapSrc :=
  if sources.list.any (checkLeapSource <| getListLeap ·) then .list
  else if sources.timezone.any checkLeapSource then .timezone
  else .none

/-- The static variables of `LDB_GetLeap`. -/
structure Cache where
  lastLdbLeapCheck : ℤ
  ldbLeap : Leap
  ldbTaiOffset : ℤ

/-- The lookup in the selected source. -/
def lookup (sources : Sources) (leapSrc : LeapSrc) (t : ℤ) : Leap × ℤ :=
  match leapSrc with
  | .none => (.normal, 0)
  | .timezone => (sources.timezone.map fun getTzLeap => getTzLeap t 0).getD (.normal, 0)
  | .list => getListLeap sources.list.join t 0

/-- `LDB_GetLeap`. -/
def getLeap (sources : Sources) (leapSrc : LeapSrc) (cache : Cache) (t : ℤ) : (Leap × ℤ) × Cache :=
  let t := t.tdiv 43200 * 43200
  let cache :=
    if cache.lastLdbLeapCheck = t then cache
    else ⟨t, (lookup sources leapSrc t).1, (lookup sources leapSrc t).2⟩
  ((cache.ldbLeap, cache.ldbTaiOffset), cache)

/-- The results of calls of `LDB_GetLeap`. -/
def getLeaps (sources : Sources) (leapSrc : LeapSrc) : Cache → List ℤ → List (Leap × ℤ)
  | _, [] => []
  | cache, t :: ts =>
      let r := getLeap sources leapSrc cache t
      r.1 :: getLeaps sources leapSrc r.2 ts

/-! ### Well-formed lists -/

/-- The value of decimal digits. -/
def digitsValue (digits : List Char) : ℕ := digits.foldl (fun n c => n * 10 + (c.toNat - 48)) 0

/-- **A decimal number** with or without a sign. -/
inductive Number : List Char → ℤ → Prop
  | digits {ds : List Char} (hne : ds ≠ []) (hds : ∀ c ∈ ds, (decValue c).isSome = true) :
      Number ds (digitsValue ds)
  | plus {ds : List Char} (hne : ds ≠ []) (hds : ∀ c ∈ ds, (decValue c).isSome = true) :
      Number ('+' :: ds) (digitsValue ds)
  | minus {ds : List Char} (hne : ds ≠ []) (hds : ∀ c ∈ ds, (decValue c).isSome = true) :
      Number ('-' :: ds) (-digitsValue ds)

/-- A number of a signed type at the beginning of a text, and what is after it. -/
structure NumberAt (bits : ℕ) (text : List Char) (n : ℤ) (rest : List Char) : Prop where
  text : ∃ spaces number, text = spaces ++ (number ++ rest) ∧ (∀ c ∈ spaces, isSpace c = true) ∧
    Number number n
  rest : ∀ c ∈ rest.head?, decValue c = none
  lower : -2 ^ (bits - 1) ≤ n
  upper : n < 2 ^ (bits - 1)

/-- What a line of the list is for. -/
inductive LeapLine
  | blank
  | comment
  | update (t : ℤ)
  | expiry (t : ℤ)
  | entry (t taiOffset : ℤ)

/-- **The texts of the lines.** -/
inductive Renders : LeapLine → List Char → Prop
  | blank {text : List Char} (h : ∀ c ∈ text, isSpace c = true) : Renders .blank text
  | comment {text : List Char} (h : ∀ c ∈ text.head?, c ≠ '$' ∧ c ≠ '@') :
      Renders .comment ('#' :: text)
  | update {text rest : List Char} {t : ℤ} (h : NumberAt 64 text t rest) (ht : t ≠ 0) :
      Renders (.update t) ('#' :: '$' :: text)
  | expiry {text rest : List Char} {t : ℤ} (h : NumberAt 64 text t rest) (ht : t ≠ 0) :
      Renders (.expiry t) ('#' :: '@' :: text)
  | entry {text rest rest' : List Char} {t taiOffset : ℤ} (h : NumberAt 64 text t rest)
      (h' : NumberAt 32 rest taiOffset rest') : Renders (.entry t taiOffset) text

/-- The entries of a list: their times and TAI offsets. -/
def entries (lines : List LeapLine) : List (ℤ × ℤ) :=
  lines.filterMap fun line =>
    match line with
    | .entry t taiOffset => some (t, taiOffset)
    | _ => none

/-- **A well-formed list** with any comments and blank lines. The last line might not end with a
newline. -/
structure WellFormed (file : List Char) (lines : List LeapLine) : Prop where
  texts : ∃ texts, file = ['\n'].intercalate texts ∧ List.Forall₂ Renders lines texts ∧
    ∀ text ∈ texts, text.length < 1024 ∧ ∀ c ∈ text, c ≠ '\n' ∧ c ≠ Char.ofNat 0
  updated : ∃ t, .update t ∈ lines
  expires : ∃ t, .expiry t ∈ lines
  increasing : (entries lines).Pairwise (·.1 < ·.1)

/-! ### Numbers -/

theorem isSome_decValue_iff {c : Char} :
    (decValue c).isSome = true ↔ 48 ≤ c.toNat ∧ c.toNat ≤ 57 := by
  rw [decValue]
  split
  next h => exact iff_of_true rfl h
  next h => exact iff_of_false Bool.false_ne_true h

theorem decValue_eq {c : Char} (h : (decValue c).isSome = true) :
    decValue c = some (c.toNat - 48) := if_pos (isSome_decValue_iff.mp h)

/-- The value of digits after other digits. -/
theorem scanDigits_append {ds : List Char} (hds : ∀ c ∈ ds, (decValue c).isSome = true)
    {s : List Char} (hs : ∀ c ∈ s.head?, decValue c = none) (before : ℕ) :
    scanDigits decValue 10 (some before) (ds ++ s) =
      some (ds.foldl (fun n c => n * 10 + (c.toNat - 48)) before) := by
  induction ds generalizing before with
  | nil =>
      cases s with
      | nil => rfl
      | cons c s =>
          rw [List.nil_append, scanDigits, hs c rfl]
          rfl
  | cons c ds ih =>
      obtain ⟨hc, hds⟩ := List.forall_mem_cons.mp hds
      rw [List.cons_append, scanDigits, decValue_eq hc]
      exact ih hds _

theorem scanDigits_digits {ds : List Char} (hne : ds ≠ [])
    (hds : ∀ c ∈ ds, (decValue c).isSome = true) {s : List Char}
    (hs : ∀ c ∈ s.head?, decValue c = none) :
    scanDigits decValue 10 none (ds ++ s) = some (digitsValue ds) := by
  obtain ⟨c, ds, rfl⟩ := List.exists_cons_of_ne_nil hne
  have hc := decValue_eq (hds c List.mem_cons_self)
  have hscan := scanDigits_append hds hs 0
  rw [List.cons_append, scanDigits, hc] at hscan ⊢
  exact hscan

theorem dropWhile_digits {ds : List Char} (hds : ∀ c ∈ ds, (decValue c).isSome = true)
    {s : List Char} (hs : ∀ c ∈ s.head?, decValue c = none) :
    (ds ++ s).dropWhile (fun c => (decValue c).isSome) = s := by
  rw [List.dropWhile_append_of_pos hds]
  cases s with
  | nil => rfl
  | cons c s => rw [List.dropWhile_cons, hs c rfl, if_neg (by simp)]

/-- No sign is before digits. -/
theorem scanSign_digits {ds : List Char} (hne : ds ≠ [])
    (hds : ∀ c ∈ ds, (decValue c).isSome = true) (s : List Char) :
    scanSign (ds ++ s) = (false, ds ++ s) := by
  obtain ⟨c, ds, rfl⟩ := List.exists_cons_of_ne_nil hne
  have hc := hds c List.mem_cons_self
  unfold scanSign
  split
  next heq => exact absurd ((List.cons.inj heq).1 ▸ hc) (by decide)
  next heq => exact absurd ((List.cons.inj heq).1 ▸ hc) (by decide)
  next => rfl

/-- **A number is scanned** after the spaces which are before it. -/
theorem NumberAt.scan {bits : ℕ} {text rest : List Char} {n : ℤ} (h : NumberAt bits text n rest) :
    ∃ negative value ds, scanSign (text.dropWhile isSpace) = (negative, ds ++ rest) ∧
      scanDigits decValue 10 none (ds ++ rest) = some value ∧
      (ds ++ rest).dropWhile (fun c => (decValue c).isSome) = rest ∧
      n = if negative then -(value : ℤ) else value := by
  obtain ⟨spaces, number, rfl, hspaces, hnumber⟩ := h.text
  have hdrop : ∀ {c : Char} {s : List Char}, isSpace c = false →
      (spaces ++ c :: s).dropWhile isSpace = c :: s := by
    intro c s hc
    rw [List.dropWhile_append_of_pos hspaces, List.dropWhile_cons, hc, if_neg Bool.false_ne_true]
  cases hnumber with
  | digits hne hds =>
      refine ⟨false, _, number, ?_, scanDigits_digits hne hds h.rest,
        dropWhile_digits hds h.rest, rfl⟩
      obtain ⟨c, ds, rfl⟩ := List.exists_cons_of_ne_nil hne
      have hc := (isSome_decValue_iff.mp (hds c List.mem_cons_self)).1
      have hspace := isSpace_of_lt (Nat.lt_of_lt_of_le (by decide) hc : 32 < c.toNat)
      rw [List.cons_append, hdrop hspace, ← List.cons_append, scanSign_digits hne hds]
  | plus hne hds =>
      refine ⟨false, _, _, ?_, scanDigits_digits hne hds h.rest, dropWhile_digits hds h.rest, rfl⟩
      rw [List.cons_append, hdrop (by decide)]
      rfl
  | minus hne hds =>
      refine ⟨true, _, _, ?_, scanDigits_digits hne hds h.rest, dropWhile_digits hds h.rest, rfl⟩
      rw [List.cons_append, hdrop (by decide)]
      rfl

theorem scanInt64_eq {text rest : List Char} {n : ℤ} (h : NumberAt 64 text n rest) :
    scanInt64 text = some (n, rest) := by
  obtain ⟨negative, value, ds, hsign, hscan, hrest, hn⟩ := h.scan
  have hlower := h.lower
  have hupper := h.upper
  rw [scanInt64, hsign]
  dsimp only
  rw [hscan, hrest]
  cases negative with
  | false =>
      rw [if_neg Bool.false_ne_true] at hn
      simp only [Option.map_some, if_neg Bool.false_ne_true]
      rw [← hn, min_eq_left (by omega)]
  | true =>
      rw [if_pos rfl] at hn
      simp only [Option.map_some, if_true]
      rw [← hn, max_eq_left (by omega)]

theorem scanInt_eq {text rest : List Char} {n : ℤ} (h : NumberAt 32 text n rest) :
    scanInt text = some n := by
  obtain ⟨negative, value, ds, hsign, hscan, -, hn⟩ := h.scan
  have hlower := h.lower
  have hupper := h.upper
  have hbits : (BitVec.ofInt 32 n).toInt = n := by
    rw [BitVec.toInt_ofInt]
    exact Int.bmod_eq_of_le (by omega) (by omega)
  rw [scanInt, hsign]
  dsimp only
  rw [hscan]
  cases negative with
  | false =>
      rw [if_neg Bool.false_ne_true] at hn
      change some (BitVec.ofInt 32 (min (value : ℤ) (2 ^ 63 - 1))).toInt = some n
      rw [← hn, min_eq_left (by omega), hbits]
  | true =>
      rw [if_pos rfl] at hn
      change some (BitVec.ofInt 32 (max (-(value : ℤ)) (-2 ^ 63))).toInt = some n
      rw [← hn, max_eq_left (by omega), hbits]

/-! ### Lines -/

/-- The effect of a line. -/
def ListScan.apply (when1900 : ℤ) (scan : ListScan) : LeapLine → ListScan
  | .blank => scan
  | .comment => scan
  | .update t => { scan with lslUpdated := t }
  | .expiry t => { scan with lslExpiry := t }
  | .entry t taiOffset => scan.entry when1900 t taiOffset

/-- A line of a number is not blank and not a comment. -/
theorem NumberAt.head {bits : ℕ} {text rest : List Char} {n : ℤ} (h : NumberAt bits text n rest) :
    text.all isSpace = false ∧ ∃ c s, text = c :: s ∧ c ≠ '#' := by
  obtain ⟨spaces, number, rfl, hspaces, hnumber⟩ := h.text
  obtain ⟨c, s, hc, hspace, hcomment⟩ :
      ∃ c s, number = c :: s ∧ isSpace c = false ∧ c ≠ '#' := by
    cases hnumber with
    | digits hne hds =>
        obtain ⟨c, s, rfl⟩ := List.exists_cons_of_ne_nil hne
        have hc := (isSome_decValue_iff.mp (hds c List.mem_cons_self)).1
        refine ⟨c, s, rfl, isSpace_of_lt (Nat.lt_of_lt_of_le (by decide) hc : 32 < c.toNat), ?_⟩
        rintro rfl
        exact absurd hc (by decide)
    | plus => exact ⟨'+', _, rfl, by decide, by decide⟩
    | minus => exact ⟨'-', _, rfl, by decide, by decide⟩
  subst hc
  constructor
  · rw [List.all_append, List.cons_append, List.all_cons, hspace, Bool.false_and, Bool.and_false]
  · cases spaces with
    | nil => exact ⟨c, _, rfl, hcomment⟩
    | cons d spaces =>
        refine ⟨d, _, rfl, ?_⟩
        rintro rfl
        exact absurd (hspaces '#' List.mem_cons_self) (by decide)

/-- **A line of a list is parsed.** -/
theorem listLine_eq {when1900 : ℤ} {scan : ListScan} {line : LeapLine} {text : List Char}
    (h : Renders line text) : listLine when1900 scan text = some (scan.apply when1900 line) := by
  have hhash : ∀ s, ('#' :: s).all isSpace = false := fun _ => rfl
  cases h with
  | blank h =>
      unfold listLine
      exact if_pos (List.all_eq_true.mpr h)
  | comment h =>
      unfold listLine
      rw [hhash, if_neg Bool.false_ne_true]
      split
      next heq =>
          obtain rfl := (List.cons.inj heq).2
          exact absurd rfl (h '$' rfl).1
      next heq =>
          obtain rfl := (List.cons.inj heq).2
          exact absurd rfl (h '@' rfl).2
      next => rfl
      next hne => exact absurd rfl (hne _)
  | update h => rw [listLine, hhash, if_neg Bool.false_ne_true, scanInt64_eq h]; rfl
  | expiry h => rw [listLine, hhash, if_neg Bool.false_ne_true, scanInt64_eq h]; rfl
  | entry h h' =>
      obtain ⟨hspace, c, s, rfl, hc⟩ := h.head
      unfold listLine
      rw [hspace, if_neg Bool.false_ne_true]
      split
      next heq => exact absurd (List.cons.inj heq).1 hc
      next heq => exact absurd (List.cons.inj heq).1 hc
      next heq => exact absurd (List.cons.inj heq).1 hc
      next =>
          rw [scanInt64_eq h, Option.bind_eq_bind, Option.bind_some]
          dsimp only
          rw [scanInt_eq h']
          rfl

theorem NumberAt.newline {bits : ℕ} {text rest : List Char} {n : ℤ}
    (h : NumberAt bits text n rest) : NumberAt bits (text ++ ['\n']) n (rest ++ ['\n']) where
  text := by
    obtain ⟨spaces, number, rfl, hspaces, hnumber⟩ := h.text
    exact ⟨spaces, number, by rw [List.append_assoc, List.append_assoc], hspaces, hnumber⟩
  rest c hc := by
    cases rest with
    | nil =>
        obtain rfl := Option.some.inj hc
        decide
    | cons d rest => exact h.rest c hc
  lower := h.lower
  upper := h.upper

/-- The newline after a line does not matter. -/
theorem Renders.newline {line : LeapLine} {text : List Char} (h : Renders line text) :
    Renders line (text ++ ['\n']) := by
  cases h with
  | blank h =>
      refine .blank (List.forall_mem_append.mpr ⟨h, fun c hc => ?_⟩)
      obtain rfl := List.mem_singleton.mp hc
      decide
  | comment h =>
      rename_i text
      refine .comment fun c hc => ?_
      cases text with
      | nil =>
          obtain rfl := Option.some.inj hc
          decide
      | cons d text => exact h c hc
  | update h ht => exact .update h.newline ht
  | expiry h ht => exact .expiry h.newline ht
  | entry h h' => exact .entry h.newline h'.newline

/-! ### Files -/

theorem getLine_nil (n : ℕ) : getLine n [] = ([], []) := by
  cases n with
  | zero => rfl
  | succ n => rfl

theorem fgetsAll_nil (size fuel : ℕ) : fgetsAll size fuel [] = [] := by
  cases fuel with
  | zero => rfl
  | succ fuel => rfl

theorem fgetsAll_of_eq {size fuel : ℕ} {file line rest : List Char}
    (h : fgets size file = some (line, rest)) :
    fgetsAll size (fuel + 1) file = line :: fgetsAll size fuel rest := by
  rw [fgetsAll, h]

/-- **The lines of a file are parsed in order.** A line which does not fit in the buffer with its
newline is read as a line and a blank line. -/
theorem foldlM_listLine (when1900 : ℤ) {lines : List LeapLine} {texts : List (List Char)}
    (h : List.Forall₂ Renders lines texts)
    (htexts : ∀ text ∈ texts, text.length < 1024 ∧ ∀ c ∈ text, c ≠ '\n' ∧ c ≠ Char.ofNat 0)
    {fuel : ℕ} (hfuel : (['\n'].intercalate texts).length ≤ fuel) (scan : ListScan) :
    (fgetsAll 1024 fuel (['\n'].intercalate texts)).foldlM (listLine when1900) scan =
      some (lines.foldl (ListScan.apply when1900) scan) := by
  induction h generalizing fuel scan with
  | nil =>
      rw [List.intercalate_nil, fgetsAll_nil]
      rfl
  | @cons line text lines texts hline hrest ih =>
      obtain ⟨⟨hlen, htext⟩, htexts⟩ := List.forall_mem_cons.mp htexts
      have hnul : ∀ c ∈ text, c ≠ Char.ofNat 0 := fun c hc => (htext c hc).2
      have hget := getLine_append (fun c hc => (htext c hc).1)
      have hblank : ∀ scan, listLine when1900 scan ['\n'] = some scan := fun _ => rfl
      cases hrest with
      | nil =>
          rw [List.intercalate_singleton] at hfuel ⊢
          by_cases hempty : text = []
          · rw [hempty, fgetsAll_nil]
            exact listLine_eq (hempty ▸ hline)
          · have hpos := List.length_pos_iff.mpr hempty
            obtain ⟨fuel, rfl⟩ := Nat.exists_eq_add_of_lt (hpos.trans_le hfuel)
            have hfgets : fgets 1024 text = some (text, []) := by
              refine fgets_eq hempty ?_ hnul
              have hline := hget (1023 - text.length) []
              rwa [List.append_nil, Nat.add_sub_cancel' (by omega), getLine_nil,
                List.append_nil] at hline
            rw [Nat.zero_add, fgetsAll_of_eq hfgets, fgetsAll_nil, List.foldlM_cons,
              listLine_eq hline]
            rfl
      | @cons line' text' lines texts hline' hrest =>
          rw [List.intercalate_cons_cons, List.append_assoc, List.singleton_append] at hfuel ⊢
          generalize hfile : ['\n'].intercalate (text' :: texts) = file at *
          rw [List.length_append, List.length_cons] at hfuel
          obtain ⟨fuel, rfl⟩ := Nat.exists_eq_add_of_lt (show 0 < fuel by omega)
          have hne : text ++ '\n' :: file ≠ [] := List.append_ne_nil_of_right_ne_nil _ (by simp)
          rw [Nat.zero_add]
          rcases Nat.lt_or_ge text.length 1023 with hfit | hfull
          · have hfgets : fgets 1024 (text ++ '\n' :: file) = some (text ++ ['\n'], file) := by
              refine fgets_eq hne ?_ (List.forall_mem_append.mpr ⟨hnul, fun c hc => ?_⟩)
              · have hline := hget (1022 - text.length + 1) ('\n' :: file)
                rwa [show text.length + (1022 - text.length + 1) = 1024 - 1 by omega] at hline
              · obtain rfl := List.mem_singleton.mp hc
                decide
            rw [fgetsAll_of_eq hfgets, List.foldlM_cons, listLine_eq hline.newline]
            exact ih htexts (by omega) _
          · have hfgets : fgets 1024 (text ++ '\n' :: file) = some (text, '\n' :: file) := by
              refine fgets_eq hne ?_ hnul
              have hline := hget 0 ('\n' :: file)
              rwa [show text.length + 0 = 1024 - 1 by omega, getLine, List.append_nil] at hline
            have hfgets' : fgets 1024 ('\n' :: file) = some (['\n'], file) := rfl
            obtain ⟨fuel, rfl⟩ := Nat.exists_eq_add_of_lt (show 0 < fuel by omega)
            rw [Nat.zero_add, fgetsAll_of_eq hfgets, fgetsAll_of_eq hfgets', List.foldlM_cons,
              listLine_eq hline]
            exact ih htexts (by omega) _

/-! ### Entries -/

/-- The TAI offset of the last entry before a time. -/
def offsetBefore (es : List (ℤ × ℤ)) (t : ℤ) : Option ℤ :=
  (es.filter (·.1 < t)).getLast?.map Prod.snd

/-- **What is found in the entries.** -/
structure Found (when1900 : ℤ) (es : List (ℤ × ℤ)) (scan : ListScan) : Prop where
  prev : scan.prevLslTaiOffset = (es.getLast?.map Prod.snd).getD 10
  tai : scan.retTaiOffset =
    (offsetBefore es when1900).getD (if when1900 ∈ es.map Prod.fst then 10 else 0)
  inserts : scan.retLeap = .insertSecond ↔
    ∃ o, (when1900, o) ∈ es ∧ (offsetBefore es when1900).getD 10 < o
  deletes : scan.retLeap = .deleteSecond ↔
    ∃ o, (when1900, o) ∈ es ∧ o < (offsetBefore es when1900).getD 10
  known : scan.retLeap ≠ .unsynchronised

theorem offsetBefore_append (es : List (ℤ × ℤ)) (t o when1900 : ℤ) :
    offsetBefore (es ++ [(t, o)]) when1900 =
      if t < when1900 then some o else offsetBefore es when1900 := by
  rw [offsetBefore, List.filter_append, List.filter_singleton]
  split
  next hlt =>
      rw [decide_eq_true hlt, cond_true, List.getLast?_concat]
      rfl
  next hge =>
      rw [decide_eq_false hge, cond_false, List.append_nil]
      rfl

/-- **An entry is compared** with the end of the day and with the previous entry. -/
theorem scanEntry_eq {when1900 t o : ℤ} {es : List (ℤ × ℤ)} {scan : ListScan}
    (h : Found when1900 es scan) (hes : (es ++ [(t, o)]).Pairwise (·.1 < ·.1)) :
    Found when1900 (es ++ [(t, o)]) (scan.entry when1900 t o) := by
  have hbefore : ∀ e ∈ es, e.1 < t := fun e he =>
    (List.pairwise_append.mp hes).2.2 e he (t, o) (List.mem_singleton_self _)
  have hmem : ∀ o', (when1900, o') ∈ es ++ [(t, o)] ↔
      (when1900, o') ∈ es ∨ when1900 = t ∧ o' = o := by
    intro o'
    rw [List.mem_append, List.mem_singleton, Prod.mk.injEq]
  have htimes : when1900 ∈ (es ++ [(t, o)]).map Prod.fst ↔
      when1900 ∈ es.map Prod.fst ∨ when1900 = t := by
    rw [List.map_append, List.mem_append, List.map_singleton, List.mem_singleton]
  have hprev : o = ((es ++ [(t, o)]).getLast?.map Prod.snd).getD 10 := by
    rw [List.getLast?_concat]
    rfl
  -- the entries before this one are not at the end of the day if this one is not after it
  have hnone : t ≤ when1900 → ∀ o', (when1900, o') ∉ es := fun hle o' ho' =>
    absurd (hbefore _ ho') (not_lt.mpr hle)
  have hnormal : t ≤ when1900 → scan.retLeap = .normal := by
    intro hle
    cases hleap : scan.retLeap with
    | normal => rfl
    | insertSecond =>
        obtain ⟨o', ho', -⟩ := h.inserts.mp hleap
        exact absurd ho' (hnone hle o')
    | deleteSecond =>
        obtain ⟨o', ho', -⟩ := h.deletes.mp hleap
        exact absurd ho' (hnone hle o')
    | unsynchronised => exact absurd hleap h.known
  rcases lt_trichotomy when1900 t with hlt | rfl | hgt
  · have hscan : scan.entry when1900 t o = { scan with prevLslTaiOffset := o } := by
      rw [ListScan.entry, if_neg hlt.ne, if_neg hlt.not_gt]
    have hoffset : offsetBefore (es ++ [(t, o)]) when1900 = offsetBefore es when1900 := by
      rw [offsetBefore_append, if_neg hlt.not_gt]
    have hsame : ∀ o', (when1900, o') ∈ es ++ [(t, o)] ↔ (when1900, o') ∈ es := fun o' => by
      rw [hmem, or_iff_left fun heq => hlt.ne heq.1]
    rw [hscan]
    refine ⟨hprev, ?_, ?_, ?_, h.known⟩
    · rw [hoffset, if_congr (htimes.trans (or_iff_left hlt.ne)) rfl rfl]
      exact h.tai
    · simp only [hoffset, hsame]
      exact h.inserts
    · simp only [hoffset, hsame]
      exact h.deletes
  · have hoffset : (offsetBefore es when1900).getD 10 = scan.prevLslTaiOffset := by
      rw [offsetBefore, List.filter_eq_self.mpr fun e he => decide_eq_true (hbefore e he), h.prev]
    have hthis : ∀ {P : ℤ → Prop}, (∃ o', (when1900, o') ∈ es ++ [(when1900, o)] ∧ P o') ↔ P o := by
      intro P
      constructor
      · rintro ⟨o', ho', hP⟩
        rcases (hmem o').mp ho' with ho' | ⟨-, rfl⟩
        · exact absurd ho' (hnone le_rfl o')
        · exact hP
      · exact fun hP => ⟨o, (hmem o).mpr (.inr ⟨rfl, rfl⟩), hP⟩
    rw [ListScan.entry, if_pos rfl, hnormal le_rfl]
    refine ⟨hprev, ?_, ?_, ?_, ?_⟩
    · rw [if_pos (htimes.mpr (.inr rfl)), offsetBefore_append, if_neg (lt_irrefl _), hoffset]
    · rw [offsetBefore_append, if_neg (lt_irrefl _), hoffset, hthis]
      dsimp only
      split
      next hgt => exact iff_of_true rfl hgt
      next hle => split <;> exact iff_of_false Leap.noConfusion hle
    · rw [offsetBefore_append, if_neg (lt_irrefl _), hoffset, hthis]
      dsimp only
      split
      next hgt => exact iff_of_false Leap.noConfusion hgt.not_gt
      next =>
          split
          next hlt => exact iff_of_true rfl hlt
          next hge => exact iff_of_false Leap.noConfusion hge
    · dsimp only
      split
      · exact Leap.noConfusion
      · split <;> exact Leap.noConfusion
  · have hscan : scan.entry when1900 t o =
        { scan with retTaiOffset := o, prevLslTaiOffset := o } := by
      rw [ListScan.entry, if_neg hgt.ne', if_pos hgt]
    have hother : ∀ {P : ℤ → Prop}, ¬ ∃ o', (when1900, o') ∈ es ++ [(t, o)] ∧ P o' := by
      rintro P ⟨o', ho', -⟩
      rcases (hmem o').mp ho' with ho' | ⟨heq, -⟩
      · exact hnone hgt.le o' ho'
      · exact hgt.ne' heq
    rw [hscan]
    refine ⟨hprev, ?_, iff_of_false ?_ hother, iff_of_false ?_ hother, h.known⟩
    · rw [offsetBefore_append, if_pos hgt]
      rfl
    · rw [hnormal hgt.le]
      exact Leap.noConfusion
    · rw [hnormal hgt.le]
      exact Leap.noConfusion

theorem found_nil (when1900 lslUpdated lslExpiry : ℤ) :
    Found when1900 [] ⟨.normal, 0, 10, lslUpdated, lslExpiry⟩ where
  prev := rfl
  tai := rfl
  inserts := iff_of_false Leap.noConfusion fun ⟨_, ho, _⟩ => absurd ho List.not_mem_nil
  deletes := iff_of_false Leap.noConfusion fun ⟨_, ho, _⟩ => absurd ho List.not_mem_nil
  known := Leap.noConfusion

theorem entries_append (lines lines' : List LeapLine) :
    entries (lines ++ lines') = entries lines ++ entries lines' := List.filterMap_append

/-- An entry does not change the times of the update and expiration. -/
theorem entry_times (scan : ListScan) (when1900 t o : ℤ) :
    (scan.entry when1900 t o).lslUpdated = scan.lslUpdated ∧
      (scan.entry when1900 t o).lslExpiry = scan.lslExpiry := by
  rw [ListScan.entry]
  split
  · exact ⟨rfl, rfl⟩
  · split <;> exact ⟨rfl, rfl⟩

/-- **What holds after some lines** of a list. -/
structure Applied (when1900 : ℤ) (lines : List LeapLine) (scan : ListScan) : Prop where
  found : Found when1900 (entries lines) scan
  updated : (∃ t, .update t ∈ lines) → scan.lslUpdated ≠ 0
  expires : (∃ t, .expiry t ∈ lines) → scan.lslExpiry ≠ 0

/-- The effect of one line. -/
theorem Applied.line {when1900 : ℤ} {lines : List LeapLine} {scan : ListScan}
    (h : Applied when1900 lines scan) {line : LeapLine} {text : List Char}
    (hline : Renders line text) (hes : (entries (lines ++ [line])).Pairwise (·.1 < ·.1)) :
    Applied when1900 (lines ++ [line]) (scan.apply when1900 line) := by
  have hbefore : ∀ {P : LeapLine}, P ∈ lines ++ [line] → P ≠ line → P ∈ lines := fun hP hne =>
    (List.mem_append.mp hP).resolve_right fun hP => hne (List.mem_singleton.mp hP)
  have hupdated : (∀ t, LeapLine.update t ≠ line) → (∃ t, .update t ∈ lines ++ [line]) →
      scan.lslUpdated ≠ 0 := fun hne ⟨t, ht⟩ => h.updated ⟨t, hbefore ht (hne t)⟩
  have hexpires : (∀ t, LeapLine.expiry t ≠ line) → (∃ t, .expiry t ∈ lines ++ [line]) →
      scan.lslExpiry ≠ 0 := fun hne ⟨t, ht⟩ => h.expires ⟨t, hbefore ht (hne t)⟩
  have hfound : entries [line] = [] → Found when1900 (entries (lines ++ [line])) scan := by
    intro hnil
    rw [entries_append, hnil, List.append_nil]
    exact h.found
  cases hline with
  | blank => exact ⟨hfound rfl, hupdated nofun, hexpires nofun⟩
  | comment => exact ⟨hfound rfl, hupdated nofun, hexpires nofun⟩
  | update _ ht =>
      have hfound := hfound rfl
      exact ⟨⟨hfound.prev, hfound.tai, hfound.inserts, hfound.deletes, hfound.known⟩,
        fun _ => ht, hexpires nofun⟩
  | expiry _ ht =>
      have hfound := hfound rfl
      exact ⟨⟨hfound.prev, hfound.tai, hfound.inserts, hfound.deletes, hfound.known⟩,
        hupdated nofun, fun _ => ht⟩
  | entry =>
      rw [entries_append] at hes
      refine ⟨entries_append lines _ ▸ scanEntry_eq h.found hes, fun hu => ?_, fun he => ?_⟩
      · rw [ListScan.apply, (entry_times _ _ _ _).1]
        exact hupdated nofun hu
      · rw [ListScan.apply, (entry_times _ _ _ _).2]
        exact hexpires nofun he

/-- **The lines are applied in order.** -/
theorem Applied.foldl {when1900 : ℤ} {before lines : List LeapLine} {texts : List (List Char)}
    {scan : ListScan} (h : Applied when1900 before scan) (hlines : List.Forall₂ Renders lines texts)
    (hes : (entries (before ++ lines)).Pairwise (·.1 < ·.1)) :
    Applied when1900 (before ++ lines) (lines.foldl (ListScan.apply when1900) scan) := by
  induction hlines generalizing before scan with
  | nil => rwa [List.append_nil]
  | @cons line text lines texts hline hrest ih =>
      rw [List.append_cons] at hes ⊢
      have hes' := hes
      rw [entries_append] at hes'
      exact ih (h.line hline (List.pairwise_append.mp hes').1) hes

/-- **The lookup in a well-formed file.** -/
theorem getListLeap_eq {file : List Char} {lines : List LeapLine} (h : WellFormed file lines)
    (t taiOffset : ℤ) : ∃ scan, Found (endOfDay t) (entries lines) scan ∧
      getListLeap (some file) t taiOffset = (scan.retLeap, scan.retTaiOffset) := by
  obtain ⟨texts, rfl, hrenders, htexts⟩ := h.texts
  have hscan := foldlM_listLine (endOfDay t) hrenders htexts le_rfl ⟨.normal, 0, 10, 0, 0⟩
  have hnone : Applied (endOfDay t) [] ⟨.normal, 0, 10, 0, 0⟩ :=
    ⟨found_nil _ 0 0, fun ⟨_, hu⟩ => absurd hu List.not_mem_nil,
      fun ⟨_, he⟩ => absurd he List.not_mem_nil⟩
  have happlied := hnone.foldl hrenders h.increasing
  refine ⟨_, happlied.found, ?_⟩
  unfold getListLeap
  dsimp only
  rw [hscan]
  exact if_neg fun hzero => hzero.elim (happlied.updated h.updated) (happlied.expires h.expires)

/-! ### The cache -/

/-- The day of a time is the day of its half. -/
theorem endOfDay_halfDay {t : ℤ} (ht : 0 ≤ t) : endOfDay (t.tdiv 43200 * 43200) = endOfDay t := by
  rw [endOfDay, endOfDay, Int.tdiv_eq_ediv_of_nonneg ht, Int.tdiv_eq_ediv_of_nonneg ht,
    Int.tdiv_eq_ediv_of_nonneg (by omega)]
  omega

/-- The lookup depends on the day only. -/
theorem getListLeap_congr (file : Option (List Char)) {t t' : ℤ} (h : endOfDay t = endOfDay t')
    (taiOffset : ℤ) : getListLeap file t taiOffset = getListLeap file t' taiOffset := by
  cases file with
  | none => rfl
  | some file =>
      unfold getListLeap
      rw [h]

/-- **The cache does not change the results of the lookup**, if the time which was saved is not
the one of a missing lookup. -/
theorem getLeaps_eq (sources : Sources) {cache : Cache} {ts : List ℤ}
    (hcache : cache.lastLdbLeapCheck = 0 ∨ (cache.ldbLeap, cache.ldbTaiOffset) =
      getListLeap sources.list.join cache.lastLdbLeapCheck 0) (hts : ∀ t ∈ ts, 43200 ≤ t) :
    getLeaps sources .list cache ts = ts.map (getListLeap sources.list.join · 0) := by
  induction ts generalizing cache with
  | nil => rfl
  | cons t ts ih =>
      obtain ⟨ht, hts⟩ := List.forall_mem_cons.mp hts
      have hday := endOfDay_halfDay (show 0 ≤ t by omega)
      have hne : t.tdiv 43200 * 43200 ≠ 0 := by
        rw [Int.tdiv_eq_ediv_of_nonneg (by omega)]
        omega
      have hlookup := getListLeap_congr sources.list.join hday 0
      have hstep : ∃ cache', getLeap sources .list cache t =
          (getListLeap sources.list.join t 0, cache') ∧
          (cache'.ldbLeap, cache'.ldbTaiOffset) =
            getListLeap sources.list.join cache'.lastLdbLeapCheck 0 := by
        unfold getLeap
        dsimp only
        split
        next hcheck =>
            have hsaved := hcache.resolve_left (hcheck ▸ hne)
            refine ⟨cache, Prod.ext ?_ rfl, hsaved⟩
            rw [hsaved, hcheck, hlookup]
        next => exact ⟨_, Prod.ext hlookup rfl, rfl⟩
      obtain ⟨cache', hget, hsaved⟩ := hstep
      rw [getLeaps, hget, List.map_cons]
      exact congrArg _ (ih (.inr hsaved) hts)

/-- **The lookups of leap seconds** for times which are not before the epoch. In a well-formed list,
there is a leap second at the end of the day if there is an entry for that time with a different TAI
offset than the previous entry, and the TAI offset is the one of the last entry before the end of
the day. The results of all calls with the list are the results of the lookup for the same times,
which is the same for all times of a day, whatever is in the file. -/
theorem leapdb_lookups :
    (∀ (file : List Char) (lines : List LeapLine), WellFormed file lines →
      ∀ t taiOffset : ℤ, 0 ≤ t →
        let midnight := (t / 86400 + 1) * 86400 + leapSecListOffset
        let result := getListLeap (some file) t taiOffset
        let previous := offsetBefore (entries lines) midnight
        (result.1 = .insertSecond ↔
          ∃ o, (midnight, o) ∈ entries lines ∧ previous.getD 10 < o) ∧
        (result.1 = .deleteSecond ↔
          ∃ o, (midnight, o) ∈ entries lines ∧ o < previous.getD 10) ∧
        result.1 ≠ .unsynchronised ∧
        result.2 = previous.getD (if midnight ∈ (entries lines).map Prod.fst then 10 else 0)) ∧
    ∀ (sources : Sources) (ts : List ℤ), (∀ t ∈ ts, 43200 ≤ t) →
      getLeaps sources .list ⟨0, .normal, 0⟩ ts =
        ts.map (getListLeap sources.list.join · 0) ∧
      ∀ t ∈ ts, ∀ t' ∈ ts, t / 86400 = t' / 86400 →
        getListLeap sources.list.join t 0 = getListLeap sources.list.join t' 0 := by
  have hmidnight : ∀ {t : ℤ}, 0 ≤ t →
      endOfDay t = (t / 86400 + 1) * 86400 + leapSecListOffset := fun ht => by
    rw [endOfDay, Int.tdiv_eq_ediv_of_nonneg ht]
  refine ⟨fun file lines h t taiOffset ht => ?_, fun sources ts hts => ⟨?_, ?_⟩⟩
  · obtain ⟨scan, hfound, hresult⟩ := getListLeap_eq h t taiOffset
    rw [hmidnight ht] at hfound
    dsimp only
    rw [hresult]
    exact ⟨hfound.inserts, hfound.deletes, hfound.known, hfound.tai⟩
  · exact getLeaps_eq sources (.inl rfl) hts
  · intro t ht t' ht' hday
    have h := hts t ht
    have h' := hts t' ht'
    refine getListLeap_congr _ ?_ 0
    rw [hmidnight (by omega), hmidnight (by omega), hday]

/-- A list with a leap second at the end of the first day. -/
def firstDayList : List Char :=
  ['#', '$', '1', '\n', '#', '@', '2', '\n', '2', '2', '0', '9', '0', '7', '5', '2', '0', '0', ' ',
    '1', '1', '\n']

theorem wellFormed_firstDayList :
    WellFormed firstDayList [.update 1, .expiry 2, .entry 2209075200 11, .blank] where
  texts := by
    have hupdate : NumberAt 64 ['1'] 1 [] :=
      ⟨⟨[], ['1'], rfl, (by simp), .digits (by simp) (by simp [decValue])⟩, (by simp), by decide, by decide⟩
    have hexpiry : NumberAt 64 ['2'] 2 [] :=
      ⟨⟨[], ['2'], rfl, (by simp), .digits (by simp) (by simp [decValue])⟩, (by simp), by decide, by decide⟩
    have htime : NumberAt 64 ['2', '2', '0', '9', '0', '7', '5', '2', '0', '0', ' ', '1', '1']
        2209075200 [' ', '1', '1'] :=
      ⟨⟨[], ['2', '2', '0', '9', '0', '7', '5', '2', '0', '0'], rfl, (by simp),
        .digits (by simp) (by simp [decValue])⟩, by simp [decValue], by decide, by decide⟩
    have hoffset : NumberAt 32 [' ', '1', '1'] 11 [] :=
      ⟨⟨[' '], ['1', '1'], rfl, by simp [isSpace], .digits (by simp) (by simp [decValue])⟩, (by simp),
        by decide, by decide⟩
    refine ⟨[['#', '$', '1'], ['#', '@', '2'],
      ['2', '2', '0', '9', '0', '7', '5', '2', '0', '0', ' ', '1', '1'], []], rfl, ?_, ?_⟩
    · exact .cons (.update hupdate (by decide)) (.cons (.expiry hexpiry (by decide))
        (.cons (.entry htime hoffset) (.cons (.blank (by simp)) .nil)))
    · simp
  updated := ⟨1, by simp⟩
  expires := ⟨2, by simp⟩
  increasing := List.pairwise_singleton _ _

theorem leapdb_lookups_firstDayList :
    (getListLeap (some firstDayList) 50000 0).1 = .insertSecond ∧
      getLeaps ⟨none, some (some firstDayList)⟩ .list ⟨0, .normal, 0⟩ [50000, 86399] =
        [getListLeap (some firstDayList) 50000 0, getListLeap (some firstDayList) 86399 0] ∧
      getListLeap (some firstDayList) 50000 0 = getListLeap (some firstDayList) 86399 0 := by
  obtain ⟨hlist, hcalls⟩ := leapdb_lookups
  obtain ⟨hinsert, -⟩ := hlist firstDayList _ wellFormed_firstDayList 50000 0 (by decide)
  obtain ⟨hresults, hday⟩ := hcalls ⟨none, some (some firstDayList)⟩ [50000, 86399] (by simp)
  refine ⟨hinsert.mpr ⟨11, ?_, ?_⟩, hresults, hday 50000 (by simp) 86399 (by simp) (by decide)⟩
  · exact List.mem_singleton.mpr (by decide)
  · decide

end Chrony.LeapDb
