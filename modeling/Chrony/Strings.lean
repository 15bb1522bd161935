import Chrony.Hex
import Mathlib.Algebra.Order.Ring.Nat
import Mathlib.Data.List.TakeWhile
import Mathlib.Tactic.Ring

/-!
# Lines and Words of Text Files

The functions of the standard library with which text files are read, and the splitting of a
line to words from `util.c`. A string is a list of characters without the terminating one.

## Main results

* `fgets_line`: a line which fits in the buffer is read as it is.
* `splitString_word`: a word is separated from the following ones.
* `scanHex_hexDigits`: a printed number is scanned to the same number.
-/

namespace Chrony

/-! ### Lines -/

/-- The characters of a line with its newline, as far as they fit, and the rest of the file. -/
def getLine : ℕ → List Char → List Char × List Char
  | 0, file => ([], file)
  | _ + 1, [] => ([], [])
  | n + 1, c :: file =>
      if c = '\n' then ([c], file) else (c :: (getLine n file).1, (getLine n file).2)

/-- `fgets` with the size of the buffer. It returns the string in the buffer, which ends before
a null character, and the rest of the file, or none at the end of the file. -/
def fgets (size : ℕ) (file : List Char) : Option (List Char × List Char) :=
  if file = [] then none
  else
    let r := getLine (size - 1) file
    some (r.1.takeWhile (· ≠ Char.ofNat 0), r.2)

/-- A part of a line is read as far as it fits. -/
theorem getLine_append {line : List Char} (hline : ∀ c ∈ line, c ≠ '\n') (n : ℕ)
    (file : List Char) : getLine (line.length + n) (line ++ file) =
      (line ++ (getLine n file).1, (getLine n file).2) := by
  induction line with
  | nil => rw [List.length_nil, Nat.zero_add]; rfl
  | cons c line ih =>
      obtain ⟨hc, hline⟩ := List.forall_mem_cons.mp hline
      rw [List.length_cons, Nat.add_right_comm, List.cons_append, getLine, if_neg hc, ih hline]
      rfl

/-- The string which is read has no null characters. -/
theorem fgets_eq {size : ℕ} {file line rest : List Char} (hne : file ≠ [])
    (hget : getLine (size - 1) file = (line, rest)) (hline : ∀ c ∈ line, c ≠ Char.ofNat 0) :
    fgets size file = some (line, rest) := by
  have htake : line.takeWhile (· ≠ Char.ofNat 0) = line :=
    List.takeWhile_eq_self_iff.mpr fun c hc => decide_eq_true (hline c hc)
  rw [fgets, if_neg hne, hget]
  exact congrArg (some <| Prod.mk · rest) htake

/-- **A line which fits in the buffer is read as it is.** -/
theorem fgets_line {size : ℕ} {line : List Char} (file : List Char)
    (hline : ∀ c ∈ line, ' ' ≤ c) (hsize : line.length + 1 < size) :
    fgets size (line ++ '\n' :: file) = some (line ++ ['\n'], file) := by
  replace hline : ∀ c ∈ line, c ≠ '\n' ∧ c ≠ Char.ofNat 0 := by
    refine fun c hc => ⟨fun heq => ?_, fun heq => ?_⟩
    · exact absurd (heq ▸ hline c hc) (by decide)
    · exact absurd (heq ▸ hline c hc) (by decide)
  refine fgets_eq (by simp) ?_ fun c hc => ?_
  · obtain ⟨n, hn⟩ := Nat.exists_eq_add_of_lt hsize
    rw [show size - 1 = line.length + (n + 1) by omega,
      getLine_append fun c hc => (hline c hc).1]
    rfl
  · rcases List.mem_append.mp hc with hc | hc
    · exact (hline c hc).2
    · obtain rfl := List.mem_singleton.mp hc
      decide

/-! ### Words -/

/-- The words of a string after the beginning of a word. -/
def splitFrom (word : List Char) : List Char → List (List Char)
  | [] => if word = [] then [] else [word]
  | c :: s =>
      if isSpace c then (if word = [] then splitFrom [] s else word :: splitFrom [] s)
      else splitFrom (word ++ [c]) s

/-- `UTI_SplitString`, with all words. Only their number is known for those which are not
saved. -/
def splitString (string : List Char) : List (List Char) := splitFrom [] string

/-- A string of printable characters which is one word. -/
structure IsWord (word : List Char) : Prop where
  ne_nil : word ≠ []
  printable : ∀ c ∈ word, ' ' < c

/-- Printable characters are not spaces. -/
theorem isSpace_of_lt {c : Char} (h : ' ' < c) : isSpace c = false := by
  have h : 32 < c.toNat := h
  rw [isSpace, Bool.or_eq_false_iff, Bool.and_eq_false_iff]
  refine ⟨decide_eq_false ?_, .inr (decide_eq_false fun hspace => ?_)⟩
  · rintro rfl
    exact absurd h (by decide)
  · have hspace : c.toNat ≤ 13 := hspace
    omega

theorem splitFrom_append {word : List Char} (h : ∀ c ∈ word, isSpace c = false)
    (start s : List Char) : splitFrom start (word ++ s) = splitFrom (start ++ word) s := by
  induction word generalizing start with
  | nil => rw [List.nil_append, List.append_nil]
  | cons c word ih =>
      rw [List.cons_append, splitFrom, h c List.mem_cons_self,
        if_neg Bool.false_ne_true, ih (fun c hc => h c (List.mem_cons_of_mem _ hc)),
        List.append_assoc]
      rfl

/-- A word is separated from the following ones. -/
theorem splitString_word {word : List Char} (h : IsWord word) {c : Char} (hc : isSpace c = true)
    (s : List Char) : splitString (word ++ c :: s) = word :: splitString s := by
  have hword := fun c hc => isSpace_of_lt (h.printable c hc)
  rw [splitString, splitFrom_append hword, List.nil_append, splitFrom, if_pos hc,
    if_neg h.ne_nil]
  rfl

/-! ### Numbers -/

/-- The value of a decimal digit. -/
def decValue (c : Char) : Option ℕ :=
  if '0' ≤ c ∧ c ≤ '9' then some (c.toNat - 48) else none

/-- The value of the digits at the start of a string after other digits, if there are any. -/
def scanDigits (value : Char → Option ℕ) (base : ℕ) (before : Option ℕ) :
    List Char → Option ℕ
  | [] => before
  | c :: s =>
      match value c with
      | none => before
      | some digit => scanDigits value base (some (before.getD 0 * base + digit)) s

/-- A sign, which is negative or not, and the characters after it. -/
def scanSign : List Char → Bool × List Char
  | '-' :: s => (true, s)
  | '+' :: s => (false, s)
  | s => (false, s)

/-- The characters after `0x`, which can be before the digits. -/
def skipHex (s : List Char) : List Char :=
  match s with
  | '0' :: x :: c :: s' =>
      if (x = 'x' ∨ x = 'X') ∧ (hexValue c).isSome then c :: s' else s
  | _ => s

/-- `sscanf` with `%X`, which converts the number as `strtoul` and stores it in 32 bits. -/
def scanHex (s : List Char) : Option (BitVec 32) :=
  let (negative, s) := scanSign (s.dropWhile isSpace)
  (scanDigits hexValue 16 none (skipHex s)).map fun value =>
    BitVec.ofNat 32
      (if value ≥ 2 ^ 64 then 2 ^ 64 - 1 else if negative then 2 ^ 64 - value else value)

/-- `sscanf` with `%d`, which converts the number as `strtol` and stores it in 32 bits. -/
def scanInt (s : List Char) : Option ℤ :=
  let (negative, s) := scanSign (s.dropWhile isSpace)
  (scanDigits decValue 10 none s).map fun value =>
    (BitVec.ofInt 32
      (if negative then max (-(value : ℤ)) (-2 ^ 63) else min (value : ℤ) (2 ^ 63 - 1))).toInt

/-- Whether `sscanf` with `%lf` converts a number, which starts with a digit, or a decimal point
and a digit, or which is an infinity or not a number. -/
def scansDouble (s : List Char) : Bool :=
  match (scanSign (s.dropWhile isSpace)).2 with
  | '.' :: c :: _ => (decValue c).isSome
  | a :: b :: c :: s =>
      (decValue a).isSome || ['i', 'n', 'f'].isPrefixOf ((a :: b :: c :: s).map Char.toLower) ||
        ['n', 'a', 'n'].isPrefixOf ((a :: b :: c :: s).map Char.toLower)
  | a :: _ => (decValue a).isSome
  | [] => false

/-- A number which starts with a digit is converted. -/
theorem scansDouble_of_decValue {c : Char} (h : (decValue c).isSome = true) (s : List Char) :
    scansDouble (c :: s) = true := by
  have hdigit : 48 ≤ c.toNat ∧ c.toNat ≤ 57 := by
    rw [decValue] at h
    split at h
    next hrange => exact hrange
    next => cases h
  have hne : ∀ {d : Char}, d.toNat < 48 → c ≠ d := by
    rintro d hd rfl
    omega
  have hspace : (c :: s).dropWhile isSpace = c :: s := by
    have hlt : ' ' < c := (Nat.lt_of_lt_of_le (by decide) hdigit.1 : 32 < c.toNat)
    rw [List.dropWhile_cons, isSpace_of_lt hlt, if_neg Bool.false_ne_true]
  have hsign : scanSign (c :: s) = (false, c :: s) := by
    unfold scanSign
    split
    next heq => exact absurd (List.cons.inj heq).1 (hne (by decide))
    next heq => exact absurd (List.cons.inj heq).1 (hne (by decide))
    next => rfl
  unfold scansDouble
  rw [hspace, hsign]
  dsimp only
  split
  next heq => exact absurd (List.cons.inj heq).1 (hne (by decide))
  next heq =>
      rw [← (List.cons.inj heq).1, h]
      rfl
  next heq =>
      rw [← (List.cons.inj heq).1]
      exact h
  next heq => cases heq

/-- The last hexadecimal digits of a number, as they are printed by `%X`. -/
def hexDigits : ℕ → ℕ → List Char
  | 0, _ => []
  | k + 1, n => hexDigits k (n / 16) ++ [hexDigit (n % 16)]

theorem length_hexDigits (k n : ℕ) : (hexDigits k n).length = k := by
  induction k generalizing n with
  | zero => rfl
  | succ k ih => rw [hexDigits, List.length_append, ih, List.length_singleton]

theorem isSome_hexValue_of_mem_hexDigits {k n : ℕ} {c : Char} (h : c ∈ hexDigits k n) :
    (hexValue c).isSome = true := by
  induction k generalizing n with
  | zero => cases h
  | succ k ih =>
      rcases List.mem_append.mp h with h | h
      · exact ih h
      · obtain rfl := List.mem_singleton.mp h
        rw [hexValue_hexDigit _ (Nat.mod_lt n (by decide))]
        rfl

/-- The value of printed digits. -/
theorem scanDigits_hexDigits (k n before : ℕ) (s : List Char) :
    scanDigits hexValue 16 (some before) (hexDigits k n ++ s) =
      scanDigits hexValue 16 (some (before * 16 ^ k + n % 16 ^ k)) s := by
  induction k generalizing n s with
  | zero => simp [hexDigits, Nat.mod_one]
  | succ k ih =>
      rw [hexDigits, List.append_assoc, ih, List.singleton_append, scanDigits,
        hexValue_hexDigit _ (Nat.mod_lt n (by decide))]
      have hmod : n % 16 ^ (k + 1) = n / 16 % 16 ^ k * 16 + n % 16 := by
        rw [pow_succ', Nat.mod_mul, Nat.mul_comm, Nat.add_comm]
      dsimp only [Option.getD_some]
      rw [hmod, pow_succ]
      congr 2
      ring

/-- No sign and no base is before printed digits. -/
theorem scanSign_of_hexValue {s : List Char} (h : ∀ c ∈ s, (hexValue c).isSome = true) :
    scanSign s = (false, s) := by
  unfold scanSign
  split
  · exact absurd (h '-' List.mem_cons_self) (by decide)
  · exact absurd (h '+' List.mem_cons_self) (by decide)
  · rfl

theorem skipHex_of_hexValue {s : List Char} (h : ∀ c ∈ s, (hexValue c).isSome = true) :
    skipHex s = s := by
  unfold skipHex
  split
  next x c s' =>
      refine if_neg fun hx => ?_
      have hvalue := h x (List.mem_cons_of_mem _ List.mem_cons_self)
      rcases hx.1 with rfl | rfl
      · exact absurd hvalue (by decide)
      · exact absurd hvalue (by decide)
  · rfl

/-- Digits are printable. -/
theorem lt_of_hexValue {c : Char} (h : (hexValue c).isSome = true) : ' ' < c := by
  have hlt : ∀ {d : Char}, 32 < d.toNat → d ≤ c → ' ' < c :=
    fun hd hdc => Nat.lt_of_lt_of_le hd hdc
  rw [hexValue] at h
  split at h
  next hdigit => exact hlt (by decide) hdigit.1
  next =>
      split at h
      next hdigit => exact hlt (by decide) hdigit.1
      next =>
          split at h
          next hdigit => exact hlt (by decide) hdigit.1
          next => cases h

/-- **A printed number is scanned to the same number.** -/
theorem scanHex_hexDigits (id : BitVec 32) : scanHex (hexDigits 8 id.toNat) = some id := by
  have hvalue : ∀ c ∈ hexDigits 8 id.toNat, (hexValue c).isSome = true :=
    fun c => isSome_hexValue_of_mem_hexDigits
  have hspace : (hexDigits 8 id.toNat).dropWhile isSpace = hexDigits 8 id.toNat := by
    rw [List.dropWhile_eq_self_iff]
    intro hpos
    rw [isSpace_of_lt (lt_of_hexValue (hvalue _ (List.getElem_mem hpos)))]
    exact Bool.false_ne_true
  have hscan : scanDigits hexValue 16 none (hexDigits 8 id.toNat) = some id.toNat := by
    have hnone : ∀ s : List Char, s ≠ [] → (∀ c ∈ s, (hexValue c).isSome = true) →
        scanDigits hexValue 16 none s = scanDigits hexValue 16 (some 0) s := by
      intro s hs h
      cases s with
      | nil => exact absurd rfl hs
      | cons c s =>
          obtain ⟨digit, hdigit⟩ := Option.isSome_iff_exists.mp (h c List.mem_cons_self)
          rw [scanDigits, scanDigits, hdigit]
          rfl
    have hne : hexDigits 8 id.toNat ≠ [] := by
      rw [← List.length_pos_iff, length_hexDigits]
      decide
    have hdigits := scanDigits_hexDigits 8 id.toNat 0 []
    rw [List.append_nil, Nat.zero_mul, Nat.zero_add,
      Nat.mod_eq_of_lt (lt_of_lt_of_le id.isLt (by decide))] at hdigits
    rw [hnone _ hne hvalue, hdigits, scanDigits]
  rw [scanHex, hspace, scanSign_of_hexValue hvalue]
  dsimp only
  rw [skipHex_of_hexValue hvalue, hscan, Option.map_some, if_neg, if_neg Bool.false_ne_true,
    BitVec.ofNat_toNat, BitVec.setWidth_eq]
  have hlt := id.isLt
  omega

end Chrony
