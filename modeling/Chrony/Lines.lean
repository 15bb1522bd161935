import Chrony.Lib.Segments
import Chrony.Lib.Words
import Chrony.Strings

/-!
# Splitting of Lines in Place

Lines of configuration, key and dump files are normalised and split to words in the buffer which
they were read to: `CPS_NormalizeLine` and `CPS_SplitWord` of `cmdparse.c`, and `UTI_SplitString`
of `util.c`. The memory starts at the buffer, and a pointer is a position in it. A call gives
`none` if it writes outside of the string, or does not end in as many steps as there are
characters.

The words are those of `Lib.words`, whose iteration ends at the first missing word. A line of only
white-space has no words, although `CPS_SplitWord` leaves an empty one in it.

## Main results

* `normalizeLine_eq`, `normalized_normalized`: the normalised line in memory.
* `splitWords_eq`, `splitStringLoop_eq`: the words which are left in memory.
* `lines_words_agree`: the three functions find the same words.
-/

namespace Chrony

open Lib

/-! ### Strings in memory -/

/-- The characters from the beginning of a buffer. -/
abbrev Memory := ℕ → Char

/-- The character which terminates a string. -/
def nul : Char := Char.ofNat 0

/-- **The string at a position** of the memory. -/
structure IsString (mem : Memory) (p : ℕ) (s : List Char) : Prop where
  holds : Holds mem p s
  terminated : mem (p + s.length) = nul
  ne_nul : ∀ c ∈ s, c ≠ nul

/-- An assignment to a character of the original string, which has its terminating character at
the limit. -/
def store (limit : ℕ) (mem : Memory) (p : ℕ) (c : Char) : Option Memory :=
  if p ≤ limit then some (Function.update mem p c) else none

/-- A loop which skips characters up to the end of the string. -/
def skipWhile (mem : Memory) (cond : Char → Bool) : ℕ → ℕ → Option ℕ
  | 0, _ => none
  | fuel + 1, q =>
      if mem q ≠ nul ∧ cond (mem q) then skipWhile mem cond fuel (q + 1) else some q

/-! ### Normalisation -/

/-- The characters with which a comment starts. -/
def isCommentChar (c : Char) : Bool := c ∈ ['!', ';', '#', '%']

/-- The loop of `CPS_NormalizeLine`, where `p` is read and `q` is written. -/
def normalizeLoop (limit : ℕ) : ℕ → Memory → ℕ → ℕ → Bool → Bool → Option (Memory × ℕ)
  | 0, _, _, _, _, _ => none
  | fuel + 1, mem, p, q, space, first =>
      if mem p = nul then some (mem, q)
      else if isSpace (mem p) then
        if !space then do
          let mem' ← store limit mem q ' '
          normalizeLoop limit fuel mem' (p + 1) (q + 1) true first
        else normalizeLoop limit fuel mem (p + 1) q true first
      else if first ∧ isCommentChar (mem p) then some (mem, q)
      else do
        let mem' ← store limit mem q (mem p)
        normalizeLoop limit fuel mem' (p + 1) (q + 1) false false

/-- `CPS_NormalizeLine`. -/
def normalizeLine (limit : ℕ) (mem : Memory) : Option Memory := do
  let (mem, q) ← normalizeLoop limit (limit + 1) mem 0 0 true true
  let q := if q > 0 ∧ mem (q - 1) = ' ' then q - 1 else q
  store limit mem q nul

/-! ### Words of a line -/

/-- The loop of `CPS_SplitWord` which moves the word. -/
def moveWord (limit : ℕ) : ℕ → Memory → ℕ → ℕ → Option (Memory × ℕ × ℕ)
  | 0, _, _, _ => none
  | fuel + 1, mem, p, q =>
      if mem q ≠ nul ∧ !isSpace (mem q) then do
        let mem' ← store limit mem p (mem q)
        moveWord limit fuel mem' (p + 1) (q + 1)
      else some (mem, p, q)

/-- `CPS_SplitWord`. It returns the position of the next word. -/
def splitWord (limit : ℕ) (mem : Memory) (line : ℕ) : Option (Memory × ℕ) := do
  let q ← skipWhile mem isSpace (limit + 1) line
  let (mem, p, q) ← moveWord limit (limit + 1) mem line q
  let q ← skipWhile mem isSpace (limit + 1) q
  let mem ← store limit mem p nul
  some (mem, q)

/-- Calls of `CPS_SplitWord` until a word is missing, with the positions of the words. -/
def splitWords (limit : ℕ) : ℕ → Memory → ℕ → Option (Memory × List ℕ)
  | 0, _, _ => none
  | fuel + 1, mem, line => do
      let (mem, next) ← splitWord limit mem line
      if mem line = nul then some (mem, [])
      else
        let (mem, words) ← splitWords limit fuel mem next
        some (mem, line :: words)

/-! ### Words of a string -/

/-- The loop of `UTI_SplitString` over the characters before a word. -/
def zeroSpaces (limit : ℕ) : ℕ → Memory → ℕ → Option (Memory × ℕ)
  | 0, _, _ => none
  | fuel + 1, mem, s =>
      if mem s ≠ nul ∧ isSpace (mem s) then do
        let mem' ← store limit mem s nul
        zeroSpaces limit fuel mem' (s + 1)
      else some (mem, s)

/-- The loop of `UTI_SplitString`. It returns the positions which were saved and the number of
words. -/
def splitStringLoop (limit maxSavedWords : ℕ) :
    ℕ → Memory → ℕ → List ℕ → ℕ → Option (Memory × List ℕ × ℕ)
  | 0, _, _, _, _ => none
  | fuel + 1, mem, s, saved, i => do
      let (mem, s) ← zeroSpaces limit (limit + 1) mem s
      if mem s = nul then some (mem, saved, i)
      else
        let saved := if i < maxSavedWords then saved ++ [s] else saved
        let s ← skipWhile mem (fun c => !isSpace c) (limit + 1) s
        splitStringLoop limit maxSavedWords fuel mem s saved (i + 1)

/-- `UTI_SplitString`. -/
def splitStringInPlace (limit maxSavedWords : ℕ) (mem : Memory) : Option (Memory × List ℕ × ℕ) :=
  splitStringLoop limit maxSavedWords (limit + 1) mem 0 [] 0

/-! ### Reading of strings -/

namespace IsString

variable {mem mem' : Memory} {p q : ℕ} {c : Char} {s : List Char}

theorem head (h : IsString mem p (c :: s)) : mem p = c ∧ c ≠ nul :=
  ⟨h.holds.1, h.ne_nul c List.mem_cons_self⟩

theorem tail (h : IsString mem p (c :: s)) : IsString mem (p + 1) s where
  holds := h.holds.2
  terminated := by
    rw [← h.terminated, List.length_cons, Nat.add_right_comm, Nat.add_assoc]
  ne_nul d hd := h.ne_nul d (List.mem_cons_of_mem c hd)

theorem nil (h : mem p = nul) : IsString mem p [] := ⟨True.intro, h, nofun⟩

/-- The characters of a string up to the terminating one. -/
theorem congr (h : IsString mem p s) (heq : ∀ k, p ≤ k → k ≤ p + s.length → mem' k = mem k) :
    IsString mem' p s where
  holds := h.holds.congr fun k hk hlt => heq k hk hlt.le
  terminated := (heq _ (Nat.le_add_right p _) le_rfl).trans h.terminated
  ne_nul := h.ne_nul

/-- A string is not changed before its position. -/
theorem update_of_lt (h : IsString mem p s) (hq : q < p) :
    IsString (Function.update mem q c) p s :=
  h.congr fun k hk _ => Function.update_of_ne (by omega) c mem

end IsString

section Scans

variable {mem : Memory} {p : ℕ} {s : List Char}

/-- **Characters are skipped** up to the first one which does not meet the condition. -/
theorem skipWhile_eq (cond : Char → Bool) {fuel : ℕ} (h : IsString mem p s)
    (hfuel : s.length < fuel) :
    skipWhile mem cond fuel p = some (p + (s.takeWhile cond).length) ∧
      IsString mem (p + (s.takeWhile cond).length) (s.dropWhile cond) := by
  induction s generalizing fuel p with
  | nil =>
      cases fuel with
      | zero => cases hfuel
      | succ fuel =>
          rw [skipWhile, if_neg fun hne => hne.1 h.terminated]
          exact ⟨rfl, h⟩
  | cons c s ih =>
      cases fuel with
      | zero => cases hfuel
      | succ fuel =>
          obtain ⟨hc, hne⟩ := h.head
          rw [skipWhile, hc, List.takeWhile_cons, List.dropWhile_cons]
          cases hcond : cond c with
          | false =>
              rw [if_neg (by simp)]
              exact ⟨rfl, h⟩
          | true =>
              rw [if_pos ⟨hne, rfl⟩, if_pos rfl, if_pos rfl, List.length_cons]
              have hrest := ih h.tail (Nat.lt_of_succ_lt_succ hfuel)
              rwa [Nat.add_assoc, Nat.add_comm 1] at hrest

end Scans

/-! ### Normalised lines -/

/-- A line whose first word starts with a character of comments. -/
def IsComment (line : List Char) : Prop :=
  (line.dropWhile isSpace).head?.any isCommentChar = true

instance (line : List Char) : Decidable (IsComment line) :=
  inferInstanceAs (Decidable (_ = true))

/-- **The normalised line**: the words are separated by single spaces, and there are none in a
comment. -/
def normalized (line : List Char) : List Char :=
  if IsComment line then [] else [' '].intercalate (words isSpace line)

/-- The characters which are written for the rest of a line. -/
def normalizeFrom (space first : Bool) : List Char → List Char
  | [] => []
  | c :: s =>
      if isSpace c then
        if !space then ' ' :: normalizeFrom true first s else normalizeFrom true first s
      else if first ∧ isCommentChar c then []
      else c :: normalizeFrom false false s

/-- A trailing space is stripped. -/
def stripSpace (s : List Char) : List Char := if s.getLast? = some ' ' then s.dropLast else s

theorem stripSpace_cons {c d : Char} {s : List Char} :
    stripSpace (c :: d :: s) = c :: stripSpace (d :: s) := by
  rw [stripSpace, stripSpace, List.getLast?_cons_cons]
  split
  · rfl
  · rfl

theorem stripSpace_append (l : List Char) {s : List Char} (hs : s ≠ []) :
    stripSpace (l ++ s) = l ++ stripSpace s := by
  induction l with
  | nil => rfl
  | cons c l ih =>
      obtain ⟨d, s', hd⟩ := List.exists_cons_of_ne_nil
        (List.append_ne_nil_of_right_ne_nil l hs)
      rw [List.cons_append, List.cons_append, ← ih, hd, stripSpace_cons]

/-- Words have no trailing space. -/
theorem stripSpace_word {w : List Char} (hw : Word isSpace w) : stripSpace w = w := by
  refine if_neg fun hlast => ?_
  exact absurd (hw.not_sep ' ' (List.mem_of_getLast? hlast)) (by decide)

/-- **The loop writes the words**, after a part of a word, and after a word and a space. -/
theorem stripSpace_normalizeFrom {w : List Char} (hw : Word isSpace w) (s : List Char) :
    stripSpace (w ++ normalizeFrom false false s) =
        [' '].intercalate (words isSpace (w ++ s)) ∧
      stripSpace (w ++ ' ' :: normalizeFrom true false s) =
        [' '].intercalate (w :: words isSpace s) := by
  induction s generalizing w with
  | nil =>
      rw [normalizeFrom, normalizeFrom, List.append_nil, words_word hw, words_nil,
        List.intercalate_singleton, stripSpace_word hw, stripSpace_append w (List.cons_ne_nil _ _)]
      exact ⟨rfl, List.append_nil w⟩
  | cons c s ih =>
      cases hc : isSpace c with
      | true =>
          have hskip : normalizeFrom true false (c :: s) = normalizeFrom true false s := by
            rw [normalizeFrom, if_pos hc]
            rfl
          have hspace : normalizeFrom false false (c :: s) =
              ' ' :: normalizeFrom true false s := by
            rw [normalizeFrom, if_pos hc]
            rfl
          rw [hskip, hspace, words_append_cons hw hc, words_cons_sep hc]
          exact ⟨(ih hw).2, (ih hw).2⟩
      | false =>
          have hchar : ∀ space, normalizeFrom space false (c :: s) =
              c :: normalizeFrom false false s := by
            intro space
            rw [normalizeFrom, if_neg (by simp [hc]), if_neg (by simp)]
          rw [hchar, hchar]
          constructor
          · rw [List.append_cons w c (normalizeFrom false false s), List.append_cons w c s]
            exact (ih (hw.append hc)).1
          · obtain ⟨hword, hwords⟩ := words_eq_cons hc s
            have hne : words isSpace (c :: s) ≠ [] := hwords ▸ List.cons_ne_nil _ _
            rw [stripSpace_append w (List.cons_ne_nil _ _), stripSpace_cons,
              List.intercalate_cons_of_ne_nil hne, List.append_assoc]
            refine congrArg (w ++ ' ' :: ·) ?_
            exact (ih (word_singleton hc)).1

/-- **What is written for a line is the normalised line.** -/
theorem stripSpace_normalize (line : List Char) :
    stripSpace (normalizeFrom true true line) = normalized line := by
  induction line with
  | nil => rfl
  | cons c s ih =>
      cases hc : isSpace c with
      | true =>
          have hcomment : IsComment (c :: s) ↔ IsComment s := by
            rw [IsComment, IsComment, List.dropWhile_cons, if_pos hc]
          rw [normalizeFrom, if_pos hc, if_neg (by simp), ih]
          simp only [normalized, hcomment, words_cons_sep hc]
      | false =>
          have hcomment : IsComment (c :: s) ↔ isCommentChar c = true := by
            rw [IsComment, List.dropWhile_cons, if_neg (by simp [hc]), List.head?_cons,
              Option.any_some]
          simp only [normalizeFrom, normalized, hcomment, hc, true_and]
          rw [if_neg Bool.false_ne_true]
          split
          · rfl
          · exact (stripSpace_normalizeFrom (word_singleton hc) s).1

/-- An assignment inside of the original string. -/
theorem store_eq {limit p : ℕ} (h : p ≤ limit) (mem : Memory) (c : Char) :
    store limit mem p c = some (Function.update mem p c) :=
  if_pos h

/-- **The loop of the normalisation.** Nothing is written at or after the character which is
read next. -/
theorem normalizeLoop_eq {limit fuel p : ℕ} {mem : Memory} {out s : List Char}
    (space first : Bool) (h : IsString mem p s) (hlimit : p + s.length ≤ limit)
    (hfuel : s.length < fuel) (hout : Holds mem 0 out) (hq : out.length ≤ p) :
    ∃ mem', normalizeLoop limit fuel mem p out.length space first =
        some (mem', (out ++ normalizeFrom space first s).length) ∧
      Holds mem' 0 (out ++ normalizeFrom space first s) ∧
      (out ++ normalizeFrom space first s).length ≤ limit ∧ ∀ k > limit, mem' k = mem k := by
  induction s generalizing fuel p mem out space first with
  | nil =>
      cases fuel with
      | zero => cases hfuel
      | succ fuel =>
          have hnul : mem p = nul := h.terminated
          rw [normalizeLoop, if_pos hnul, normalizeFrom, List.append_nil]
          exact ⟨mem, rfl, hout, by rw [List.length_nil] at hlimit; omega, fun _ _ => rfl⟩
  | cons c s ih =>
      cases fuel with
      | zero => cases hfuel
      | succ fuel =>
          obtain ⟨hc, hne⟩ := h.head
          rw [List.length_cons] at hlimit hfuel
          -- a character is written at the end of the output
          have hwrite : ∀ (d : Char) (space first : Bool),
              ∃ mem', (store limit mem out.length d >>= fun mem' =>
                  normalizeLoop limit fuel mem' (p + 1) (out.length + 1) space first) =
                some (mem', (out ++ d :: normalizeFrom space first s).length) ∧
              Holds mem' 0 (out ++ d :: normalizeFrom space first s) ∧
              (out ++ d :: normalizeFrom space first s).length ≤ limit ∧
              ∀ k > limit, mem' k = mem k := by
            intro d space first
            have hih := ih space first (h.tail.update_of_lt (c := d) (Nat.lt_succ_of_le hq))
              (by omega) (Nat.lt_of_succ_lt_succ hfuel) (hout.push (Nat.zero_add _).symm)
              (by rw [List.length_append, List.length_singleton]; omega)
            rw [List.append_assoc, List.singleton_append, List.length_append,
              List.length_singleton] at hih
            obtain ⟨mem', hloop, hholds, hle, hframe⟩ := hih
            rw [store_eq (by omega)]
            refine ⟨mem', hloop, hholds, hle, fun k hk => ?_⟩
            rw [hframe k hk, Function.update_of_ne (by omega)]
          have hskip := fun first => ih true first h.tail (by omega)
            (Nat.lt_of_succ_lt_succ hfuel) hout (Nat.le_succ_of_le hq)
          rw [normalizeLoop, hc, if_neg hne, normalizeFrom]
          split
          · split
            · exact hwrite ' ' true first
            · exact hskip first
          · split
            · rw [List.append_nil]
              exact ⟨mem, rfl, hout, by omega, fun _ _ => rfl⟩
            · exact hwrite c false false

theorem mem_normalizeFrom {c : Char} {s : List Char} {space first : Bool}
    (h : c ∈ normalizeFrom space first s) : c = ' ' ∨ c ∈ s := by
  induction s generalizing space first with
  | nil => cases h
  | cons d s ih =>
      have hrest : ∀ {space first}, c ∈ normalizeFrom space first s → c = ' ' ∨ c ∈ d :: s :=
        fun hc => (ih hc).imp_right (List.mem_cons_of_mem d)
      rw [normalizeFrom] at h
      split at h
      · split at h
        · exact (List.mem_cons.mp h).elim Or.inl hrest
        · exact hrest h
      · split at h
        · cases h
        · exact (List.mem_cons.mp h).elim (fun hc => .inr (hc ▸ List.mem_cons_self)) hrest

/-- The position after the last character which is not stripped. -/
theorem strip_position {mem : Memory} {out : List Char} (h : Holds mem 0 out) :
    (if out.length > 0 ∧ mem (out.length - 1) = ' ' then out.length - 1 else out.length) =
      (stripSpace out).length := by
  rcases List.eq_nil_or_concat' out with rfl | ⟨l, c, rfl⟩
  · rfl
  · have hlast : mem l.length = c := by
      have hc := (holds_append.mp h).2.1
      rwa [Nat.zero_add] at hc
    rw [stripSpace, List.length_append, List.length_singleton, Nat.add_sub_cancel, hlast,
      List.getLast?_concat, List.dropLast_concat]
    by_cases hc : c = ' '
    · rw [if_pos ⟨Nat.succ_pos _, hc⟩, if_pos (congrArg some hc)]
    · rw [if_neg fun h => hc h.2, if_neg fun h => hc (Option.some.inj h), List.length_append,
        List.length_singleton]

theorem stripSpace_isPrefix (s : List Char) : stripSpace s <+: s := by
  rw [stripSpace]
  split
  · exact List.dropLast_prefix s
  · exact List.prefix_rfl

/-- **A line is normalised** inside of the original string. -/
theorem normalizeLine_eq {mem : Memory} {line : List Char} (h : IsString mem 0 line) :
    ∃ mem', normalizeLine line.length mem = some mem' ∧ IsString mem' 0 (normalized line) ∧
      ∀ k > line.length, mem' k = mem k := by
  have hnone : Holds mem 0 [] := True.intro
  obtain ⟨mem₁, hloop, hholds, hlen, hframe⟩ := normalizeLoop_eq true true h
    (Nat.zero_add _).le (Nat.lt_add_one line.length) hnone le_rfl
  rw [List.nil_append] at hloop hholds hlen
  rw [List.length_nil] at hloop
  rw [← stripSpace_normalize]
  generalize hout : normalizeFrom true true line = out at *
  have hpre := stripSpace_isPrefix out
  have hstrip : (stripSpace out).length ≤ line.length := hpre.length_le.trans hlen
  refine ⟨Function.update mem₁ (stripSpace out).length nul, ?_, ?_, fun k hk => ?_⟩
  · rw [normalizeLine, hloop, ← store_eq hstrip]
    exact congrArg (store line.length mem₁ · nul) (strip_position hholds)
  · obtain ⟨rest, hrest⟩ := hpre
    have hpart : Holds mem₁ 0 (stripSpace out) := (holds_append.mp (hrest ▸ hholds)).1
    refine ⟨hpart.update_of_le (Nat.zero_add _).le, ?_, fun c hc => ?_⟩
    · rw [Nat.zero_add, Function.update_self]
    · have hmem : c ∈ normalizeFrom true true line :=
        hout ▸ hrest ▸ List.mem_append_left rest hc
      rcases mem_normalizeFrom hmem with rfl | hc
      · decide
      · exact h.ne_nul c hc
  · rw [Function.update_of_ne (by omega), hframe k hk]

/-- A line is a comment if its first word starts with a character of comments. -/
theorem isComment_iff {line : List Char} : IsComment line ↔
    ((words isSpace line).head?.bind List.head?).any isCommentChar = true := by
  rw [IsComment, ← words_dropWhile]
  have hhead := List.head?_dropWhile_not isSpace line
  cases hline : line.dropWhile isSpace with
  | nil =>
      rw [words_nil]
      rfl
  | cons c s =>
      rw [hline] at hhead
      have hc : isSpace c = false := by simpa using hhead
      rw [(words_eq_cons hc s).2, List.takeWhile_cons, hc]
      rfl

theorem words_normalized {line : List Char} (h : ¬ IsComment line) :
    words isSpace (normalized line) = words isSpace line := by
  rw [normalized, if_neg h, words_intercalate (by decide) fun _ => word_of_mem_words]

/-- **The normalisation of a normalised line** changes nothing. -/
theorem normalized_normalized (line : List Char) :
    normalized (normalized line) = normalized line := by
  by_cases h : IsComment line
  · rw [normalized, normalized, if_pos h]
    rfl
  · have hwords := words_normalized h
    have hline : ¬ IsComment (normalized line) := by rwa [isComment_iff, hwords, ← isComment_iff]
    rw [normalized, if_neg hline, hwords, normalized, if_neg h]

/-! ### Words in memory -/

/-- The first word of a string. -/
def firstWord (s : List Char) : List Char := (s.dropWhile isSpace).takeWhile (!isSpace ·)

/-- The string after its first word, which starts with a space if it is not empty. -/
def afterWord (s : List Char) : List Char := (s.dropWhile isSpace).dropWhile (!isSpace ·)

/-- A string has no words, or its first word is followed by other words. -/
theorem firstWord_cases (s : List Char) :
    s.dropWhile isSpace = [] ∧ words isSpace s = [] ∨
      Word isSpace (firstWord s) ∧
        words isSpace s = firstWord s :: words isSpace (afterWord s) := by
  have hhead := List.head?_dropWhile_not isSpace s
  rw [← words_dropWhile, firstWord, afterWord]
  cases hs : s.dropWhile isSpace with
  | nil => exact .inl ⟨rfl, words_nil⟩
  | cons c t =>
      rw [hs] at hhead
      exact .inr (words_eq_cons (by simpa using hhead) t)

/-- The parts of a string. -/
theorem length_parts (s : List Char) : (s.takeWhile isSpace).length + (s.dropWhile isSpace).length =
    s.length := by
  rw [← List.length_append, List.takeWhile_append_dropWhile]

theorem length_word (s : List Char) :
    (firstWord s).length + (afterWord s).length = (s.dropWhile isSpace).length := by
  rw [firstWord, afterWord, ← List.length_append, List.takeWhile_append_dropWhile]

/-- What follows a word starts with a space. -/
theorem isSpace_afterWord {s : List Char} : ∀ c ∈ (afterWord s).head?, isSpace c = true := by
  intro c hc
  have hhead := List.head?_dropWhile_not (!isSpace ·) (s.dropWhile isSpace)
  rw [← afterWord, Option.mem_def.mp hc] at hhead
  simpa using hhead

theorem dropWhile_afterWord_length {s : List Char} (h : afterWord s ≠ []) :
    ((afterWord s).dropWhile isSpace).length < (afterWord s).length := by
  have hhead := isSpace_afterWord (s := s)
  obtain ⟨c, t, ht⟩ := List.exists_cons_of_ne_nil h
  rw [ht] at hhead ⊢
  rw [List.dropWhile_cons, if_pos (hhead c rfl)]
  exact Nat.lt_succ_of_le (List.dropWhile_suffix isSpace).length_le

/-- **A word is moved** to a position before it, or left where it is. -/
theorem moveWord_eq {limit fuel q : ℕ} (p : ℕ) {mem : Memory} {s : List Char} (h : IsString mem q s)
    (hpq : p ≤ q) (hlimit : q + s.length ≤ limit) (hfuel : s.length < fuel) :
    ∃ mem', moveWord limit fuel mem p q = some (mem', p + (s.takeWhile (!isSpace ·)).length,
        q + (s.takeWhile (!isSpace ·)).length) ∧
      Holds mem' p (s.takeWhile (!isSpace ·)) ∧
      IsString mem' (q + (s.takeWhile (!isSpace ·)).length) (s.dropWhile (!isSpace ·)) ∧
      ∀ k, k < p ∨ p + (s.takeWhile (!isSpace ·)).length ≤ k → mem' k = mem k := by
  induction s generalizing fuel p q mem with
  | nil =>
      cases fuel with
      | zero => cases hfuel
      | succ fuel =>
          rw [moveWord, if_neg fun hne => hne.1 h.terminated]
          exact ⟨mem, rfl, True.intro, h, fun _ _ => rfl⟩
  | cons c s ih =>
      cases fuel with
      | zero => cases hfuel
      | succ fuel =>
          obtain ⟨hc, hne⟩ := h.head
          rw [List.length_cons] at hlimit hfuel
          rw [moveWord, hc, List.takeWhile_cons, List.dropWhile_cons]
          cases hspace : isSpace c with
          | true =>
              rw [if_neg (by simp)]
              exact ⟨mem, rfl, True.intro, h, fun _ _ => rfl⟩
          | false =>
              obtain ⟨mem', hmove, hword, hrest, hframe⟩ := ih (p + 1)
                (h.tail.update_of_lt (c := c) (Nat.lt_succ_of_le hpq)) (Nat.add_le_add_right hpq 1)
                (by omega) (Nat.lt_of_succ_lt_succ hfuel)
              rw [if_pos ⟨hne, rfl⟩, store_eq (by omega), Option.bind_eq_bind, Option.bind_some,
                hmove, Bool.not_false, if_pos rfl, if_pos rfl, List.length_cons]
              rw [Nat.add_assoc, Nat.add_comm 1] at hframe hrest ⊢
              rw [Nat.add_assoc, Nat.add_comm 1]
              refine ⟨mem', rfl, ⟨?_, hword⟩, hrest, fun k hk => ?_⟩
              · rw [hframe p (.inl (Nat.lt_succ_self p)), Function.update_self]
              · rw [hframe k (by omega), Function.update_of_ne (by omega)]

/-- **`CPS_SplitWord`** leaves the first word at the beginning of the string and the following
words at the returned position. -/
theorem splitWord_eq {limit line : ℕ} {mem : Memory} {s : List Char} (h : IsString mem line s)
    (hlimit : line + s.length ≤ limit) :
    ∃ mem' next, splitWord limit mem line = some (mem', next) ∧
      IsString mem' line (firstWord s) ∧
      IsString mem' next ((afterWord s).dropWhile isSpace) ∧
      line + (firstWord s).length ≤ next ∧
      (line + (firstWord s).length = next → (afterWord s).dropWhile isSpace = []) ∧
      next + ((afterWord s).dropWhile isSpace).length = line + s.length ∧
      ∀ k, k < line ∨ line + s.length ≤ k → mem' k = mem k := by
  have hs := length_parts s
  have hw := length_word s
  have ha := length_parts (afterWord s)
  obtain ⟨hskip, hu⟩ := skipWhile_eq isSpace h (show s.length < limit + 1 by omega)
  obtain ⟨mem₁, hmove, hword, hrest, hframe⟩ := moveWord_eq line hu (by omega)
    (show _ ≤ limit by omega) (show _ < limit + 1 by omega)
  rw [← firstWord] at hmove hword hrest hframe
  rw [← afterWord] at hrest
  obtain ⟨hskip', hnext⟩ := skipWhile_eq isSpace hrest (show _ < limit + 1 by omega)
  generalize hpos : line + (s.takeWhile isSpace).length + (firstWord s).length +
    ((afterWord s).takeWhile isSpace).length = next at hskip' hnext
  -- the word ends before the next one
  have hend : line + (firstWord s).length = next → afterWord s = [] := by
    intro heq
    by_contra hne
    have hlt := dropWhile_afterWord_length hne
    omega
  refine ⟨Function.update mem₁ (line + (firstWord s).length) nul, next, ?_, ?_, ?_, by omega, ?_,
    by omega, fun k hk => ?_⟩
  · rw [splitWord, hskip, Option.bind_eq_bind, Option.bind_some, hmove, Option.bind_eq_bind,
      Option.bind_some]
    dsimp only
    rw [hskip', Option.bind_some, store_eq (by omega)]
    rfl
  · refine ⟨hword.update_of_le le_rfl, Function.update_self _ _ _, fun c hc => ?_⟩
    exact hu.ne_nul c ((List.takeWhile_prefix _).subset hc)
  · by_cases heq : line + (firstWord s).length = next
    · rw [hend heq, ← heq]
      exact .nil (Function.update_self _ _ _)
    · exact hnext.update_of_lt (by omega)
  · intro heq
    rw [hend heq, List.dropWhile_nil]
  · by_cases heq : k = line + (firstWord s).length
    · have hlast : k = line + s.length := by omega
      rw [heq, Function.update_self, ← heq, hlast, h.terminated]
    · rw [Function.update_of_ne heq, hframe k (by omega)]

/-- **The words of a line** are found by calls of `CPS_SplitWord`. -/
theorem splitWords_eq {limit fuel line : ℕ} {mem : Memory} {s : List Char}
    (h : IsString mem line s) (hlimit : line + s.length ≤ limit) (hfuel : s.length < fuel) :
    ∃ mem' ps, splitWords limit fuel mem line = some (mem', ps) ∧
      List.Forall₂ (IsString mem') ps (words isSpace s) ∧
      ∀ k, k < line ∨ line + s.length ≤ k → mem' k = mem k := by
  induction fuel generalizing line mem s with
  | zero => cases hfuel
  | succ fuel ih =>
      obtain ⟨mem₁, next, hsplit, hword, hrest, hend, hlast, hlen, hframe⟩ := splitWord_eq h hlimit
      rw [splitWords, hsplit, Option.bind_eq_bind, Option.bind_some]
      dsimp only
      rcases firstWord_cases s with ⟨hs, hwords⟩ | ⟨hw, hwords⟩
      · have hnil : firstWord s = [] := by rw [firstWord, hs, List.takeWhile_nil]
        have hnul : mem₁ line = nul := (hnil ▸ hword).terminated
        rw [if_pos hnul, hwords]
        exact ⟨mem₁, [], rfl, .nil, hframe⟩
      · have hpos : 0 < (firstWord s).length := List.length_pos_iff.mpr hw.ne_nil
        have hne : mem₁ line ≠ nul := by
          obtain ⟨c, w, hcw⟩ := List.exists_cons_of_ne_nil hw.ne_nil
          obtain ⟨hc, hnul⟩ := (hcw ▸ hword).head
          exact hc ▸ hnul
        obtain ⟨mem', ps, hps, hall, hframe'⟩ := ih hrest (by omega) (by omega)
        rw [if_neg hne, hps, hwords, ← words_dropWhile (afterWord s)]
        refine ⟨mem', line :: ps, rfl, .cons (hword.congr fun k hk hle => hframe' k ?_) hall,
          fun k hk => ?_⟩
        · by_cases heq : line + (firstWord s).length = next
          · rw [hlast heq, List.length_nil]
            omega
          · omega
        · rw [hframe' k (by omega), hframe k hk]

/-- **Spaces before a word** are zeroed. -/
theorem zeroSpaces_eq {limit fuel p : ℕ} {mem : Memory} {s : List Char} (h : IsString mem p s)
    (hlimit : p + s.length ≤ limit) (hfuel : s.length < fuel) :
    ∃ mem', zeroSpaces limit fuel mem p = some (mem', p + (s.takeWhile isSpace).length) ∧
      IsString mem' (p + (s.takeWhile isSpace).length) (s.dropWhile isSpace) ∧
      (∀ k, p ≤ k → k < p + (s.takeWhile isSpace).length → mem' k = nul) ∧
      ∀ k, k < p ∨ p + (s.takeWhile isSpace).length ≤ k → mem' k = mem k := by
  induction s generalizing fuel p mem with
  | nil =>
      cases fuel with
      | zero => cases hfuel
      | succ fuel =>
          rw [zeroSpaces, if_neg fun hne => hne.1 h.terminated]
          exact ⟨mem, rfl, h, fun k hk hlt => absurd hk (Nat.not_le.mpr hlt), fun _ _ => rfl⟩
  | cons c s ih =>
      cases fuel with
      | zero => cases hfuel
      | succ fuel =>
          obtain ⟨hc, hne⟩ := h.head
          rw [List.length_cons] at hlimit hfuel
          rw [zeroSpaces, hc, List.takeWhile_cons, List.dropWhile_cons]
          cases hspace : isSpace c with
          | false =>
              rw [if_neg (by simp)]
              exact ⟨mem, rfl, h, fun k hk hlt => absurd hk (Nat.not_le.mpr hlt), fun _ _ => rfl⟩
          | true =>
              obtain ⟨mem', hzero, hrest, hnul, hframe⟩ := ih
                (h.tail.update_of_lt (c := nul) (Nat.lt_succ_self p)) (by omega)
                (Nat.lt_of_succ_lt_succ hfuel)
              rw [if_pos ⟨hne, rfl⟩, store_eq (by omega), Option.bind_eq_bind, Option.bind_some,
                hzero, if_pos rfl, if_pos rfl, List.length_cons]
              rw [Nat.add_assoc, Nat.add_comm 1] at hframe hrest hnul ⊢
              refine ⟨mem', rfl, hrest, fun k hk hlt => ?_, fun k hk => ?_⟩
              · by_cases heq : k = p
                · rw [hframe k (by omega), heq, Function.update_self]
                · exact hnul k (by omega) hlt
              · rw [hframe k (by omega), Function.update_of_ne (by omega)]

/-- **The words of a string** are found by `UTI_SplitString`, with the last character before the
next word zeroed. -/
theorem splitStringLoop_eq {limit fuel p : ℕ} {mem : Memory} {s : List Char}
    (maxSavedWords i : ℕ) (saved : List ℕ) (h : IsString mem p s) (hlimit : p + s.length ≤ limit)
    (hfuel : s.length < fuel) :
    ∃ mem' ps, splitStringLoop limit maxSavedWords fuel mem p saved i =
        some (mem', saved ++ ps.take (maxSavedWords - i), i + ps.length) ∧
      List.Forall₂ (IsString mem') ps (words isSpace s) ∧
      ((∀ c ∈ s.head?, isSpace c = true) → mem' p = nul) ∧
      ∀ k, k < p ∨ p + s.length ≤ k → mem' k = mem k := by
  induction fuel generalizing p mem s saved i with
  | zero => cases hfuel
  | succ fuel ih =>
      have hs := length_parts s
      have hw := length_word s
      obtain ⟨mem₁, hzero, hu, hnul, hframe⟩ :=
        zeroSpaces_eq h hlimit (show _ < limit + 1 by omega)
      rw [splitStringLoop, hzero, Option.bind_eq_bind, Option.bind_some]
      dsimp only
      -- the first character is zeroed if it is not in a word
      have hfirst : (∀ c ∈ s.head?, isSpace c = true) → mem₁ p = nul := by
        intro hhead
        cases s with
        | nil => exact hu.terminated
        | cons c t =>
            refine hnul p le_rfl ?_
            rw [List.takeWhile_cons, if_pos (hhead c rfl)]
            exact Nat.lt_add_of_pos_right (Nat.succ_pos _)
      rcases firstWord_cases s with ⟨hdrop, hwords⟩ | ⟨hword, hwords⟩
      · have hmem : mem₁ (p + (s.takeWhile isSpace).length) = nul := (hdrop ▸ hu).terminated
        rw [if_pos hmem, hwords]
        refine ⟨mem₁, [], ?_, .nil, hfirst, fun k hk => hframe k (by omega)⟩
        rw [List.take_nil, List.append_nil]
        rfl
      · obtain ⟨c, t, hct⟩ := List.exists_cons_of_ne_nil (l := s.dropWhile isSpace)
          fun hnil => hword.ne_nil (by rw [firstWord, hnil, List.takeWhile_nil])
        have hne : mem₁ (p + (s.takeWhile isSpace).length) ≠ nul := by
          obtain ⟨hc, hcnul⟩ := (hct ▸ hu).head
          exact hc ▸ hcnul
        obtain ⟨hskip, hrest⟩ :=
          skipWhile_eq (!isSpace ·) hu (show _ < limit + 1 by omega)
        rw [← firstWord] at hskip hrest
        rw [← afterWord] at hrest
        have hpos : 0 < (firstWord s).length := List.length_pos_iff.mpr hword.ne_nil
        generalize hstart : p + (s.takeWhile isSpace).length = start at *
        rw [if_neg hne, hskip, Option.bind_eq_bind, Option.bind_some, hwords]
        obtain ⟨mem', ps, hps, hall, hzeroed, hframe'⟩ := ih (i + 1)
          (if i < maxSavedWords then saved ++ [start] else saved) hrest (by omega) (by omega)
        refine ⟨mem', start :: ps, ?_, .cons ?_ hall, fun hhead => ?_, fun k hk => ?_⟩
        · rw [hps, List.length_cons, Nat.add_assoc, Nat.add_comm 1]
          split
          next hi =>
              rw [show maxSavedWords - i = maxSavedWords - (i + 1) + 1 by omega,
                List.take_succ_cons, List.append_assoc, List.singleton_append]
          next hi =>
              rw [Nat.sub_eq_zero_of_le (Nat.not_lt.mp hi),
                Nat.sub_eq_zero_of_le (Nat.le_succ_of_le (Nat.not_lt.mp hi)), List.take_zero,
                List.take_zero]
        · refine ⟨?_, ?_, fun d hd => ?_⟩
          · have hparts := hu.holds
            rw [← List.takeWhile_append_dropWhile (p := (!isSpace ·)) (l := s.dropWhile isSpace),
              holds_append] at hparts
            exact hparts.1.congr fun k _ hlt => hframe' k (.inl hlt)
          · exact hzeroed isSpace_afterWord
          · exact hu.ne_nul d ((List.takeWhile_prefix _).subset hd)
        · have hp : p ≠ start := fun heq => hne (heq ▸ hfirst hhead)
          rw [hframe' p (by omega), hfirst hhead]
        · rw [hframe' k (by omega), hframe k (by omega)]

theorem splitFrom_eq {w : List Char} (hw : ∀ c ∈ w, isSpace c = false) (s : List Char) :
    splitFrom w s = words isSpace (w ++ s) := by
  induction s generalizing w with
  | nil =>
      rw [splitFrom, List.append_nil]
      split
      next hnil => rw [hnil, words_nil]
      next hne => rw [words_word ⟨hne, hw⟩]
  | cons c s ih =>
      rw [splitFrom]
      split
      next hc =>
          rw [ih (List.forall_mem_nil _), List.nil_append]
          split
          next hnil => rw [hnil, List.nil_append, words_cons_sep hc]
          next hne => rw [words_append_cons ⟨hne, hw⟩ hc]
      next hc =>
          have hc : isSpace c = false := Bool.eq_false_iff.mpr hc
          have hword : ∀ d ∈ w ++ [c], isSpace d = false :=
            List.forall_mem_append.mpr ⟨hw, fun d hd => List.mem_singleton.mp hd ▸ hc⟩
          rw [ih hword, List.append_assoc, List.singleton_append]

/-- The words which are found in memory are those of the function on lists. -/
theorem splitString_eq (s : List Char) : splitString s = words isSpace s :=
  splitFrom_eq (List.forall_mem_nil _) s

/-- **Normalised lines and words agree.** The normalisation of a line, whose string is not changed
by another one, is empty for a comment, and consists of the words separated by single spaces
otherwise. The words of the line are found by `CPS_SplitWord` in the line and, unless it is a
comment, in the normalised line, and by `UTI_SplitString`, which saves as many of them as it was
asked for. Nothing is written outside of the string. -/
theorem lines_words_agree {mem : Memory} {line : List Char} (h : IsString mem 0 line) :
    ∃ normal, normalizeLine line.length mem = some normal ∧
      IsString normal 0 (if IsComment line then [] else [' '].intercalate (words isSpace line)) ∧
      (∀ k > line.length, normal k = mem k) ∧
      (∃ again, normalizeLine (normalized line).length normal = some again ∧
        IsString again 0 (normalized line) ∧
        ∀ k > (normalized line).length, again k = normal k) ∧
      (∃ mem' ps, splitWords line.length (line.length + 1) mem 0 = some (mem', ps) ∧
        List.Forall₂ (IsString mem') ps (words isSpace line) ∧
        ∀ k > line.length, mem' k = mem k) ∧
      (∃ mem' ps, splitWords (normalized line).length ((normalized line).length + 1) normal 0 =
          some (mem', ps) ∧
        List.Forall₂ (IsString mem') ps (if IsComment line then [] else words isSpace line) ∧
        ∀ k > (normalized line).length, mem' k = normal k) ∧
      ∀ maxSavedWords, ∃ mem' ps, splitStringInPlace line.length maxSavedWords mem =
          some (mem', ps.take maxSavedWords, ps.length) ∧
        List.Forall₂ (IsString mem') ps (words isSpace line) ∧
        ∀ k > line.length, mem' k = mem k := by
  have hwords : words isSpace (normalized line) =
      if IsComment line then [] else words isSpace line := by
    split
    next hcomment => rw [normalized, if_pos hcomment, words_nil]
    next hcomment => exact words_normalized hcomment
  obtain ⟨normal, hnormal, hline, hframe⟩ := normalizeLine_eq h
  refine ⟨normal, hnormal, hline, hframe, ?_, ?_, ?_, fun maxSavedWords => ?_⟩
  · have hagain := normalizeLine_eq hline
    rwa [normalized_normalized] at hagain
  · obtain ⟨mem', ps, hps, hall, hkept⟩ :=
      splitWords_eq h (Nat.zero_add _).le (Nat.lt_succ_self _)
    exact ⟨mem', ps, hps, hall, fun k hk => hkept k (by omega)⟩
  · obtain ⟨mem', ps, hps, hall, hkept⟩ :=
      splitWords_eq hline (Nat.zero_add _).le (Nat.lt_succ_self _)
    exact ⟨mem', ps, hps, hwords ▸ hall, fun k hk => hkept k (by omega)⟩
  · obtain ⟨mem', ps, hps, hall, -, hkept⟩ := splitStringLoop_eq maxSavedWords 0 [] h
      (Nat.zero_add _).le (Nat.lt_succ_self _)
    rw [List.nil_append, Nat.zero_add] at hps
    exact ⟨mem', ps, hps, hall, fun k hk => hkept k (by omega)⟩

/-- A line with leading and repeated spaces. -/
theorem lines_words_agree_spaces :
    ∃ normal, normalizeLine 6 ([' ', 'a', '\t', ' ', 'b', '\n'].getD · nul) = some normal ∧
      IsString normal 0 ['a', ' ', 'b'] := by
  have h : IsString ([' ', 'a', '\t', ' ', 'b', '\n'].getD · nul) 0
      [' ', 'a', '\t', ' ', 'b', '\n'] :=
    ⟨⟨rfl, rfl, rfl, rfl, rfl, rfl, True.intro⟩, rfl, by simp [nul]⟩
  obtain ⟨normal, hnormal, hline, -⟩ := lines_words_agree h
  exact ⟨normal, hnormal, hline⟩

end Chrony
