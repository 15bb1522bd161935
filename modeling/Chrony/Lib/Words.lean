import Mathlib.Data.List.TakeWhile

/-!
# Words of a List

The words of a list are its longest parts without separators. They do not depend on the number of
separators before, between and after them.

## Main results

* `words_append_cons`: a separator ends a word.
* `words_eq_cons`: the first word, and the rest of the list with the other words.
* `words_intercalate`: the words of a list which was joined from words.
-/

namespace Chrony.Lib

variable {α : Type*} {p : α → Bool}

/-- **The words of a list**, where `p` are the separators. -/
def words (p : α → Bool) (l : List α) : List (List α) := (l.splitOnP p).filter (· ≠ [])

/-- A list which is one word. -/
structure Word (p : α → Bool) (w : List α) : Prop where
  ne_nil : w ≠ []
  not_sep : ∀ x ∈ w, p x = false

theorem words_nil : words p [] = [] := by
  rw [words, List.splitOnP_nil]
  rfl

/-- A separator before the words. -/
theorem words_cons_sep {a : α} (ha : p a = true) (l : List α) : words p (a :: l) = words p l := by
  rw [words, List.splitOnP_cons_eq_if_modifyHead, if_pos ha, List.filter_cons]
  rfl

theorem Word.append {w : List α} (hw : Word p w) {a : α} (ha : p a = false) :
    Word p (w ++ [a]) where
  ne_nil := List.append_ne_nil_of_left_ne_nil hw.ne_nil _
  not_sep x hx := by
    rcases List.mem_append.mp hx with hx | hx
    · exact hw.not_sep x hx
    · exact List.mem_singleton.mp hx ▸ ha

theorem word_singleton {a : α} (ha : p a = false) : Word p [a] where
  ne_nil := List.cons_ne_nil a []
  not_sep _ hx := List.mem_singleton.mp hx ▸ ha

/-- A list which is one word has no other word. -/
theorem words_word {w : List α} (hw : Word p w) : words p w = [w] := by
  rw [words, List.splitOnP_eq_singleton hw.not_sep, List.filter_cons,
    if_pos (decide_eq_true hw.ne_nil)]
  rfl

/-- **A separator ends a word.** -/
theorem words_append_cons {w : List α} (hw : Word p w) {a : α} (ha : p a = true) (l : List α) :
    words p (w ++ a :: l) = w :: words p l := by
  rw [words, List.splitOnP_append_cons_of_forall_mem hw.not_sep a ha, List.filter_cons,
    if_pos (decide_eq_true hw.ne_nil)]
  rfl

/-- Separators before the words can be skipped. -/
theorem words_dropWhile (l : List α) : words p (l.dropWhile p) = words p l := by
  induction l with
  | nil => rfl
  | cons a l ih =>
      rw [List.dropWhile_cons]
      split
      next ha => rw [ih, words_cons_sep ha]
      next => rfl

/-- **The first word of a list** which does not start with a separator, and the other words. -/
theorem words_eq_cons {a : α} (ha : p a = false) (l : List α) :
    Word p ((a :: l).takeWhile (!p ·)) ∧ words p (a :: l) =
      (a :: l).takeWhile (!p ·) :: words p ((a :: l).dropWhile (!p ·)) := by
  have hword : Word p ((a :: l).takeWhile (!p ·)) := by
    refine ⟨?_, fun x hx => ?_⟩
    · rw [List.takeWhile_cons, ha]
      exact List.cons_ne_nil _ _
    · have hsep := List.mem_takeWhile_imp hx
      rwa [Bool.not_eq_true'] at hsep
  refine ⟨hword, ?_⟩
  have hsplit := List.takeWhile_append_dropWhile (p := (!p ·)) (l := a :: l)
  generalize hrest : (a :: l).dropWhile (!p ·) = rest at hsplit
  cases rest with
  | nil =>
      rw [List.append_nil] at hsplit
      rw [words_nil, hsplit, words_word (hsplit ▸ hword)]
  | cons b rest =>
      have hb : p b = true := by
        have hhead := List.head?_dropWhile_not (!p ·) (a :: l)
        rw [hrest] at hhead
        simpa using hhead
      calc words p (a :: l)
          = words p ((a :: l).takeWhile (!p ·) ++ b :: rest) := by rw [hsplit]
        _ = (a :: l).takeWhile (!p ·) :: words p rest := words_append_cons hword hb rest
        _ = (a :: l).takeWhile (!p ·) :: words p (b :: rest) := by rw [words_cons_sep hb]

theorem not_sep_of_mem_splitOnP {l w : List α} (h : w ∈ l.splitOnP p) : ∀ x ∈ w, p x = false := by
  induction l generalizing w with
  | nil =>
      obtain rfl := List.mem_singleton.mp h
      nofun
  | cons a l ih =>
      rw [List.splitOnP_cons_eq_if_modifyHead] at h
      split at h
      · rcases List.mem_cons.mp h with rfl | h
        · nofun
        · exact ih h
      next ha =>
          obtain ⟨w', ws, hsplit⟩ := List.exists_cons_of_ne_nil (List.splitOnP_ne_nil p l)
          rw [hsplit] at h ih
          rcases List.mem_cons.mp h with rfl | h
          · exact List.forall_mem_cons.mpr
              ⟨Bool.eq_false_iff.mpr ha, ih List.mem_cons_self⟩
          · exact ih (List.mem_cons_of_mem _ h)

/-- The words have no separators. -/
theorem word_of_mem_words {l w : List α} (h : w ∈ words p l) : Word p w := by
  obtain ⟨hmem, hne⟩ := List.mem_filter.mp h
  exact ⟨of_decide_eq_true hne, not_sep_of_mem_splitOnP hmem⟩

/-- **The words of a list which was joined from words.** -/
theorem words_intercalate {a : α} (ha : p a = true) {ws : List (List α)}
    (hws : ∀ w ∈ ws, Word p w) : words p ([a].intercalate ws) = ws := by
  induction ws with
  | nil => rw [List.intercalate_nil, words_nil]
  | cons w ws ih =>
      obtain ⟨hw, hws⟩ := List.forall_mem_cons.mp hws
      cases ws with
      | nil => rw [List.intercalate_singleton, words_word hw]
      | cons w' ws =>
          rw [List.intercalate_cons_cons, List.append_assoc, List.singleton_append,
            words_append_cons hw ha, ih hws]

end Chrony.Lib
