import Mathlib.Algebra.Order.Ring.Int
import Mathlib.Data.List.Basic
import Mathlib.Data.Prod.Lex

/-!
# Merging of Sorted Lists

Two lists sorted by a key are compared by walking over both of them at once. In each turn the
element with the smaller key is passed, or both elements if they have the same key. A key can be
in the lists several times; its elements are then paired in their order, and those which are left
have no counterpart. The comparison is a function which returns an integer with a sign.

## Main results

* `filterMap_left_align`, `filterMap_right_align`: every element of the lists is passed in one turn.
* `filter_align`: the turns of one key.
-/

namespace Chrony.Lib

section Signs

variable {κ μ : Type*} [LinearOrder κ] [LinearOrder μ]

/-- **The result of a comparison**: its sign is the order of two values. -/
def Signs (d : ℤ) (x y : κ) : Prop :=
  (d < 0 ↔ x < y) ∧ (0 < d ↔ y < x)

theorem Signs.eq_zero_iff {d : ℤ} {x y : κ} (h : Signs d x y) : d = 0 ↔ x = y := by
  obtain ⟨hneg, hpos⟩ := h
  rcases lt_trichotomy x y with hlt | heq | hgt
  · exact iff_of_false (hneg.mpr hlt).ne hlt.ne
  · refine iff_of_true ?_ heq
    have h₁ : ¬ d < 0 := fun hd => (hneg.mp hd).ne heq
    have h₂ : ¬ 0 < d := fun hd => (hpos.mp hd).ne' heq
    omega
  · exact iff_of_false (hpos.mpr hgt).ne' hgt.ne'

theorem signs_sub (x y : ℤ) : Signs (x - y) x y :=
  ⟨sub_neg, sub_pos⟩

/-- A value which is compared only if the first ones are equal. -/
theorem Signs.lex {d e : ℤ} {x y : κ} {u v : μ} (hd : Signs d x y) (he : Signs e u v) :
    Signs (if d ≠ 0 then d else e) (toLex (x, u)) (toLex (y, v)) := by
  have hzero := hd.eq_zero_iff
  unfold Signs at *
  rw [Prod.Lex.toLex_lt_toLex, Prod.Lex.toLex_lt_toLex]
  split
  next hne =>
      have hxy : x ≠ y := fun heq => hne (hzero.mpr heq)
      simp only [hd, hxy, hxy.symm, false_and, or_false, and_self]
  next heq =>
      have hxy : x = y := hzero.mp (not_not.mp heq)
      simp only [he, hxy, lt_irrefl, false_or, true_and, and_self]

end Signs

/-- One turn: an element only of the first list, of both, or only of the second list. -/
inductive Turn (α β : Type*)
  | missing (a : α)
  | same (a : α) (b : β)
  | extra (b : β)

namespace Turn

variable {α β κ : Type*}

/-- The element of the first list. -/
def left : Turn α β → Option α
  | missing a => some a
  | same a _ => some a
  | extra _ => none

/-- The element of the second list. -/
def right : Turn α β → Option β
  | missing _ => none
  | same _ b => some b
  | extra b => some b

/-- The key of a turn. -/
def key (f : α → κ) (g : β → κ) : Turn α β → κ
  | missing a => f a
  | same a _ => f a
  | extra b => g b

end Turn

section Align

variable {α β κ : Type*} (cmp : α → β → ℤ)

/-- The turns in which the elements of the second list are passed up to and with the first
element `a` of the first list. The other elements of the first list follow by `rest`. -/
def alignWith (a : α) (rest : List β → List (Turn α β)) : List β → List (Turn α β)
  | [] => .missing a :: rest []
  | b :: bs =>
      if cmp a b < 0 then .missing a :: rest (b :: bs)
      else if cmp a b > 0 then .extra b :: alignWith a rest bs
      else .same a b :: rest bs

/-- The turns of two lists, by the result of a comparison. -/
def align : List α → List β → List (Turn α β)
  | [] => List.map .extra
  | a :: as => alignWith cmp a (align as)

/-- The elements of one key, paired in their order. -/
def pairUp : List α → List β → List (Turn α β)
  | a :: as, b :: bs => .same a b :: pairUp as bs
  | as, [] => as.map .missing
  | [], bs => bs.map .extra

theorem pairUp_nil_left (bs : List β) : pairUp ([] : List α) bs = bs.map .extra := by
  cases bs <;> rfl

theorem pairUp_nil_right (as : List α) : pairUp as ([] : List β) = as.map .missing := by
  cases as <;> rfl

/-- An element is paired if there are enough elements in the other list. -/
theorem mem_pairUp {as : List α} (bs : List β) {a : α} {i : ℕ} (h : as[i]? = some a) :
    (i < bs.length → ∃ b, Turn.same a b ∈ pairUp as bs) ∧
      (bs.length ≤ i → Turn.missing a ∈ pairUp as bs) := by
  induction as, bs using pairUp.induct generalizing i with
  | case1 a' as b bs ih =>
      rw [pairUp]
      cases i with
      | zero =>
          obtain rfl : a' = a := by simpa using h
          exact ⟨fun _ => ⟨b, List.mem_cons_self⟩, fun hle => absurd hle (by simp)⟩
      | succ i =>
          obtain ⟨hsame, hmissing⟩ := ih (i := i) (by simpa using h)
          refine ⟨fun hlt => ?_, fun hle => ?_⟩
          · obtain ⟨c, hc⟩ := hsame (by simpa using hlt)
            exact ⟨c, List.mem_cons_of_mem _ hc⟩
          · exact List.mem_cons_of_mem _ (hmissing (by simpa using hle))
  | case2 as =>
      rw [pairUp_nil_right]
      exact ⟨fun hlt => absurd hlt (by simp),
        fun _ => List.mem_map_of_mem (List.mem_of_getElem? h)⟩
  | case3 bs => exact absurd h (by simp)

/-- The number of the turns of a kind, by the lists. -/
theorem countP_pairUp (as : List α) (bs : List β) (p : Turn α β → Bool) (q : α → Bool)
    (hsame : ∀ a b, p (.same a b) = q a) (hmissing : ∀ a, p (.missing a) = false)
    (hextra : ∀ b, p (.extra b) = true) :
    (pairUp as bs).countP p = (as.take bs.length).countP q + (bs.length - as.length) := by
  induction as, bs using pairUp.induct with
  | case1 a as b bs ih =>
      rw [pairUp, List.countP_cons, ih, hsame, List.length_cons, List.take_succ_cons,
        List.countP_cons, List.length_cons]
      omega
  | case2 as =>
      rw [pairUp_nil_right, List.countP_map, List.length_nil, List.take_zero, List.countP_nil,
        Nat.zero_sub, List.countP_eq_zero]
      intro a _
      simp [hmissing]
  | case3 bs =>
      rw [pairUp_nil_left, List.countP_map, List.take_nil, List.countP_nil, List.length_nil,
        Nat.zero_add, Nat.sub_zero, List.countP_eq_length]
      intro b _
      exact hextra b

variable {cmp}

/-- **The induction of a merge**, with a case for each kind of a turn. -/
theorem align_induction {P : List α → List β → List (Turn α β) → Prop}
    (nil : ∀ bs, P [] bs (bs.map .extra))
    (last : ∀ a as, P as [] (align cmp as []) → P (a :: as) [] (.missing a :: align cmp as []))
    (missing : ∀ a as b bs, cmp a b < 0 → P as (b :: bs) (align cmp as (b :: bs)) →
      P (a :: as) (b :: bs) (.missing a :: align cmp as (b :: bs)))
    (extra : ∀ a as b bs, 0 < cmp a b → P (a :: as) bs (align cmp (a :: as) bs) →
      P (a :: as) (b :: bs) (.extra b :: align cmp (a :: as) bs))
    (same : ∀ a as b bs, cmp a b = 0 → P as bs (align cmp as bs) →
      P (a :: as) (b :: bs) (.same a b :: align cmp as bs))
    (as : List α) (bs : List β) : P as bs (align cmp as bs) := by
  induction as generalizing bs with
  | nil => exact nil bs
  | cons a as ih =>
      rw [align]
      induction bs with
      | nil => exact last a as (ih [])
      | cons b bs ihb =>
          rw [alignWith]
          split
          next hlt => exact missing a as b bs hlt (ih (b :: bs))
          next hge =>
              split
              next hgt => exact extra a as b bs hgt ihb
              next hle => exact same a as b bs (by omega) (ih bs)

theorem filterMap_left_align (as : List α) (bs : List β) :
    (align cmp as bs).filterMap Turn.left = as := by
  refine align_induction (P := fun as _ turns => turns.filterMap Turn.left = as)
    ?_ ?_ ?_ ?_ ?_ as bs
  · intro bs
    rw [List.filterMap_map]
    exact List.filterMap_eq_nil_iff.mpr fun _ _ => rfl
  · exact fun a as ih => congrArg (a :: ·) ih
  · exact fun a as b bs _ ih => congrArg (a :: ·) ih
  · exact fun a as b bs _ ih => ih
  · exact fun a as b bs _ ih => congrArg (a :: ·) ih

theorem filterMap_right_align (as : List α) (bs : List β) :
    (align cmp as bs).filterMap Turn.right = bs := by
  refine align_induction (P := fun _ bs turns => turns.filterMap Turn.right = bs)
    ?_ ?_ ?_ ?_ ?_ as bs
  · intro bs
    rw [List.filterMap_map]
    exact (congrFun List.filterMap_eq_map bs).trans (List.map_id bs)
  · exact fun a as ih => ih
  · exact fun a as b bs _ ih => ih
  · exact fun a as b bs _ ih => congrArg (b :: ·) ih
  · exact fun a as b bs _ ih => congrArg (b :: ·) ih

/-- The elements passed together compare as equal. -/
theorem cmp_eq_zero_of_same {as : List α} {bs : List β} {a : α} {b : β}
    (h : Turn.same a b ∈ align cmp as bs) : cmp a b = 0 := by
  refine align_induction (P := fun _ _ turns => Turn.same a b ∈ turns → cmp a b = 0)
    ?_ ?_ ?_ ?_ ?_ as bs h
  · intro bs hmem
    obtain ⟨_, -, heq⟩ := List.mem_map.mp hmem
    cases heq
  · exact fun a' as ih hmem => ih ((List.mem_cons.mp hmem).resolve_left nofun)
  · exact fun a' as b' bs _ ih hmem => ih ((List.mem_cons.mp hmem).resolve_left nofun)
  · exact fun a' as b' bs _ ih hmem => ih ((List.mem_cons.mp hmem).resolve_left nofun)
  · intro a' as b' bs heq ih hmem
    rcases List.mem_cons.mp hmem with hsame | hmem
    · cases hsame
      exact heq
    · exact ih hmem

variable [LinearOrder κ] {f : α → κ} {g : β → κ}

/-- A key below the first one of a sorted list is not in it. -/
theorem filter_eq_nil_of_lt {bs : List β} {b : β} {k : κ}
    (hbs : ((b :: bs).map g).Pairwise (· ≤ ·)) (hlt : k < g b) :
    (b :: bs).filter (g · = k) = [] := by
  refine List.filter_eq_nil_iff.mpr fun c hc => ?_
  have hle : g b ≤ g c := by
    rcases List.mem_cons.mp hc with rfl | hc
    · exact le_rfl
    · exact (List.pairwise_cons.mp hbs).1 _ (List.mem_map_of_mem hc)
  simpa using ne_of_gt (lt_of_lt_of_le hlt hle)

/-- **The turns of one key** are its elements paired in their order, if the lists are sorted. -/
theorem filter_align (hcmp : ∀ a b, Signs (cmp a b) (f a) (g b)) {as : List α} {bs : List β}
    (has : (as.map f).Pairwise (· ≤ ·)) (hbs : (bs.map g).Pairwise (· ≤ ·)) (k : κ) :
    (align cmp as bs).filter (fun t => t.key f g = k) =
      pairUp (as.filter (f · = k)) (bs.filter (g · = k)) := by
  refine align_induction (P := fun as bs turns => (as.map f).Pairwise (· ≤ ·) →
    (bs.map g).Pairwise (· ≤ ·) → turns.filter (fun t => t.key f g = k) =
      pairUp (as.filter (f · = k)) (bs.filter (g · = k))) ?_ ?_ ?_ ?_ ?_ as bs has hbs
  · intro bs _ _
    rw [List.filter_map, List.filter_nil, pairUp_nil_left]
    rfl
  · intro a as ih has hbs
    have ih := ih (List.pairwise_cons.mp has).2 hbs
    rw [List.filter_nil, pairUp_nil_right] at ih ⊢
    rw [List.filter_cons, List.filter_cons, ih]
    by_cases hk : f a = k
    · simp [Turn.key, hk]
    · simp [Turn.key, hk]
  · intro a as b bs hlt ih has hbs
    have ih := ih (List.pairwise_cons.mp has).2 hbs
    rw [List.filter_cons, List.filter_cons, ih]
    by_cases hk : f a = k
    · have hnil := filter_eq_nil_of_lt hbs (hk ▸ (hcmp a b).1.mp hlt)
      simp only [Turn.key, hk, decide_true, if_true, hnil, pairUp_nil_right, List.map_cons]
    · simp [Turn.key, hk]
  · intro a as b bs hlt ih has hbs
    have ih := ih has (List.pairwise_cons.mp hbs).2
    rw [List.filter_cons, ih, List.filter_cons (x := b)]
    by_cases hk : g b = k
    · have hnil := filter_eq_nil_of_lt has (hk ▸ (hcmp a b).2.mp hlt)
      simp only [Turn.key, hk, decide_true, if_true, hnil, pairUp_nil_left, List.map_cons]
    · simp [Turn.key, hk]
  · intro a as b bs hzero ih has hbs
    have ih := ih (List.pairwise_cons.mp has).2 (List.pairwise_cons.mp hbs).2
    have heq := (hcmp a b).eq_zero_iff.mp hzero
    rw [List.filter_cons, List.filter_cons, List.filter_cons, ih]
    by_cases hk : f a = k
    · simp [Turn.key, hk, heq ▸ hk, pairUp]
    · simp [Turn.key, hk, heq ▸ hk]

end Align

end Chrony.Lib
