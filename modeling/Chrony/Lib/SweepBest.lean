import Chrony.Lib.IntervalSweep
import Mathlib.Data.List.Infix
import Mathlib.Order.Bounds.Defs

/-!
# The Best Points of a Sweep

A sweep over the endpoints of intervals has a value for the set of active intervals, which is
larger for a larger set. It records the best value, the offset where it was reached for the first
time, and the last offset where it was lost. The best value is the maximum of the values of the
sets of intervals which contain a point, and the two offsets are the least and the greatest point
where it is attained.

## Main results

* `Best.Inv.visit`: one endpoint.
* `Best.Inv.le`, `Best.Inv.isLeast`, `Best.Inv.isGreatest`: the best value and its points.
-/

namespace Chrony.Lib.IntervalSweep

/-- The best value with the first and the last point. -/
structure Best (β α : Type*) where
  value : β
  lo : α
  hi : α

section Best

variable {ι α β : Type*} [LinearOrder β]

/-- An endpoint is visited. The values are those before and after it. -/
def Best.visit (b : Best β α) (e : Endpoint ι α) (before after : β) : Best β α :=
  match e.tag with
  | .low => if b.value < after then ⟨after, e.offset, b.hi⟩ else b
  | .high => if before = b.value then ⟨b.value, b.lo, e.offset⟩ else b

end Best

section Containing

variable {ι α : Type*} [DecidableEq ι] [LinearOrder α]

/-- The intervals which contain a point. -/
def containing (s : Finset ι) (lo hi : ι → α) (x : α) : Finset ι :=
  s.filter fun i => lo i ≤ x ∧ x ≤ hi i

variable {s : Finset ι} {lo hi : ι → α} {l l₁ l₂ : List (Endpoint ι α)} {e : Endpoint ι α}

omit [DecidableEq ι] in
theorem mem_containing {x : α} {i : ι} :
    i ∈ containing s lo hi x ↔ i ∈ s ∧ lo i ≤ x ∧ x ≤ hi i := Finset.mem_filter

omit [DecidableEq ι] in
theorem Endpoint.LE.offset_le {u v : Endpoint ι α} (h : u.LE v) : u.offset ≤ v.offset := by
  rcases h with hlt | ⟨heq, -⟩
  · exact hlt.le
  · exact heq.le

theorem exists_append_of_pairwise {γ : Type*} {r : γ → γ → Prop} {l : List γ} (h : l.Pairwise r)
    (p : γ → Prop) (hp : ∀ u v, r u v → p v → p u) :
    ∃ l₁ l₂, l = l₁ ++ l₂ ∧ (∀ e ∈ l₁, p e) ∧ ∀ e ∈ l₂, ¬p e := by
  induction l with
  | nil => exact ⟨[], [], rfl, nofun, nofun⟩
  | cons u l ih =>
      obtain ⟨hu, hl⟩ := List.pairwise_cons.mp h
      by_cases hpu : p u
      · obtain ⟨l₁, l₂, rfl, hfirst, hsecond⟩ := ih hl
        exact ⟨u :: l₁, l₂, rfl, List.forall_mem_cons.mpr ⟨hpu, hfirst⟩, hsecond⟩
      · exact ⟨[], u :: l, rfl, nofun, List.forall_mem_cons.mpr
          ⟨hpu, fun e he hpe => hpu (hp u e (hu e he) hpe)⟩⟩

namespace Sorted

theorem mem_active (h : Sorted s lo hi (l₁ ++ l₂)) {i : ι} : i ∈ active l₁ ↔
    i ∈ s ∧ (⟨i, lo i, .low⟩ : Endpoint ι α) ∈ l₁ ∧ (⟨i, hi i, .high⟩ : Endpoint ι α) ∉ l₁ := by
  have hmem : ∀ e ∈ l₁, e ∈ l₁ ++ l₂ := fun e he => List.mem_append_left _ he
  rw [active, Finset.mem_sdiff, mem_visited, mem_visited]
  constructor
  · rintro ⟨⟨e, he, htag, rfl⟩, hhigh⟩
    refine ⟨(h.eq_of_mem e (hmem e he)).1, ?_, fun hin => hhigh ⟨_, hin, rfl, rfl⟩⟩
    rw [← h.eq_low (hmem e he) htag]
    exact he
  · rintro ⟨-, hlow, hhigh⟩
    refine ⟨⟨_, hlow, rfl, rfl⟩, ?_⟩
    rintro ⟨e, he, htag, rfl⟩
    rw [← h.eq_high (hmem e he) htag] at hhigh
    exact hhigh he

/-- The intervals which are active before an endpoint contain its offset. -/
theorem active_subset (h : Sorted s lo hi (l₁ ++ e :: l₂)) :
    active l₁ ⊆ containing s lo hi e.offset := by
  intro i hi'
  obtain ⟨hs, hlow, hhigh⟩ := h.mem_active.mp hi'
  rw [mem_containing]
  refine ⟨hs, (h.le_of_mem hlow).offset_le, ?_⟩
  rcases List.mem_append.mp (h.high_mem i hs) with hmem | hmem
  · exact absurd hmem hhigh
  · rcases List.mem_cons.mp hmem with heq | hmem
    · rw [← heq]
    · have hle := (List.pairwise_cons.mp (List.pairwise_append.mp h.sorted).2.1).1 _ hmem
      exact hle.offset_le

/-- **The endpoints can be split at a point.** The intervals which are active there are those which
contain it. -/
theorem exists_split (h : Sorted s lo hi l) (x : α) : ∃ l₁ l₂, l = l₁ ++ l₂ ∧
    active l₁ = containing s lo hi x ∧ (∀ e ∈ l₁, e.offset ≤ x) ∧ ∀ e ∈ l₂, x ≤ e.offset := by
  -- the first part ends with the low endpoints at the point
  obtain ⟨l₁, l₂, rfl, hfirst, hsecond⟩ := exists_append_of_pairwise h.sorted
    (fun e => e.offset < x ∨ e.offset = x ∧ e.tag = .low) fun u v huv hv => by
      rcases huv with hlt | ⟨heq, htag⟩
      · exact .inl (hv.elim hlt.trans fun hv => hlt.trans_eq hv.1)
      · refine hv.imp heq.trans_lt fun hv => ⟨heq.trans hv.1, ?_⟩
        exact htag.resolve_right (by rw [hv.2]; exact Tag.noConfusion)
  have hin : ∀ e, e ∈ l₁ ++ l₂ → (e ∈ l₁ ↔ e.offset < x ∨ e.offset = x ∧ e.tag = .low) := by
    intro e he
    refine ⟨hfirst e, fun hx => ?_⟩
    exact (List.mem_append.mp he).resolve_right fun he' => hsecond e he' hx
  refine ⟨l₁, l₂, rfl, ?_, fun e he => ?_, fun e he => ?_⟩
  · ext i
    rw [h.mem_active, mem_containing]
    refine and_congr_right fun hs => ?_
    rw [hin _ (h.low_mem i hs), hin _ (h.high_mem i hs)]
    simp [le_iff_lt_or_eq]
  · exact (hfirst e he).elim le_of_lt fun h => h.1.le
  · exact not_lt.mp fun hlt => hsecond e he (.inl hlt)

omit [LinearOrder α] in
/-- Low endpoints only add active intervals. -/
theorem active_subset_append_low (hlow : ∀ e ∈ l₂, e.tag = .low) :
    active l₁ ⊆ active (l₁ ++ l₂) := by
  intro i hi'
  rw [active, Finset.mem_sdiff, mem_visited, mem_visited] at hi' ⊢
  obtain ⟨⟨e, he, htag, hindex⟩, hhigh⟩ := hi'
  refine ⟨⟨e, List.mem_append_left _ he, htag, hindex⟩, ?_⟩
  rintro ⟨e', he', htag', hindex'⟩
  rcases List.mem_append.mp he' with he' | he'
  · exact hhigh ⟨e', he', htag', hindex'⟩
  · rw [hlow e' he'] at htag'
    cases htag'

end Sorted

end Containing

section Inv

variable {ι α β : Type*} [DecidableEq ι] [LinearOrder α] [LinearOrder β]

/-- **What is recorded** after the endpoints `l` are visited, for the value `val` of sets of
intervals. -/
structure Best.Inv (val : Finset ι → β) (l : List (Endpoint ι α)) (b : Best β α) : Prop where
  /-- No value was better. -/
  le : ∀ l', l' <+: l → val (active l') ≤ b.value
  /-- The value was reached at a low endpoint. -/
  reached : val ∅ < b.value → ∃ l' e, l' ++ [e] <+: l ∧ e.tag = .low ∧ e.offset = b.lo ∧
    val (active (l' ++ [e])) = b.value
  lo_le : ∀ l' e, l' ++ [e] <+: l → val (active (l' ++ [e])) = b.value → val ∅ < b.value →
    b.lo ≤ e.offset
  /-- The value was lost at high endpoints. -/
  lost : ∀ l' e, l' ++ [e] <+: l → e.tag = .high → val (active l') = b.value →
    e.offset ≤ b.hi ∧ ∃ l₀ e₀, l₀ ++ [e₀] <+: l ∧ e₀.tag = .high ∧ e₀.offset = b.hi ∧
      val (active l₀) = b.value

variable {val : Finset ι → β} {b : Best β α}
variable {s : Finset ι} {lo hi : ι → α} {l l₁ l₂ : List (Endpoint ι α)} {e : Endpoint ι α}

theorem Best.Inv.init (val : Finset ι → β) (x y : α) :
    Best.Inv val [] (⟨val ∅, x, y⟩ : Best β α) where
  le l' h := by
    rw [List.prefix_nil.mp h]
    exact le_rfl
  reached h := absurd h (lt_irrefl _)
  lo_le _ _ _ _ h := absurd h (lt_irrefl _)
  lost l' e h := by simp at h

omit [DecidableEq ι] in
/-- The offsets of visited endpoints do not decrease. -/
theorem Sorted.offset_le (h : Sorted s lo hi (l₁ ++ e :: l₂)) {l' : List (Endpoint ι α)}
    {e' : Endpoint ι α} (hpre : l' ++ [e'] <+: l₁) : e'.offset ≤ e.offset :=
  (h.le_of_mem (hpre.subset (List.mem_append_right _ (List.mem_singleton.mpr rfl)))).offset_le

omit [DecidableEq ι] [LinearOrder α] in
theorem prefix_concat_of {l' : List (Endpoint ι α)} {e' : Endpoint ι α}
    (h : l' ++ [e'] <+: l₁ ++ [e]) : l' ++ [e'] <+: l₁ ∨ l' = l₁ ∧ e' = e := by
  rcases List.prefix_concat_iff.mp h with heq | h
  · obtain ⟨rfl, hsingle⟩ := List.append_inj' heq rfl
    exact .inr ⟨rfl, List.singleton_inj.mp hsingle⟩
  · exact .inl h

/-- An endpoint after which the value is not better. -/
theorem Best.Inv.keep (hinv : b.Inv val l₁) (h : Sorted s lo hi (l₁ ++ e :: l₂))
    (hafter : val (active (l₁ ++ [e])) ≤ b.value) {y : α}
    (hlost : ∀ l' e', l' ++ [e'] <+: l₁ ++ [e] → e'.tag = .high → val (active l') = b.value →
      e'.offset ≤ y ∧ ∃ l₀ e₀, l₀ ++ [e₀] <+: l₁ ++ [e] ∧ e₀.tag = .high ∧ e₀.offset = y ∧
        val (active l₀) = b.value) : Best.Inv val (l₁ ++ [e]) ⟨b.value, b.lo, y⟩ where
  le l' hl' := by
    rcases List.prefix_concat_iff.mp hl' with rfl | hl'
    · exact hafter
    · exact hinv.le l' hl'
  reached hlt := by
    obtain ⟨l', e', hpre, hrest⟩ := hinv.reached hlt
    exact ⟨l', e', hpre.trans (List.prefix_append _ _), hrest⟩
  lo_le l' e' hpre heq hlt := by
    rcases prefix_concat_of hpre with hpre | ⟨rfl, rfl⟩
    · exact hinv.lo_le l' e' hpre heq hlt
    · obtain ⟨l₀, e₀, hpre₀, -, hoffset, -⟩ := hinv.reached hlt
      dsimp only
      rw [← hoffset]
      exact h.offset_le hpre₀
  lost := hlost

/-- **One endpoint.** -/
theorem Best.Inv.visit (hinv : b.Inv val l₁) (hval : Monotone val)
    (h : Sorted s lo hi (l₁ ++ e :: l₂)) :
    (b.visit e (val (active l₁)) (val (active (l₁ ++ [e])))).Inv val (l₁ ++ [e]) := by
  have hbefore : val (active l₁) ≤ b.value := hinv.le l₁ (List.prefix_refl l₁)
  have hextend : ∀ l' e', l' ++ [e'] <+: l₁ → e'.tag = .high → val (active l') = b.value →
      e'.offset ≤ b.hi ∧ ∃ l₀ e₀, l₀ ++ [e₀] <+: l₁ ++ [e] ∧ e₀.tag = .high ∧ e₀.offset = b.hi ∧
        val (active l₀) = b.value := by
    intro l' e' hpre htag' heq
    obtain ⟨hle, l₀, e₀, hpre₀, hrest⟩ := hinv.lost l' e' hpre htag' heq
    exact ⟨hle, l₀, e₀, hpre₀.trans (List.prefix_append _ _), hrest⟩
  rw [Best.visit]
  cases htag : e.tag with
  | low =>
      dsimp only
      split
      next hlt =>
          refine ⟨fun l' hl' => ?_, fun _ => ⟨l₁, e, List.prefix_refl _, htag, rfl, rfl⟩,
            fun l' e' hpre heq _ => ?_, fun l' e' hpre htag' heq => ?_⟩
          · rcases List.prefix_concat_iff.mp hl' with rfl | hl'
            · exact le_rfl
            · exact (hinv.le l' hl').trans hlt.le
          · rcases prefix_concat_of hpre with hpre | ⟨rfl, rfl⟩
            · exact absurd (hinv.le _ hpre) (not_le.mpr (hlt.trans_eq heq.symm))
            · exact le_rfl
          · rcases prefix_concat_of hpre with hpre | ⟨rfl, rfl⟩
            · have hl' : l' <+: l₁ := (List.prefix_append _ _).trans hpre
              exact absurd (hinv.le _ hl') (not_le.mpr (hlt.trans_eq heq.symm))
            · rw [htag] at htag'
              cases htag'
      next hnot =>
          refine hinv.keep h (not_lt.mp hnot) fun l' e' hpre htag' heq => ?_
          rcases prefix_concat_of hpre with hpre | ⟨rfl, rfl⟩
          · exact hextend l' e' hpre htag' heq
          · rw [htag] at htag'
            cases htag'
  | high =>
      have hafter : val (active (l₁ ++ [e])) ≤ b.value := by
        refine le_trans (hval ?_) hbefore
        rw [(h.active_high htag).2]
        exact Finset.erase_subset _ _
      dsimp only
      split
      next hlost =>
          refine hinv.keep h hafter fun l' e' hpre htag' heq => ?_
          refine ⟨?_, l₁, e, List.prefix_refl _, htag, rfl, hlost⟩
          rcases prefix_concat_of hpre with hpre | ⟨rfl, rfl⟩
          · exact h.offset_le hpre
          · exact le_rfl
      next hnot =>
          refine hinv.keep h hafter fun l' e' hpre htag' heq => ?_
          rcases prefix_concat_of hpre with hpre | ⟨rfl, rfl⟩
          · exact hextend l' e' hpre htag' heq
          · exact absurd heq hnot

/-! ### The end of the sweep -/

/-- **The best value is an upper bound** for the intervals which contain a point. -/
theorem Best.Inv.containing_le (hinv : b.Inv val l) (h : Sorted s lo hi l) (x : α) :
    val (containing s lo hi x) ≤ b.value := by
  obtain ⟨l₁, l₂, rfl, hactive, -⟩ := h.exists_split x
  rw [← hactive]
  exact hinv.le l₁ (List.prefix_append _ _)

theorem Best.Inv.containing_eq (hinv : b.Inv val l) (hval : Monotone val) (h : Sorted s lo hi l)
    {l' : List (Endpoint ι α)} {x : α} (hl' : val (active l') = b.value)
    (hsubset : active l' ⊆ containing s lo hi x) : val (containing s lo hi x) = b.value :=
  le_antisymm (hinv.containing_le h x) (hl'.symm.trans_le (hval hsubset))

/-- **The first point where the best value is attained.** -/
theorem Best.Inv.isLeast (hinv : b.Inv val l) (hval : Monotone val) (h : Sorted s lo hi l)
    (hlt : val ∅ < b.value) : IsLeast {x | val (containing s lo hi x) = b.value} b.lo := by
  constructor
  · obtain ⟨l', e, ⟨l₂, rfl⟩, htag, hoffset, heq⟩ := hinv.reached hlt
    rw [List.append_assoc] at h
    refine hinv.containing_eq hval (by rwa [List.append_assoc]) heq fun i hi' => ?_
    rw [← hoffset, mem_containing]
    exact h.mem_Icc_of_mem_active htag hi'
  · intro x hx
    obtain ⟨l₁, l₂, rfl, hactive, hle, -⟩ := h.exists_split x
    have hx' : val (containing s lo hi x) = b.value := hx
    rcases List.eq_nil_or_concat' l₁ with rfl | ⟨l', e, rfl⟩
    · rw [← hactive, active_nil] at hx'
      exact absurd hx' hlt.ne
    · refine le_trans (hinv.lo_le l' e (List.prefix_append _ _) ?_ hlt) (hle e (by simp))
      rw [hactive]
      exact hx'

/-- **The last point where the best value is attained.** -/
theorem Best.Inv.isGreatest (hinv : b.Inv val l) (hval : Monotone val) (h : Sorted s lo hi l)
    (hlt : val ∅ < b.value) : IsGreatest {x | val (containing s lo hi x) = b.value} b.hi := by
  -- the value is lost at the first high endpoint after the point
  have hlost : ∀ x, val (containing s lo hi x) = b.value → ∃ l' e, l' ++ [e] <+: l ∧
      e.tag = .high ∧ val (active l') = b.value ∧ x ≤ e.offset := by
    intro x hx
    obtain ⟨l₁, l₂, rfl, hactive, -, hge⟩ := h.exists_split x
    rw [← hactive] at hx
    have hne : (active l₁).Nonempty := by
      rw [Finset.nonempty_iff_ne_empty]
      intro hempty
      rw [hempty] at hx
      exact hlt.ne hx
    obtain ⟨i, hi'⟩ := hne
    obtain ⟨hs, -, hhigh⟩ := h.mem_active.mp hi'
    have hmem := (List.mem_append.mp (h.high_mem i hs)).resolve_left hhigh
    have hsome : (l₂.find? fun e => decide (e.tag = .high)).isSome = true :=
      List.find?_isSome.mpr ⟨_, hmem, rfl⟩
    obtain ⟨e, hfind⟩ := Option.isSome_iff_exists.mp hsome
    obtain ⟨htag, lows, rest, rfl, hlows⟩ := List.find?_eq_some_iff_append.mp hfind
    have hlow : ∀ e ∈ lows, e.tag = .low := by
      intro e he
      have hnot := hlows e he
      cases htag' : e.tag with
      | low => rfl
      | high =>
          rw [htag'] at hnot
          cases hnot
    refine ⟨l₁ ++ lows, e, ⟨rest, by simp⟩, of_decide_eq_true htag, ?_, hge e (by simp)⟩
    refine le_antisymm (hinv.le _ ⟨e :: rest, by simp⟩) ?_
    rw [← hx]
    exact hval (Sorted.active_subset_append_low hlow)
  constructor
  · obtain ⟨l', e, hpre, htag, heq, -⟩ := hlost b.lo (hinv.isLeast hval h hlt).1
    obtain ⟨-, l₀, e₀, ⟨l₂, rfl⟩, htag₀, hoffset, heq₀⟩ := hinv.lost l' e hpre htag heq
    refine hinv.containing_eq hval h heq₀ ?_
    rw [← hoffset]
    rw [List.append_assoc] at h
    exact h.active_subset
  · intro x hx
    obtain ⟨l', e, hpre, htag, heq, hle⟩ := hlost x hx
    exact hle.trans (hinv.lost l' e hpre htag heq).1

end Inv

end Chrony.Lib.IntervalSweep
