import Mathlib

/-!
# Smooth weighted round robin

In a round every counter grows by its weight, and one that is then largest is selected and pays the total weight. The
counters so stay balanced: their sum never changes, and none of them falls to the total weight below zero. A counter is
what its weight entitles its owner to, less what has been selected, so that every share comes within a fixed distance of
its weight.
-/

namespace SmoothRoundRobin

variable {ι K : Type} [CommRing K] [LinearOrder K] [IsStrictOrderedRing K] {s : Finset ι} {w c c' : ι → K} {i j : ι}
  {picks : List ι}

/-- `i` is selected when the counters are `c`. -/
structure Round (s : Finset ι) (w c : ι → K) (i : ι) (c' : ι → K) : Prop where
  mem : i ∈ s
  largest : ∀ j ∈ s, c j + w j ≤ c i + w i
  paid : c' i = c i + w i - ∑ j ∈ s, w j
  others : ∀ j ∈ s, j ≠ i → c' j = c j + w j

/-- The rounds from `c` to `c'`, by what is selected in each. -/
inductive Rounds (s : Finset ι) (w : ι → K) : (ι → K) → List ι → (ι → K) → Prop
  | nil (c : ι → K) : Rounds s w c [] c
  | cons (c c' c'' : ι → K) (i : ι) (picks : List ι) (round : Round s w c i c') (rest : Rounds s w c' picks c'') :
    Rounds s w c (i :: picks) c''

/-- No counter has fallen to the total weight below zero, and together they are zero. -/
structure Balanced (s : Finset ι) (w c : ι → K) : Prop where
  sum : ∑ j ∈ s, c j = 0
  above : ∀ j ∈ s, -∑ i ∈ s, w i < c j

theorem total_pos (hpos : ∀ j ∈ s, 0 < w j) (hj : j ∈ s) : 0 < ∑ i ∈ s, w i :=
  Finset.sum_pos hpos ⟨j, hj⟩

theorem balanced_zero (hpos : ∀ j ∈ s, 0 < w j) (hzero : ∀ j ∈ s, c j = 0) : Balanced s w c where
  sum := Finset.sum_eq_zero hzero
  above j hj := by
    rw [hzero j hj]
    exact neg_neg_of_pos (total_pos hpos hj)

omit [IsStrictOrderedRing K] in
/-- A round moves the total weight from the selected counter to all. -/
theorem Round.sum_eq (h : Round s w c i c') : ∑ j ∈ s, c' j = ∑ j ∈ s, c j := by
  classical
  have hrest : ∑ j ∈ s.erase i, c' j = ∑ j ∈ s.erase i, (c j + w j) :=
    Finset.sum_congr rfl fun j hj => h.others j (Finset.mem_of_mem_erase hj) (Finset.ne_of_mem_erase hj)
  calc ∑ j ∈ s, c' j = c' i + ∑ j ∈ s.erase i, c' j := (Finset.add_sum_erase s c' h.mem).symm
    _ = (c i + w i + ∑ j ∈ s.erase i, (c j + w j)) - ∑ j ∈ s, w j := by rw [hrest, h.paid]; ring
    _ = ∑ j ∈ s, (c j + w j) - ∑ j ∈ s, w j := by rw [Finset.add_sum_erase s (fun j => c j + w j) h.mem]
    _ = ∑ j ∈ s, c j := by rw [Finset.sum_add_distrib]; ring

/-- The largest of the grown counters is positive, because their sum is. -/
theorem Round.selected_pos (h : Round s w c i c') (hb : Balanced s w c) (hpos : ∀ j ∈ s, 0 < w j) : 0 < c i + w i := by
  by_contra hle
  have hall : ∑ j ∈ s, (c j + w j) ≤ 0 := Finset.sum_nonpos fun j hj => (h.largest j hj).trans (not_lt.1 hle)
  rw [Finset.sum_add_distrib, hb.sum, zero_add] at hall
  exact absurd (total_pos hpos h.mem) (not_lt.2 hall)

theorem Round.balanced (h : Round s w c i c') (hb : Balanced s w c) (hpos : ∀ j ∈ s, 0 < w j) : Balanced s w c' := by
  refine ⟨h.sum_eq.trans hb.sum, fun j hj => ?_⟩
  by_cases hji : j = i
  · have hselected := h.selected_pos hb hpos
    rw [hji, h.paid]
    linarith
  · have hj' := hb.above j hj
    have hw := hpos j hj
    rw [h.others j hj hji]
    linarith

/-- What the others may lack is what one counter may have. -/
theorem Balanced.le (hb : Balanced s w c) (hj : j ∈ s) : c j ≤ (s.card - 1 : K) * ∑ i ∈ s, w i := by
  classical
  have hsum := Finset.add_sum_erase s c hj
  have hrest : ∑ i ∈ s.erase j, -∑ i ∈ s, w i ≤ ∑ i ∈ s.erase j, c i :=
    Finset.sum_le_sum fun i hi => (hb.above i (Finset.mem_of_mem_erase hi)).le
  rw [Finset.sum_const, Finset.card_erase_of_mem hj, nsmul_eq_mul, Nat.cast_sub (Finset.card_pos.2 ⟨j, hj⟩), Nat.cast_one] at hrest
  rw [hb.sum] at hsum
  linarith

theorem Rounds.balanced (h : Rounds s w c picks c') (hb : Balanced s w c) (hpos : ∀ j ∈ s, 0 < w j) : Balanced s w c' := by
  induction h with
  | nil => exact hb
  | cons _ _ _ _ _ round _ ih => exact ih (round.balanced hb hpos)

/-- A counter is what its owner is entitled to, less what has been selected. -/
theorem Rounds.counter [BEq ι] [LawfulBEq ι] (h : Rounds s w c picks c') (hj : j ∈ s) :
    c' j = c j + picks.length * w j - (∑ i ∈ s, w i) * picks.count j := by
  induction h with
  | nil c => simp
  | cons c c' c'' i picks round rest ih =>
    rw [ih, List.length_cons, List.count_cons]
    by_cases hji : j = i
    · rw [hji, round.paid]
      simp only [beq_self_eq_true, if_true]
      push_cast
      ring
    · have hij : (i == j) = false := beq_eq_false_iff_ne.2 (Ne.symm hji)
      rw [round.others j hj hji, hij]
      push_cast
      ring

/-- Every share comes close to its weight. -/
theorem Rounds.fair [BEq ι] [LawfulBEq ι] (h : Rounds s w c picks c') (hpos : ∀ j ∈ s, 0 < w j) (hzero : ∀ j ∈ s, c j = 0)
    (hj : j ∈ s) : -∑ i ∈ s, w i < picks.length * w j - (∑ i ∈ s, w i) * picks.count j ∧
      picks.length * w j - (∑ i ∈ s, w i) * picks.count j ≤ (s.card - 1 : K) * ∑ i ∈ s, w i := by
  have hb := h.balanced (balanced_zero hpos hzero) hpos
  have hcounter := h.counter hj
  rw [hzero j hj, zero_add] at hcounter
  rw [← hcounter]
  exact ⟨hb.above j hj, hb.le hj⟩

end SmoothRoundRobin
