import Mathlib

/-!
# Sliding acceptance windows

A window of width `W` accepts a counter at most once: it must not be older than the highest accepted
counter by `W` or more, and must not have been accepted before. `Slots` keeps the highest counter and,
per residue modulo `W`, the last counter accepted there; a slot holds the full counter, so a stale
entry is told apart without pruning. `Represents` relates it to the set of accepted counters.
-/

namespace SlidingWindow

/-- The highest accepted counter (`-1` if none) and the last counter accepted in each slot. -/
structure Slots where
  high : Int
  seen : Nat → Option Int

namespace Slots
variable {W : Int} {limit : Nat} {r : Slots} {A : Set Int} {c d : Int}

def empty : Slots := ⟨-1, fun _ => none⟩

/-- The slot of a counter. -/
def slot (W c : Int) : Nat := (c % W).toNat

/-- Would `accept` take the counter? `limit` bounds the counters that can be taken at all. -/
def check (W : Int) (limit : Nat) (r : Slots) (c : Int) : Bool :=
  0 ≤ c && c.toNat < limit && r.high - c < W && r.seen (slot W c) != some c

/-- The window after taking `c`. -/
def put (W : Int) (r : Slots) (c : Int) : Slots :=
  ⟨max c r.high, fun i => if i = slot W c then some c else r.seen i⟩

def accept (W : Int) (limit : Nat) (r : Slots) (c : Int) : Bool × Slots :=
  if r.check W limit c then (true, r.put W c) else (false, r)

/-- `r` is the window of the accepted counters `A`. -/
structure Represents (W : Int) (r : Slots) (A : Set Int) : Prop where
  nonneg : ∀ c ∈ A, 0 ≤ c
  le_high : ∀ c ∈ A, c ≤ r.high
  high_mem : r.high = -1 ∨ r.high ∈ A
  seen_mem : ∀ i c, r.seen i = some c → c ∈ A ∧ slot W c = i
  seen_of_mem : ∀ c ∈ A, r.high - c < W → r.seen (slot W c) = some c

theorem Represents.empty : Represents W Slots.empty ∅ :=
  ⟨nofun, nofun, .inl rfl, nofun, nofun⟩

theorem Represents.high_ge (h : Represents W r A) : -1 ≤ r.high := by
  rcases h.high_mem with h' | h'
  · omega
  · have := h.nonneg _ h'; omega

theorem Represents.check_iff (h : Represents W r A) :
    r.check W limit c = true ↔ 0 ≤ c ∧ c < limit ∧ r.high - W < c ∧ c ∉ A := by
  simp only [check, Bool.and_eq_true, decide_eq_true_eq, bne_iff_ne]
  constructor
  · rintro ⟨⟨⟨h0, hl⟩, hw⟩, hs⟩
    exact ⟨h0, by omega, by omega, fun hc => hs (h.seen_of_mem c hc hw)⟩
  · rintro ⟨h0, hl, hw, hA⟩
    exact ⟨⟨⟨h0, by omega⟩, by omega⟩, fun hs => hA (h.seen_mem _ c hs).1⟩

/-- Two counters in one slot that are closer than the width are equal. -/
theorem eq_of_slot_eq (hW : 0 < W) (hs : slot W c = slot W d) (h₁ : c - d < W) (h₂ : d - c < W) : c = d := by
  have hc := Int.emod_nonneg c (by omega : W ≠ 0)
  have hd := Int.emod_nonneg d (by omega : W ≠ 0)
  have hmod : c % W = d % W := by simp only [slot] at hs; omega
  have hdvd : W ∣ c - d := Int.ModEq.dvd hmod.symm
  obtain ⟨k, hk⟩ := hdvd
  have hk0 : k = 0 := by
    by_contra hne
    rcases lt_or_gt_of_ne hne with hneg | hpos
    · nlinarith
    · nlinarith
  rw [hk0] at hk
  omega

theorem Represents.put (hW : 0 < W) (h : Represents W r A) (hc : r.check W limit c = true) :
    Represents W (r.put W c) (insert c A) := by
  obtain ⟨h0, -, hw, hA⟩ := h.check_iff.1 hc
  have hcW : c ≤ max c r.high := le_max_left _ _
  refine ⟨?_, ?_, ?_, ?_, ?_⟩
  · rintro d (rfl | hd)
    · exact h0
    · exact h.nonneg d hd
  · rintro d (rfl | hd)
    · exact hcW
    · exact (h.le_high d hd).trans (le_max_right _ _)
  · refine .inr ?_
    rcases max_cases c r.high with ⟨hm, -⟩ | ⟨hm, hlt⟩
    · exact .inl hm
    · refine .inr ?_
      show max c r.high ∈ A
      rw [hm]
      rcases h.high_mem with h' | h'
      · omega
      · exact h'
  · intro i d hd
    simp only [Slots.put] at hd
    split at hd
    · cases hd
      exact ⟨.inl rfl, by symm; assumption⟩
    · exact ⟨.inr (h.seen_mem i d hd).1, (h.seen_mem i d hd).2⟩
  · rintro d hd hlt
    simp only [Slots.put] at hlt ⊢
    have hmax₁ := le_max_left c r.high
    have hmax₂ := le_max_right c r.high
    split
    · -- a counter of this slot still in the window can only be `c` itself
      rename_i hs
      rcases hd with rfl | hd
      · rfl
      · have hle := h.le_high d hd
        rw [eq_of_slot_eq hW hs (by omega) (by omega)]
    · rename_i hs
      rcases hd with rfl | hd
      · exact absurd rfl hs
      · exact h.seen_of_mem d hd (by omega)

end Slots

end SlidingWindow
