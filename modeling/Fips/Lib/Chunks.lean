import Mathlib

/-!
# Cutting a list into pieces

`piece m l i` is the `i`-th piece of `m` elements of `l`. The pieces of a list long enough, in their order, are the list;
of the pieces in a set of positions only the whole set has all the elements.
-/

namespace Chunks
variable {α : Type*} {m n : Nat} {l : List α}

def piece (m : Nat) (l : List α) (i : Nat) : List α := (l.drop (i * m)).take m

theorem length_piece (m : Nat) (l : List α) (i : Nat) : (piece m l i).length = min m (l.length - i * m) := by
  rw [piece, List.length_take, List.length_drop]

theorem piece_ne_nil {i : Nat} (hm : 0 < m) (h : i * m < l.length) : piece m l i ≠ [] := by
  intro hnil
  have := congrArg List.length hnil
  rw [length_piece, List.length_nil] at this
  omega

/-- The first `n` pieces are the first `n * m` elements. -/
theorem flatten_take (m n : Nat) (l : List α) : ((List.range n).map (piece m l)).flatten = l.take (n * m) := by
  induction n with
  | zero => simp
  | succ n ih =>
    rw [List.range_succ, List.map_append, List.flatten_append, ih, List.map_singleton, List.flatten_singleton, piece,
      Nat.succ_mul, List.take_add]

theorem flatten_pieces (h : l.length ≤ n * m) : ((List.range n).map (piece m l)).flatten = l := by
  rw [flatten_take, List.take_of_length_le h]

/-- The lengths of the pieces add up. -/
theorem sum_pieces (h : l.length ≤ n * m) : ∑ i ∈ Finset.range n, (piece m l i).length = l.length := by
  have hsum (k : Nat) : ∑ i ∈ Finset.range k, (piece m l i).length = (l.take (k * m)).length := by
    induction k with
    | zero => simp
    | succ k ih =>
      rw [Finset.sum_range_succ, ih, piece, ← List.length_append, Nat.succ_mul, List.take_add]
  rw [hsum, List.take_of_length_le h]

/-- Positions that miss one hold less than the whole. -/
theorem sum_lt {s : Finset Nat} (hm : 0 < m) (h : l.length ≤ n * m) (hlast : (n - 1) * m < l.length)
    (hs : s ⊆ Finset.range n) (hne : s ≠ Finset.range n) : ∑ i ∈ s, (piece m l i).length < l.length := by
  obtain ⟨i, hi, his⟩ := Finset.exists_of_ssubset (hs.ssubset_of_ne hne)
  rw [← sum_pieces h]
  have hin : i * m ≤ (n - 1) * m := Nat.mul_le_mul_right m (by have := Finset.mem_range.1 hi; omega)
  refine Finset.sum_lt_sum_of_subset hs hi his ?_ fun _ _ _ => Nat.zero_le _
  exact List.length_pos_iff.2 (piece_ne_nil hm (hin.trans_lt hlast))

theorem sum_le {s : Finset Nat} (h : l.length ≤ n * m) (hs : s ⊆ Finset.range n) :
    ∑ i ∈ s, (piece m l i).length ≤ l.length := by
  rw [← sum_pieces h]
  exact Finset.sum_le_sum_of_subset hs

/-! ### Pieces that have arrived -/

/-- The pieces at the positions of `s`, in `n` places. -/
def partially (m : Nat) (l : List α) (n : Nat) (s : Finset Nat) : List (Option (List α)) :=
  (List.range n).map fun i => if i ∈ s then some (piece m l i) else none

theorem length_partially (s : Finset Nat) : (partially m l n s).length = n := by
  simp [partially]

theorem partially_get {s : Finset Nat} {i : Nat} (hi : i < n) :
    (partially m l n s)[i]? = some (if i ∈ s then some (piece m l i) else none) := by
  simp [partially, hi]

theorem partially_insert {s : Finset Nat} {i : Nat} (hi : i < n) :
    (partially m l n s).set i (some (piece m l i)) = partially m l n (insert i s) := by
  apply List.ext_getElem?
  intro k
  rw [List.getElem?_set, length_partially]
  by_cases hk : k < n
  · rw [partially_get hk, partially_get hk]
    by_cases hik : i = k
    · subst hik
      simp [hk]
    · rw [if_neg hik]
      simp [Ne.symm hik]
  · rw [List.getElem?_eq_none (by rw [length_partially]; omega), List.getElem?_eq_none (by rw [length_partially]; omega)]
    split
    · rename_i h
      omega
    · rfl

theorem partially_empty : partially m l n ∅ = List.replicate n none := by
  simp [partially]

theorem none_mem_partially {s : Finset Nat} (hs : s ⊆ Finset.range n) :
    none ∈ partially m l n s ↔ s ≠ Finset.range n := by
  simp only [partially, List.mem_map, List.mem_range]
  constructor
  · rintro ⟨i, hi, hnone⟩ rfl
    simp [hi] at hnone
  · intro hne
    obtain ⟨i, hi, his⟩ := Finset.exists_of_ssubset (hs.ssubset_of_ne hne)
    exact ⟨i, Finset.mem_range.1 hi, by simp [his]⟩

/-- All pieces in their places are the list. -/
theorem flatten_partially (h : l.length ≤ n * m) :
    ((partially m l n (Finset.range n)).map fun p => p.getD []).flatten = l := by
  have hall : ((partially m l n (Finset.range n)).map fun p => p.getD []) = (List.range n).map (piece m l) := by
    rw [partially, List.map_map]
    apply List.map_congr_left
    intro i hi
    simp [List.mem_range.1 hi]
  rw [hall, flatten_pieces h]

end Chunks
