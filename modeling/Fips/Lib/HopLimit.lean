import Mathlib

/-!
# Messages with a hop limit

A message that is received is passed on in at most `n` copies whose limit is one less, and what is received has been sent
before, once for each receipt. Then the copies of a message are at most `cost n` of its limit, in whatever order all this
happens: `cost` of a limit pays for the copies and for what they cost in turn.
-/

namespace HopLimit

variable {μ κ ι : Type*} {n : ℕ} {ttl : μ → ℕ} {O F H M : Multiset μ}

/-- How many copies come of a message with this limit. -/
def cost (n : ℕ) : ℕ → ℕ
  | 0 => 0
  | t + 1 => n * (cost n t + 1)

theorem cost_one (t : ℕ) : cost 1 t = t := by
  induction t with
  | zero => rfl
  | succ t ih => rw [cost, one_mul, ih]

/-- How many copies come of the messages. -/
def total (n : ℕ) (ttl : μ → ℕ) (M : Multiset μ) : ℕ := (M.map fun m => cost n (ttl m)).sum

/-- The messages, and how many copies come of them. -/
def charge (n : ℕ) (ttl : μ → ℕ) (M : Multiset μ) : ℕ := (M.map fun m => cost n (ttl m) + 1).sum

theorem total_add (M M' : Multiset μ) : total n ttl (M + M') = total n ttl M + total n ttl M' := by
  rw [total, Multiset.map_add, Multiset.sum_add]
  rfl

theorem charge_add (M M' : Multiset μ) : charge n ttl (M + M') = charge n ttl M + charge n ttl M' := by
  rw [charge, Multiset.map_add, Multiset.sum_add]
  rfl

theorem charge_eq : charge n ttl M = total n ttl M + Multiset.card M := by
  rw [charge, Multiset.sum_map_add, Multiset.map_const', Multiset.sum_replicate, smul_eq_mul, mul_one]
  rfl

theorem total_mono (h : M ≤ O) : total n ttl M ≤ total n ttl O := by
  obtain ⟨M', rfl⟩ := Multiset.le_iff_exists_add.1 h
  rw [total_add]
  exact Nat.le_add_right _ _

theorem charge_mono (h : M ≤ O) : charge n ttl M ≤ charge n ttl O := by
  obtain ⟨M', rfl⟩ := Multiset.le_iff_exists_add.1 h
  rw [charge_add]
  exact Nat.le_add_right _ _

theorem total_sum (s : Finset ι) (f : ι → Multiset μ) : total n ttl (∑ i ∈ s, f i) = ∑ i ∈ s, total n ttl (f i) := by
  induction s using Finset.cons_induction with
  | empty => rfl
  | cons i s hi ih => rw [Finset.sum_cons, Finset.sum_cons, total_add, ih]

theorem charge_sum (s : Finset ι) (f : ι → Multiset μ) : charge n ttl (∑ i ∈ s, f i) = ∑ i ∈ s, charge n ttl (f i) := by
  induction s using Finset.cons_induction with
  | empty => rfl
  | cons i s hi ih => rw [Finset.sum_cons, Finset.sum_cons, charge_add, ih]

/-- The copies are at most what the messages from outside cost. -/
theorem card_le (hpaid : charge n ttl F ≤ total n ttl H) (hsent : H ≤ O + F) : Multiset.card F ≤ total n ttl O := by
  have hreceived : total n ttl H ≤ total n ttl O + total n ttl F := (total_mono hsent).trans_eq (total_add O F)
  rw [charge_eq] at hpaid
  omega

theorem sum_range_get {α : Type*} (l : List α) (f : α → ℕ) :
    ∑ i ∈ Finset.range l.length, (l[i]?).elim 0 f = (l.map f).sum := by
  induction l using List.reverseRecOn with
  | nil => rfl
  | append_singleton l a ih =>
    have hleft : ∀ i ∈ Finset.range l.length, ((l ++ [a])[i]?).elim 0 f = (l[i]?).elim 0 f := fun i hi => by
      rw [List.getElem?_append_left (Finset.mem_range.1 hi)]
    rw [List.length_append, List.length_singleton, Finset.sum_range_succ, Finset.sum_congr rfl hleft, ih,
      List.getElem?_concat_length, List.map_append, List.sum_append, List.map_singleton, List.sum_singleton]
    rfl

/-- Each of the numbers below `l` is used with each of the keys in `N` at most once. -/
theorem sum_le_of_nodup [DecidableEq κ] {L : List (ℕ × κ)} {l : ℕ} {N : Finset κ} (hnodup : L.Nodup)
    (hmem : ∀ c ∈ L, c.1 < l ∧ c.2 ∈ N) (g : ℕ → ℕ) :
    (L.map fun c => g c.1).sum ≤ N.card * ∑ i ∈ Finset.range l, g i := by
  have hsub : L.toFinset ⊆ Finset.range l ×ˢ N := by
    intro c hc
    obtain ⟨hl, hN⟩ := hmem c (List.mem_toFinset.1 hc)
    exact Finset.mem_product.2 ⟨Finset.mem_range.2 hl, hN⟩
  calc (L.map fun c => g c.1).sum
      = ∑ c ∈ L.toFinset, g c.1 := (List.sum_toFinset (fun c => g c.1) hnodup).symm
    _ ≤ ∑ c ∈ Finset.range l ×ˢ N, g c.1 := Finset.sum_le_sum_of_subset hsub
    _ = N.card * ∑ i ∈ Finset.range l, g i := by
      rw [Finset.sum_product, Finset.mul_sum]
      refine Finset.sum_congr rfl fun i _ => ?_
      show ∑ _y ∈ N, g i = N.card * g i
      rw [Finset.sum_const, smul_eq_mul]

end HopLimit
