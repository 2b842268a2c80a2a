import Fips.Lib.Heap

/-!
# Promises that are settled once

A promise is an object that its holder must settle. `Accounted h pending` says that the promises of
`pending` are not settled and all others have been settled exactly once: no promise is lost, and none is
settled twice.
-/

/-- A promise, what it is for, and the calls that settle it. -/
structure Promise (α σ : Type) where
  payload : α
  settlements : List σ
deriving DecidableEq, Inhabited

namespace Promises
variable {α σ : Type}

abbrev Ref := Nat

def settle (x : σ) (p : Ref) (h : Heap (Promise α σ)) : Heap (Promise α σ) :=
  h.modify p fun promise => { promise with settlements := promise.settlements ++ [x] }

def settleAll (x : σ) (ps : List Ref) (h : Heap (Promise α σ)) : Heap (Promise α σ) :=
  ps.foldl (fun h p => settle x p h) h

structure Accounted (h : Heap (Promise α σ)) (pending : List Ref) : Prop where
  nodup : pending.Nodup
  unsettled : ∀ p ∈ pending, p < h.next ∧ (h.get p).settlements = []
  settled : ∀ p < h.next, p ∉ pending → (h.get p).settlements.length = 1

variable {h : Heap (Promise α σ)} {pending pending' : List Ref} {x : σ} {p : Ref} {a : α}

@[simp] theorem next_settle : (settle x p h).next = h.next := rfl

@[simp] theorem payload_settle (q : Ref) : ((settle x p h).get q).payload = (h.get q).payload := by
  unfold settle
  rw [Heap.get_modify]
  split
  · rfl
  · rfl

@[simp] theorem next_settleAll (ps : List Ref) : (settleAll x ps h).next = h.next := by
  induction ps generalizing h with
  | nil => rfl
  | cons p ps ih => exact ih

@[simp] theorem payload_settleAll (ps : List Ref) (q : Ref) :
    ((settleAll x ps h).get q).payload = (h.get q).payload := by
  induction ps generalizing h with
  | nil => rfl
  | cons p ps ih => exact ih.trans (payload_settle q)

theorem accounted_empty [Inhabited α] : Accounted (α := α) (σ := σ) .empty [] where
  nodup := List.nodup_nil
  unsettled := by rintro p ⟨⟩
  settled p hp := absurd hp (Nat.not_lt_zero p)

theorem Accounted.perm (hacc : Accounted h pending) (hperm : pending.Perm pending') : Accounted h pending' where
  nodup := hperm.nodup_iff.1 hacc.nodup
  unsettled p hp := hacc.unsettled p (hperm.mem_iff.2 hp)
  settled p hp hnot := hacc.settled p hp fun hmem => hnot (hperm.mem_iff.1 hmem)

/-- A promise that is pending is settled. -/
theorem Accounted.settle (hacc : Accounted h (p :: pending)) : Accounted (settle x p h) pending where
  nodup := (List.nodup_cons.1 hacc.nodup).2
  unsettled q hq := by
    have hne : q ≠ p := by
      rintro rfl
      exact (List.nodup_cons.1 hacc.nodup).1 hq
    unfold Promises.settle
    rw [Heap.get_modify_of_ne hne]
    exact hacc.unsettled q (List.mem_cons_of_mem _ hq)
  settled q hq hnot := by
    unfold Promises.settle
    by_cases hne : q = p
    · rw [hne, Heap.get_modify_self]
      have hnone := (hacc.unsettled p List.mem_cons_self).2
      dsimp only
      rw [hnone]
      rfl
    · rw [Heap.get_modify_of_ne hne]
      refine hacc.settled q hq fun hmem => ?_
      rcases List.mem_cons.1 hmem with heq | hmem
      · exact hne heq
      · exact hnot hmem

theorem Accounted.settleAll {ps : List Ref} (hacc : Accounted h (ps ++ pending)) :
    Accounted (settleAll x ps h) pending := by
  induction ps generalizing h with
  | nil => exact hacc
  | cons p ps ih => exact ih hacc.settle

theorem Accounted.alloc (hacc : Accounted h pending) : Accounted (h.alloc ⟨a, []⟩) (pending ++ [h.next]) where
  nodup := by
    refine List.nodup_append.2 ⟨hacc.nodup, List.nodup_singleton _, fun p hp q hq heq => ?_⟩
    rw [List.mem_singleton.1 hq] at heq
    exact absurd (hacc.unsettled p hp).1 (by rw [heq]; exact Nat.lt_irrefl _)
  unsettled p hp := by
    rcases List.mem_append.1 hp with hold | hnew
    · have hlt := (hacc.unsettled p hold).1
      rw [Heap.get_alloc_of_lt hlt]
      exact ⟨hlt.trans (Nat.lt_succ_self _), (hacc.unsettled p hold).2⟩
    · rw [List.mem_singleton.1 hnew, Heap.get_alloc_self]
      exact ⟨Nat.lt_succ_self _, rfl⟩
  settled p hp hnot := by
    have hne : p ≠ h.next := fun heq => hnot (List.mem_append_right _ (List.mem_singleton.2 heq))
    rw [Heap.get_alloc_of_ne hne]
    exact hacc.settled p (Nat.lt_of_le_of_ne (Nat.lt_succ_iff.1 hp) hne) fun hmem => hnot (List.mem_append_left _ hmem)

/-- A promise that is settled when it is made. -/
theorem Accounted.allocSettled (hacc : Accounted h pending) : Accounted (h.alloc ⟨a, [x]⟩) pending where
  nodup := hacc.nodup
  unsettled p hp := by
    have hlt := (hacc.unsettled p hp).1
    rw [Heap.get_alloc_of_lt hlt]
    exact ⟨hlt.trans (Nat.lt_succ_self _), (hacc.unsettled p hp).2⟩
  settled p hp hnot := by
    by_cases hne : p = h.next
    · rw [hne, Heap.get_alloc_self]
      rfl
    · rw [Heap.get_alloc_of_ne hne]
      exact hacc.settled p (Nat.lt_of_le_of_ne (Nat.lt_succ_iff.1 hp) hne) hnot

/-! ### What is settled how -/

theorem get_settle_of_ne {q : Ref} (hne : q ≠ p) : (settle x p h).get q = h.get q := Heap.get_modify_of_ne hne

theorem get_settleAll_of_notMem {ps : List Ref} {q : Ref} (hnot : q ∉ ps) : (settleAll x ps h).get q = h.get q := by
  induction ps generalizing h with
  | nil => rfl
  | cons p ps ih =>
    have hne : q ≠ p := fun heq => hnot (heq ▸ List.mem_cons_self)
    exact (ih fun hmem => hnot (List.mem_cons_of_mem _ hmem)).trans (get_settle_of_ne hne)

theorem Accounted.settlements_settle (hacc : Accounted h (p :: pending)) :
    ((Promises.settle x p h).get p).settlements = [x] := by
  unfold Promises.settle
  rw [Heap.get_modify_self]
  dsimp only
  rw [(hacc.unsettled p List.mem_cons_self).2]
  rfl

theorem Accounted.settlements_settleAll {ps : List Ref} (hacc : Accounted h (ps ++ pending)) (hp : p ∈ ps) :
    ((Promises.settleAll x ps h).get p).settlements = [x] := by
  induction ps generalizing h with
  | nil => cases hp
  | cons q ps ih =>
    by_cases hmem : p ∈ ps
    · exact ih hacc.settle hmem
    · have heq : p = q := (List.mem_cons.1 hp).resolve_right hmem
      subst heq
      show ((Promises.settleAll x ps (Promises.settle x p h)).get p).settlements = [x]
      rw [get_settleAll_of_notMem hmem]
      exact hacc.settlements_settle

theorem settleAll_append (ps ps' : List Ref) : settleAll x (ps ++ ps') h = settleAll x ps' (settleAll x ps h) :=
  List.foldl_append

end Promises
