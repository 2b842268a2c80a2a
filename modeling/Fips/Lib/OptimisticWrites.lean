import Mathlib

/-!
# Writes that are taken back

A writer stores its value at once and, should it fail later, puts back what it has found, unless another value has been
stored in between. A value is known by its `id`. Of the writes that have not failed the last one is current, as long as
no write puts back the value of one that has failed.
-/

namespace OptimisticWrites

variable {α ι : Type}

/-- What is stored, all writes with whether they will succeed, and those which have still to fail with what they have
found. -/
structure Cell (α ι : Type) where
  current : α
  writes : List (α × Bool)
  failing : List (ι × α)

/-- The last value whose write does not fail. -/
def latest (initial : α) (writes : List (α × Bool)) : α := ((writes.filter Prod.snd).map Prod.fst).getLastD initial

namespace Cell

/-- What a cell holds before the first write counts as written. -/
def init (initial : α) : Cell α ι := ⟨initial, [(initial, true)], []⟩

variable (id : α → ι)

def write (a : α) (ok : Bool) (c : Cell α ι) : Cell α ι where
  current := a
  writes := c.writes ++ [(a, ok)]
  failing := if ok then c.failing else c.failing ++ [(id a, c.current)]

/-- One of the failing writes fails. -/
def fail [DecidableEq ι] (index : Nat) (c : Cell α ι) : Cell α ι :=
  match c.failing[index]? with
  | none => c
  | some e => { c with
    current := if id c.current = e.1 then e.2 else c.current
    failing := c.failing.eraseIdx index }

/-- The write of `a` has failed. -/
def Failed (c : Cell α ι) (a : α) : Prop := (a, false) ∈ c.writes ∧ id a ∉ c.failing.map Prod.fst

/-- A write that takes its value back finds that of a write which has not failed. -/
def Restores (c : Cell α ι) (index : Nat) : Prop :=
  ∀ e, c.failing[index]? = some e → id c.current = e.1 → ¬c.Failed id e.2

/-- All writes behind `a` have failed. -/
def Last (c : Cell α ι) (a : α) : Prop :=
  ∃ older ok newer, c.writes = older ++ (a, ok) :: newer ∧ ∀ w ∈ newer, c.Failed id w.1

/-- What a cell is like when nothing wrong has been put back. -/
structure Inv (c : Cell α ι) : Prop where
  fresh : (c.writes.map fun w => id w.1).Nodup
  failing : (c.failing.map Prod.fst).Nodup
  /-- What the value `e.2` is to a failing write: it was current when the write began. -/
  found : ∀ e ∈ c.failing, ∃ a older ok between newer, id a = e.1 ∧
    c.writes = older ++ (e.2, ok) :: (between ++ (a, false) :: newer) ∧ ∀ w ∈ between, c.Failed id w.1
  last : c.Last id c.current
  kept : ¬c.Failed id c.current

section
variable {id : α → ι} {c : Cell α ι} {a b initial : α} {ok : Bool} {index : Nat}

theorem Inv.init : (init initial : Cell α ι).Inv id where
  fresh := List.nodup_singleton _
  failing := List.nodup_nil
  found := nofun
  last := ⟨[], true, [], rfl, nofun⟩
  kept h := by cases List.mem_singleton.1 h.1

/-- A value is written once. -/
theorem Inv.eq_of_id (h : c.Inv id) {w w' : α × Bool} (hw : w ∈ c.writes) (hw' : w' ∈ c.writes) (hid : id w.1 = id w'.1) :
    w = w' := List.inj_on_of_nodup_map h.fresh hw hw' hid

theorem Failed.write (h : c.Failed id b) (hfresh : id a ≠ id b) : (c.write id a ok).Failed id b := by
  refine ⟨List.mem_append_left _ h.1, ?_⟩
  unfold Cell.write
  cases ok with
  | true => exact h.2
  | false =>
    simp only [Bool.false_eq_true, if_false, List.map_append, List.mem_append, List.map_cons, List.map_nil,
      List.mem_singleton, not_or]
    exact ⟨h.2, hfresh.symm⟩

/-- A new value may be written in any state. -/
theorem Inv.write (h : c.Inv id) (hfresh : id a ∉ c.writes.map fun w => id w.1) : (c.write id a ok).Inv id := by
  have hne {w : α × Bool} (hw : w ∈ c.writes) : id a ≠ id w.1 := fun heq =>
    hfresh (List.mem_map.2 ⟨w, hw, heq.symm⟩)
  have hfailed {newer : List (α × Bool)} (hsub : ∀ w ∈ newer, w ∈ c.writes) (hnewer : ∀ w ∈ newer, c.Failed id w.1) :
      ∀ w ∈ newer, (c.write id a ok).Failed id w.1 := fun w hw => (hnewer w hw).write (hne (hsub w hw))
  obtain ⟨older, okc, newer, hwrites, hnewer⟩ := h.last
  have hin : ∀ w ∈ newer, w ∈ c.writes := fun w hw => by
    rw [hwrites]
    exact List.mem_append_right _ (List.mem_cons_of_mem _ hw)
  have hnotFailing : id a ∉ c.failing.map Prod.fst := by
    intro hmem
    obtain ⟨e, he, hid⟩ := List.mem_map.1 hmem
    obtain ⟨b, _, _, _, _, hb, hw, -⟩ := h.found e he
    refine hfresh (List.mem_map.2 ⟨(b, false), ?_, hb.trans hid⟩)
    rw [hw]
    simp
  refine ⟨?_, ?_, fun e he => ?_, ⟨c.writes, ok, [], rfl, nofun⟩, fun hfail => ?_⟩
  · show ((c.writes ++ [(a, ok)]).map fun w => id w.1).Nodup
    rw [List.map_append]
    exact List.Nodup.append h.fresh (List.nodup_singleton _) (List.disjoint_singleton.2 hfresh)
  · unfold Cell.write
    cases ok with
    | true => exact h.failing
    | false =>
      show ((c.failing ++ [(id a, c.current)]).map Prod.fst).Nodup
      rw [List.map_append]
      exact List.Nodup.append h.failing (List.nodup_singleton _) (List.disjoint_singleton.2 hnotFailing)
  · have hcases : e ∈ c.failing ∨ (ok = false ∧ e = (id a, c.current)) := by
      cases ok with
      | true => exact .inl he
      | false =>
        rcases List.mem_append.1 he with hold | hnew
        · exact .inl hold
        · exact .inr ⟨rfl, List.mem_singleton.1 hnew⟩
    rcases hcases with hold | ⟨rfl, rfl⟩
    · obtain ⟨b, older', ok', between, newer', hb, hw, hbetween⟩ := h.found e hold
      refine ⟨b, older', ok', between, newer' ++ [(a, ok)], hb, ?_, hfailed (fun w hw' => ?_) hbetween⟩
      · show c.writes ++ [(a, ok)] = _
        rw [hw]
        simp
      · rw [hw]
        simp [hw']
    · refine ⟨a, older, okc, newer, [], rfl, ?_, hfailed hin hnewer⟩
      show c.writes ++ [(a, false)] = _
      rw [hwrites]
      simp
  · -- the new write has not failed: it is still to fail, or will succeed
    cases ok with
    | true =>
      rcases List.mem_append.1 hfail.1 with hmem | hmem
      · exact hne hmem rfl
      · cases List.mem_singleton.1 hmem
    | false =>
      refine hfail.2 ?_
      show id a ∈ (c.failing ++ [(id a, c.current)]).map Prod.fst
      simp

theorem split_at {β : Type} {l : List β} {e : β} (he : l[index]? = some e) :
    ∃ l₁ l₂, l = l₁ ++ e :: l₂ ∧ l.eraseIdx index = l₁ ++ l₂ := by
  obtain ⟨hlt, hget⟩ := List.getElem?_eq_some_iff.1 he
  refine ⟨l.take index, l.drop (index + 1), ?_, List.eraseIdx_eq_take_drop_succ ..⟩
  rw [← hget, List.getElem_cons_drop, List.take_append_drop]

/-- What stands behind an element of a list without duplicates. -/
theorem behind_eq {β : Type} {x : β} {l₁ l₂ l₁' l₂' : List β} (hnodup : (l₁ ++ x :: l₂).Nodup)
    (h : l₁ ++ x :: l₂ = l₁' ++ x :: l₂') : l₂ = l₂' := by
  have hnot {m₁ m₂ m : List β} (hm : (m₁ ++ x :: m ++ x :: m₂).Nodup) : False := by
    have hdisjoint := List.disjoint_of_nodup_append hm
    exact hdisjoint (List.mem_append_right _ List.mem_cons_self) List.mem_cons_self
  rcases List.append_eq_append_iff.1 h with ⟨m, hl, htail⟩ | ⟨m, hl, htail⟩
  · cases m with
    | nil => exact (List.cons.inj htail).2
    | cons y m =>
      obtain ⟨rfl, -⟩ := List.cons.inj htail
      rw [h, hl] at hnodup
      exact (hnot hnodup).elim
  · cases m with
    | nil => exact (List.cons.inj htail).2.symm
    | cons y m =>
      obtain ⟨rfl, -⟩ := List.cons.inj htail
      rw [hl] at hnodup
      exact (hnot hnodup).elim

/-- The write that fails is failed from now on, and the others are as before. -/
theorem Inv.failed_iff (h : c.Inv id) {e : ι × α} (he : c.failing[index]? = some e) (current b : α) :
    Failed id ⟨current, c.writes, c.failing.eraseIdx index⟩ b ↔ c.Failed id b ∨ ((b, false) ∈ c.writes ∧ id b = e.1) := by
  obtain ⟨l₁, l₂, hl, herase⟩ := split_at he
  have hnodup := h.failing
  rw [hl, List.map_append, List.map_cons] at hnodup
  obtain ⟨hnotin, -⟩ := List.nodup_cons.1 (List.nodup_middle.1 hnodup)
  have hmem : id b ∈ c.failing.map Prod.fst ↔ id b = e.1 ∨ id b ∈ (l₁ ++ l₂).map Prod.fst := by
    rw [hl]
    simp only [List.map_append, List.map_cons, List.mem_append, List.mem_cons]
    tauto
  unfold Failed
  rw [herase, hmem]
  constructor
  · rintro ⟨hw, hnot⟩
    by_cases hid : id b = e.1
    · exact .inr ⟨hw, hid⟩
    · exact .inl ⟨hw, not_or.2 ⟨hid, hnot⟩⟩
  · rintro (⟨hw, hnot⟩ | ⟨hw, hid⟩)
    · exact ⟨hw, fun hin => hnot (.inr hin)⟩
    · refine ⟨hw, fun hin => hnotin ?_⟩
      rw [← hid, ← List.map_append]
      exact hin

/-- A write may fail, unless it puts back the value of one that has failed. -/
theorem Inv.fail [DecidableEq ι] (h : c.Inv id) (hrestores : c.Restores id index) : (c.fail id index).Inv id := by
  unfold Cell.fail
  cases he : c.failing[index]? with
  | none => exact h
  | some e =>
    obtain ⟨l₁, l₂, hl, herase⟩ := split_at he
    have hmem : e ∈ c.failing := by
      rw [hl]
      simp
    have hsub : ∀ e' ∈ c.failing.eraseIdx index, e' ∈ c.failing := fun e' => List.mem_of_mem_eraseIdx
    have hiff := h.failed_iff he
    have hfailed (current : α) {newer : List (α × Bool)} (hnewer : ∀ w ∈ newer, c.Failed id w.1) :
        ∀ w ∈ newer, Failed id ⟨current, c.writes, c.failing.eraseIdx index⟩ w.1 :=
      fun w hw => (hiff current w.1).2 (.inl (hnewer w hw))
    obtain ⟨a, older, ok, between, newer, ha, hwrites, hbetween⟩ := h.found e hmem
    refine ⟨h.fresh, ?_, fun e' he' => ?_, ?_, ?_⟩
    · show ((c.failing.eraseIdx index).map Prod.fst).Nodup
      rw [← List.eraseIdx_map]
      exact h.failing.eraseIdx index
    · obtain ⟨a', older', ok', between', newer', ha', hwrites', hbetween'⟩ := h.found e' (hsub e' he')
      exact ⟨a', older', ok', between', newer', ha', hwrites', hfailed _ hbetween'⟩
    · dsimp only
      by_cases hid : id c.current = e.1
      · -- the value it has found: what lies between had failed, the write itself fails now, and what is newer had failed
        rw [if_pos hid]
        obtain ⟨older', ok', newer', hcurrent, hnewer'⟩ := h.last
        have hin : (c.current, ok') ∈ c.writes := by
          rw [hcurrent]
          simp
        have hin' : (a, false) ∈ c.writes := by
          rw [hwrites]
          simp
        have heq := h.eq_of_id hin hin' (hid.trans ha.symm)
        rw [heq] at hcurrent
        rw [← List.cons_append, ← List.append_assoc] at hwrites
        have hnewer : newer = newer' := by
          refine behind_eq ?_ (hwrites.symm.trans hcurrent)
          rw [← hwrites]
          exact h.fresh.of_map _
        refine ⟨older, ok, between ++ (a, false) :: newer, by rw [hwrites]; simp, fun w hw => (hiff e.2 w.1).2 ?_⟩
        rcases List.mem_append.1 hw with hold | hnew
        · exact .inl (hbetween w hold)
        rcases List.mem_cons.1 hnew with rfl | hnew
        · exact .inr ⟨hin', ha⟩
        · exact .inl (hnewer' w (hnewer ▸ hnew))
      · rw [if_neg hid]
        obtain ⟨older', ok', newer', hcurrent, hnewer'⟩ := h.last
        exact ⟨older', ok', newer', hcurrent, hfailed _ hnewer'⟩
    · dsimp only
      by_cases hid : id c.current = e.1
      · rw [if_pos hid, hiff]
        rintro (hfail | ⟨-, hsame⟩)
        · exact hrestores e he hid hfail
        · -- its own value is not what it has found
          have hnodup := h.fresh
          rw [hwrites, List.map_append, List.map_cons] at hnodup
          refine (List.nodup_cons.1 (List.nodup_append.1 hnodup).2.1).1 (List.mem_map.2 ⟨(a, false), ?_, ha.trans hsame.symm⟩)
          simp
      · rw [if_neg hid, hiff]
        rintro (hfail | ⟨-, hsame⟩)
        · exact h.kept hfail
        · exact hid hsame

/-- When nothing is left to fail, the latest value that was written for good is current. -/
theorem Inv.latest (h : c.Inv id) (hidle : c.failing = []) (d : α) : c.current = latest d c.writes := by
  obtain ⟨older, ok, newer, hwrites, hnewer⟩ := h.last
  have hok : ok = true := by
    by_contra hok
    refine h.kept ⟨?_, by rw [hidle]; exact List.not_mem_nil⟩
    rw [hwrites, Bool.eq_false_iff.2 hok]
    simp
  have hnone : newer.filter Prod.snd = [] := by
    refine List.filter_eq_nil_iff.2 fun w hw htrue => ?_
    have hmem : w ∈ c.writes := by
      rw [hwrites]
      simp [hw]
    have hfalse := h.eq_of_id hmem (hnewer w hw).1 rfl
    rw [hfalse] at htrue
    cases htrue
  rw [OptimisticWrites.latest, hwrites, List.filter_append, List.filter_cons, if_pos hok, hnone]
  simp

end

end Cell

end OptimisticWrites
