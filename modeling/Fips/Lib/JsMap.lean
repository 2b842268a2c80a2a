import Mathlib

/-!
# Insertion-ordered maps

`Map` as JavaScript has it: entries in the order their keys were first set. `set` on a present key
replaces its value in place.
-/

/-- The entries, oldest key first. -/
abbrev JsMap (κ ν : Type) := List (κ × ν)

namespace JsMap
variable {κ ν : Type} [DecidableEq κ]

def get (m : JsMap κ ν) (k : κ) : Option ν := (m.find? (·.1 = k)).map Prod.snd

def set (m : JsMap κ ν) (k : κ) (v : ν) : JsMap κ ν :=
  match m with
  | [] => [(k, v)]
  | (k', v') :: m => if k' = k then (k, v) :: m else (k', v') :: set m k v

def delete (m : JsMap κ ν) (k : κ) : JsMap κ ν := m.filter (·.1 ≠ k)

variable {m : JsMap κ ν} {k k' : κ} {v : ν}

@[simp] theorem get_nil : get ([] : JsMap κ ν) k = none := rfl

theorem get_cons {p : κ × ν} : get (p :: m) k = if p.1 = k then some p.2 else get m k := by
  unfold get
  rw [List.find?_cons]
  by_cases h : p.1 = k <;> simp [h]

theorem get_set : get (set m k v) k' = if k = k' then some v else get m k' := by
  induction m with
  | nil => simp [set, get_cons]
  | cons p m ih =>
    obtain ⟨a, b⟩ := p
    unfold set
    split
    · rename_i h; subst h; simp only [get_cons]; split <;> rfl
    · rename_i h
      simp only [get_cons, ih]
      split
      · rename_i h'; subst h'; rw [if_neg (fun h'' => h h''.symm)]
      · rfl

theorem get_delete : get (delete m k) k' = if k = k' then none else get m k' := by
  induction m with
  | nil => simp [delete]
  | cons p m ih =>
    unfold delete at *
    by_cases h : p.1 = k
    · rw [List.filter_cons_of_neg (by simpa using h), ih, get_cons, h]
      split <;> rfl
    · rw [List.filter_cons_of_pos (by simpa using h), get_cons, get_cons, ih]
      split
      · rename_i h'; subst h'; rw [if_neg (fun h'' => h h''.symm)]
      · rfl

theorem mem_set {p : κ × ν} (h : p ∈ set m k v) : p = (k, v) ∨ p ∈ m := by
  induction m with
  | nil => exact .inl (List.mem_singleton.1 h)
  | cons q m ih =>
    obtain ⟨a, b⟩ := q
    unfold set at h
    split at h
    · rcases List.mem_cons.1 h with rfl | h
      · exact .inl rfl
      · exact .inr (List.mem_cons_of_mem _ h)
    · rcases List.mem_cons.1 h with rfl | h
      · exact .inr List.mem_cons_self
      · exact (ih h).imp_right (List.mem_cons_of_mem _)

theorem mem_delete {p : κ × ν} : p ∈ delete m k ↔ p ∈ m ∧ p.1 ≠ k := by
  simp [delete]

/-- Each key has one entry. -/
def Nodup (m : JsMap κ ν) : Prop := (m.map Prod.fst).Nodup

theorem Nodup.delete (h : Nodup m) (k : κ) : Nodup (delete m k) :=
  h.sublist ((List.filter_sublist).map _)

theorem Nodup.set (h : Nodup m) (k : κ) (v : ν) : Nodup (set m k v) := by
  induction m with
  | nil => simp [Nodup, JsMap.set]
  | cons q m ih =>
    obtain ⟨a, b⟩ := q
    have hcons := List.nodup_cons.1 h
    unfold JsMap.set
    split
    · rename_i hak
      subst hak
      exact h
    · rename_i hak
      refine List.nodup_cons.2 ⟨fun hmem => ?_, ih hcons.2⟩
      obtain ⟨p, hp, hpa⟩ := List.mem_map.1 hmem
      rcases mem_set hp with rfl | hp
      · exact hak hpa.symm
      · exact hcons.1 (hpa ▸ List.mem_map_of_mem hp)

theorem Nodup.get_of_mem (h : Nodup m) (hm : (k, v) ∈ m) : get m k = some v := by
  induction m with
  | nil => cases hm
  | cons q m ih =>
    have hcons := List.nodup_cons.1 h
    rw [get_cons]
    rcases List.mem_cons.1 hm with rfl | hm
    · rw [if_pos rfl]
    · rw [if_neg, ih hcons.2 hm]
      intro hq
      exact hcons.1 (hq ▸ List.mem_map_of_mem (f := Prod.fst) hm)

theorem mem_of_get (h : get m k = some v) : (k, v) ∈ m := by
  unfold get at h
  obtain ⟨p, hp, rfl⟩ := Option.map_eq_some_iff.1 h
  have hk : p.1 = k := by simpa using List.find?_some hp
  exact hk ▸ List.mem_of_find?_eq_some hp

theorem length_set_le : (set m k v).length ≤ m.length + 1 := by
  induction m with
  | nil => simp [set]
  | cons p m ih =>
    obtain ⟨a, b⟩ := p
    unfold set
    split <;> simp
    omega

theorem length_set_of_get (h : (get m k).isSome = true) : (set m k v).length = m.length := by
  induction m with
  | nil => cases h
  | cons p m ih =>
    obtain ⟨a, b⟩ := p
    unfold set
    split
    · rfl
    · rename_i hne
      rw [get_cons, if_neg hne] at h
      simpa using ih h

theorem set_of_notMem (h : k ∉ m.map Prod.fst) : set m k v = m ++ [(k, v)] := by
  induction m with
  | nil => rfl
  | cons q m ih =>
    obtain ⟨a, b⟩ := q
    rw [List.map_cons, List.mem_cons, not_or] at h
    unfold set
    rw [if_neg (fun heq => h.1 heq.symm), ih h.2]
    rfl

/-- Entries with distinct keys are set one behind the other. -/
theorem foldl_set (entries : List (κ × ν)) (h : Nodup (m ++ entries)) :
    entries.foldl (fun m e => set m e.1 e.2) m = m ++ entries := by
  induction entries generalizing m with
  | nil => rw [List.foldl_nil, List.append_nil]
  | cons e entries ih =>
    have hnot : e.1 ∉ m.map Prod.fst := by
      intro hmem
      rw [Nodup, List.map_append, List.map_cons] at h
      exact (List.nodup_append.1 h).2.2 e.1 hmem e.1 List.mem_cons_self rfl
    rw [List.foldl_cons, set_of_notMem hnot, ih (by rw [List.append_assoc]; exact h), List.append_assoc]
    rfl

theorem length_delete_le : (delete m k).length ≤ m.length := List.length_filter_le _ _

theorem length_delete_lt {p : κ × ν} (h : p ∈ m) : (delete m p.1).length < m.length :=
  List.length_filter_lt_length_iff_exists.2 ⟨p, h, by simp⟩

theorem get_foldl_delete (ks : List κ) :
    get (ks.foldl (fun m k => delete m k) m) k = if k ∈ ks then none else get m k := by
  induction ks generalizing m with
  | nil => simp
  | cons a ks ih =>
    rw [List.foldl_cons, ih, get_delete]
    by_cases hk : k ∈ ks
    · rw [if_pos hk, if_pos (List.mem_cons_of_mem _ hk)]
    · by_cases ha : a = k
      · rw [if_neg hk, if_pos ha, if_pos (by rw [ha]; exact List.mem_cons_self)]
      · rw [if_neg hk, if_neg ha, if_neg (by simp [hk, Ne.symm ha])]

/-! ### A map with its values changed -/

section
variable {μ : Type}

def mapValues (f : ν → μ) (m : JsMap κ ν) : JsMap κ μ := m.map fun e => (e.1, f e.2)

variable {f : ν → μ}

theorem get_mapValues : get (mapValues f m) k = (get m k).map f := by
  induction m with
  | nil => rfl
  | cons p m ih =>
    rw [mapValues, List.map_cons, get_cons, get_cons]
    split
    · rfl
    · exact ih

theorem mapValues_set : mapValues f (set m k v) = set (mapValues f m) k (f v) := by
  induction m with
  | nil => rfl
  | cons p m ih =>
    obtain ⟨a, b⟩ := p
    simp only [mapValues, set, List.map_cons] at ih ⊢
    split
    · rfl
    · rw [List.map_cons, ih]

/-- Other values may be read in another way. -/
theorem mapValues_set_of_ne {g : ν → μ} (h : Nodup m) (hg : ∀ e ∈ m, e.1 ≠ k → g e.2 = f e.2) :
    mapValues g (set m k v) = set (mapValues f m) k (g v) := by
  induction m with
  | nil => rfl
  | cons p m ih =>
    obtain ⟨a, b⟩ := p
    obtain ⟨hnot, hrest⟩ := List.nodup_cons.1 h
    have htail : ∀ e ∈ m, e.1 ≠ k → g e.2 = f e.2 := fun e he => hg e (List.mem_cons_of_mem _ he)
    simp only [mapValues, set, List.map_cons] at ih ⊢
    by_cases hak : a = k
    · rw [if_pos hak, if_pos hak, List.map_cons]
      congr 1
      apply List.map_congr_left
      intro e he
      rw [htail e he]
      intro hek
      have hmem : e.1 ∈ m.map Prod.fst := List.mem_map_of_mem he
      rw [hek, ← hak] at hmem
      exact hnot hmem
    · rw [if_neg hak, if_neg hak, List.map_cons, ih hrest htail, hg (a, b) List.mem_cons_self hak]

omit [DecidableEq κ] in
theorem nodup_mapValues : Nodup (mapValues f m) ↔ Nodup m := by
  unfold Nodup mapValues
  rw [List.map_map]
  rfl

theorem mapValues_delete : mapValues f (delete m k) = delete (mapValues f m) k := by
  rw [mapValues, delete, delete, mapValues, List.filter_map]
  rfl

end

end JsMap
