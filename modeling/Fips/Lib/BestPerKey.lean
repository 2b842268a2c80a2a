import Mathlib

/-!
# The best entries of distinct keys

Of each key the leader is its best entry, and `best k` keeps the `k` best leaders. Entries that arrive
one after the other may be cut to `best k` in between: what was cut away is never missed.
-/

namespace BestPerKey

variable {α κ : Type}

/-! ## Sorting -/

section
variable {cmp : α → α → Ordering} {l l' : List α} {a b : α}

/-- The best first. -/
def sort (cmp : α → α → Ordering) (l : List α) : List α := l.mergeSort fun a b => (cmp a b).isLE

theorem perm_sort : (sort cmp l).Perm l := List.mergeSort_perm l _

theorem mem_sort : a ∈ sort cmp l ↔ a ∈ l := perm_sort.mem_iff

variable [Std.TransCmp cmp] [Std.LawfulEqCmp cmp]

variable (cmp) in
theorem trichotomy (a b : α) : cmp a b = .lt ∨ a = b ∨ cmp b a = .lt := by
  have hswap : cmp b a = (cmp a b).swap := Std.OrientedCmp.eq_swap
  rcases h : cmp a b with _ | _ | _
  · exact .inl rfl
  · exact .inr (.inl (Std.LawfulEqCmp.eq_of_compare h))
  · exact .inr (.inr (by rw [hswap, h]; rfl))

omit [Std.LawfulEqCmp cmp] in
theorem lt_irrefl (a : α) : cmp a a ≠ .lt := by
  have hself : cmp a a = .eq := Std.ReflCmp.compare_self
  rw [hself]
  rintro ⟨⟩

omit [Std.LawfulEqCmp cmp] in
theorem lt_asymm (h : cmp a b = .lt) : cmp b a ≠ .lt := by
  intro h'
  exact lt_irrefl a (Std.TransCmp.lt_trans h h')

omit [Std.LawfulEqCmp cmp] in
theorem isLE_iff : (cmp a b).isLE = true ↔ cmp b a ≠ .lt := by
  have hswap : cmp b a = (cmp a b).swap := Std.OrientedCmp.eq_swap
  rw [hswap]
  cases cmp a b <;> simp

variable (cmp) in
omit [Std.LawfulEqCmp cmp] in
theorem sort_pairwise (l : List α) : (sort cmp l).Pairwise fun a b => (cmp a b).isLE = true := by
  apply List.pairwise_mergeSort
  · intro a b c hab hbc
    exact Std.TransCmp.isLE_trans hab hbc
  · intro a b
    rw [Bool.or_eq_true, isLE_iff, isLE_iff]
    by_cases h : cmp b a = .lt
    · exact .inr (lt_asymm h)
    · exact .inl h

/-- A list without repetitions is sorted strictly. -/
theorem sort_strict (h : l.Nodup) : (sort cmp l).Pairwise fun a b => cmp a b = .lt := by
  have hnodup : (sort cmp l).Nodup := perm_sort.nodup_iff.2 h
  refine ((sort_pairwise cmp l).and hnodup).imp ?_
  rintro a b ⟨hle, hne⟩
  rcases trichotomy cmp a b with hlt | heq | hgt
  · exact hlt
  · exact absurd heq hne
  · exact absurd hgt (isLE_iff.1 hle)

omit [Std.LawfulEqCmp cmp] in
/-- Strictly sorted lists with the same entries are the same. -/
theorem eq_of_mem_iff (hl : l.Pairwise fun a b => cmp a b = .lt) (hl' : l'.Pairwise fun a b => cmp a b = .lt)
    (h : ∀ a, a ∈ l ↔ a ∈ l') : l = l' := by
  have : Std.Irrefl fun a b : α => cmp a b = .lt := ⟨fun a => lt_irrefl a⟩
  have : Std.Antisymm fun a b : α => cmp a b = .lt := ⟨fun a b hab hba => absurd hba (lt_asymm hab)⟩
  exact List.Pairwise.eq_of_mem_iff hl hl' h

theorem sort_congr (hl : l.Nodup) (hl' : l'.Nodup) (h : ∀ a, a ∈ l ↔ a ∈ l') : sort cmp l = sort cmp l' := by
  apply eq_of_mem_iff (sort_strict hl) (sort_strict hl')
  intro a
  rw [mem_sort, mem_sort, h]

end

/-! ## Leaders -/

section
variable [DecidableEq α] [DecidableEq κ] {cmp : α → α → Ordering} {key : α → κ} {l l' s : List α} {a b e : α} {k : Nat}

/-- The entries that no entry of their key is better than. -/
def leaders (cmp : α → α → Ordering) (key : α → κ) (l : List α) : List α :=
  l.dedup.filter fun e => l.all fun e' => key e' ≠ key e || cmp e' e ≠ .lt

/-- The leaders that are better than `e`. -/
def above (cmp : α → α → Ordering) (key : α → κ) (l : List α) (e : α) : List α :=
  (leaders cmp key l).filter fun a => cmp a e = .lt

def best (cmp : α → α → Ordering) (key : α → κ) (k : Nat) (l : List α) : List α := (sort cmp (leaders cmp key l)).take k

theorem mem_leaders : e ∈ leaders cmp key l ↔ e ∈ l ∧ ∀ e' ∈ l, key e' = key e → cmp e' e ≠ .lt := by
  simp only [leaders, List.mem_filter, List.mem_dedup, List.all_eq_true, Bool.or_eq_true, decide_eq_true_eq]
  constructor
  · rintro ⟨he, hall⟩
    exact ⟨he, fun e' he' hkey => (hall e' he').resolve_left (not_not.2 hkey)⟩
  · rintro ⟨he, hall⟩
    refine ⟨he, fun e' he' => ?_⟩
    by_cases hkey : key e' = key e
    · exact .inr (hall e' he' hkey)
    · exact .inl hkey

theorem nodup_leaders : (leaders cmp key l).Nodup := (List.nodup_dedup l).filter _

theorem mem_above : a ∈ above cmp key l e ↔ a ∈ leaders cmp key l ∧ cmp a e = .lt := by
  simp [above]

theorem mem_best_leaders (h : e ∈ best cmp key k l) : e ∈ leaders cmp key l := mem_sort.1 (List.mem_of_mem_take h)

theorem mem_of_mem_best (h : e ∈ best cmp key k l) : e ∈ l := (mem_leaders.1 (mem_best_leaders h)).1

theorem nodup_best : (best cmp key k l).Nodup := (perm_sort.nodup_iff.2 nodup_leaders).sublist (List.take_sublist _ _)

variable [Std.TransCmp cmp] [Std.LawfulEqCmp cmp]

theorem best_strict : (best cmp key k l).Pairwise fun a b => cmp a b = .lt :=
  (sort_strict nodup_leaders).sublist (List.take_sublist _ _)

theorem best_congr (h : ∀ a, a ∈ l ↔ a ∈ l') : best cmp key k l = best cmp key k l' := by
  unfold best
  rw [@sort_congr _ cmp (leaders cmp key l) (leaders cmp key l') _ _ nodup_leaders nodup_leaders]
  intro a
  simp only [mem_leaders, h]

/-- Two leaders of one key are one. -/
theorem leaders_key (ha : a ∈ leaders cmp key l) (hb : b ∈ leaders cmp key l) (h : key a = key b) : a = b := by
  obtain ⟨hal, ha⟩ := mem_leaders.1 ha
  obtain ⟨hbl, hb⟩ := mem_leaders.1 hb
  rcases trichotomy cmp a b with hlt | heq | hgt
  · exact absurd hlt (hb a hal h)
  · exact heq
  · exact absurd hgt (ha b hbl h.symm)

variable (cmp key) in
/-- Every entry has a leader of its key that is not worse. -/
theorem exists_leader (h : a ∈ l) : ∃ b ∈ leaders cmp key l, key b = key a ∧ (b = a ∨ cmp b a = .lt) := by
  have hpairwise := sort_pairwise cmp (l.filter fun e => key e = key a)
  have hmem : ∀ e, e ∈ sort cmp (l.filter fun e => key e = key a) ↔ e ∈ l ∧ key e = key a := by
    simp [mem_sort]
  rcases hs : sort cmp (l.filter fun e => key e = key a) with _ | ⟨b, rest⟩
  · rw [hs] at hmem
    exact absurd ((hmem a).2 ⟨h, rfl⟩) List.not_mem_nil
  · rw [hs] at hmem hpairwise
    obtain ⟨hbl, hkey⟩ := (hmem b).1 List.mem_cons_self
    have hfirst : ∀ e ∈ l, key e = key a → cmp e b ≠ .lt := by
      intro e he hkeye
      rcases List.mem_cons.1 ((hmem e).2 ⟨he, hkeye⟩) with rfl | he
      · exact lt_irrefl e
      · exact isLE_iff.1 (List.rel_of_pairwise_cons hpairwise he)
    refine ⟨b, mem_leaders.2 ⟨hbl, fun e he hkeye => hfirst e he (hkeye.trans hkey)⟩, hkey, ?_⟩
    rcases trichotomy cmp b a with hlt | heq | hgt
    · exact .inr hlt
    · exact .inl heq
    · exact absurd hgt (hfirst a h rfl)

/-! ## Counting the keys that are better -/

theorem nodup_map_key (hs : s.Nodup) (h : ∀ a ∈ s, a ∈ leaders cmp key l) : (s.map key).Nodup :=
  List.Nodup.map_on (fun a ha b hb => leaders_key (h a ha) (h b hb)) hs

/-- Entries of distinct keys that are better than `e` are no more than the leaders that are. -/
theorem length_le_above (hs : (s.map key).Nodup) (h : ∀ a ∈ s, a ∈ l ∧ cmp a e = .lt) :
    s.length ≤ (above cmp key l e).length := by
  have hlen := @List.Nodup.length_le_of_subset _ (s.map key) ((above cmp key l e).map key) hs
  rw [List.length_map, List.length_map] at hlen
  apply hlen
  intro x hx
  obtain ⟨a, ha, rfl⟩ := List.mem_map.1 hx
  obtain ⟨hal, hlt⟩ := h a ha
  obtain ⟨b, hb, hkey, hle⟩ := exists_leader cmp key hal
  refine List.mem_map.2 ⟨b, mem_above.2 ⟨hb, ?_⟩, hkey⟩
  rcases hle with rfl | hle
  · exact hlt
  · exact Std.TransCmp.lt_trans hle hlt

theorem nodup_map_above : ((above cmp key l e).map key).Nodup :=
  nodup_map_key (nodup_leaders.filter _) fun _ ha => (mem_above.1 ha).1

theorem above_mono (h : l ⊆ l') : (above cmp key l e).length ≤ (above cmp key l' e).length := by
  apply length_le_above nodup_map_above
  intro a ha
  obtain ⟨hleader, hlt⟩ := mem_above.1 ha
  exact ⟨h (mem_leaders.1 hleader).1, hlt⟩

/-- A leader that is cut away has `k` better ones, and these are the ones kept. -/
theorem missed (h : e ∈ leaders cmp key l) (hmiss : e ∉ best cmp key k l) :
    (best cmp key k l).length = k ∧ ∀ a ∈ best cmp key k l, cmp a e = .lt := by
  have hsorted : e ∈ sort cmp (leaders cmp key l) := mem_sort.2 h
  have hnodup : (leaders cmp key l).Nodup := nodup_leaders
  have hstrict : (sort cmp (leaders cmp key l)).Pairwise fun a b => cmp a b = .lt := sort_strict hnodup
  have hsplit := List.take_append_drop k (sort cmp (leaders cmp key l))
  have hdrop : e ∈ (sort cmp (leaders cmp key l)).drop k := by
    rw [← hsplit] at hsorted
    exact (List.mem_append.1 hsorted).resolve_left hmiss
  constructor
  · have hlen := List.length_pos_of_mem hdrop
    rw [List.length_drop] at hlen
    unfold best
    rw [List.length_take]
    omega
  · intro a ha
    rw [← hsplit] at hstrict
    exact (List.pairwise_append.1 hstrict).2.2 a ha e hdrop

theorem mem_best : e ∈ best cmp key k l ↔ e ∈ leaders cmp key l ∧ (above cmp key l e).length < k := by
  constructor
  · intro h
    refine ⟨mem_best_leaders h, ?_⟩
    have hsub : e :: above cmp key l e ⊆ best cmp key k l := by
      intro a ha
      rcases List.mem_cons.1 ha with rfl | ha
      · exact h
      · obtain ⟨hleader, hlt⟩ := mem_above.1 ha
        by_contra hmiss
        exact lt_asymm hlt ((missed hleader hmiss).2 e h)
    have hnodup : (e :: above cmp key l e).Nodup := by
      refine List.nodup_cons.2 ⟨?_, nodup_leaders.filter _⟩
      intro he
      exact lt_irrefl e (mem_above.1 he).2
    have hlen := List.Nodup.length_le_of_subset hnodup hsub
    have htake : (best cmp key k l).length ≤ k := List.length_take_le _ _
    rw [List.length_cons] at hlen
    omega
  · rintro ⟨h, hfew⟩
    by_contra hmiss
    obtain ⟨hlen, hlt⟩ := missed h hmiss
    have hle := length_le_above (nodup_map_key nodup_best fun _ => mem_best_leaders)
      fun a ha => ⟨mem_of_mem_best ha, hlt a ha⟩
    omega

/-- An entry that is worse than one that was cut away has `k` better ones among those kept. -/
theorem le_above_of_missed {r : List α} {y : α} (hy : y ∈ leaders cmp key r) (hmiss : y ∉ best cmp key k r)
    (hlt : cmp y e = .lt) (hsub : best cmp key k r ⊆ l) : k ≤ (above cmp key l e).length := by
  obtain ⟨hlen, hbetter⟩ := missed hy hmiss
  rw [← hlen]
  apply length_le_above (nodup_map_key nodup_best fun _ => mem_best_leaders)
  intro a ha
  exact ⟨hsub ha, Std.TransCmp.lt_trans (hbetter a ha) hlt⟩

/-- What `best k` cuts away is missed by no later `best k`. -/
theorem best_best_append (r t : List α) : best cmp key k (best cmp key k r ++ t) = best cmp key k (r ++ t) := by
  have hsub : best cmp key k r ++ t ⊆ r ++ t :=
    List.append_subset_of_subset_of_subset (fun _ h => List.mem_append_left t (mem_of_mem_best h))
      (List.subset_append_right r t)
  apply eq_of_mem_iff best_strict best_strict
  intro e
  rw [mem_best, mem_best]
  constructor
  · rintro ⟨hleader, hfew⟩
    obtain ⟨he, hbest⟩ := mem_leaders.1 hleader
    have hnone : ∀ y ∈ leaders cmp key r, cmp y e = .lt → y ∈ best cmp key k r := by
      intro y hy hlt
      by_contra hmiss
      exact absurd hfew (Nat.not_lt.2 (le_above_of_missed hy hmiss hlt (List.subset_append_left _ _)))
    constructor
    · refine mem_leaders.2 ⟨hsub he, ?_⟩
      intro e' he' hkey hlt
      rcases List.mem_append.1 he' with he' | he'
      · obtain ⟨y, hy, hkeyy, hle⟩ := exists_leader cmp key he'
        have hylt : cmp y e = .lt := by
          rcases hle with rfl | hle
          · exact hlt
          · exact Std.TransCmp.lt_trans hle hlt
        exact hbest y (List.mem_append_left _ (hnone y hy hylt)) (hkeyy.trans hkey) hylt
      · exact hbest e' (List.mem_append_right _ he') hkey hlt
    · refine lt_of_le_of_lt (length_le_above nodup_map_above ?_) hfew
      intro a ha
      obtain ⟨hleadera, hlt⟩ := mem_above.1 ha
      obtain ⟨hal, hbesta⟩ := mem_leaders.1 hleadera
      refine ⟨?_, hlt⟩
      rcases List.mem_append.1 hal with har | hat
      · have har' : a ∈ leaders cmp key r :=
          mem_leaders.2 ⟨har, fun e' he' => hbesta e' (List.mem_append_left _ he')⟩
        exact List.mem_append_left _ (hnone a har' hlt)
      · exact List.mem_append_right _ hat
  · rintro ⟨hleader, hfew⟩
    obtain ⟨he, hbest⟩ := mem_leaders.1 hleader
    refine ⟨mem_leaders.2 ⟨?_, fun e' he' => hbest e' (hsub he')⟩, lt_of_le_of_lt (above_mono hsub) hfew⟩
    rcases List.mem_append.1 he with her | het
    · refine List.mem_append_left _ (mem_best.2 ⟨?_, ?_⟩)
      · exact mem_leaders.2 ⟨her, fun e' he' => hbest e' (List.mem_append_left _ he')⟩
      · exact lt_of_le_of_lt (above_mono (List.subset_append_left _ _)) hfew
    · exact List.mem_append_right _ het

end

end BestPerKey
