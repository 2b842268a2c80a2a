import Mathlib

/-!
# Rooted trees as paths to the root

A tree is given by the path from each node to the root. Two paths meet in their longest common suffix; the
lengths of what is left of them are the distance of their ends. A walk that strictly comes closer at each hop
ends where the distance is zero and repeats no node.
-/

/-! ### Walks -/

namespace Walk

variable {α : Type} {next : α → Option α} {μ : α → Nat} {P : α → Prop}

/-- The nodes visited in at most `n` hops. -/
def walk (next : α → Option α) : Nat → α → List α
  | 0, v => [v]
  | n + 1, v =>
    match next v with
    | none => [v]
    | some w => v :: walk next n w

theorem head_walk (next : α → Option α) (n : Nat) (v : α) : ∃ rest, walk next n v = v :: rest := by
  cases n with
  | zero => exact ⟨[], rfl⟩
  | succ n =>
    rw [walk]
    split
    · exact ⟨[], rfl⟩
    · exact ⟨_, rfl⟩

variable (hnext : ∀ v, P v → μ v ≠ 0 → ∃ w, next v = some w ∧ P w ∧ μ w < μ v)
  (hstop : ∀ v, P v → μ v = 0 → next v = none)
include hnext hstop

/-- A walk never gets farther than its start. -/
theorem measure_le {n : Nat} {v : α} (hv : P v) : ∀ u ∈ walk next n v, μ u ≤ μ v := by
  induction n generalizing v with
  | zero =>
    intro u hu
    rw [List.mem_singleton.1 hu]
  | succ n ih =>
    intro u hu
    rw [walk] at hu
    by_cases hz : μ v = 0
    · rw [hstop v hv hz] at hu
      rw [List.mem_singleton.1 hu]
    · obtain ⟨w, hw, hpw, hlt⟩ := hnext v hv hz
      rw [hw] at hu
      rcases List.mem_cons.1 hu with rfl | hu
      · exact le_rfl
      · exact (ih hpw u hu).trans hlt.le

theorem nodup_walk {n : Nat} {v : α} (hv : P v) : (walk next n v).Nodup := by
  induction n generalizing v with
  | zero => exact List.nodup_singleton v
  | succ n ih =>
    rw [walk]
    by_cases hz : μ v = 0
    · rw [hstop v hv hz]
      exact List.nodup_singleton v
    · obtain ⟨w, hw, hpw, hlt⟩ := hnext v hv hz
      rw [hw]
      refine List.nodup_cons.2 ⟨fun hmem => ?_, ih hpw⟩
      have hle := measure_le hnext hstop hpw v hmem
      omega

/-- With as many hops as the measure says, the walk ends where it is zero. -/
theorem walk_arrives {n : Nat} {v : α} (hv : P v) (hn : μ v ≤ n) :
    (walk next n v).length ≤ μ v + 1 ∧ ∃ u, (walk next n v).getLast? = some u ∧ P u ∧ μ u = 0 := by
  induction n generalizing v with
  | zero => exact ⟨by simp [walk], v, rfl, hv, by omega⟩
  | succ n ih =>
    rw [walk]
    by_cases hz : μ v = 0
    · rw [hstop v hv hz]
      exact ⟨by simp, v, rfl, hv, hz⟩
    · obtain ⟨w, hw, hpw, hlt⟩ := hnext v hv hz
      obtain ⟨hlen, u, hu, hpu⟩ := ih hpw (by omega)
      rw [hw]
      refine ⟨by rw [List.length_cons]; omega, u, ?_, hpu⟩
      obtain ⟨rest, hrest⟩ := head_walk next n w
      show (v :: walk next n w).getLast? = some u
      rw [hrest, List.getLast?_cons_cons, ← hrest, hu]

end Walk

/-! ### Paths to a root -/

namespace RootedTree

variable {α : Type}

/-- Every node but the root has a parent, and its path is the node in front of its parent's. -/
structure Rooted (nodes : Set α) (root : α) (parent : α → α) (path : α → List α) : Prop where
  root_mem : root ∈ nodes
  path_root : path root = [root]
  parent_mem : ∀ v ∈ nodes, v ≠ root → parent v ∈ nodes
  path_of_ne : ∀ v ∈ nodes, v ≠ root → path v = v :: path (parent v)

/-- The two paths share `s`, and differ where they join it. -/
structure Meets (a b s x y : List α) : Prop where
  left : a = x ++ s
  right : b = y ++ s
  differ : ∀ u, x.getLast? = some u → y.getLast? ≠ some u

theorem exists_meets (a b : List α) : ∃ s x y, Meets a b s x y := by
  classical
  induction a using List.reverseRecOn generalizing b with
  | nil => exact ⟨[], [], b, by simp, by simp, by simp⟩
  | append_singleton a u ih =>
    rcases List.eq_nil_or_concat b with rfl | ⟨b, v, rfl⟩
    · exact ⟨[], a ++ [u], [], by simp, by simp, by simp⟩
    · rw [List.concat_eq_append]
      by_cases huv : u = v
      · subst huv
        obtain ⟨s, x, y, h⟩ := ih b
        refine ⟨s ++ [u], x, y, ?_, ?_, h.differ⟩
        · rw [h.left, List.append_assoc]
        · rw [h.right, List.append_assoc]
      · refine ⟨[], a ++ [u], b ++ [v], by simp, by simp, ?_⟩
        intro w hw hw'
        rw [List.getLast?_concat, Option.some_inj] at hw hw'
        exact huv (hw.trans hw'.symm)

namespace Rooted
variable {nodes : Set α} {root : α} {parent : α → α} {path : α → List α} (h : Rooted nodes root parent path)
  {u v d : α}
include h

theorem path_eq (hv : v ∈ nodes) : ∃ rest, path v = v :: rest := by
  by_cases hr : v = root
  · subst hr
    exact ⟨[], h.path_root⟩
  · exact ⟨_, h.path_of_ne v hv hr⟩

theorem path_injective (hu : u ∈ nodes) (hv : v ∈ nodes) (huv : path u = path v) : u = v := by
  obtain ⟨rest, hrest⟩ := h.path_eq hu
  obtain ⟨rest', hrest'⟩ := h.path_eq hv
  rw [hrest, hrest'] at huv
  exact (List.cons.inj huv).1

/-- What follows a node on a path is the rest of the node's own path. -/
theorem path_suffix {s y : List α} (hd : d ∈ nodes) (hp : path d = y ++ u :: s) : u ∈ nodes ∧ path u = u :: s := by
  induction y generalizing d with
  | nil =>
    obtain ⟨rest, hrest⟩ := h.path_eq hd
    rw [hp] at hrest
    obtain ⟨rfl, rfl⟩ := List.cons.inj hrest
    exact ⟨hd, hp⟩
  | cons c y ih =>
    by_cases hr : d = root
    · subst hr
      have hlen := congrArg List.length (hp.symm.trans h.path_root)
      simp at hlen
    · rw [h.path_of_ne d hd hr] at hp
      exact ih (h.parent_mem d hd hr) (List.cons.inj hp).2

/-- Every path ends at the root. -/
theorem getLast_path (hv : v ∈ nodes) : (path v).getLast? = some root := by
  generalize hn : (path v).length = n
  induction n generalizing v with
  | zero =>
    obtain ⟨rest, hrest⟩ := h.path_eq hv
    rw [hrest] at hn
    cases hn
  | succ n ih =>
    by_cases hr : v = root
    · subst hr
      rw [h.path_root]
      rfl
    · obtain ⟨rest, hrest⟩ := h.path_eq (h.parent_mem v hv hr)
      have hp := h.path_of_ne v hv hr
      have hlast := ih (h.parent_mem v hv hr) (by rw [hp] at hn; exact Nat.succ.inj hn)
      rw [hp, hrest, List.getLast?_cons_cons, ← hrest, hlast]

variable {s x y : List α}

/-- Paths share at least the root. -/
theorem meets_ne_nil (hv : v ∈ nodes) (hd : d ∈ nodes) (hm : Meets (path v) (path d) s x y) : s ≠ [] := by
  rintro rfl
  have hl := h.getLast_path hv
  have hr := h.getLast_path hd
  rw [hm.left, List.append_nil] at hl
  rw [hm.right, List.append_nil] at hr
  exact hm.differ root hl hr

/-- Away from the shared part the parent is nearer. -/
theorem parent_nearer {x' : List α} (hv : v ∈ nodes) (hd : d ∈ nodes) (hm : Meets (path v) (path d) s x y)
    (hx : x = u :: x') : v ≠ root ∧ Meets (path (parent v)) (path d) s x' y := by
  subst hx
  have hs := h.meets_ne_nil hv hd hm
  have hne : v ≠ root := by
    rintro rfl
    have hl := hm.left
    rw [h.path_root] at hl
    obtain ⟨-, hnil⟩ := List.cons.inj hl
    exact hs (List.append_eq_nil_iff.1 hnil.symm).2
  refine ⟨hne, ?_, hm.right, ?_⟩
  · have hl := hm.left
    rw [h.path_of_ne v hv hne] at hl
    exact (List.cons.inj hl).2
  · intro w hw
    refine hm.differ w ?_
    obtain ⟨a, x'', rfl⟩ : ∃ a x'', x' = a :: x'' := by
      cases x' with
      | nil => cases hw
      | cons a x'' => exact ⟨a, x'', rfl⟩
    rw [List.getLast?_cons_cons, hw]

/-- From an ancestor of the destination the child on the way is nearer. -/
theorem child_nearer (hv : v ∈ nodes) (hd : d ∈ nodes) (hne : v ≠ d) (hm : Meets (path v) (path d) s [] y) :
    ∃ w y', w ∈ nodes ∧ w ≠ root ∧ parent w = v ∧ y.length = y'.length + 1 ∧
      Meets (path w) (path d) (w :: s) [] y' := by
  have hs : path v = s := hm.left
  rcases List.eq_nil_or_concat y with rfl | ⟨y', w, rfl⟩
  · exact absurd (h.path_injective hv hd (hm.left.trans hm.right.symm)) hne
  · rw [List.concat_eq_append] at hm ⊢
    have hp : path d = y' ++ w :: s := by rw [hm.right, List.append_assoc]; rfl
    obtain ⟨hw, hpw⟩ := h.path_suffix hd hp
    have hwr : w ≠ root := by
      rintro rfl
      rw [h.path_root] at hpw
      have hnil : s = [] := (List.cons.inj hpw).2.symm
      exact h.meets_ne_nil hv hd hm hnil
    have hpar : path (parent w) = path v := by
      rw [h.path_of_ne w hw hwr] at hpw
      rw [(List.cons.inj hpw).2, hs]
    refine ⟨w, y', hw, hwr, h.path_injective (h.parent_mem w hw hwr) hv hpar, by simp, hpw, hp, ?_⟩
    intro u hu
    cases hu

end Rooted

end RootedTree
