import Mathlib

/-!
# Latest versions

A register that takes a value only if its version is strictly greater than that of the value it holds. What
it holds at last depends on which values arrived, not on their order.
-/

namespace Versions

variable {α : Type} (version : α → Nat)

/-- The register after one more value. -/
def accept (held : Option α) (a : α) : Option α := if held.any fun h => version a ≤ version h then held else some a

/-- The register after the values, starting empty. -/
def held (as : List α) : Option α := as.foldl (accept version) none

@[simp] theorem held_nil : held version [] = none := rfl

theorem held_concat (as : List α) (a : α) : held version (as ++ [a]) = accept version (held version as) a :=
  List.foldl_append

variable {version} {as : List α} {a b : α}

theorem held_mem (h : held version as = some a) : a ∈ as := by
  induction as using List.reverseRecOn with
  | nil => cases h
  | append_singleton as b ih =>
    rw [held_concat, accept] at h
    split at h
    · exact List.mem_append_left _ (ih h)
    · cases h
      exact List.mem_append_right _ (List.mem_singleton_self _)

theorem held_none (h : held version as = none) : as = [] := by
  induction as using List.reverseRecOn with
  | nil => rfl
  | append_singleton as b ih =>
    rw [held_concat, accept] at h
    split at h
    · rename_i hany
      rw [h] at hany
      cases hany
    · cases h

theorem le_held (h : held version as = some a) (hb : b ∈ as) : version b ≤ version a := by
  induction as using List.reverseRecOn generalizing a with
  | nil => cases hb
  | append_singleton as c ih =>
    rw [held_concat, accept] at h
    rcases List.mem_append.1 hb with hb | hb
    · split at h
      · exact ih h hb
      · rename_i hany
        cases h
        cases hheld : held version as with
        | none => rw [held_none hheld] at hb; cases hb
        | some d =>
          have hd := ih hheld hb
          have hlt : ¬version c ≤ version d := by simpa [hheld] using hany
          omega
    · cases List.mem_singleton.1 hb
      split at h
      · rename_i hany
        rw [h] at hany
        simpa using hany
      · cases h
        exact le_rfl

/-- The one value of the greatest version is held whatever the order of arrival. -/
theorem held_eq_of_max (ha : a ∈ as) (hmax : ∀ b ∈ as, version b ≤ version a)
    (huniq : ∀ b ∈ as, version b = version a → b = a) : held version as = some a := by
  cases h : held version as with
  | none => rw [held_none h] at ha; cases ha
  | some b =>
    have hb := held_mem h
    rw [huniq b hb (le_antisymm (hmax b hb) (le_held h ha))]

end Versions
