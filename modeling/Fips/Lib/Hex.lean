import Mathlib

/-!
# Keys with a hexadecimal end

`s ++ ":" ++ hex n` determines `s` and `n`: the hexadecimal digits hold no colon, and no two numbers have the same.
-/

namespace Hex

/-- `n.toString(16)`. -/
def digits (n : Nat) : List Char := Nat.toDigits 16 n

theorem digitChar_inj {a b : Nat} (ha : a < 16) (hb : b < 16) (h : a.digitChar = b.digitChar) : a = b := by
  have hall : ∀ a < 16, ∀ b < 16, a.digitChar = b.digitChar → a = b := by decide
  exact hall a ha b hb h

theorem digitChar_ne_colon {a : Nat} (ha : a < 16) : a.digitChar ≠ ':' := by
  have hall : ∀ a < 16, a.digitChar ≠ ':' := by decide
  exact hall a ha

theorem digits_of_lt {n : Nat} (h : n < 16) : digits n = [n.digitChar] := Nat.toDigits_of_lt_base h

theorem digits_of_le {n : Nat} (h : 16 ≤ n) : digits n = digits (n / 16) ++ [(n % 16).digitChar] :=
  Nat.toDigits_of_base_le (by decide) h

theorem digits_ne_nil (n : Nat) : digits n ≠ [] := Nat.toDigits_ne_nil

theorem colon_notMem_digits (n : Nat) : ':' ∉ digits n := by
  induction n using Nat.strong_induction_on with
  | _ n ih =>
    by_cases h : n < 16
    · rw [digits_of_lt h, List.mem_singleton]
      exact (digitChar_ne_colon h).symm
    · rw [digits_of_le (by omega), List.mem_append, List.mem_singleton]
      rintro (hmem | heq)
      · exact ih (n / 16) (by omega) hmem
      · exact digitChar_ne_colon (Nat.mod_lt n (by decide)) heq.symm

theorem digits_injective {m n : Nat} (h : digits m = digits n) : m = n := by
  induction m using Nat.strong_induction_on generalizing n with
  | _ m ih =>
    by_cases hm : m < 16
    · by_cases hn : n < 16
      · rw [digits_of_lt hm, digits_of_lt hn, List.singleton_inj] at h
        exact digitChar_inj hm hn h
      · rw [digits_of_lt hm, digits_of_le (not_lt.1 hn)] at h
        exact absurd (List.append_eq_singleton_iff.1 h.symm) (by simp [digits_ne_nil])
    · have hdm := digits_of_le (not_lt.1 hm)
      by_cases hn : n < 16
      · rw [hdm, digits_of_lt hn] at h
        exact absurd (List.append_eq_singleton_iff.1 h) (by simp [digits_ne_nil])
      · have hdn := digits_of_le (not_lt.1 hn)
        rw [hdm, hdn] at h
        obtain ⟨hdiv, hmod⟩ := List.append_inj' h rfl
        have hdiv := ih (m / 16) (by omega) hdiv
        have hmod := digitChar_inj (Nat.mod_lt m (by decide)) (Nat.mod_lt n (by decide)) (List.singleton_inj.1 hmod)
        omega

/-- The part behind the last separator, and the part in front of it. -/
theorem append_sep_inj {α : Type*} {sep : α} {a a' b b' : List α} (hb : sep ∉ b) (hb' : sep ∉ b')
    (h : a ++ sep :: b = a' ++ sep :: b') : a = a' ∧ b = b' := by
  induction a generalizing a' with
  | nil =>
    cases a' with
    | nil => exact ⟨rfl, (List.cons.inj h).2⟩
    | cons x a' =>
      obtain ⟨-, rfl⟩ := List.cons.inj h
      exact absurd (List.mem_append_right a' List.mem_cons_self) hb
  | cons x a ih =>
    cases a' with
    | nil =>
      obtain ⟨-, rfl⟩ := List.cons.inj h
      exact absurd (List.mem_append_right a List.mem_cons_self) hb'
    | cons y a' =>
      obtain ⟨hxy, htail⟩ := List.cons.inj h
      obtain ⟨ha, hb⟩ := ih htail
      exact ⟨by rw [hxy, ha], hb⟩

theorem key_injective {s s' : String} {n n' : Nat}
    (h : s ++ ":" ++ String.ofList (digits n) = s' ++ ":" ++ String.ofList (digits n')) : s = s' ∧ n = n' := by
  have hlist := congrArg String.toList h
  simp only [String.toList_append, String.toList_ofList, List.append_assoc] at hlist
  obtain ⟨hs, hd⟩ := append_sep_inj (colon_notMem_digits n) (colon_notMem_digits n') hlist
  exact ⟨String.toList_inj.1 hs, digits_injective hd⟩

end Hex
