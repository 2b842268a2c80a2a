import Fips.Lib.TextCoding

/-!
# Strings of code units

The string operations of a parser over UTF-16 code units: positions, slices and decimal numbers. A
number reads back from its decimal digits, and a separator is found where it stands alone.
-/

namespace UnitStrings

abbrev UnitString := List UInt16

instance : LawfulBEq UnitString := inferInstance

/-- The code unit of a character below U+10000. -/
def unit (c : Char) : UInt16 := UInt16.ofNat c.toNat

/-- A string of the source. -/
def js (s : String) : UnitString := s.toList.map unit

/-- `s.indexOf(u)`. -/
def indexOf (u : UInt16) (s : UnitString) : Int := if u ∈ s then (s.idxOf u : Int) else -1

/-- `s.lastIndexOf(u)`. -/
def lastIndexOf (u : UInt16) (s : UnitString) : Int :=
  if u ∈ s then (s.length : Int) - 1 - s.reverse.idxOf u else -1

def isDigit (u : UInt16) : Bool := 48 ≤ u.toNat && u.toNat ≤ 57

/-- `/^[0-9]+$/`. -/
def isNumber (s : UnitString) : Bool := s ≠ [] && s.all isDigit

/-- The value of a string of digits. -/
def numberValue (s : UnitString) : Nat := s.foldl (fun n u => n * 10 + (u.toNat - 48)) 0

/-- `n.toString()`. -/
def decimal (n : Nat) : UnitString := (Nat.toDigits 10 n).map unit

/-! ## Positions -/

theorem indexOf_append {u : UInt16} {a b : UnitString} (ha : u ∉ a) : indexOf u (a ++ u :: b) = a.length := by
  rw [indexOf, if_pos (by simp), List.idxOf_append_of_notMem ha, List.idxOf_cons_self, Nat.add_zero]

theorem lastIndexOf_append {u : UInt16} {a b : UnitString} (hb : u ∉ b) :
    lastIndexOf u (a ++ u :: b) = a.length := by
  have hrev : (a ++ u :: b).reverse = b.reverse ++ u :: a.reverse := by simp
  rw [lastIndexOf, if_pos (by simp), hrev, List.idxOf_append_of_notMem (by simpa using hb), List.idxOf_cons_self]
  simp only [List.length_append, List.length_cons, List.length_reverse]
  omega

theorem indexOf_of_notMem {u : UInt16} {s : UnitString} (h : u ∉ s) : indexOf u s = -1 := if_neg h

theorem lastIndexOf_of_notMem {u : UInt16} {s : UnitString} (h : u ∉ s) : lastIndexOf u s = -1 := if_neg h

/-! ## Numbers -/

theorem decimal_of_lt {n : Nat} (h : n < 10) : decimal n = [unit n.digitChar] := by
  rw [decimal, Nat.toDigits_of_lt_base h]
  rfl

theorem decimal_of_le {n : Nat} (h : 10 ≤ n) : decimal n = decimal (n / 10) ++ [unit (n % 10).digitChar] := by
  rw [decimal, decimal, Nat.toDigits_of_base_le (by decide) h, List.map_append]
  rfl

theorem digit_unit {d : Nat} (h : d < 10) : isDigit (unit d.digitChar) = true ∧ (unit d.digitChar).toNat - 48 = d := by
  have hall : ∀ d < 10, isDigit (unit d.digitChar) = true ∧ (unit d.digitChar).toNat - 48 = d := by decide
  exact hall d h

theorem decimal_ne_nil (n : Nat) : decimal n ≠ [] := by
  rw [decimal, ne_eq, List.map_eq_nil_iff]
  exact Nat.toDigits_ne_nil

theorem isDigit_of_mem_decimal {n : Nat} {u : UInt16} (h : u ∈ decimal n) : isDigit u = true := by
  induction n using Nat.strong_induction_on with
  | _ n ih =>
    by_cases hn : n < 10
    · rw [decimal_of_lt hn, List.mem_singleton] at h
      rw [h]
      exact (digit_unit hn).1
    · rw [decimal_of_le (by omega), List.mem_append, List.mem_singleton] at h
      rcases h with h | h
      · exact ih (n / 10) (by omega) h
      · rw [h]
        exact (digit_unit (Nat.mod_lt n (by decide))).1

theorem isNumber_decimal (n : Nat) : isNumber (decimal n) = true := by
  rw [isNumber, Bool.and_eq_true, List.all_eq_true]
  exact ⟨decide_eq_true (decimal_ne_nil n), fun u hu => isDigit_of_mem_decimal hu⟩

theorem numberValue_decimal (n : Nat) : numberValue (decimal n) = n := by
  induction n using Nat.strong_induction_on with
  | _ n ih =>
    by_cases hn : n < 10
    · rw [decimal_of_lt hn]
      show 0 * 10 + ((unit n.digitChar).toNat - 48) = n
      rw [(digit_unit hn).2]
      omega
    · have hprev := ih (n / 10) (by omega)
      unfold numberValue at hprev
      rw [decimal_of_le (by omega), numberValue, List.foldl_append, hprev]
      show n / 10 * 10 + ((unit (n % 10).digitChar).toNat - 48) = n
      rw [(digit_unit (Nat.mod_lt n (by decide))).2]
      omega

/-- A unit that is no digit is in no number. -/
theorem notMem_decimal {u : UInt16} (h : isDigit u = false) (n : Nat) : u ∉ decimal n := by
  intro hm
  rw [isDigit_of_mem_decimal hm] at h
  cases h

end UnitStrings
