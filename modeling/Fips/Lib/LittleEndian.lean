import Mathlib

/-!
# Little-endian byte strings

`leBytes w v` is the `w`-byte little-endian string of `v` (the value modulo `256 ^ w`), `leNat` reads
a string back. The two are inverse on values below `256 ^ w` and on strings of length `w`.
-/

namespace LittleEndian

/-- The `w` low bytes of `v`, least significant first. -/
def leBytes : Nat → Nat → List UInt8
  | 0, _ => []
  | w + 1, v => UInt8.ofNat v :: leBytes w (v / 256)

/-- The value of a little-endian byte string. -/
def leNat : List UInt8 → Nat
  | [] => 0
  | b :: bs => b.toNat + 256 * leNat bs

@[simp] theorem length_leBytes (w v : Nat) : (leBytes w v).length = w := by
  induction w generalizing v with
  | zero => rfl
  | succ w ih => simp [leBytes, ih]

theorem leNat_lt (bs : List UInt8) : leNat bs < 256 ^ bs.length := by
  induction bs with
  | nil => simp [leNat]
  | cons b bs ih =>
    have hb := b.toNat_lt
    simp only [leNat, List.length_cons, pow_succ]
    omega

theorem leNat_leBytes {w v : Nat} (h : v < 256 ^ w) : leNat (leBytes w v) = v := by
  induction w generalizing v with
  | zero => simp only [pow_zero] at h; simp only [leBytes, leNat]; omega
  | succ w ih =>
    have hq : v / 256 < 256 ^ w := by rw [pow_succ] at h; omega
    simp only [leBytes, leNat, ih hq, UInt8.toNat_ofNat']
    omega

/-- Wider values are cut to their low bytes. -/
theorem leNat_leBytes_mod (w v : Nat) : leNat (leBytes w v) = v % 256 ^ w := by
  induction w generalizing v with
  | zero => simp [leBytes, leNat, Nat.mod_one]
  | succ w ih =>
    rw [pow_succ, Nat.mul_comm, Nat.mod_mul]
    simp only [leBytes, leNat, ih, UInt8.toNat_ofNat']

theorem leBytes_leNat (bs : List UInt8) : leBytes bs.length (leNat bs) = bs := by
  induction bs with
  | nil => rfl
  | cons b bs ih =>
    have hb := b.toNat_lt
    have hdiv : (b.toNat + 256 * leNat bs) / 256 = leNat bs := by omega
    have hlow : UInt8.ofNat (b.toNat + 256 * leNat bs) = b := by
      apply UInt8.toNat_inj.1
      rw [UInt8.toNat_ofNat']
      omega
    simp only [List.length_cons, leBytes, leNat, hlow, hdiv, ih]

theorem leBytes_of_length {w : Nat} {bs : List UInt8} (h : bs.length = w) : leBytes w (leNat bs) = bs := by
  subst h; exact leBytes_leNat bs

theorem leBytes_inj {w v v' : Nat} (hv : v < 256 ^ w) (hv' : v' < 256 ^ w)
    (h : leBytes w v = leBytes w v') : v = v' := by
  rw [← leNat_leBytes hv, ← leNat_leBytes hv', h]

end LittleEndian
