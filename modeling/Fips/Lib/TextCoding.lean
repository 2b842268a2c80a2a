import Mathlib

/-!
# UTF-16 strings and their UTF-8 bytes

A string is a list of UTF-16 code units, in which a surrogate may stand alone. The encoder writes a
lone surrogate as U+FFFD; the fatal decoder accepts valid UTF-8 only and drops a byte order mark at
the front. A string survives both when it is well formed and does not begin with such a mark.
-/

namespace TextCoding

def isHigh (u : UInt16) : Bool := 0xd800 ≤ u.toNat && u.toNat ≤ 0xdbff

def isLow (u : UInt16) : Bool := 0xdc00 ≤ u.toNat && u.toNat ≤ 0xdfff

def byteOrderMark : Char := Char.ofNat 0xfeff

/-- The character of a code unit that is in no pair. -/
def unpaired (u : UInt16) : Char := if isHigh u || isLow u then Char.ofNat 0xfffd else Char.ofNat u.toNat

/-- The character of a surrogate pair. -/
def paired (u v : UInt16) : Char := Char.ofNat (0x10000 + (u.toNat - 0xd800) * 0x400 + (v.toNat - 0xdc00))

def chars : List UInt16 → List Char
  | [] => []
  | [u] => [unpaired u]
  | u :: v :: s => if isHigh u && isLow v then paired u v :: chars s else unpaired u :: chars (v :: s)

def charUnits (c : Char) : List UInt16 :=
  if c.toNat < 0x10000 then [UInt16.ofNat c.toNat]
  else [UInt16.ofNat (0xd800 + (c.toNat - 0x10000) / 0x400), UInt16.ofNat (0xdc00 + (c.toNat - 0x10000) % 0x400)]

def units (cs : List Char) : List UInt16 := cs.flatMap charUnits

/-- No surrogate stands alone. -/
def WellFormed (s : List UInt16) : Prop := units (chars s) = s

instance (s : List UInt16) : Decidable (WellFormed s) := inferInstanceAs (Decidable (_ = _))

def utf8 (cs : List Char) : List UInt8 := cs.flatMap String.utf8EncodeChar

def ofUtf8 (b : List UInt8) : Option (List Char) := b.toByteArray.utf8Decode?.map Array.toList

/-- `TextEncoder.encode`. -/
def encode (s : List UInt16) : List UInt8 := utf8 (chars s)

/-- `TextDecoder("utf-8", { fatal: true }).decode`. -/
def decode (b : List UInt8) : Option (List UInt16) :=
  (ofUtf8 b).map fun cs => units (if cs.head? = some byteOrderMark then cs.tail else cs)

/-! ## UTF-16 -/

theorem toNat_bounds (c : Char) : c.toNat < 0xd800 ∨ 0xdfff < c.toNat ∧ c.toNat < 0x110000 := c.valid

theorem units_cons (c : Char) (cs : List Char) : units (c :: cs) = charUnits c ++ units cs := rfl

theorem chars_cons_of_not_high {u : UInt16} (h : isHigh u = false) (s : List UInt16) :
    chars (u :: s) = unpaired u :: chars s := by
  cases s with
  | nil => rfl
  | cons v s => simp [chars, h]

theorem chars_units (cs : List Char) : chars (units cs) = cs := by
  induction cs with
  | nil => rfl
  | cons c cs ih =>
    rw [units_cons, charUnits]
    have hb := toNat_bounds c
    by_cases h : c.toNat < 0x10000
    · have hu : (UInt16.ofNat c.toNat).toNat = c.toNat := by simp; omega
      have hhigh : isHigh (UInt16.ofNat c.toNat) = false := by
        simp only [isHigh, hu, Bool.and_eq_false_iff, decide_eq_false_iff_not]
        omega
      have hlow : isLow (UInt16.ofNat c.toNat) = false := by
        simp only [isLow, hu, Bool.and_eq_false_iff, decide_eq_false_iff_not]
        omega
      rw [if_pos h, List.singleton_append, chars_cons_of_not_high hhigh, ih]
      simp [unpaired, hhigh, hlow, hu]
    · have hq : (c.toNat - 0x10000) / 0x400 < 0x400 := by omega
      have hu : (UInt16.ofNat (0xd800 + (c.toNat - 0x10000) / 0x400)).toNat
          = 0xd800 + (c.toNat - 0x10000) / 0x400 := by simp; omega
      have hv : (UInt16.ofNat (0xdc00 + (c.toNat - 0x10000) % 0x400)).toNat
          = 0xdc00 + (c.toNat - 0x10000) % 0x400 := by simp; omega
      have hhigh : isHigh (UInt16.ofNat (0xd800 + (c.toNat - 0x10000) / 0x400)) = true := by
        simp only [isHigh, hu, Bool.and_eq_true, decide_eq_true_eq]
        omega
      have hlow : isLow (UInt16.ofNat (0xdc00 + (c.toNat - 0x10000) % 0x400)) = true := by
        simp only [isLow, hv, Bool.and_eq_true, decide_eq_true_eq]
        omega
      have hpair : 0x10000 + (c.toNat - 0x10000) / 0x400 * 0x400 + (c.toNat - 0x10000) % 0x400 = c.toNat := by
        omega
      rw [if_neg h]
      simp only [List.cons_append, List.nil_append, chars, hhigh, hlow, Bool.and_self, if_true, ih, paired, hu,
        hv, Nat.add_sub_cancel_left, hpair, Char.ofNat_toNat]

theorem wellFormed_units (cs : List Char) : WellFormed (units cs) := by
  rw [WellFormed, chars_units]

/-! ## UTF-8 -/

theorem ofUtf8_utf8 (cs : List Char) : ofUtf8 (utf8 cs) = some cs := by
  have h : (utf8 cs).toByteArray = cs.utf8Encode := rfl
  rw [ofUtf8, h, List.utf8Decode?_utf8Encode]
  rfl

theorem utf8_of_ofUtf8 {b : List UInt8} {cs : List Char} (h : ofUtf8 b = some cs) : utf8 cs = b := by
  have hsome : b.toByteArray.utf8Decode?.isSome = true := by
    rw [← Option.isSome_map, ← ofUtf8, h]
    rfl
  obtain ⟨l, hl⟩ := ByteArray.isSome_utf8Decode?_iff.1 hsome
  have hb : b = utf8 l := List.toByteArray_inj.1 hl
  rw [hb, ofUtf8_utf8] at h
  rw [hb, Option.some.inj h]

theorem utf8_cons (c : Char) (cs : List Char) : utf8 (c :: cs) = String.utf8EncodeChar c ++ utf8 cs := rfl

/-! ## What the decoder accepts -/

/-- The bytes of a byte order mark. -/
def markBytes : List UInt8 := [0xef, 0xbb, 0xbf]

theorem utf8_byteOrderMark (cs : List Char) : utf8 (byteOrderMark :: cs) = markBytes ++ utf8 cs := by
  rw [utf8_cons]
  rfl

/-- A mark in front of a string is the code unit U+FEFF. -/
theorem head_units {cs : List Char} : (units cs).head? = some 0xfeff ↔ cs.head? = some byteOrderMark := by
  cases cs with
  | nil => simp [units]
  | cons c cs =>
    have hb := toNat_bounds c
    have hmark : byteOrderMark.toNat = 0xfeff := rfl
    have hunit : (0xfeff : UInt16).toNat = 0xfeff := rfl
    rw [units_cons, charUnits]
    by_cases h : c.toNat < 0x10000
    · rw [if_pos h]
      simp only [List.singleton_append, List.head?_cons, Option.some.injEq]
      rw [← UInt16.toNat_inj, ← Char.toNat_inj, hmark, hunit]
      simp
      omega
    · rw [if_neg h]
      simp only [List.cons_append, List.head?_cons, Option.some.injEq]
      rw [← UInt16.toNat_inj, ← Char.toNat_inj, hmark, hunit]
      simp
      omega

/-- The decoder returns `s` on the encoding of `s`, where `s` has no mark of its own, and on that
encoding behind a mark. -/
theorem decode_eq_some {b : List UInt8} {s : List UInt16} :
    decode b = some s ↔
      WellFormed s ∧ (b = encode s ∧ s.head? ≠ some 0xfeff ∨ b = markBytes ++ encode s) := by
  unfold decode
  rw [Option.map_eq_some_iff]
  constructor
  · rintro ⟨cs, hcs, hs⟩
    have hb := utf8_of_ofUtf8 hcs
    by_cases hm : cs.head? = some byteOrderMark
    · rw [if_pos hm] at hs
      subst hs
      refine ⟨wellFormed_units _, .inr ?_⟩
      rw [encode, chars_units, ← utf8_byteOrderMark, ← hb]
      cases cs with
      | nil => cases hm
      | cons c cs => rw [Option.some.inj hm, List.tail_cons]
    · rw [if_neg hm] at hs
      subst hs
      exact ⟨wellFormed_units _, .inl ⟨by rw [encode, chars_units, hb], fun h => hm (head_units.1 h)⟩⟩
  · rintro ⟨hw, ⟨rfl, hm⟩ | rfl⟩
    · refine ⟨chars s, ofUtf8_utf8 _, ?_⟩
      rw [if_neg, hw]
      intro h
      rw [← head_units, hw] at h
      exact hm h
    · refine ⟨byteOrderMark :: chars s, ?_, ?_⟩
      · rw [encode, ← utf8_byteOrderMark, ofUtf8_utf8]
      · rw [List.head?_cons, if_pos rfl, List.tail_cons, hw]

/-- The strings that the decoder gives back. -/
theorem decode_encode {s : List UInt16} (hw : WellFormed s) (hm : s.head? ≠ some 0xfeff) :
    decode (encode s) = some s := decode_eq_some.2 ⟨hw, .inl ⟨rfl, hm⟩⟩

end TextCoding
