import Fips.Lib.LittleEndian
import Fips.Lib.Exec

/-!
# `codec/binary.ts`: byte strings, `BinaryWriter`, `BinaryReader`

A `Uint8Array` is a `Bytes`. A writer method is the chunk it appends, or the `RangeError` it throws;
a reader is the unread suffix with the offset it starts at (the offset only shows in error texts).
Every reader method has one `_eq_ok` lemma that says exactly what it consumes, so the decoders built
from them never unfold it.
-/

namespace Fips
open LittleEndian

abbrev Bytes := List UInt8

instance : LawfulBEq Bytes := inferInstance

namespace BinaryWriter

/-- The range check shared by the fixed-width writers. -/
def uint (name : String) (width n : Nat) : Except String Bytes :=
  if n < 256 ^ width then .ok (leBytes width n) else .error s!"{name} out of range: {n}"

def u8 (n : Nat) : Except String Bytes := uint "u8" 1 n
def u16le (n : Nat) : Except String Bytes := uint "u16" 2 n
def u32le (n : Nat) : Except String Bytes := uint "u32" 4 n
def u64le (n : Nat) : Except String Bytes := uint "u64" 8 n

theorem uint_of_lt {name : String} {width n : Nat} (h : n < 256 ^ width) :
    uint name width n = .ok (leBytes width n) := by
  simp [uint, h]

section
variable {n : Nat}

theorem u8_of_lt (h : n < 256) : u8 n = .ok (leBytes 1 n) := uint_of_lt h

theorem u16le_of_lt (h : n < 65536) : u16le n = .ok (leBytes 2 n) := uint_of_lt h

theorem u32le_of_lt (h : n < 2 ^ 32) : u32le n = .ok (leBytes 4 n) := @uint_of_lt _ 4 n (by omega)

theorem u64le_of_lt (h : n < 2 ^ 64) : u64le n = .ok (leBytes 8 n) := @uint_of_lt _ 8 n (by omega)

end

theorem uint_eq_ok {name : String} {width n : Nat} {b : Bytes} (h : uint name width n = .ok b) :
    n < 256 ^ width ∧ b = leBytes width n := by
  unfold uint at h
  split at h
  · exact ⟨‹_›, by cases h; rfl⟩
  · cases h

end BinaryWriter

/-- The unread bytes and the offset of the first of them. -/
structure BinaryReader where
  off : Nat
  rest : Bytes
deriving DecidableEq

namespace BinaryReader

abbrev Read := StateT BinaryReader (Except String)

def ofBytes (buf : Bytes) : BinaryReader := ⟨0, buf⟩

/-- `require(n)` and the read of the next `n` bytes. -/
def bytes (n : Nat) : Read Bytes := fun r =>
  if r.rest.length < n then
    .error s!"BinaryReader: need {n} byte(s) at offset {r.off}, have {r.rest.length}"
  else .ok (r.rest.take n, ⟨r.off + n, r.rest.drop n⟩)

def uint (width : Nat) : Read Nat := fun r => do
  let (b, r) ← bytes width r
  return (leNat b, r)

def u8 : Read Nat := uint 1
def u16le : Read Nat := uint 2
def u32le : Read Nat := uint 4
def u64le : Read Nat := uint 8

/-- The bytes left; the reader is then at the end. -/
def takeRest : Read Bytes := fun r => .ok (r.rest, ⟨r.off + r.rest.length, []⟩)

/-- Runs a decoder on a whole buffer. -/
def run {α : Type} (x : Read α) (buf : Bytes) : Except String α := do
  let (a, _) ← x (ofBytes buf)
  return a

section
variable {α β : Type} {x : Read α} {f : α → Read β} {r r' : BinaryReader} {a : α}

theorem bind_of_ok (h : x r = .ok (a, r')) : (x >>= f) r = f a r' := by
  show (x r >>= fun p => f p.1 p.2) = f a r'
  rw [h]; rfl

theorem bind_eq_ok {b : β} {r'' : BinaryReader} :
    (x >>= f) r = .ok (b, r'') ↔ ∃ a r', x r = .ok (a, r') ∧ f a r' = .ok (b, r'') := by
  show (x r >>= fun p => f p.1 p.2) = _ ↔ _
  rw [Exec.except_bind_eq_ok]
  exact ⟨fun ⟨⟨a, r'⟩, h, h'⟩ => ⟨a, r', h, h'⟩, fun ⟨a, r', h, h'⟩ => ⟨(a, r'), h, h'⟩⟩

theorem run_eq_ok {buf : Bytes} : run x buf = .ok a ↔ ∃ r', x ⟨0, buf⟩ = .ok (a, r') := by
  unfold run
  rw [Exec.except_bind_eq_ok]
  constructor
  · rintro ⟨⟨a', r'⟩, h, h'⟩
    cases h'
    exact ⟨r', h⟩
  · rintro ⟨r', h⟩
    exact ⟨(a, r'), h, rfl⟩

end

theorem bytes_append {n off : Nat} {b rest : Bytes} (h : b.length = n) :
    bytes n ⟨off, b ++ rest⟩ = .ok (b, ⟨off + n, rest⟩) := by
  subst h; simp [bytes]

theorem bytes_all {n off : Nat} {b : Bytes} (h : b.length = n) : bytes n ⟨off, b⟩ = .ok (b, ⟨off + n, []⟩) := by
  have := @bytes_append _ off _ [] h
  rwa [List.append_nil] at this

theorem takeRest_eq {off : Nat} {b : Bytes} : takeRest ⟨off, b⟩ = .ok (b, ⟨off + b.length, []⟩) := rfl

theorem uint_append {w off v : Nat} {rest : Bytes} (h : v < 256 ^ w) :
    uint w ⟨off, leBytes w v ++ rest⟩ = .ok (v, ⟨off + w, rest⟩) := by
  rw [uint, bytes_append (length_leBytes w v)]
  show Except.ok (leNat (leBytes w v), _) = _
  rw [leNat_leBytes h]

section
variable {off v : Nat} {rest : Bytes}

theorem u8_append (h : v < 256) : u8 ⟨off, leBytes 1 v ++ rest⟩ = .ok (v, ⟨off + 1, rest⟩) := uint_append h

theorem u16le_append (h : v < 65536) : u16le ⟨off, leBytes 2 v ++ rest⟩ = .ok (v, ⟨off + 2, rest⟩) :=
  uint_append h

theorem u32le_append (h : v < 2 ^ 32) : u32le ⟨off, leBytes 4 v ++ rest⟩ = .ok (v, ⟨off + 4, rest⟩) :=
  uint_append (w := 4) (by omega)

theorem u64le_append (h : v < 2 ^ 64) : u64le ⟨off, leBytes 8 v ++ rest⟩ = .ok (v, ⟨off + 8, rest⟩) :=
  uint_append (w := 8) (by omega)

end

theorem bytes_eq_ok {n : Nat} {r r' : BinaryReader} {b : Bytes} (h : bytes n r = .ok (b, r')) :
    b.length = n ∧ r.rest = b ++ r'.rest ∧ r'.off = r.off + n := by
  unfold bytes at h
  split at h
  · cases h
  · cases h
    refine ⟨?_, (List.take_append_drop _ _).symm, rfl⟩
    simp only [List.length_take]; omega

theorem uint_eq_ok {w v : Nat} {r r' : BinaryReader} (h : uint w r = .ok (v, r')) :
    v < 256 ^ w ∧ r.rest = leBytes w v ++ r'.rest ∧ r'.off = r.off + w := by
  unfold uint at h
  cases hb : bytes w r with
  | error e => rw [hb] at h; cases h
  | ok p =>
    obtain ⟨b, r₁⟩ := p
    rw [hb] at h
    cases h
    obtain ⟨hlen, hrest, hoff⟩ := bytes_eq_ok hb
    refine ⟨hlen ▸ leNat_lt b, ?_, hoff⟩
    rw [leBytes_of_length hlen]; exact hrest

end BinaryReader

end Fips
