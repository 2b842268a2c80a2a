import Fips.Crypto.Suite
import Fips.Protocol.Discovery

/-!
# `bloom/index.ts`, `protocol/filter.ts`: Bloom filters and FilterAnnounce

A filter is its bytes and its hash count; `numBits` is eight times their number.
-/

namespace Fips
open LittleEndian BinaryReader Exec

def DEFAULT_FILTER_SIZE_BITS : Nat := 8192
def DEFAULT_HASH_COUNT : Nat := 5

/-- `SIZE_CLASS_BYTES`. -/
def SIZE_CLASS_BYTES : List Nat := [512, 1024, 2048, 4096]

structure BloomFilter where
  bits : Bytes
  hashCount : Nat
deriving DecidableEq

namespace BloomFilter

def numBits (f : BloomFilter) : Nat := 8 * f.bits.length

def withParams (numBits hashCount : Nat) : Except String BloomFilter := do
  if numBits = 0 ∨ numBits % 8 ≠ 0 then throw s!"numBits must be a positive multiple of 8 (got {numBits})"
  if hashCount = 0 ∨ hashCount > 0xff then throw s!"hashCount must be in [1, 255] (got {hashCount})"
  return ⟨List.replicate (numBits / 8) 0, hashCount⟩

def empty : BloomFilter := ⟨List.replicate (DEFAULT_FILTER_SIZE_BITS / 8) 0, DEFAULT_HASH_COUNT⟩

def fromBytes (bytes : Bytes) (hashCount : Nat) : Except String BloomFilter := do
  if hashCount = 0 ∨ hashCount > 0xff then throw s!"hashCount must be in [1, 255] (got {hashCount})"
  if bytes.length = 0 then throw "filter bytes must be non-empty"
  return ⟨bytes, hashCount⟩

/-- The bit that the `k`-th hash of `data` probes. -/
def hash (S : Suite) (f : BloomFilter) (data : Bytes) (k : Nat) : Nat :=
  let digest := S.sha256 data
  let h1 := leNat (digest.take 8)
  let h2 := leNat ((digest.drop 8).take 8)
  (h1 + k * h2) % 2 ^ 64 % f.numBits

def setBit (index : Nat) (f : BloomFilter) : BloomFilter :=
  { f with bits := f.bits.modify (index / 8) fun b => b ||| (1 <<< UInt8.ofNat (index % 8)) }

def insertBytes (S : Suite) (data : Bytes) (f : BloomFilter) : BloomFilter :=
  (List.range f.hashCount).foldl (fun g k => g.setBit (f.hash S data k)) f

def merge (f other : BloomFilter) : Except String BloomFilter :=
  if f.numBits ≠ other.numBits then .error s!"filter size mismatch: {f.numBits} vs {other.numBits}"
  else .ok { f with bits := List.zipWith (· ||| ·) f.bits other.bits }

def countOnes (f : BloomFilter) : Nat := (f.bits.map fun b => ((List.range 8).filter b.toNat.testBit).length).sum

def fillRatio (f : BloomFilter) : ℚ := f.countOnes / f.numBits

end BloomFilter

def V1_SIZE_CLASS : Nat := 1
def FILTER_ANNOUNCE_MIN_PAYLOAD_SIZE : Nat := 10

structure FilterAnnounce where
  filter : BloomFilter
  sequence : Nat
  hashCount : Nat
  sizeClass : Nat
deriving DecidableEq

def expectedFilterBytes (sizeClass : Nat) : Except String Nat :=
  if sizeClass ≠ V1_SIZE_CLASS then .error s!"unsupported size_class {sizeClass}; v1 requires {V1_SIZE_CLASS}"
  else .ok (SIZE_CLASS_BYTES.getD sizeClass 0)

def buildFilterAnnounce (filter : BloomFilter) (sequence : Nat) : Except String FilterAnnounce := do
  let expected ← expectedFilterBytes V1_SIZE_CLASS
  if filter.bits.length ≠ expected then
    throw s!"v1 FilterAnnounce requires {expected}-byte filter (got {filter.bits.length})"
  return ⟨filter, sequence, filter.hashCount, V1_SIZE_CLASS⟩

def encodeFilterAnnounce (fa : FilterAnnounce) : Except String Bytes := do
  let expected ← expectedFilterBytes fa.sizeClass
  if fa.filter.bits.length ≠ expected then
    throw s!"filter size {fa.filter.bits.length} doesn't match size_class {fa.sizeClass}"
  if fa.hashCount ≠ fa.filter.hashCount then
    throw s!"hash_count {fa.hashCount} doesn't match filter.hashCount {fa.filter.hashCount}"
  let msgType ← BinaryWriter.u8 LinkMessageType.FilterAnnounce
  let sequence ← BinaryWriter.u64le fa.sequence
  let hashCount ← BinaryWriter.u8 fa.hashCount
  let sizeClass ← BinaryWriter.u8 fa.sizeClass
  return msgType ++ sequence ++ hashCount ++ sizeClass ++ fa.filter.bits

def decodeFilterAnnounce (buf : Bytes) : Except String FilterAnnounce := do
  if buf.length < 1 + FILTER_ANNOUNCE_MIN_PAYLOAD_SIZE then
    throw s!"FilterAnnounce too short: {buf.length} < {1 + FILTER_ANNOUNCE_MIN_PAYLOAD_SIZE}"
  BinaryReader.run (do
    let msgType ← u8
    if msgType ≠ LinkMessageType.FilterAnnounce then
      throw s!"not a FilterAnnounce (msg_type=0x{String.ofList (Nat.toDigits 16 msgType)})"
    let sequence ← u64le
    let hashCount ← u8
    let sizeClass ← u8
    let filterLen ← StateT.lift (expectedFilterBytes sizeClass)
    let remaining := (← get).rest.length
    if remaining < filterLen then
      throw s!"FilterAnnounce truncated: need {filterLen} filter bytes, have {remaining}"
    let filter ← StateT.lift (BloomFilter.fromBytes (← bytes filterLen) hashCount)
    return ⟨filter, sequence, hashCount, sizeClass⟩) buf

/-! ### The bytes of an announcement -/

namespace FilterAnnounce

/-- A v1 filter under its own hash count. -/
structure Wire (fa : FilterAnnounce) : Prop where
  sequence : fa.sequence < 2 ^ 64
  hashCount : fa.hashCount = fa.filter.hashCount
  some_hashes : 0 < fa.hashCount
  few_hashes : fa.hashCount < 256
  sizeClass : fa.sizeClass = V1_SIZE_CLASS
  bits : fa.filter.bits.length = 1024

def bytes (fa : FilterAnnounce) : Bytes :=
  leBytes 1 LinkMessageType.FilterAnnounce ++ (leBytes 8 fa.sequence ++ (leBytes 1 fa.hashCount ++
    (leBytes 1 fa.sizeClass ++ fa.filter.bits)))

/-- Nothing follows the filter. -/
def Whole (buf : Bytes) : Prop := buf.length = 1 + FILTER_ANNOUNCE_MIN_PAYLOAD_SIZE + 1024

instance (buf : Bytes) : Decidable (Whole buf) := inferInstanceAs (Decidable (_ = _))

variable {fa : FilterAnnounce} {buf : Bytes}

theorem Wire.encode (h : fa.Wire) : encodeFilterAnnounce fa = .ok fa.bytes := by
  have hbytes : expectedFilterBytes fa.sizeClass = .ok 1024 := by rw [h.sizeClass]; rfl
  have hty : BinaryWriter.u8 LinkMessageType.FilterAnnounce = .ok _ := BinaryWriter.u8_of_lt (by decide)
  have hclass : fa.sizeClass < 256 := by rw [h.sizeClass]; decide
  rw [encodeFilterAnnounce, hbytes, ok_bind, if_neg (not_not.2 h.bits)]
  dsimp only
  rw [if_neg (not_not.2 h.hashCount), hty, BinaryWriter.u64le_of_lt h.sequence, BinaryWriter.u8_of_lt h.few_hashes,
    BinaryWriter.u8_of_lt hclass]
  simp only [ok_bind, pure_eq_ok, bytes, List.append_assoc]

theorem length_bytes (h : fa.filter.bits.length = 1024) :
    fa.bytes.length = 1 + FILTER_ANNOUNCE_MIN_PAYLOAD_SIZE + 1024 := by
  simp only [bytes, List.length_append, length_leBytes, h, FILTER_ANNOUNCE_MIN_PAYLOAD_SIZE]

theorem run_get (r : BinaryReader) : (get : Read BinaryReader) r = .ok (r, r) := rfl

theorem run_lift {α : Type} {x : Except String α} {a : α} {r : BinaryReader} (h : x = .ok a) :
    (StateT.lift x : Read α) r = .ok (a, r) := by
  subst h
  rfl

theorem lift_eq_ok {α : Type} {x : Except String α} {a : α} {r r' : BinaryReader}
    (h : (StateT.lift x : Read α) r = .ok (a, r')) : x = .ok a ∧ r' = r := by
  obtain ⟨b, hb, h⟩ := except_bind_eq_ok.1 h
  cases h
  exact ⟨hb, rfl⟩

theorem Wire.decode (h : fa.Wire) : decodeFilterAnnounce fa.bytes = .ok fa := by
  have hlong : ¬fa.bytes.length < 1 + FILTER_ANNOUNCE_MIN_PAYLOAD_SIZE := by
    rw [length_bytes h.bits]
    decide
  have hbytes : expectedFilterBytes fa.sizeClass = .ok 1024 := by rw [h.sizeClass]; rfl
  have hclass : fa.sizeClass < 256 := by rw [h.sizeClass]; decide
  have hfilter : BloomFilter.fromBytes fa.filter.bits fa.hashCount = .ok fa.filter := by
    have := h.some_hashes
    have := h.few_hashes
    have hbits := h.bits
    rw [BloomFilter.fromBytes, if_neg (by omega), if_neg (by omega), h.hashCount]
    rfl
  rw [decodeFilterAnnounce, if_neg hlong]
  refine run_eq_ok.2 ⟨⟨0 + 1 + 8 + 1 + 1 + 1024, []⟩, ?_⟩
  rw [bytes, bind_of_ok (u8_append (by decide)), if_neg (not_not.2 rfl)]
  dsimp only
  rw [bind_of_ok (u64le_append h.sequence), bind_of_ok (u8_append h.few_hashes), bind_of_ok (u8_append hclass),
    bind_of_ok (run_lift hbytes), bind_of_ok (run_get _)]
  dsimp only
  rw [if_neg (by rw [h.bits]; decide), bind_of_ok (bytes_all h.bits), bind_of_ok (run_lift hfilter)]
  rfl

theorem fromBytes_eq_ok {bits : Bytes} {hashCount : Nat} {filter : BloomFilter}
    (h : BloomFilter.fromBytes bits hashCount = .ok filter) : 0 < hashCount ∧ hashCount < 256 ∧ filter = ⟨bits, hashCount⟩ := by
  unfold BloomFilter.fromBytes at h
  by_cases hcount : hashCount = 0 ∨ hashCount > 0xff
  · rw [if_pos hcount] at h
    cases h
  · rw [if_neg hcount] at h
    dsimp only at h
    split at h
    · cases h
    · cases h
      exact ⟨by omega, by omega, rfl⟩

/-- What is accepted starts with the announcement returned; what follows the filter is not looked at. -/
theorem of_decode (h : decodeFilterAnnounce buf = .ok fa) : fa.Wire ∧ (Whole buf ↔ buf = fa.bytes) := by
  unfold decodeFilterAnnounce at h
  split at h
  · cases h
  obtain ⟨r', h⟩ := run_eq_ok.1 h
  obtain ⟨msgType, r₁, h₁, h⟩ := bind_eq_ok.1 h
  split at h
  · cases h
  rename_i hty
  obtain ⟨sequence, r₂, h₂, h⟩ := bind_eq_ok.1 h
  obtain ⟨hashCount, r₃, h₃, h⟩ := bind_eq_ok.1 h
  obtain ⟨sizeClass, r₄, h₄, h⟩ := bind_eq_ok.1 h
  obtain ⟨filterLen, r₅, h₅, h⟩ := bind_eq_ok.1 h
  obtain ⟨rest, r₀, h₀, h⟩ := bind_eq_ok.1 h
  cases h₀
  dsimp only at h
  split at h
  · cases h
  obtain ⟨filterBytes, r₆, h₆, h⟩ := bind_eq_ok.1 h
  obtain ⟨filter, r₇, h₇, h⟩ := bind_eq_ok.1 h
  cases h
  obtain ⟨hexpected, rfl⟩ := lift_eq_ok h₅
  obtain ⟨hfrom, rfl⟩ := lift_eq_ok h₇
  obtain ⟨-, hr₁, -⟩ := uint_eq_ok h₁
  obtain ⟨hsequence, hr₂, -⟩ := uint_eq_ok h₂
  obtain ⟨hhash, hr₃, -⟩ := uint_eq_ok h₃
  obtain ⟨-, hr₄, -⟩ := uint_eq_ok h₄
  obtain ⟨hlen, hr₆, -⟩ := bytes_eq_ok h₆
  unfold expectedFilterBytes at hexpected
  split at hexpected
  · cases hexpected
  rename_i hclass
  rw [not_not.1 hclass] at hexpected
  cases hexpected
  obtain ⟨hsome, -, rfl⟩ := fromBytes_eq_ok hfrom
  have hlen : filterBytes.length = 1024 := hlen
  have hbuf : buf = FilterAnnounce.bytes ⟨⟨filterBytes, hashCount⟩, sequence, hashCount, sizeClass⟩ ++ r'.rest := by
    rw [show buf = _ from hr₁, hr₂, hr₃, hr₄, hr₆, not_not.1 hty]
    simp only [bytes, List.append_assoc]
  refine ⟨⟨by show sequence < 2 ^ 64; omega, rfl, hsome, hhash, not_not.1 hclass, hlen⟩, ?_⟩
  have htotal := congrArg List.length hbuf
  rw [List.length_append, FilterAnnounce.length_bytes hlen] at htotal
  rw [Whole, htotal]
  constructor
  · intro hwhole
    have hnil : r'.rest = [] := List.length_eq_zero_iff.1 (by omega)
    rw [hbuf, hnil, List.append_nil]
  · intro hwhole
    have := congrArg List.length hwhole
    rw [htotal, FilterAnnounce.length_bytes hlen] at this
    exact this

end FilterAnnounce

end Fips
