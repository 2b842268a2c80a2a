import Fips.Lib.Run
import Fips.Protocol.Filter

/-!
# Membership in Bloom filters

A filter contains an item when all its probes of it hit bits that are set. Bits are only ever set, so what a filter
contains stays in it. What another filter contains comes along with its bits only if the receiver probes no bit the
other has not: `Covers`, which needs equal sizes and at least as many hashes on the other side.
-/

namespace Fips
open Exec

namespace BloomFilter

def getBit (index : Nat) (f : BloomFilter) : Bool :=
  (f.bits.getD (index / 8) 0 &&& (1 <<< UInt8.ofNat (index % 8))) ≠ 0

/-- Probabilistic membership: false means definitely absent. -/
def containsBytes (S : Suite) (data : Bytes) (f : BloomFilter) : Bool :=
  (List.range f.hashCount).all fun k => f.getBit (f.hash S data k)

/-- A fresh filter; a byte the other filter does not have counts as zero. -/
def union (f other : BloomFilter) : Except String BloomFilter := do
  let out ← withParams f.numBits f.hashCount
  return { out with bits := f.bits.mapIdx fun i b => b ||| other.bits.getD i 0 }

/-- What the constructors make: some bits, and between 1 and 255 hashes. -/
structure Valid (f : BloomFilter) : Prop where
  bits : 0 < f.bits.length
  some_hashes : 0 < f.hashCount
  few_hashes : f.hashCount ≤ 255

variable {S : Suite} {f g h : BloomFilter} {data item : Bytes} {n k n' k' i j : Nat}

/-- The bits a filter of this size probes. -/
def probe (S : Suite) (numBits : Nat) (data : Bytes) (k : Nat) : Nat :=
  (LittleEndian.leNat ((S.sha256 data).take 8) +
    k * LittleEndian.leNat (((S.sha256 data).drop 8).take 8)) % 2 ^ 64 % numBits

theorem probe_lt (hn : 0 < n) : probe S n data k < n := Nat.mod_lt _ hn

theorem containsBytes_iff : f.containsBytes S data = true ↔ ∀ k < f.hashCount, f.getBit (probe S f.numBits data k) = true := by
  unfold containsBytes
  simp only [List.all_eq_true, List.mem_range]
  rfl

theorem Valid.numBits_pos (h : f.Valid) : 0 < f.numBits := by
  have := h.bits
  unfold numBits
  omega

theorem withParams_valid (h : withParams n k = .ok f) : f.Valid ∧ f.numBits = n ∧ f.hashCount = k ∧
    ∀ j, f.getBit j = false := by
  unfold withParams at h
  dsimp only at h
  split at h
  · cases h
  rename_i hn
  split at h
  · cases h
  rename_i hk
  cases h
  refine ⟨⟨?_, ?_, ?_⟩, ?_, rfl, fun j => ?_⟩
  · show 0 < (List.replicate (n / 8) (0 : UInt8)).length
    rw [List.length_replicate]
    omega
  · exact Nat.pos_of_ne_zero fun h => hk (.inl h)
  · exact not_lt.1 fun h => hk (.inr h)
  · show 8 * (List.replicate (n / 8) (0 : UInt8)).length = n
    rw [List.length_replicate]
    omega
  · unfold getBit
    have hzero : (List.replicate (n / 8) (0 : UInt8)).getD (j / 8) 0 = 0 := by
      rw [List.getD_eq_getElem?_getD, List.getElem?_replicate]
      split <;> rfl
    rw [hzero]
    simp

theorem withParams_ok (hn : n ≠ 0) (h8 : n % 8 = 0) (hk : k ≠ 0) (hk' : k ≤ 255) : ∃ f, withParams n k = .ok f := by
  unfold withParams
  rw [if_neg (by omega), if_neg (by omega)]
  exact ⟨_, rfl⟩

theorem fromBytes_valid {bytes : Bytes} (h : fromBytes bytes k = .ok f) : f.Valid := by
  unfold fromBytes at h
  dsimp only at h
  split at h
  · cases h
  rename_i hk
  split at h
  · cases h
  rename_i hlen
  cases h
  exact ⟨Nat.pos_of_ne_zero hlen, Nat.pos_of_ne_zero fun h => hk (.inl h), not_lt.1 fun h => hk (.inr h)⟩

/-! ### Bits -/

theorem and_bit_or (a b c : UInt8) : (a ||| b) &&& c ≠ 0 ↔ a &&& c ≠ 0 ∨ b &&& c ≠ 0 := by
  have hdistrib : (a ||| b) &&& c = (a &&& c) ||| (b &&& c) := by
    apply UInt8.toBitVec_inj.1
    simp only [UInt8.toBitVec_and, UInt8.toBitVec_or]
    ext i hi
    simp only [BitVec.getElem_and, BitVec.getElem_or]
    exact Bool.and_or_distrib_right ..
  rw [hdistrib, ne_eq, UInt8.or_eq_zero_iff, not_and_or]

theorem bit_and_bit (hi : i < 8) (hj : j < 8) :
    ((1 : UInt8) <<< UInt8.ofNat i) &&& (1 <<< UInt8.ofNat j) ≠ 0 ↔ i = j := by
  have hall : ∀ i : Fin 8, ∀ j : Fin 8, ((1 : UInt8) <<< UInt8.ofNat i) &&& (1 <<< UInt8.ofNat j) ≠ 0 ↔ i = j := by decide
  rw [hall ⟨i, hi⟩ ⟨j, hj⟩, Fin.mk.injEq]

theorem getBit_setBit (hi : i < f.numBits) : (f.setBit i).getBit j = true ↔ j = i ∨ f.getBit j = true := by
  have hlt : i / 8 < f.bits.length := by
    unfold numBits at hi
    omega
  simp only [getBit, setBit, decide_eq_true_eq, List.getD_eq_getElem?_getD, List.getElem?_modify]
  by_cases hij : i / 8 = j / 8
  · rw [← hij, List.getElem?_eq_getElem hlt]
    simp only [if_true, Option.map_eq_map, Option.map_some, Option.getD_some]
    rw [and_bit_or, bit_and_bit (Nat.mod_lt _ (by decide)) (Nat.mod_lt _ (by decide)), or_comm]
    have heq : i % 8 = j % 8 ↔ j = i := by omega
    rw [heq]
  · have hne : j ≠ i := fun h => hij (by rw [h])
    rw [or_iff_right hne]
    simp only [if_neg hij, Option.map_eq_map, Option.map_id']

theorem numBits_setBit : (f.setBit i).numBits = f.numBits := by
  unfold numBits setBit
  rw [List.length_modify]

theorem setBits_spec (ks : List Nat) (hks : ∀ k ∈ ks, k < f.numBits) :
    (ks.foldl (fun g k => g.setBit k) f).numBits = f.numBits ∧
      (ks.foldl (fun g k => g.setBit k) f).hashCount = f.hashCount ∧
      ∀ j, (ks.foldl (fun g k => g.setBit k) f).getBit j = true ↔ j ∈ ks ∨ f.getBit j = true := by
  induction ks generalizing f with
  | nil => exact ⟨rfl, rfl, fun j => by simp⟩
  | cons k ks ih =>
    have hk := hks k List.mem_cons_self
    obtain ⟨hbits, hcount, hget⟩ := @ih (f.setBit k) fun k' hk' => by
      rw [numBits_setBit]
      exact hks k' (List.mem_cons_of_mem k hk')
    refine ⟨hbits.trans numBits_setBit, hcount, fun j => ?_⟩
    rw [List.foldl_cons, hget, getBit_setBit hk, List.mem_cons]
    tauto

/-- Everything `insertBytes` does: it sets the bits probed for the item. -/
theorem insertBytes_spec (hf : 0 < f.numBits) (data : Bytes) :
    (f.insertBytes S data).numBits = f.numBits ∧ (f.insertBytes S data).hashCount = f.hashCount ∧
      ∀ j, (f.insertBytes S data).getBit j = true ↔
        (∃ k < f.hashCount, j = probe S f.numBits data k) ∨ f.getBit j = true := by
  have hfold : f.insertBytes S data =
      ((List.range f.hashCount).map (probe S f.numBits data)).foldl (fun g k => g.setBit k) f := by
    rw [List.foldl_map]
    rfl
  obtain ⟨hbits, hcount, hget⟩ := @setBits_spec f ((List.range f.hashCount).map (probe S f.numBits data)) fun k hk => by
    obtain ⟨i, -, rfl⟩ := List.mem_map.1 hk
    exact probe_lt hf
  rw [hfold]
  refine ⟨hbits, hcount, fun j => ?_⟩
  rw [hget, List.mem_map]
  simp only [List.mem_range, eq_comm]

/-- Everything `merge` does: it throws for another size, and adds the bits of the other filter. -/
theorem merge_spec (hg : f.merge g = .ok h) : f.numBits = g.numBits ∧ h.numBits = f.numBits ∧ h.hashCount = f.hashCount ∧
    ∀ j, h.getBit j = true ↔ f.getBit j = true ∨ g.getBit j = true := by
  unfold merge at hg
  split at hg
  · cases hg
  rename_i hsize
  have hsize := not_not.1 hsize
  have hlen : f.bits.length = g.bits.length := by
    unfold numBits at hsize
    omega
  cases hg
  refine ⟨hsize, ?_, rfl, fun j => ?_⟩
  · show 8 * (List.zipWith (· ||| ·) f.bits g.bits).length = _
    rw [List.length_zipWith, ← hlen, Nat.min_self]
    rfl
  · simp only [getBit, decide_eq_true_eq, List.getD_eq_getElem?_getD, List.getElem?_zipWith]
    by_cases hj : j / 8 < f.bits.length
    · rw [List.getElem?_eq_getElem hj, List.getElem?_eq_getElem (hlen ▸ hj)]
      exact and_bit_or _ _ _
    · rw [List.getElem?_eq_none (not_lt.1 hj), List.getElem?_eq_none (hlen ▸ not_lt.1 hj)]
      simp

theorem merge_ok (hsize : f.numBits = g.numBits) : ∃ h, f.merge g = .ok h :=
  ⟨_, if_neg (not_not.2 hsize)⟩

/-- Everything `union` does: it adds the bits of the other filter that the receiver has room for. -/
theorem union_spec (hg : f.union g = .ok h) : h.numBits = f.numBits ∧ h.hashCount = f.hashCount ∧
    ∀ j, h.getBit j = true ↔ f.getBit j = true ∨ j < f.numBits ∧ g.getBit j = true := by
  obtain ⟨out, hout, hg⟩ := except_bind_eq_ok.1 hg
  obtain ⟨-, -, hcount, -⟩ := withParams_valid hout
  cases hg
  refine ⟨?_, hcount, fun j => ?_⟩
  · show 8 * (f.bits.mapIdx fun i b => b ||| g.bits.getD i 0).length = _
    rw [List.length_mapIdx]
    rfl
  · simp only [getBit, decide_eq_true_eq]
    by_cases hj : j / 8 < f.bits.length
    · have hlt : j < f.numBits := by
        unfold numBits
        omega
      have hout : (f.bits.mapIdx fun i b => b ||| g.bits.getD i 0).getD (j / 8) 0 =
          f.bits.getD (j / 8) 0 ||| g.bits.getD (j / 8) 0 := by
        simp only [List.getD_eq_getElem?_getD, List.getElem?_mapIdx, List.getElem?_eq_getElem hj, Option.map_some,
          Option.getD_some]
      rw [hout, and_bit_or]
      simp only [hlt, true_and]
    · have hge : ¬j < f.numBits := by
        unfold numBits
        omega
      have hnone : (f.bits.mapIdx fun i b => b ||| g.bits.getD i 0).getD (j / 8) 0 = 0 := by
        rw [List.getD_eq_getElem?_getD, List.getElem?_eq_none (by rw [List.length_mapIdx]; omega)]
        rfl
      have hnone' : f.bits.getD (j / 8) 0 = 0 := by
        rw [List.getD_eq_getElem?_getD, List.getElem?_eq_none (by omega)]
        rfl
      rw [hnone, hnone']
      simp [hge]

theorem union_ok (hf : f.Valid) : ∃ h, f.union g = .ok h := by
  have hnumBits := hf.numBits_pos
  obtain ⟨out, hout⟩ := @withParams_ok f.numBits f.hashCount (by omega) (by unfold numBits; omega)
    (by have := hf.some_hashes; omega) hf.few_hashes
  exact ⟨_, by rw [union, hout]; rfl⟩

/-! ### Items -/

/-- Every item of `f` is one of `g`. -/
def Includes (S : Suite) (f g : BloomFilter) : Prop := ∀ item, f.containsBytes S item = true → g.containsBytes S item = true

theorem Includes.refl : f.Includes S f := fun _ h => h

theorem Includes.trans (hfg : f.Includes S g) (hgh : g.Includes S h) : f.Includes S h :=
  fun item hitem => hgh item (hfg item hitem)

/-- For every item, the bits that `f` probes are set, or are among those that a filter of `numBits` bits and `hashCount`
hashes probes. -/
def Covers (S : Suite) (f : BloomFilter) (numBits hashCount : Nat) : Prop :=
  ∀ item, ∀ i < f.hashCount, f.getBit (probe S f.numBits item i) = true ∨
    ∃ j < hashCount, probe S f.numBits item i = probe S numBits item j

/-- Filters of one size cover those with as many hashes or more. -/
theorem covers_of_le (hk : f.hashCount ≤ k) : f.Covers S f.numBits k :=
  fun _ i hi => .inr ⟨i, hi.trans_le hk, rfl⟩

/-- `g` is `f` with some more bits set. -/
structure Extends (f g : BloomFilter) : Prop where
  numBits : g.numBits = f.numBits
  hashCount : g.hashCount = f.hashCount
  bits : ∀ j, f.getBit j = true → g.getBit j = true

theorem Extends.refl : f.Extends f := ⟨rfl, rfl, fun _ h => h⟩

theorem Extends.trans (hfg : f.Extends g) (hgh : g.Extends h) : f.Extends h :=
  ⟨hgh.numBits.trans hfg.numBits, hgh.hashCount.trans hfg.hashCount, fun j hj => hgh.bits j (hfg.bits j hj)⟩

theorem Extends.includes (he : f.Extends g) : f.Includes S g := by
  intro item hitem
  rw [containsBytes_iff] at hitem ⊢
  intro i hi
  rw [he.numBits]
  exact he.bits _ (hitem i (he.hashCount ▸ hi))

theorem Extends.covers (he : f.Extends g) (hf : f.Covers S n k) : g.Covers S n k := by
  intro item i hi
  rw [he.numBits]
  exact (hf item i (he.hashCount ▸ hi)).imp_left (he.bits _)

theorem Extends.valid (he : f.Extends g) (hf : f.Valid) : g.Valid := by
  have hsize := he.numBits
  unfold BloomFilter.numBits at hsize
  exact ⟨by have := hf.bits; omega, he.hashCount ▸ hf.some_hashes, he.hashCount ▸ hf.few_hashes⟩

/-- A filter with the bits of two others has the items of the second if the first covers them. -/
theorem Extends.includes_other (he : f.Extends h) (hg : ∀ j < f.numBits, g.getBit j = true → h.getBit j = true)
    (hpos : 0 < f.numBits) (hcovers : f.Covers S g.numBits g.hashCount) : g.Includes S h := by
  intro item hitem
  rw [containsBytes_iff] at hitem ⊢
  intro i hi
  rw [he.numBits]
  rcases hcovers item i (he.hashCount ▸ hi) with hset | ⟨j, hj, heq⟩
  · exact he.bits _ hset
  · exact hg _ (probe_lt hpos) (by rw [heq]; exact hitem j hj)

/-- A filter in which nothing but the item is. -/
theorem exists_only (hn : n ≠ 0) (h8 : n % 8 = 0) (hk : k ≠ 0) (hk' : k ≤ 255) (item : Bytes) :
    ∃ g : BloomFilter, g.Valid ∧ g.numBits = n ∧ g.hashCount = k ∧ g.containsBytes S item = true ∧
      ∀ j, g.getBit j = true → ∃ i < k, j = probe S n item i := by
  obtain ⟨blank, hblank⟩ := withParams_ok hn h8 hk hk'
  obtain ⟨hvalid, hsize, hcount, hunset⟩ := withParams_valid hblank
  obtain ⟨hsize', hcount', hget⟩ := @insertBytes_spec S blank hvalid.numBits_pos item
  have he : blank.Extends (blank.insertBytes S item) := ⟨hsize', hcount', fun j hj => (hget j).2 (.inr hj)⟩
  refine ⟨blank.insertBytes S item, he.valid hvalid, hsize'.trans hsize, hcount'.trans hcount, ?_, fun j hj => ?_⟩
  · rw [containsBytes_iff]
    intro i hi
    rw [hget, hsize']
    exact .inl ⟨i, hcount' ▸ hi, rfl⟩
  · rcases (hget j).1 hj with ⟨i, hi, heq⟩ | hset
    · exact ⟨i, hcount ▸ hi, hsize ▸ heq⟩
    · rw [hunset] at hset
      cases hset

/-- When all that a filter of `n` bits and `k` hashes may contain has to stay in an operation that adds at most its bits, the
receiver has to cover it. -/
theorem covers_of_includes (hn : n ≠ 0) (h8 : n % 8 = 0) (hk : k ≠ 0) (hk' : k ≤ 255)
    (hkeeps : ∀ g : BloomFilter, g.Valid → g.numBits = n → g.hashCount = k → ∃ h : BloomFilter, f.Extends h ∧
      (∀ j, h.getBit j = true → f.getBit j = true ∨ g.getBit j = true) ∧ g.Includes S h) : f.Covers S n k := by
  intro item i hi
  obtain ⟨g, hg, hsize, hcount, hitem, honly⟩ := @exists_only S n k hn h8 hk hk' item
  obtain ⟨h, he, hbits, hincludes⟩ := hkeeps g hg hsize hcount
  have hset := containsBytes_iff.1 (hincludes item hitem) i (he.hashCount ▸ hi)
  rw [he.numBits] at hset
  rcases hbits _ hset with hset | hset
  · exact .inl hset
  · exact .inr (honly _ hset)

/-! ### The operations -/

theorem insertBytes_contains (hf : 0 < f.numBits) : (f.insertBytes S data).containsBytes S data = true := by
  obtain ⟨hsize, hcount, hget⟩ := @insertBytes_spec S f hf data
  rw [containsBytes_iff]
  intro i hi
  rw [hget, hsize]
  exact .inl ⟨i, hcount ▸ hi, rfl⟩

theorem insertBytes_extends (hf : 0 < f.numBits) : f.Extends (f.insertBytes S data) := by
  obtain ⟨hsize, hcount, hget⟩ := @insertBytes_spec S f hf data
  exact ⟨hsize, hcount, fun j hj => (hget j).2 (.inr hj)⟩

theorem merge_extends (hg : f.merge g = .ok h) : f.Extends h := by
  obtain ⟨-, hsize, hcount, hget⟩ := merge_spec hg
  exact ⟨hsize, hcount, fun j hj => (hget j).2 (.inl hj)⟩

theorem merge_includes_other (hf : 0 < f.numBits) (hg : f.merge g = .ok h) (hcovers : f.Covers S g.numBits g.hashCount) :
    g.Includes S h :=
  (merge_extends hg).includes_other (fun j _ hj => ((merge_spec hg).2.2.2 j).2 (.inr hj)) hf hcovers

theorem union_extends (hg : f.union g = .ok h) : f.Extends h := by
  obtain ⟨hsize, hcount, hget⟩ := union_spec hg
  exact ⟨hsize, hcount, fun j hj => (hget j).2 (.inl hj)⟩

theorem union_includes_other (hf : 0 < f.numBits) (hg : f.union g = .ok h) (hcovers : f.Covers S g.numBits g.hashCount) :
    g.Includes S h :=
  (union_extends hg).includes_other (fun j hj hset => ((union_spec hg).2.2 j).2 (.inr ⟨hj, hset⟩)) hf hcovers

/-- Filters of one size and hash count whose items all stay in a merge are exactly those the receiver covers. -/
theorem merge_exact (hf : f.Valid) (hk : k ≠ 0) (hk' : k ≤ 255) :
    (∀ g : BloomFilter, g.Valid → g.numBits = f.numBits → g.hashCount = k → ∀ h, f.merge g = .ok h → g.Includes S h) ↔
      f.Covers S f.numBits k := by
  have hpos := hf.numBits_pos
  constructor
  · intro hkeeps
    refine covers_of_includes (by omega) (by unfold numBits; omega) hk hk' fun g hg hsize hcount => ?_
    obtain ⟨h, hmerge⟩ := merge_ok hsize.symm
    obtain ⟨-, -, -, hget⟩ := merge_spec hmerge
    exact ⟨h, merge_extends hmerge, fun j hj => (hget j).1 hj, hkeeps g hg hsize hcount h hmerge⟩
  · intro hcovers g hg hsize hcount h hmerge
    exact merge_includes_other hpos hmerge (by rw [hsize, hcount]; exact hcovers)

theorem union_exact (hf : f.Valid) (hn : n ≠ 0) (h8 : n % 8 = 0) (hk : k ≠ 0) (hk' : k ≤ 255) :
    (∀ g : BloomFilter, g.Valid → g.numBits = n → g.hashCount = k → ∀ h, f.union g = .ok h → g.Includes S h) ↔
      f.Covers S n k := by
  constructor
  · intro hkeeps
    refine covers_of_includes hn h8 hk hk' fun g hg hsize hcount => ?_
    obtain ⟨h, hunion⟩ := @union_ok f g hf
    obtain ⟨-, -, hget⟩ := union_spec hunion
    refine ⟨h, union_extends hunion, fun j hj => ?_, hkeeps g hg hsize hcount h hunion⟩
    rcases (hget j).1 hj with hset | ⟨-, hset⟩
    · exact .inl hset
    · exact .inr hset
  · intro hcovers g hg hsize hcount h hunion
    exact union_includes_other hf.numBits_pos hunion (by rw [hsize, hcount]; exact hcovers)

end BloomFilter

/-! ### Any number of filters -/

/-- A call of a program that holds filters, which it knows by their places. -/
inductive FilterOp
  | withParams (numBits hashCount : Nat)
  | fromBytes (bytes : Bytes) (hashCount : Nat)
  | insertBytes (i : Nat) (data : Bytes)
  | merge (i other : Nat)
  | union (i other : Nat)

namespace FilterOp
open BloomFilter

variable {S : Suite} {fs fs' : List BloomFilter} {op : FilterOp} {ops before after : List FilterOp} {f g h : BloomFilter}
  {item : Bytes} {i k : Nat}

/-- A new filter goes behind the others; without its receiver or operand there is no call. -/
def call (S : Suite) (fs : List BloomFilter) : FilterOp → Except String (List BloomFilter)
  | withParams numBits hashCount => do return fs ++ [← BloomFilter.withParams numBits hashCount]
  | fromBytes bytes hashCount => do return fs ++ [← BloomFilter.fromBytes bytes hashCount]
  | insertBytes i data => .ok (fs.modify i fun f => f.insertBytes S data)
  | merge i other =>
    match fs[i]?, fs[other]? with
    | some f, some g => do return fs.set i (← f.merge g)
    | _, _ => .ok fs
  | union i other =>
    match fs[i]?, fs[other]? with
    | some f, some g => do return fs ++ [← f.union g]
    | _, _ => .ok fs

/-- A call that throws leaves every filter as it is. -/
def step (S : Suite) (fs : List BloomFilter) (op : FilterOp) : List BloomFilter := ((call S fs op).toOption).getD fs

def HasItem (S : Suite) (fs : List BloomFilter) (i : Nat) (item : Bytes) : Prop :=
  ∃ f, fs[i]? = some f ∧ f.containsBytes S item = true

/-- The items that the result of a call has to have: what is inserted, and those of its operand and its receiver. -/
def Added (S : Suite) (fs : List BloomFilter) : FilterOp → Nat → Bytes → Prop
  | withParams .., _, _ | fromBytes .., _, _ => False
  | insertBytes i data, k, item => k = i ∧ i < fs.length ∧ item = data
  | merge i other, k, item => k = i ∧ i < fs.length ∧ HasItem S fs other item
  | union i other, k, item =>
    k = fs.length ∧ i < fs.length ∧ other < fs.length ∧ (HasItem S fs i item ∨ HasItem S fs other item)

/-- The receiver covers the operand whose bits it takes in. -/
def Covered (S : Suite) (fs : List BloomFilter) : FilterOp → Prop
  | merge i other => ∀ f g, fs[i]? = some f → fs[other]? = some g → f.numBits = g.numBits → f.Covers S g.numBits g.hashCount
  | union i other => ∀ f g, fs[i]? = some f → fs[other]? = some g → f.Covers S g.numBits g.hashCount
  | _ => True

/-- What a call that does not throw does: it replaces one filter by one that includes it, or it adds one. -/
theorem call_cases (hvalid : ∀ f ∈ fs, f.Valid) (hcall : call S fs op = .ok fs') :
    fs' = fs ∨ (∃ i f f', fs[i]? = some f ∧ f.Extends f' ∧ fs' = fs.set i f') ∨
      ∃ f', f'.Valid ∧ fs' = fs ++ [f'] := by
  cases op with
  | withParams numBits hashCount =>
    obtain ⟨f', hf', hcall⟩ := except_bind_eq_ok.1 hcall
    cases hcall
    exact .inr (.inr ⟨f', (withParams_valid hf').1, rfl⟩)
  | fromBytes bytes hashCount =>
    obtain ⟨f', hf', hcall⟩ := except_bind_eq_ok.1 hcall
    cases hcall
    exact .inr (.inr ⟨f', fromBytes_valid hf', rfl⟩)
  | insertBytes i data =>
    cases hcall
    by_cases hi : i < fs.length
    · have hf := hvalid fs[i] (List.getElem_mem hi)
      refine .inr (.inl ⟨i, fs[i], fs[i].insertBytes S data, List.getElem?_eq_getElem hi, insertBytes_extends hf.numBits_pos, ?_⟩)
      rw [List.modify_eq_set_getElem?, List.getElem?_eq_getElem hi]
      rfl
    · exact .inl (List.modify_eq_self (not_lt.1 hi))
  | merge i other =>
    simp only [call] at hcall
    split at hcall
    · rename_i f g hf hg
      obtain ⟨f', hf', hcall⟩ := except_bind_eq_ok.1 hcall
      cases hcall
      exact .inr (.inl ⟨i, f, f', hf, merge_extends hf', rfl⟩)
    · cases hcall
      exact .inl rfl
  | union i other =>
    simp only [call] at hcall
    split at hcall
    · rename_i f g hf hg
      obtain ⟨f', hf', hcall⟩ := except_bind_eq_ok.1 hcall
      cases hcall
      exact .inr (.inr ⟨f', (union_extends hf').valid (hvalid f (List.mem_of_getElem? hf)), rfl⟩)
    · cases hcall
      exact .inl rfl

theorem call_valid (hvalid : ∀ f ∈ fs, f.Valid) (hcall : call S fs op = .ok fs') : ∀ f ∈ fs', f.Valid := by
  rcases call_cases hvalid hcall with rfl | ⟨i, f, f', hf, he, rfl⟩ | ⟨f', hf', rfl⟩
  · exact hvalid
  · intro g hg
    rcases List.mem_or_eq_of_mem_set hg with hold | rfl
    · exact hvalid g hold
    · exact he.valid (hvalid f (List.mem_of_getElem? hf))
  · intro g hg
    rcases List.mem_append.1 hg with hold | hnew
    · exact hvalid g hold
    · rw [List.mem_singleton.1 hnew]
      exact hf'

theorem call_hasItem (hvalid : ∀ f ∈ fs, f.Valid) (hcall : call S fs op = .ok fs') (hitem : HasItem S fs k item) :
    HasItem S fs' k item := by
  obtain ⟨g, hg, hitem⟩ := hitem
  have hk : k < fs.length := (List.getElem?_eq_some_iff.1 hg).1
  rcases call_cases hvalid hcall with rfl | ⟨i, f, f', hf, he, rfl⟩ | ⟨f', -, rfl⟩
  · exact ⟨g, hg, hitem⟩
  · by_cases hik : i = k
    · subst hik
      have hfg : f = g := Option.some.inj (hf.symm.trans hg)
      exact ⟨f', List.getElem?_set_self hk, he.includes item (hfg ▸ hitem)⟩
    · exact ⟨g, (List.getElem?_set_ne hik).trans hg, hitem⟩
  · exact ⟨g, (List.getElem?_append_left hk).trans hg, hitem⟩

/-- A call whose receiver covers its operand has everything it should in its result. -/
theorem call_added (hvalid : ∀ f ∈ fs, f.Valid) (hcovered : Covered S fs op) (hcall : call S fs op = .ok fs')
    (hadded : Added S fs op k item) : HasItem S fs' k item := by
  cases op with
  | withParams | fromBytes => exact hadded.elim
  | insertBytes i data =>
    obtain ⟨rfl, hi, rfl⟩ := hadded
    cases hcall
    refine ⟨fs[k].insertBytes S item, ?_, insertBytes_contains (hvalid _ (List.getElem_mem hi)).numBits_pos⟩
    rw [List.getElem?_modify_eq, List.getElem?_eq_getElem hi]
    rfl
  | merge i other =>
    obtain ⟨rfl, hk, g, hg, hitem⟩ := hadded
    have hf : fs[k]? = some fs[k] := List.getElem?_eq_getElem hk
    rw [call, hf, hg] at hcall
    obtain ⟨f', hf', hcall⟩ := except_bind_eq_ok.1 hcall
    cases hcall
    have hpos := (hvalid _ (List.getElem_mem hk)).numBits_pos
    have hcovers := hcovered _ g hf hg (merge_spec hf').1
    exact ⟨f', List.getElem?_set_self hk, merge_includes_other hpos hf' hcovers item hitem⟩
  | union i other =>
    obtain ⟨rfl, hi, hother, hitem⟩ := hadded
    have hf : fs[i]? = some fs[i] := List.getElem?_eq_getElem hi
    have hg : fs[other]? = some fs[other] := List.getElem?_eq_getElem hother
    rw [call, hf, hg] at hcall
    obtain ⟨f', hf', hcall⟩ := except_bind_eq_ok.1 hcall
    cases hcall
    refine ⟨f', List.getElem?_concat_length, ?_⟩
    rcases hitem with ⟨f, hf₂, hitem⟩ | ⟨g, hg₂, hitem⟩
    · rw [hf] at hf₂
      cases hf₂
      exact (union_extends hf').includes item hitem
    · rw [hg] at hg₂
      cases hg₂
      have hpos := (hvalid _ (List.getElem_mem hi)).numBits_pos
      exact union_includes_other hpos hf' (hcovered _ _ hf hg) item hitem

theorem step_valid (hvalid : ∀ f ∈ fs, f.Valid) : ∀ f ∈ step S fs op, f.Valid := by
  unfold step
  cases hcall : call S fs op with
  | error _ => exact hvalid
  | ok fs' => exact call_valid hvalid hcall

theorem step_hasItem (hvalid : ∀ f ∈ fs, f.Valid) (hitem : HasItem S fs k item) : HasItem S (step S fs op) k item := by
  unfold step
  cases hcall : call S fs op with
  | error _ => exact hitem
  | ok fs' => exact call_hasItem hvalid hcall hitem

theorem run_valid (hvalid : ∀ f ∈ fs, f.Valid) : ∀ f ∈ Run.run (step S) fs ops, f.Valid := by
  induction ops generalizing fs with
  | nil => exact hvalid
  | cons op ops ih => exact ih (step_valid hvalid)

/-- Whatever is called later, an item stays in its filter. -/
theorem run_hasItem (hvalid : ∀ f ∈ fs, f.Valid) (hitem : HasItem S fs k item) : HasItem S (Run.run (step S) fs ops) k item := by
  induction ops generalizing fs with
  | nil => exact hitem
  | cons op ops ih => exact ih (step_valid hvalid) (step_hasItem hvalid hitem)

/-- In a run whose receivers cover their operands, everything a call should have in its result is there when the run ends. -/
theorem run_added (hvalid : ∀ f ∈ fs, f.Valid) (hcovered : Run.Along (Covered S) (step S) fs (before ++ op :: after))
    (hcall : call S (Run.run (step S) fs before) op = .ok fs')
    (hadded : Added S (Run.run (step S) fs before) op k item) :
    HasItem S (Run.run (step S) fs (before ++ op :: after)) k item := by
  have hbefore : ∀ f ∈ Run.run (step S) fs before, f.Valid := run_valid hvalid
  have hstep : step S (Run.run (step S) fs before) op = fs' := by rw [step, hcall]; rfl
  rw [Run.run_append, Run.run_cons, hstep]
  have hop := (Run.along_append.1 hcovered).2.1
  exact run_hasItem (call_valid hbefore hcall) (call_added hbefore hop hcall hadded)

end FilterOp

end Fips
