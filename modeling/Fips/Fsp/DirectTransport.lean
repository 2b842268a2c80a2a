import Fips.Fsp.Wire
import Fips.Lib.Chunks
import Fips.Lib.Hex
import Fips.Lib.JsMap

/-!
# `fsp/directTransport.ts`: FSP records on a transport

A direct record longer than the path MTU is cut into DFP1 fragments, and a reassembler collects them under their source
and record id. `new Uint8Array(n)` with writes at fixed offsets is an append of the parts here; a `Map` is a `JsMap`.
-/

namespace Fips
open LittleEndian Exec

def DIRECT_FSP_TRANSPORT_FRAGMENT_HEADER_LEN : Nat := 20
def DIRECT_FSP_TRANSPORT_MAX_REASSEMBLED_LEN : Nat := 72 * 1024
def DIRECT_FSP_TRANSPORT_MAX_FRAGMENTS : Nat := 128

/-- DFP1. -/
def FRAGMENT_MAGIC : Bytes := [0x44, 0x46, 0x50, 0x31]
def REASSEMBLY_TTL_MS : Nat := 2000
def MAX_REASSEMBLY_RECORDS : Nat := 512

/-- `Number.MAX_SAFE_INTEGER`. -/
def MAX_SAFE_INTEGER : Nat := 2 ^ 53 - 1

def isDirectFspTransportFragment (data : Bytes) : Bool := data.take FRAGMENT_MAGIC.length = FRAGMENT_MAGIC

/-! ### Segmentation -/

/-- The fields behind the magic. -/
structure FragmentHeader where
  recordId : Nat
  totalLen : Nat
  fragmentIndex : Nat
  fragmentCount : Nat
deriving DecidableEq

def encodeFragment (h : FragmentHeader) (payload : Bytes) : Bytes :=
  FRAGMENT_MAGIC ++ (leBytes 8 h.recordId ++ (leBytes 4 h.totalLen ++ (leBytes 2 h.fragmentIndex ++
    (leBytes 2 h.fragmentCount ++ payload))))

/-- `Math.ceil(a / b)`: for the lengths below 2¹⁷ at hand the quotient of two doubles rounds to no integer it is not. -/
def ceilDiv (a b : Nat) : Nat := (a + b - 1) / b

def segmentDirectFspTransportRecord (record : Bytes) (pathMtu : Nat) : Except String (List Bytes) := do
  if pathMtu = 0 ∨ pathMtu > MAX_SAFE_INTEGER then throw "direct FSP path MTU must be a positive safe integer"
  if record.length ≤ pathMtu then return [record]
  if record.length > DIRECT_FSP_TRANSPORT_MAX_REASSEMBLED_LEN then throw "direct FSP record exceeds reassembly limit"
  let established ← decodeFspEstablished record
  if !hasFlag established.flags FSP_FLAG_DIRECT_TRANSPORT then throw "segmented FSP record must use direct transport"
  if pathMtu ≤ DIRECT_FSP_TRANSPORT_FRAGMENT_HEADER_LEN then throw "direct FSP path MTU is too small for fragments"
  let maxPayload := pathMtu - DIRECT_FSP_TRANSPORT_FRAGMENT_HEADER_LEN
  let fragmentCount := ceilDiv record.length maxPayload
  if fragmentCount ≤ 1 ∨ fragmentCount > DIRECT_FSP_TRANSPORT_MAX_FRAGMENTS then
    throw "direct FSP record requires too many fragments"
  return (List.range fragmentCount).map fun index =>
    encodeFragment ⟨established.counter, record.length, index, fragmentCount⟩ (Chunks.piece maxPayload record index)

/-! ### Reassembly -/

structure Reassembly where
  createdAtMs : Nat
  totalLen : Nat
  receivedBytes : Nat
  fragments : List (Option Bytes)
deriving DecidableEq

abbrev Reassembler := JsMap String Reassembly

/-- The header of a buffer longer than one. -/
def readFragmentHeader (fragment : Bytes) : FragmentHeader where
  recordId := leNat ((fragment.drop 4).take 8)
  totalLen := leNat ((fragment.drop 12).take 4)
  fragmentIndex := leNat ((fragment.drop 16).take 2)
  fragmentCount := leNat ((fragment.drop 18).take 2)

/-- The fields of a header no segmentation writes. -/
def FragmentHeader.refused (h : FragmentHeader) : Bool :=
  h.totalLen = 0 ∨ h.totalLen > DIRECT_FSP_TRANSPORT_MAX_REASSEMBLED_LEN ∨ h.fragmentCount ≤ 1 ∨
    h.fragmentCount > DIRECT_FSP_TRANSPORT_MAX_FRAGMENTS ∨ h.fragmentCount > h.totalLen ∨
    h.fragmentIndex ≥ h.fragmentCount

/-- `${source}:${recordId.toString(16)}`. -/
def reassemblyKey (source : String) (recordId : Nat) : String :=
  source ++ ":" ++ String.ofList (Hex.digits recordId)

namespace Reassembler

def prune (nowMs : Nat) (t : Reassembler) : Reassembler :=
  t.filter fun p => ¬nowMs - p.2.createdAtMs > REASSEMBLY_TTL_MS

/-- The first entry of the least age. -/
def oldest : Reassembler → Option (String × Reassembly)
  | [] => none
  | first :: rest =>
    some (rest.foldl (fun candidate current =>
      if current.2.createdAtMs < candidate.2.createdAtMs then current else candidate) first)

def reserveEntry (t : Reassembler) : Reassembler :=
  if t.length < MAX_REASSEMBLY_RECORDS then t
  else match oldest t with
    | some p => JsMap.delete t p.1
    | none => t

/-- The entry of the key that agrees with the header, or a new one in its place. -/
def openEntry (key : String) (h : FragmentHeader) (nowMs : Nat) (t : Reassembler) : Reassembly × Reassembler :=
  match JsMap.get t key with
  | some entry =>
    if nowMs - entry.createdAtMs > REASSEMBLY_TTL_MS ∨ entry.totalLen ≠ h.totalLen ∨
        entry.fragments.length ≠ h.fragmentCount then fresh
    else (entry, t)
  | none => fresh
where
  fresh : Reassembly × Reassembler :=
    let entry : Reassembly := ⟨nowMs, h.totalLen, 0, List.replicate h.fragmentCount none⟩
    (entry, JsMap.set (reserveEntry t) key entry)

/-- The payload in its place, unless something is there; `none` when it would exceed the announced length. -/
def store (h : FragmentHeader) (payload : Bytes) (entry : Reassembly) : Option Reassembly :=
  match entry.fragments[h.fragmentIndex]?.join with
  | some _ => some entry
  | none =>
    if entry.receivedBytes + payload.length > h.totalLen then none
    else some { entry with
      fragments := entry.fragments.set h.fragmentIndex (some payload),
      receivedBytes := entry.receivedBytes + payload.length }

/-- The record of an entry that has all its bytes. -/
def assemble (key : String) (h : FragmentHeader) (entry : Reassembly) (t : Reassembler) :
    Except String (Option Bytes) × Reassembler :=
  if entry.receivedBytes ≠ h.totalLen ∨ none ∈ entry.fragments then (.ok none, t)
  else
    let record := (entry.fragments.map fun part => part.getD []).flatten
    -- `record.set(part, offset)` on an array of `totalLen` bytes
    if record.length > h.totalLen then (.error "offset is out of bounds", t)
    else (.ok (if record.length = h.totalLen then some record else none), JsMap.delete t key)

def ingest (source : String) (fragment : Bytes) (nowMs : Nat) (t : Reassembler) :
    Except String (Option Bytes) × Reassembler :=
  if !isDirectFspTransportFragment fragment then (.error "packet is not a direct FSP transport fragment", t)
  else if fragment.length ≤ DIRECT_FSP_TRANSPORT_FRAGMENT_HEADER_LEN then (.ok none, t)
  else
    let h := readFragmentHeader fragment
    if h.refused then (.ok none, t)
    else
      let key := reassemblyKey source h.recordId
      let (entry, t) := openEntry key h nowMs (prune nowMs t)
      match store h (fragment.drop DIRECT_FSP_TRANSPORT_FRAGMENT_HEADER_LEN) entry with
      | none => (.ok none, JsMap.delete t key)
      | some entry => assemble key h entry (JsMap.set t key entry)

def clear (_ : Reassembler) : Reassembler := []

end Reassembler

/-! ### What a reassembler holds -/

/-- The bytes in the places of an entry. -/
def storedLen (fragments : List (Option Bytes)) : Nat := (fragments.map fun part => (part.getD []).length).sum

/-- The count of an entry is of what it stores, and within what it awaits. -/
structure Reassembly.Counted (entry : Reassembly) : Prop where
  received : entry.receivedBytes = storedLen entry.fragments
  bounded : entry.receivedBytes ≤ entry.totalLen

/-- Counted entries under different keys, and not too many. -/
structure Reassembler.Inv (t : Reassembler) : Prop where
  counted : ∀ p ∈ t, p.2.Counted
  nodup : JsMap.Nodup t
  few : t.length ≤ MAX_REASSEMBLY_RECORDS

section
variable {t : Reassembler} {key source : String} {h : FragmentHeader} {nowMs i : Nat} {entry : Reassembly}
  {payload fragment : Bytes} {fragments : List (Option Bytes)}

theorem storedLen_replicate (n : Nat) : storedLen (List.replicate n none) = 0 := by
  simp [storedLen]

theorem storedLen_set (hnone : fragments[i]?.join = none) (hi : i < fragments.length) :
    storedLen (fragments.set i (some payload)) = storedLen fragments + payload.length := by
  induction fragments generalizing i with
  | nil => cases hi
  | cons part rest ih =>
    cases i with
    | zero =>
      have hpart : part = none := by simpa using hnone
      subst hpart
      simp [storedLen, Nat.add_comm]
    | succ i =>
      have := ih (by simpa using hnone) (by simpa using hi)
      simp only [storedLen, List.set_cons_succ, List.map_cons, List.sum_cons] at this ⊢
      omega

namespace Reassembler

theorem Inv.of_sublist {t' : Reassembler} (ht : t.Inv) (hs : t'.Sublist t) : t'.Inv :=
  ⟨fun p hp => ht.counted p (hs.subset hp), ht.nodup.sublist (hs.map _), hs.length_le.trans ht.few⟩

theorem Inv.prune (ht : t.Inv) (nowMs : Nat) : (t.prune nowMs).Inv := ht.of_sublist List.filter_sublist

theorem Inv.delete (ht : t.Inv) (key : String) : Inv (JsMap.delete t key) := ht.of_sublist List.filter_sublist

theorem oldest_mem {p : String × Reassembly} (h : oldest t = some p) : p ∈ t := by
  cases t with
  | nil => cases h
  | cons first rest =>
    cases h
    have hfold (l : Reassembler) (c : String × Reassembly) : l.foldl (fun candidate current =>
        if current.2.createdAtMs < candidate.2.createdAtMs then current else candidate) c ∈ c :: l := by
      induction l generalizing c with
      | nil => exact List.mem_singleton_self c
      | cons d l ih =>
        rw [List.foldl_cons]
        split
        · exact List.mem_cons_of_mem _ (ih d)
        · rcases List.mem_cons.1 (ih c) with hc | hc
          · rw [hc]
            exact List.mem_cons_self
          · exact List.mem_cons_of_mem _ (List.mem_cons_of_mem _ hc)
    exact hfold rest first

theorem reserveEntry_sublist (t : Reassembler) : (t.reserveEntry).Sublist t := by
  unfold reserveEntry
  split
  · exact List.Sublist.refl t
  · split
    · exact List.filter_sublist
    · exact List.Sublist.refl t

theorem length_reserveEntry (ht : t.Inv) : t.reserveEntry.length < MAX_REASSEMBLY_RECORDS := by
  unfold reserveEntry
  split
  · assumption
  · rename_i hfull
    have hne : t ≠ [] := fun hnil => hfull (by rw [hnil]; decide)
    obtain ⟨p, hp⟩ : ∃ p, oldest t = some p := by
      cases t with
      | nil => exact absurd rfl hne
      | cons first rest => exact ⟨_, rfl⟩
    rw [hp]
    exact (JsMap.length_delete_lt (oldest_mem hp)).trans_le ht.few

theorem Inv.set (ht : t.Inv) (hlen : (JsMap.set t key entry).length ≤ MAX_REASSEMBLY_RECORDS) (he : entry.Counted) :
    Inv (JsMap.set t key entry) := by
  refine ⟨fun p hp => ?_, ht.nodup.set key entry, hlen⟩
  rcases JsMap.mem_set hp with rfl | hp
  · exact he
  · exact ht.counted p hp

/-- The entry a fragment goes to. -/
structure Opened (key : String) (h : FragmentHeader) (entry : Reassembly) (t : Reassembler) : Prop where
  inv : t.Inv
  get : JsMap.get t key = some entry
  counted : entry.Counted
  totalLen : entry.totalLen = h.totalLen
  length : entry.fragments.length = h.fragmentCount

theorem Inv.openEntry (ht : t.Inv) : Opened key h (openEntry key h nowMs t).1 (openEntry key h nowMs t).2 := by
  have hfresh : Opened key h (openEntry.fresh key h nowMs t).1 (openEntry.fresh key h nowMs t).2 := by
    have hcounted : Reassembly.Counted ⟨nowMs, h.totalLen, 0, List.replicate h.fragmentCount none⟩ :=
      ⟨(storedLen_replicate _).symm, Nat.zero_le _⟩
    refine ⟨(ht.of_sublist (reserveEntry_sublist t)).set ?_ hcounted, ?_, hcounted, rfl, List.length_replicate⟩
    · exact JsMap.length_set_le.trans (length_reserveEntry ht)
    · show JsMap.get (JsMap.set _ _ _) _ = _
      rw [JsMap.get_set, if_pos rfl]
      rfl
  unfold Reassembler.openEntry
  split
  · rename_i entry hget
    split
    · exact hfresh
    · rename_i hsame
      rw [not_or, not_or] at hsame
      exact ⟨ht, hget, ht.counted _ (JsMap.mem_of_get hget), not_not.1 hsame.2.1, not_not.1 hsame.2.2⟩
  · exact hfresh

theorem store_counted (hcounted : entry.Counted) (htotal : entry.totalLen = h.totalLen)
    (hindex : h.fragmentIndex < entry.fragments.length) {entry' : Reassembly}
    (hs : store h payload entry = some entry') :
    entry'.Counted ∧ entry'.totalLen = h.totalLen := by
  unfold store at hs
  split at hs
  · cases hs
    exact ⟨hcounted, htotal⟩
  · rename_i hnone
    split at hs
    · cases hs
    · rename_i hfits
      cases hs
      refine ⟨⟨?_, ?_⟩, htotal⟩
      · show entry.receivedBytes + payload.length = storedLen (entry.fragments.set _ _)
        rw [storedLen_set hnone hindex, hcounted.received]
      · show entry.receivedBytes + payload.length ≤ entry.totalLen
        omega

/-- Whatever the bytes, the entries stay counted and few. -/
theorem Inv.ingest (ht : t.Inv) (source : String) (fragment : Bytes) (nowMs : Nat) :
    (ingest source fragment nowMs t).2.Inv := by
  unfold Reassembler.ingest
  split
  · exact ht
  split
  · exact ht
  dsimp only
  split
  · exact ht
  rename_i hrefused
  have hopened := @Inv.openEntry _ (reassemblyKey source (readFragmentHeader fragment).recordId)
    (readFragmentHeader fragment) nowMs (ht.prune nowMs)
  generalize hopen : Reassembler.openEntry _ _ _ _ = opened at hopened ⊢
  obtain ⟨entry, t'⟩ := opened
  dsimp only at hopened ⊢
  have hindex : (readFragmentHeader fragment).fragmentIndex < entry.fragments.length := by
    rw [hopened.length]
    simp only [FragmentHeader.refused, decide_eq_true_eq] at hrefused
    omega
  split
  · exact hopened.inv.delete _
  · rename_i entry' hstore
    obtain ⟨hcounted, -⟩ := store_counted hopened.counted hopened.totalLen hindex hstore
    have hset : Inv (JsMap.set t' (reassemblyKey source (readFragmentHeader fragment).recordId) entry') := by
      refine hopened.inv.set ?_ hcounted
      rw [JsMap.length_set_of_get (by rw [hopened.get]; rfl)]
      exact hopened.inv.few
    unfold assemble
    split
    · exact hset
    dsimp only
    split
    · exact hset
    · exact hset.delete _

end Reassembler

end

end Fips
