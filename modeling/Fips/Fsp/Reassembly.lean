import Fips.Fsp.DirectTransport

/-!
# Segmentation and reassembly are inverse

What a segmentation writes is read back from its fragments in any order, with fragments of other records in between and
with duplicates. The state of the reassembler is a function of which fragments have arrived: an entry for each record
underway, with the pieces that have arrived in their places (`Tracks`). One delivery keeps that, and hands the record out
just when it brings the last piece.
-/

namespace Fips
open LittleEndian Exec

/-! ### What a segmentation writes -/

theorem le_ceilDiv_mul {a b : Nat} (hb : 0 < b) : a ≤ ceilDiv a b * b := by
  have hdiv := Nat.div_add_mod (a + b - 1) b
  have hmod := Nat.mod_lt (a + b - 1) hb
  rw [ceilDiv, Nat.mul_comm]
  omega

theorem pred_ceilDiv_mul_lt {a b : Nat} (hb : 0 < b) (ha : 0 < a) : (ceilDiv a b - 1) * b < a := by
  have hdiv := Nat.div_add_mod (a + b - 1) b
  have hpos : 1 ≤ ceilDiv a b := (Nat.one_le_div_iff hb).2 (by omega)
  have hsub : (ceilDiv a b - 1) * b = b * ceilDiv a b - b := by
    rw [Nat.sub_mul, Nat.one_mul, Nat.mul_comm]
  rw [hsub]
  unfold ceilDiv at *
  omega

/-- A record longer than its path and cut into `count` fragments of up to `size` bytes of it. -/
structure Cut (record : Bytes) (pathMtu counter size count : Nat) : Prop where
  long : pathMtu < record.length
  header : DIRECT_FSP_TRANSPORT_FRAGMENT_HEADER_LEN + size = pathMtu
  size_pos : 0 < size
  short : record.length ≤ DIRECT_FSP_TRANSPORT_MAX_REASSEMBLED_LEN
  several : 1 < count
  few : count ≤ DIRECT_FSP_TRANSPORT_MAX_FRAGMENTS
  covers : record.length ≤ count * size
  last : (count - 1) * size < record.length
  counter : counter < 2 ^ 64

def cutFragment (record : Bytes) (counter size count index : Nat) : Bytes :=
  encodeFragment ⟨counter, record.length, index, count⟩ (Chunks.piece size record index)

section
variable {record : Bytes} {pathMtu counter size count index : Nat} {packets : List Bytes}

theorem segment_eq_ok (h : segmentDirectFspTransportRecord record pathMtu = .ok packets) :
    (packets = [record] ∧ record.length ≤ pathMtu) ∨ ∃ established size count,
      decodeFspEstablished record = .ok established ∧ Cut record pathMtu established.counter size count ∧
        packets = (List.range count).map (cutFragment record established.counter size count) := by
  unfold segmentDirectFspTransportRecord at h
  by_cases hmtu : pathMtu = 0 ∨ pathMtu > MAX_SAFE_INTEGER
  · rw [if_pos hmtu] at h
    cases h
  rw [if_neg hmtu] at h
  dsimp only at h
  by_cases hlong : record.length ≤ pathMtu
  · rw [if_pos hlong] at h
    cases h
    exact .inl ⟨rfl, hlong⟩
  rw [if_neg hlong] at h
  by_cases hshort : record.length > DIRECT_FSP_TRANSPORT_MAX_REASSEMBLED_LEN
  · rw [if_pos hshort] at h
    cases h
  rw [if_neg hshort] at h
  obtain ⟨established, hest, h⟩ := except_bind_eq_ok.1 h
  cases hdirect : hasFlag established.flags FSP_FLAG_DIRECT_TRANSPORT with
  | false =>
    rw [hdirect] at h
    cases h
  | true =>
    rw [hdirect] at h
    simp only [Bool.not_true, Bool.false_eq_true, if_false] at h
    by_cases hsmall : pathMtu ≤ DIRECT_FSP_TRANSPORT_FRAGMENT_HEADER_LEN
    · rw [if_pos hsmall] at h
      cases h
    rw [if_neg hsmall] at h
    split at h
    · cases h
    rename_i hcount
    cases h
    have hsize : 0 < pathMtu - DIRECT_FSP_TRANSPORT_FRAGMENT_HEADER_LEN := by omega
    refine .inr ⟨established, pathMtu - DIRECT_FSP_TRANSPORT_FRAGMENT_HEADER_LEN,
      ceilDiv record.length (pathMtu - DIRECT_FSP_TRANSPORT_FRAGMENT_HEADER_LEN), hest, ?_, rfl⟩
    exact ⟨by omega, by omega, hsize, by omega, by omega, by omega, le_ceilDiv_mul hsize,
      pred_ceilDiv_mul_lt hsize (by omega), (decodeFspEstablished_eq_ok hest).2.1⟩

theorem length_encodeFragment (h : FragmentHeader) (payload : Bytes) :
    (encodeFragment h payload).length = DIRECT_FSP_TRANSPORT_FRAGMENT_HEADER_LEN + payload.length := by
  simp only [encodeFragment, FRAGMENT_MAGIC, List.length_append, length_leBytes, List.length_cons, List.length_nil,
    DIRECT_FSP_TRANSPORT_FRAGMENT_HEADER_LEN]
  omega

theorem isFragment_encodeFragment (h : FragmentHeader) (payload : Bytes) :
    isDirectFspTransportFragment (encodeFragment h payload) = true := by
  rw [isDirectFspTransportFragment, encodeFragment, List.take_left]
  exact decide_eq_true rfl

/-- The number of `w` bytes at offset `k`. -/
theorem leNat_at {before rest : Bytes} {k w v : Nat} (hk : before.length = k) (hv : v < 256 ^ w) :
    leNat (((before ++ (leBytes w v ++ rest)).drop k).take w) = v := by
  rw [List.drop_left' hk, List.take_left' (length_leBytes w v), leNat_leBytes hv]

theorem readFragmentHeader_encode {h : FragmentHeader} (hid : h.recordId < 2 ^ 64) (htotal : h.totalLen < 2 ^ 32)
    (hindex : h.fragmentIndex < 65536) (hcount : h.fragmentCount < 65536) (payload : Bytes) :
    readFragmentHeader (encodeFragment h payload) = h := by
  have h₁ : leNat (((encodeFragment h payload).drop 4).take 8) = h.recordId := leNat_at rfl (by omega)
  have h₂ : leNat (((encodeFragment h payload).drop 12).take 4) = h.totalLen := by
    rw [encodeFragment, ← List.append_assoc]
    exact leNat_at (by simp [FRAGMENT_MAGIC]) (by omega)
  have h₃ : leNat (((encodeFragment h payload).drop 16).take 2) = h.fragmentIndex := by
    rw [encodeFragment, ← List.append_assoc, ← List.append_assoc]
    exact leNat_at (by simp [FRAGMENT_MAGIC]) (by omega)
  have h₄ : leNat (((encodeFragment h payload).drop 18).take 2) = h.fragmentCount := by
    rw [encodeFragment, ← List.append_assoc, ← List.append_assoc, ← List.append_assoc]
    exact leNat_at (by simp [FRAGMENT_MAGIC]) (by omega)
  unfold readFragmentHeader
  rw [h₁, h₂, h₃, h₄]

theorem drop_encodeFragment (h : FragmentHeader) (payload : Bytes) :
    (encodeFragment h payload).drop DIRECT_FSP_TRANSPORT_FRAGMENT_HEADER_LEN = payload := by
  rw [encodeFragment, ← List.append_assoc, ← List.append_assoc, ← List.append_assoc, ← List.append_assoc]
  exact List.drop_left' (by simp [FRAGMENT_MAGIC, DIRECT_FSP_TRANSPORT_FRAGMENT_HEADER_LEN])

namespace Cut

theorem count_le (c : Cut record pathMtu counter size count) : count ≤ record.length := by
  have hlast := c.last
  have hle : count - 1 ≤ (count - 1) * size := Nat.le_mul_of_pos_right _ c.size_pos
  omega

theorem piece_pos (c : Cut record pathMtu counter size count) (hi : index < count) :
    0 < (Chunks.piece size record index).length := by
  have hin : index * size ≤ (count - 1) * size := Nat.mul_le_mul_right size (by omega)
  exact List.length_pos_iff.2 (Chunks.piece_ne_nil c.size_pos (hin.trans_lt c.last))

theorem length_fragment_le (c : Cut record pathMtu counter size count) (index : Nat) :
    (cutFragment record counter size count index).length ≤ pathMtu := by
  have hheader := c.header
  rw [cutFragment, length_encodeFragment, Chunks.length_piece]
  omega

theorem header_eq (c : Cut record pathMtu counter size count) (hi : index < count) :
    readFragmentHeader (cutFragment record counter size count index) = ⟨counter, record.length, index, count⟩ := by
  have hshort := c.short
  have hfew := c.few
  have hcounter := c.counter
  simp only [DIRECT_FSP_TRANSPORT_MAX_REASSEMBLED_LEN, DIRECT_FSP_TRANSPORT_MAX_FRAGMENTS] at hshort hfew
  exact readFragmentHeader_encode hcounter (by dsimp only; omega) (by dsimp only; omega) (by dsimp only; omega) _

theorem not_refused (c : Cut record pathMtu counter size count) (hi : index < count) :
    FragmentHeader.refused ⟨counter, record.length, index, count⟩ = false := by
  have hshort := c.short
  have hfew := c.few
  have hseveral := c.several
  have hle := c.count_le
  simp only [FragmentHeader.refused, decide_eq_false_iff_not]
  omega

end Cut

/-- Packets fit the path, and there are not too many. -/
theorem segment_bounds (h : segmentDirectFspTransportRecord record pathMtu = .ok packets) :
    (∀ packet ∈ packets, packet.length ≤ pathMtu) ∧ packets.length ≤ DIRECT_FSP_TRANSPORT_MAX_FRAGMENTS := by
  rcases segment_eq_ok h with ⟨rfl, hlen⟩ | ⟨established, size, count, -, hcut, rfl⟩
  · exact ⟨fun packet hp => by rw [List.mem_singleton.1 hp]; exact hlen, by rw [List.length_singleton]; decide⟩
  · refine ⟨fun packet hp => ?_, by rw [List.length_map, List.length_range]; exact hcut.few⟩
    obtain ⟨index, -, rfl⟩ := List.mem_map.1 hp
    exact hcut.length_fragment_le index

end

/-! ### Records underway -/

/-- A record that has been cut for a path, and where its fragments come from. -/
structure Transfer where
  source : String
  record : Bytes
  pathMtu : Nat
  fragments : List Bytes
  segmented : segmentDirectFspTransportRecord record pathMtu = .ok fragments
  long : pathMtu < record.length
deriving DecidableEq

namespace Transfer

def count (x : Transfer) : Nat := x.fragments.length

/-- The bytes of the record in a fragment. -/
def size (x : Transfer) : Nat := x.pathMtu - DIRECT_FSP_TRANSPORT_FRAGMENT_HEADER_LEN

def counter (x : Transfer) : Nat :=
  match decodeFspEstablished x.record with
  | .ok established => established.counter
  | .error _ => 0

def key (x : Transfer) : String := reassemblyKey x.source x.counter

theorem spec (x : Transfer) : Cut x.record x.pathMtu x.counter x.size x.count ∧
    x.fragments = (List.range x.count).map (cutFragment x.record x.counter x.size x.count) := by
  rcases segment_eq_ok x.segmented with ⟨-, hlen⟩ | ⟨established, size, count, hest, hcut, hfragments⟩
  · exact absurd x.long (not_lt.2 hlen)
  · have hcounter : x.counter = established.counter := by rw [Transfer.counter, hest]
    have hsize : x.size = size := by
      have := hcut.header
      rw [Transfer.size]
      omega
    have hcount : x.count = count := by rw [Transfer.count, hfragments, List.length_map, List.length_range]
    rw [hcounter, hsize, hcount]
    exact ⟨hcut, hfragments⟩

theorem cut (x : Transfer) : Cut x.record x.pathMtu x.counter x.size x.count := x.spec.1

theorem key_inj {x y : Transfer} (h : x.key = y.key) : x.source = y.source ∧ x.counter = y.counter :=
  Hex.key_injective h

end Transfer

/-- The arrival of a fragment. -/
structure Delivery where
  transfer : Transfer
  index : Nat
  nowMs : Nat
  lt : index < transfer.fragments.length
deriving DecidableEq

def Delivery.fragment (d : Delivery) : Bytes := d.transfer.fragments.get ⟨d.index, d.lt⟩

theorem Delivery.fragment_eq (d : Delivery) : d.fragment =
    cutFragment d.transfer.record d.transfer.counter d.transfer.size d.transfer.count d.index := by
  have hf := d.transfer.spec.2
  have hget : d.transfer.fragments[d.index]? = some d.fragment := List.getElem?_eq_getElem d.lt
  rw [hf, List.getElem?_map, List.getElem?_range (show d.index < d.transfer.count from d.lt)] at hget
  exact (Option.some.inj hget).symm

/-- The fragments of a record that have arrived. -/
def arrived (ds : List Delivery) (x : Transfer) : Finset Nat :=
  ((ds.filter fun d => d.transfer = x).map Delivery.index).toFinset

def Complete (ds : List Delivery) (x : Transfer) : Prop := arrived ds x = Finset.range x.count

instance (ds : List Delivery) (x : Transfer) : Decidable (Complete ds x) := inferInstanceAs (Decidable (_ = _))

/-- The records of which some fragments have arrived, but not all. -/
def underway (ds : List Delivery) : Finset Transfer :=
  (ds.map Delivery.transfer).toFinset.filter fun x => ¬Complete ds x

/-- Deliveries as the reassembler is made for: records of one source have different counters, all comes within the two
seconds, a fragment only comes again while its record is incomplete, and fewer records than there is room for are
underway at once. -/
structure Schedule (ds : List Delivery) : Prop where
  distinct : ∀ d ∈ ds, ∀ d' ∈ ds, d.transfer.source = d'.transfer.source → d.transfer.counter = d'.transfer.counter →
    d.transfer = d'.transfer
  within : ∀ d ∈ ds, ∀ d' ∈ ds, d.nowMs ≤ d'.nowMs + REASSEMBLY_TTL_MS
  awaited : ∀ before d after, ds = before ++ d :: after → ¬Complete before d.transfer
  few : ∀ before after, ds = before ++ after → (underway before).card < MAX_REASSEMBLY_RECORDS

section
variable {ds before after : List Delivery} {d : Delivery} {x y : Transfer}

theorem arrived_concat : arrived (ds ++ [d]) x = if d.transfer = x then insert d.index (arrived ds x) else arrived ds x := by
  unfold arrived
  rw [List.filter_append, List.map_append, List.toFinset_append]
  by_cases h : d.transfer = x
  · simp [h, Finset.union_comm]
  · simp [h]

theorem arrived_subset : arrived ds x ⊆ Finset.range x.count := by
  intro i hi
  obtain ⟨d, hd, rfl⟩ := List.mem_map.1 (List.mem_toFinset.1 hi)
  obtain ⟨-, hx⟩ := List.mem_filter.1 hd
  have hx : d.transfer = x := by simpa using hx
  subst hx
  exact Finset.mem_range.2 d.lt

theorem arrived_eq_empty (h : ∀ d ∈ ds, d.transfer ≠ x) : arrived ds x = ∅ := by
  unfold arrived
  rw [List.filter_eq_nil_iff.2 fun d hd => by simpa using h d hd]
  rfl

theorem mem_underway : x ∈ underway ds ↔ (∃ d ∈ ds, d.transfer = x) ∧ ¬Complete ds x := by
  simp only [underway, Finset.mem_filter, List.mem_toFinset, List.mem_map]

theorem complete_concat_of_ne (h : d.transfer ≠ x) : Complete (ds ++ [d]) x ↔ Complete ds x := by
  rw [Complete, Complete, arrived_concat, if_neg h]

theorem mem_underway_concat_of_ne (h : d.transfer ≠ x) : x ∈ underway (ds ++ [d]) ↔ x ∈ underway ds := by
  rw [mem_underway, mem_underway, complete_concat_of_ne h]
  constructor
  · rintro ⟨⟨d', hd', hx⟩, hc⟩
    rcases List.mem_append.1 hd' with hd' | hd'
    · exact ⟨⟨d', hd', hx⟩, hc⟩
    · rw [List.mem_singleton.1 hd'] at hx
      exact absurd hx h
  · rintro ⟨⟨d', hd', hx⟩, hc⟩
    exact ⟨⟨d', List.mem_append_left _ hd', hx⟩, hc⟩

theorem Schedule.of_append (h : Schedule (before ++ after)) : Schedule before where
  distinct d hd d' hd' := h.distinct d (List.mem_append_left _ hd) d' (List.mem_append_left _ hd')
  within d hd d' hd' := h.within d (List.mem_append_left _ hd) d' (List.mem_append_left _ hd')
  awaited b d a heq := h.awaited b d (a ++ after) (by rw [heq, List.append_assoc, List.cons_append])
  few b a heq := h.few b (a ++ after) (by rw [heq, List.append_assoc])

/-! ### The reassembler as a function of what has arrived -/

/-- The entry of a record with the pieces that have arrived. -/
structure Holds (ds : List Delivery) (x : Transfer) (pieces : Finset Nat) (entry : Reassembly) : Prop where
  totalLen : entry.totalLen = x.record.length
  fragments : entry.fragments = Chunks.partially x.size x.record x.count pieces
  receivedBytes : entry.receivedBytes = ∑ i ∈ pieces, (Chunks.piece x.size x.record i).length
  created : ∃ d ∈ ds, entry.createdAtMs = d.nowMs

theorem Holds.append {pieces : Finset Nat} {entry : Reassembly} (h : Holds ds x pieces entry) (more : List Delivery) :
    Holds (ds ++ more) x pieces entry :=
  ⟨h.totalLen, h.fragments, h.receivedBytes, let ⟨d, hd, hc⟩ := h.created; ⟨d, List.mem_append_left _ hd, hc⟩⟩

/-- An entry for each record underway, and no other. -/
structure Tracks (ds : List Delivery) (t : Reassembler) : Prop where
  nodup : JsMap.Nodup t
  sound : ∀ key entry, JsMap.get t key = some entry → ∃ x ∈ underway ds, x.key = key ∧ Holds ds x (arrived ds x) entry
  complete : ∀ x ∈ underway ds, ∃ entry, JsMap.get t x.key = some entry ∧ Holds ds x (arrived ds x) entry

variable {t : Reassembler}

theorem Tracks.nil : Tracks [] [] :=
  ⟨List.nodup_nil, fun _ _ h => absurd h (by simp), fun x hx => by obtain ⟨⟨d, hd, -⟩, -⟩ := mem_underway.1 hx; cases hd⟩

theorem Tracks.length_le (h : Tracks ds t) : t.length ≤ (underway ds).card := by
  have hsub : (t.map Prod.fst).toFinset ⊆ (underway ds).image Transfer.key := by
    intro key hkey
    obtain ⟨p, hp, rfl⟩ := List.mem_map.1 (List.mem_toFinset.1 hkey)
    obtain ⟨x, hx, hk, -⟩ := h.sound p.1 p.2 (h.nodup.get_of_mem hp)
    exact Finset.mem_image.2 ⟨x, hx, hk⟩
  have hcard := (Finset.card_le_card hsub).trans Finset.card_image_le
  rw [List.toFinset_card_of_nodup h.nodup, List.length_map] at hcard
  exact hcard

/-- Nothing is too old within the two seconds. -/
theorem Tracks.prune (h : Tracks before t) (hs : Schedule (before ++ d :: after)) : t.prune d.nowMs = t := by
  refine List.filter_eq_self.2 fun p hp => ?_
  obtain ⟨x, -, -, hholds⟩ := h.sound p.1 p.2 (h.nodup.get_of_mem hp)
  obtain ⟨d', hd', hcreated⟩ := hholds.created
  have hwithin := hs.within d (List.mem_append_right _ List.mem_cons_self) d' (List.mem_append_left _ hd')
  simp only [decide_eq_true_eq]
  omega

theorem Schedule.key_inj (hs : Schedule ds) {d d' : Delivery} (hd : d ∈ ds) (hd' : d' ∈ ds)
    (h : d.transfer.key = d'.transfer.key) : d.transfer = d'.transfer := by
  obtain ⟨hsource, hcounter⟩ := Transfer.key_inj h
  exact hs.distinct d hd d' hd' hsource hcounter

/-- The header of the fragment delivered. -/
def Transfer.header (x : Transfer) (index : Nat) : FragmentHeader := ⟨x.counter, x.record.length, index, x.count⟩

/-- The entry a fragment goes to holds what has arrived of its record, and the other entries stay. -/
theorem Tracks.openEntry (h : Tracks before t) (hs : Schedule (before ++ d :: after)) :
    ∃ entry t', Reassembler.openEntry d.transfer.key (d.transfer.header d.index) d.nowMs t = (entry, t') ∧
      Holds (before ++ [d]) d.transfer (arrived before d.transfer) entry ∧ JsMap.Nodup t' ∧
      ∀ key, key ≠ d.transfer.key → JsMap.get t' key = JsMap.get t key := by
  have hawaited := hs.awaited before d after rfl
  unfold Reassembler.openEntry
  cases hget : JsMap.get t d.transfer.key with
  | some entry =>
    obtain ⟨x, hx, hkey, hholds⟩ := h.sound _ _ hget
    obtain ⟨⟨d', hd', rfl⟩, -⟩ := mem_underway.1 hx
    have hsame := hs.key_inj (List.mem_append_left _ hd') (List.mem_append_right _ List.mem_cons_self) hkey
    rw [hsame] at hholds
    obtain ⟨d₀, hd₀, hcreated⟩ := hholds.created
    have hwithin := hs.within d (List.mem_append_right _ List.mem_cons_self) d₀ (List.mem_append_left _ hd₀)
    have hlength : entry.fragments.length = d.transfer.count := by rw [hholds.fragments, Chunks.length_partially]
    refine ⟨entry, t, ?_, hholds.append [d], h.nodup, fun _ _ => rfl⟩
    dsimp only
    rw [hcreated]
    refine if_neg ?_
    rw [not_or, not_or]
    exact ⟨by omega, not_not.2 hholds.totalLen, not_not.2 hlength⟩
  | none =>
    have hempty : arrived before d.transfer = ∅ := by
      refine arrived_eq_empty fun d' hd' hsame => ?_
      obtain ⟨entry, hentry, -⟩ := h.complete d.transfer (mem_underway.2 ⟨⟨d', hd', hsame⟩, hawaited⟩)
      rw [hget] at hentry
      cases hentry
    have hreserve : t.reserveEntry = t := by
      refine if_pos (h.length_le.trans_lt (hs.few before (d :: after) rfl))
    refine ⟨_, _, rfl, ?_, ?_, fun key hkey => ?_⟩
    · rw [hempty]
      refine ⟨rfl, ?_, ?_, d, List.mem_append_right _ (List.mem_singleton_self d), rfl⟩
      · rw [Chunks.partially_empty]
        rfl
      · rw [Finset.sum_empty]
    · rw [hreserve]
      exact h.nodup.set _ _
    · rw [hreserve, JsMap.get_set, if_neg (Ne.symm hkey)]

/-- Storing the piece at `index` adds it to those that are there. -/
theorem Holds.store {pieces : Finset Nat} {entry : Reassembly} {index : Nat} (h : Holds ds x pieces entry)
    (hi : index < x.count) (hsub : pieces ⊆ Finset.range x.count) :
    ∃ entry', Reassembler.store (x.header index) (Chunks.piece x.size x.record index) entry = some entry' ∧
      Holds ds x (insert index pieces) entry' := by
  have hget : entry.fragments[(x.header index).fragmentIndex]?.join =
      if index ∈ pieces then some (Chunks.piece x.size x.record index) else none := by
    rw [h.fragments]
    show (Chunks.partially _ _ _ _)[index]?.join = _
    rw [Chunks.partially_get hi]
    rfl
  unfold Reassembler.store
  rw [hget]
  by_cases hin : index ∈ pieces
  · rw [if_pos hin, Finset.insert_eq_of_mem hin]
    exact ⟨entry, rfl, h⟩
  · have hsum : ∑ i ∈ insert index pieces, (Chunks.piece x.size x.record i).length =
        entry.receivedBytes + (Chunks.piece x.size x.record index).length := by
      rw [Finset.sum_insert hin, h.receivedBytes, Nat.add_comm]
    have hle := Chunks.sum_le x.cut.covers (Finset.insert_subset (Finset.mem_range.2 hi) hsub)
    have hfits : ¬entry.receivedBytes + (Chunks.piece x.size x.record index).length > (x.header index).totalLen := by
      show ¬_ > x.record.length
      omega
    rw [if_neg hin]
    dsimp only
    rw [if_neg hfits]
    refine ⟨_, rfl, h.totalLen, ?_, hsum.symm, h.created⟩
    show entry.fragments.set index _ = _
    rw [h.fragments, Chunks.partially_insert hi]

/-- The record is handed out when all its pieces are there, and then its entry goes. -/
theorem Holds.assemble {pieces : Finset Nat} {entry : Reassembly} {index : Nat} {key : String}
    (h : Holds ds x pieces entry) (hsub : pieces ⊆ Finset.range x.count) :
    Reassembler.assemble key (x.header index) entry t =
      if pieces = Finset.range x.count then (.ok (some x.record), JsMap.delete t key) else (.ok none, t) := by
  unfold Reassembler.assemble
  by_cases hall : pieces = Finset.range x.count
  · subst hall
    have hreceived : entry.receivedBytes = x.record.length := by
      rw [h.receivedBytes, Chunks.sum_pieces x.cut.covers]
    have hnone : none ∉ entry.fragments := by
      rw [h.fragments, Chunks.none_mem_partially hsub]
      exact not_not.2 rfl
    have hrecord : (entry.fragments.map fun part => part.getD []).flatten = x.record := by
      rw [h.fragments, Chunks.flatten_partially x.cut.covers]
    rw [if_pos rfl, if_neg (by rintro (hne | hmem); exacts [hne hreceived, hnone hmem])]
    dsimp only
    rw [hrecord]
    show (if x.record.length > x.record.length then _ else (Except.ok (if x.record.length = x.record.length then _ else _), _)) = _
    rw [if_neg (lt_irrefl _), if_pos rfl]
  · have hlt := Chunks.sum_lt x.cut.size_pos x.cut.covers x.cut.last hsub hall
    have hne : entry.receivedBytes ≠ (x.header index).totalLen := by
      show entry.receivedBytes ≠ x.record.length
      rw [h.receivedBytes]
      omega
    rw [if_neg hall, if_pos (.inl hne)]

/-! ### A delivery, and a run of them -/

/-- What `ingest` makes of a delivery. -/
def deliver (t : Reassembler) (d : Delivery) : Except String (Option Bytes) × Reassembler :=
  t.ingest d.transfer.source d.fragment d.nowMs

/-- The reassembler behind the deliveries. -/
def reassembled (ds : List Delivery) : Reassembler := ds.foldl (fun t d => (deliver t d).2) []

theorem reassembled_concat : reassembled (ds ++ [d]) = (deliver (reassembled ds) d).2 := by
  rw [reassembled, List.foldl_append]
  rfl

theorem deliver_eq (t : Reassembler) (d : Delivery) :
    deliver t d =
      match Reassembler.openEntry d.transfer.key (d.transfer.header d.index) d.nowMs (t.prune d.nowMs) with
      | (entry, t) =>
        match Reassembler.store (d.transfer.header d.index) (Chunks.piece d.transfer.size d.transfer.record d.index) entry with
        | none => (.ok none, JsMap.delete t d.transfer.key)
        | some entry => Reassembler.assemble d.transfer.key (d.transfer.header d.index) entry (JsMap.set t d.transfer.key entry) := by
  have hi : d.index < d.transfer.count := d.lt
  have hpos := d.transfer.cut.piece_pos hi
  have hlong : ¬d.fragment.length ≤ DIRECT_FSP_TRANSPORT_FRAGMENT_HEADER_LEN := by
    rw [d.fragment_eq, cutFragment, length_encodeFragment]
    omega
  have hfragment : isDirectFspTransportFragment d.fragment = true := by
    rw [d.fragment_eq]
    exact isFragment_encodeFragment _ _
  have hheader : readFragmentHeader d.fragment = d.transfer.header d.index := by
    rw [d.fragment_eq]
    exact d.transfer.cut.header_eq hi
  have hrefused : (d.transfer.header d.index).refused = false := d.transfer.cut.not_refused hi
  have hpayload : d.fragment.drop DIRECT_FSP_TRANSPORT_FRAGMENT_HEADER_LEN =
      Chunks.piece d.transfer.size d.transfer.record d.index := by
    rw [d.fragment_eq]
    exact drop_encodeFragment _ _
  unfold deliver Reassembler.ingest
  rw [hfragment, if_neg (by decide), if_neg hlong]
  dsimp only
  rw [hheader, hrefused, hpayload, if_neg (by decide)]
  rfl

/-- One delivery: the record if it is complete now, and the state that goes with what has arrived. -/
theorem Tracks.deliver (h : Tracks before t) (hs : Schedule (before ++ d :: after)) :
    (deliver t d).1 = .ok (if Complete (before ++ [d]) d.transfer then some d.transfer.record else none) ∧
      Tracks (before ++ [d]) (deliver t d).2 := by
  obtain ⟨entry, t', hopen, hholds, hnodup, hothers⟩ := h.openEntry hs
  obtain ⟨entry', hstore, hholds'⟩ := hholds.store d.lt arrived_subset
  have harrived : arrived (before ++ [d]) d.transfer = insert d.index (arrived before d.transfer) := by
    rw [arrived_concat, if_pos rfl]
  rw [← harrived] at hholds'
  have hdeliver : Fips.deliver t d =
      if Complete (before ++ [d]) d.transfer then
        (.ok (some d.transfer.record), JsMap.delete (JsMap.set t' d.transfer.key entry') d.transfer.key)
      else (.ok none, JsMap.set t' d.transfer.key entry') := by
    rw [deliver_eq, h.prune hs, hopen]
    dsimp only
    rw [hstore]
    exact hholds'.assemble arrived_subset
  -- a record other than this one has its entry where it was
  have hother {y : Transfer} (hy : y ∈ underway before) (hne : d.transfer ≠ y) : y.key ≠ d.transfer.key := by
    obtain ⟨⟨d', hd', rfl⟩, -⟩ := mem_underway.1 hy
    intro hkey
    exact hne (hs.key_inj (List.mem_append_left _ hd') (List.mem_append_right _ List.mem_cons_self) hkey).symm
  have hkeep {y : Transfer} (hne : d.transfer ≠ y) : arrived (before ++ [d]) y = arrived before y := by
    rw [arrived_concat, if_neg hne]
  have hsound (key : String) (e : Reassembly) (hkey : key ≠ d.transfer.key) (hget : JsMap.get t key = some e) :
      ∃ y ∈ underway (before ++ [d]), y.key = key ∧ Holds (before ++ [d]) y (arrived (before ++ [d]) y) e := by
    obtain ⟨y, hy, rfl, hye⟩ := h.sound key e hget
    have hne : d.transfer ≠ y := fun heq => hkey (by rw [heq])
    exact ⟨y, (mem_underway_concat_of_ne hne).2 hy, rfl, by rw [hkeep hne]; exact hye.append [d]⟩
  have hcomplete {y : Transfer} (hy : y ∈ underway (before ++ [d])) (hne : d.transfer ≠ y) :
      y.key ≠ d.transfer.key ∧ ∃ e, JsMap.get t y.key = some e ∧ Holds (before ++ [d]) y (arrived (before ++ [d]) y) e := by
    have hy := (mem_underway_concat_of_ne hne).1 hy
    obtain ⟨e, hget, he⟩ := h.complete y hy
    exact ⟨hother hy hne, e, hget, by rw [hkeep hne]; exact he.append [d]⟩
  rw [hdeliver]
  by_cases hall : Complete (before ++ [d]) d.transfer
  · rw [if_pos hall, if_pos hall]
    refine ⟨rfl, (hnodup.set _ _).delete _, fun key e hget => ?_, fun y hy => ?_⟩
    · dsimp only at hget
      rw [JsMap.get_delete] at hget
      split at hget
      · cases hget
      · rename_i hne
        rw [JsMap.get_set, if_neg hne, hothers key (Ne.symm hne)] at hget
        exact hsound key e (Ne.symm hne) hget
    · have hne : d.transfer ≠ y := by
        rintro rfl
        exact (mem_underway.1 hy).2 hall
      obtain ⟨hkey, e, hget, he⟩ := hcomplete hy hne
      refine ⟨e, ?_, he⟩
      dsimp only
      rw [JsMap.get_delete, if_neg (Ne.symm hkey), JsMap.get_set, if_neg (Ne.symm hkey), hothers y.key hkey]
      exact hget
  · rw [if_neg hall, if_neg hall]
    have hunder : d.transfer ∈ underway (before ++ [d]) :=
      mem_underway.2 ⟨⟨d, List.mem_append_right _ (List.mem_singleton_self d), rfl⟩, hall⟩
    refine ⟨rfl, hnodup.set _ _, fun key e hget => ?_, fun y hy => ?_⟩
    · dsimp only at hget
      rw [JsMap.get_set] at hget
      split at hget
      · rename_i hkey
        cases hget
        exact ⟨d.transfer, hunder, hkey, hholds'⟩
      · rename_i hne
        rw [hothers key (Ne.symm hne)] at hget
        exact hsound key e (Ne.symm hne) hget
    · dsimp only
      by_cases hne : d.transfer = y
      · subst hne
        exact ⟨entry', by rw [JsMap.get_set, if_pos rfl], hholds'⟩
      · obtain ⟨hkey, e, hget, he⟩ := hcomplete hy hne
        exact ⟨e, by rw [JsMap.get_set, if_neg (Ne.symm hkey), hothers y.key hkey]; exact hget, he⟩

theorem Schedule.tracks (hs : Schedule ds) : Tracks ds (reassembled ds) := by
  induction ds using List.reverseRecOn with
  | nil => exact Tracks.nil
  | append_singleton ds d ih =>
    rw [reassembled_concat]
    exact ((ih hs.of_append).deliver hs).2

theorem Complete.append (h : Complete before x) (after : List Delivery) : Complete (before ++ after) x := by
  refine arrived_subset.antisymm ?_
  rw [← show arrived before x = Finset.range x.count from h]
  unfold arrived
  rw [List.filter_append, List.map_append, List.toFinset_append]
  exact Finset.subset_union_left

theorem not_complete_nil (x : Transfer) : ¬Complete [] x := by
  intro h
  have hmem : 0 ∈ arrived [] x := by
    rw [show arrived [] x = Finset.range x.count from h, Finset.mem_range]
    exact lt_trans Nat.zero_lt_one x.cut.several
  cases hmem

/-- The arrival of the last missing fragment. -/
theorem Complete.last (h : Complete ds x) :
    ∃ before d after, ds = before ++ d :: after ∧ d.transfer = x ∧ Complete (before ++ [d]) x := by
  induction ds using List.reverseRecOn with
  | nil => exact absurd h (not_complete_nil x)
  | append_singleton ds d ih =>
    by_cases hbefore : Complete ds x
    · obtain ⟨before, d', after, rfl, hd', hc⟩ := ih hbefore
      exact ⟨before, d', after ++ [d], by rw [List.append_assoc, List.cons_append], hd', hc⟩
    · have hd : d.transfer = x := by
        by_contra hne
        exact hbefore ((complete_concat_of_ne hne).1 h)
      exact ⟨ds, d, [], rfl, hd, h⟩

/-- Each record comes out once, with the fragment that completes it. -/
theorem Schedule.returned_once (hs : Schedule ds) (h : Complete ds x) :
    ∃! n, ∃ d, ds[n]? = some d ∧ d.transfer = x ∧ (deliver (reassembled (ds.take n)) d).1 = .ok (some x.record) := by
  have hsplit {n : Nat} {d : Delivery} (hd : ds[n]? = some d) : ds = ds.take n ++ d :: ds.drop (n + 1) := by
    obtain ⟨hlt, rfl⟩ := List.getElem?_eq_some_iff.1 hd
    rw [List.getElem_cons_drop, List.take_append_drop]
  have hout {n : Nat} {d : Delivery} (hd : ds[n]? = some d) :
      (deliver (reassembled (ds.take n)) d).1 =
        .ok (if Complete (ds.take n ++ [d]) d.transfer then some d.transfer.record else none) := by
    have hs' : Schedule (ds.take n ++ d :: ds.drop (n + 1)) := hsplit hd ▸ hs
    exact (hs'.of_append.tracks.deliver hs').1
  have hcomplete {n : Nat} {d : Delivery} (hd : ds[n]? = some d) (hx : d.transfer = x)
      (hret : (deliver (reassembled (ds.take n)) d).1 = .ok (some x.record)) : Complete (ds.take n ++ [d]) x := by
    rw [hout hd, hx] at hret
    split at hret
    · assumption
    · cases hret
  -- what is complete is not delivered again
  have hle {n m : Nat} {d e : Delivery} (hd : ds[n]? = some d) (hdc : Complete (ds.take n ++ [d]) x)
      (he : ds[m]? = some e) (hex : e.transfer = x) : m ≤ n := by
    by_contra hlt
    have htake : ds.take m = ds.take n ++ d :: (ds.drop (n + 1)).take (m - (n + 1)) := by
      conv_lhs => rw [hsplit hd]
      obtain ⟨hn, -⟩ := List.getElem?_eq_some_iff.1 hd
      have hlen : (ds.take n).length = n := by rw [List.length_take]; omega
      rw [List.take_append, hlen, List.take_of_length_le (by omega), show m - n = (m - (n + 1)) + 1 by omega,
        List.take_succ_cons]
    refine hs.awaited (ds.take m) e _ (hsplit he) ?_
    rw [hex, htake, List.append_cons]
    exact hdc.append _
  obtain ⟨before, d, after, rfl, hx, hc⟩ := h.last
  have hget : (before ++ d :: after)[before.length]? = some d := by
    rw [List.getElem?_append_right le_rfl, Nat.sub_self]
    rfl
  have htake : (before ++ d :: after).take before.length = before := List.take_left
  refine ⟨before.length, ⟨d, hget, hx, ?_⟩, ?_⟩
  · rw [hout hget, htake, hx, if_pos hc]
  · rintro m ⟨e, he, hex, hret⟩
    have hdc : Complete ((before ++ d :: after).take before.length ++ [d]) x := by rw [htake]; exact hc
    exact le_antisymm (hle hget hdc he hex) (hle he (hcomplete he hex hret) hget hx)

end

namespace Reassembler

/-- The states of a reassembler that is given any bytes at any time. -/
inductive Reachable : Reassembler → Prop
  | new : Reachable []
  | ingest {t : Reassembler} (h : Reachable t) (source : String) (fragment : Bytes) (nowMs : Nat) :
    Reachable (ingest source fragment nowMs t).2
  | clear {t : Reassembler} (h : Reachable t) : Reachable (clear t)

theorem Reachable.inv {t : Reassembler} (h : Reachable t) : t.Inv := by
  have hnil : Inv [] := ⟨fun _ hp => absurd hp List.not_mem_nil, List.nodup_nil, by decide⟩
  induction h with
  | new => exact hnil
  | ingest h source fragment nowMs ih => exact ih.ingest source fragment nowMs
  | clear h ih => exact hnil

end Reassembler

/-- Packets fit the path and are few; whatever order the fragments come in, each record is handed out once, byte for byte,
with the last of them; and whatever comes, the entries count what they store and are at most 512. -/
theorem direct_records_reassembled :
    (∀ record pathMtu packets, segmentDirectFspTransportRecord record pathMtu = .ok packets →
        (∀ packet ∈ packets, packet.length ≤ pathMtu) ∧ packets.length ≤ DIRECT_FSP_TRANSPORT_MAX_FRAGMENTS) ∧
      (∀ ds : List Delivery, Schedule ds →
        (∀ before d after, ds = before ++ d :: after → (deliver (reassembled before) d).1 =
          .ok (if Complete (before ++ [d]) d.transfer then some d.transfer.record else none)) ∧
        ∀ x, Complete ds x → ∃! n, ∃ d, ds[n]? = some d ∧ d.transfer = x ∧
          (deliver (reassembled (ds.take n)) d).1 = .ok (some x.record)) ∧
      ∀ t : Reassembler, t.Reachable → t.length ≤ MAX_REASSEMBLY_RECORDS ∧
        ∀ p ∈ t, p.2.receivedBytes = storedLen p.2.fragments ∧ p.2.receivedBytes ≤ p.2.totalLen := by
  refine ⟨fun record pathMtu packets h => segment_bounds h, fun ds hs => ⟨?_, fun x hx => hs.returned_once hx⟩,
    fun t ht => ⟨ht.inv.few, fun p hp => ?_⟩⟩
  · rintro before d after rfl
    exact (hs.of_append.tracks.deliver hs).1
  · have hcounted := ht.inv.counted p hp
    exact ⟨hcounted.received, hcounted.bounded⟩

/-! ### Two records of one peer -/

def toyDirectRecord (counter : Nat) : Bytes := fspHeaderBytes FSP_FLAG_DIRECT_TRANSPORT counter 32 ++ List.replicate 48 7

/-- The record with this counter, cut for a path of 50 bytes. -/
def toyTransfer (counter : Nat)
    (h : (segmentDirectFspTransportRecord (toyDirectRecord counter) 50).toOption.isSome = true) : Transfer where
  source := "peer"
  record := toyDirectRecord counter
  pathMtu := 50
  fragments := (segmentDirectFspTransportRecord (toyDirectRecord counter) 50).toOption.get h
  segmented := Exec.eq_ok_get h
  long := by simp [toyDirectRecord, length_fspHeaderBytes]

def toyFive : Transfer := toyTransfer 5 (by decide +kernel)

def toySix : Transfer := toyTransfer 6 (by decide +kernel)

/-- The second fragment of the one comes first and twice, and the first of the other before its own first. -/
def toyDeliveries : List Delivery :=
  [⟨toyFive, 1, 0, by decide +kernel⟩, ⟨toyFive, 1, 1, by decide +kernel⟩, ⟨toySix, 0, 1, by decide +kernel⟩,
    ⟨toyFive, 0, 2, by decide +kernel⟩, ⟨toySix, 1, 3, by decide +kernel⟩]

theorem toyDeliveries_schedule : Schedule toyDeliveries where
  distinct := by decide +kernel
  within := by decide +kernel
  awaited := by
    intro before d after h
    have hawaited : ∀ n < toyDeliveries.length, ∀ d ∈ toyDeliveries[n]?, ¬Complete (toyDeliveries.take n) d.transfer := by
      decide +kernel
    have hlt : before.length < toyDeliveries.length := by rw [h, List.length_append, List.length_cons]; omega
    have hget : toyDeliveries[before.length]? = some d := by rw [h, List.getElem?_append_right le_rfl, Nat.sub_self]; rfl
    have htake : toyDeliveries.take before.length = before := by rw [h, List.take_left]
    exact htake ▸ hawaited before.length hlt d hget
  few := by
    intro before after h
    have hlen : before.length ≤ 5 := by
      have := congrArg List.length h
      rw [List.length_append] at this
      change 5 = _ at this
      omega
    calc (underway before).card ≤ (before.map Delivery.transfer).toFinset.card := Finset.card_filter_le _ _
      _ ≤ (before.map Delivery.transfer).length := List.toFinset_card_le _
      _ ≤ 5 := by rw [List.length_map]; exact hlen
      _ < MAX_REASSEMBLY_RECORDS := by decide

theorem direct_records_reassembled_toy : (∀ packet ∈ toyFive.fragments, packet.length ≤ 50) ∧
    ∀ x ∈ [toyFive, toySix], ∃! n, ∃ d, toyDeliveries[n]? = some d ∧ d.transfer = x ∧
      (deliver (reassembled (toyDeliveries.take n)) d).1 = .ok (some x.record) := by
  have hcomplete : ∀ x ∈ [toyFive, toySix], Complete toyDeliveries x := by decide +kernel
  refine ⟨(direct_records_reassembled.1 _ _ _ toyFive.segmented).1, fun x hx => ?_⟩
  exact (direct_records_reassembled.2.1 toyDeliveries toyDeliveries_schedule).2 x (hcomplete x hx)

end Fips
