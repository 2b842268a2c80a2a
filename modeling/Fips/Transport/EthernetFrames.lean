import Fips.Transport.Ethernet

/-!
# What the other side makes of an Ethernet frame

A frame that one transport builds reaches another as source, type and payload; a network may pad it.
A data frame gives its packet back. A beacon gives its sender back where the scope that the receiver
reads is its own.
-/

namespace Fips
open LittleEndian Exec TextCoding

namespace VirtualEthernetTransport
variable {onCurve : Bytes → Bool} {t sender receiver : VirtualEthernetTransport onCurve}
  {localIdentity : XOnlyPubkey onCurve}

/-- The receiver's cases for a frame that was built for it, with its padding. -/
theorem receiveFrame_build {destination source : Mac} {payload padding : Bytes} (hctx : t.ctx = some localIdentity)
    (hsource : source ≠ t.settings.localMac)
    (hdestination : destination = t.settings.localMac ∨ destination = broadcast) (hpos : payload ≠ [])
    (hfits : (buildEthernetFrame destination source payload ++ padding).length
      ≤ ETHERNET_HEADER_LENGTH + t.settings.interfaceMtu) :
    t.receiveFrame (buildEthernetFrame destination source payload ++ padding) =
      if (payload ++ padding).getD 0 0 = FRAME_TYPE_DATA then (t, t.receiveData source (payload ++ padding))
      else if (payload ++ padding).getD 0 0 = FRAME_TYPE_BEACON then
        t.receiveBeacon localIdentity source (payload ++ padding)
      else (t, []) := by
  obtain ⟨dst, hdst⟩ := destination
  obtain ⟨src, hsrc⟩ := source
  have hframe : buildEthernetFrame ⟨dst, hdst⟩ ⟨src, hsrc⟩ payload ++ padding
      = dst ++ (src ++ (0x21 :: 0x21 :: (payload ++ padding))) := by
    simp [buildEthernetFrame, FIPS_ETHERTYPE]
  have hlen : 0 < payload.length := List.length_pos_iff.2 hpos
  rw [hframe] at hfits ⊢
  have htake : (dst ++ (src ++ (0x21 :: 0x21 :: (payload ++ padding)))).take 6 = dst := List.take_left' hdst
  have hdrop : (dst ++ (src ++ (0x21 :: 0x21 :: (payload ++ padding)))).drop 6
      = src ++ (0x21 :: 0x21 :: (payload ++ padding)) := List.drop_left' hdst
  have htake' : (src ++ (0x21 :: 0x21 :: (payload ++ padding))).take 6 = src := List.take_left' hsrc
  have htype : ∀ i, (dst ++ (src ++ (0x21 :: 0x21 :: (payload ++ padding)))).getD (12 + i) 0
      = (0x21 :: 0x21 :: (payload ++ padding)).getD i 0 := by
    intro i
    rw [List.getD_append_right _ _ _ _ (by omega), List.getD_append_right _ _ _ _ (by omega)]
    congr 1
    omega
  have hrest : (dst ++ (src ++ (0x21 :: 0x21 :: (payload ++ padding)))).drop ETHERNET_HEADER_LENGTH
      = payload ++ padding := by
    rw [show ETHERNET_HEADER_LENGTH = 6 + 8 from rfl, ← List.drop_drop, hdrop,
      show 8 = 6 + 2 from rfl, ← List.drop_drop, List.drop_left' hsrc]
    rfl
  have hlow : ¬(dst ++ (src ++ (0x21 :: 0x21 :: (payload ++ padding)))).length < ETHERNET_HEADER_LENGTH + 1 := by
    simp only [List.length_append, List.length_cons, ETHERNET_HEADER_LENGTH]
    omega
  unfold receiveFrame
  simp only [hctx]
  rw [dif_neg hlow, if_neg (Nat.not_lt.2 hfits)]
  simp only [htake, hdrop, htake', hrest, htype 0, htype 1]
  rw [if_neg (fun h => hsource h), if_neg, if_neg (by simp [FIPS_ETHERTYPE])]
  rintro ⟨hlocal, hall⟩
  rcases hdestination with h | h
  · exact hlocal (congrArg Mac.bytes h)
  · exact hall (congrArg Mac.bytes h)

/-! ## Data frames -/

/-- The two length bytes read back. -/
theorem length_bytes {n : Nat} (h : n ≤ 0xffff) :
    (UInt8.ofNat (n &&& 0xff)).toNat ||| ((UInt8.ofNat (n >>> 8)).toNat <<< 8) = n := by
  have hlow : (UInt8.ofNat (n &&& 0xff)).toNat = n % 256 := by
    rw [show (0xff : Nat) = 2 ^ 8 - 1 from rfl, Nat.and_two_pow_sub_one_eq_mod, UInt8.toNat_ofNat']
    omega
  have hhigh : (UInt8.ofNat (n >>> 8)).toNat = n / 256 := by
    rw [Nat.shiftRight_eq_div_pow, UInt8.toNat_ofNat']
    omega
  rw [hlow, hhigh, Nat.shiftLeft_eq, Nat.lor_comm, Nat.mul_comm,
    ← Nat.two_pow_add_eq_or_of_lt (by omega : n % 256 < 2 ^ 8)]
  omega

/-- The payload of a data frame. -/
def dataPayload (packet : Bytes) : Bytes :=
  [FRAME_TYPE_DATA, UInt8.ofNat (packet.length &&& 0xff), UInt8.ofNat (packet.length >>> 8)] ++ packet

theorem send_eq_ok {addr : String} {packet : Bytes} {destination : Mac} (hstarted : t.ctx.isSome = true)
    (hmtu : packet.length ≤ t.settings.mtu) (hmac : parseMac (.text addr) = .ok destination)
    (hzero : isZeroMac destination = false) :
    t.send ⟨type, addr⟩ packet = .ok (buildEthernetFrame destination t.settings.localMac (dataPayload packet)) := by
  have hsome : t.ctx.isNone = false := by rw [← Option.not_isSome, hstarted]; rfl
  simp [send, hsome, Nat.not_lt.2 hmtu, hmac, hzero, dataPayload]

/-- Whatever follows the packet is cut off. -/
theorem receiveData_dataPayload {source : Mac} {packet padding : Bytes} (hmtu : packet.length ≤ t.settings.mtu) :
    t.receiveData source (dataPayload packet ++ padding) = [.onPacket ⟨type, formatMac source⟩ packet] := by
  have hlen : (((dataPayload packet ++ padding).getD 1 0).toNat
      ||| (((dataPayload packet ++ padding).getD 2 0).toNat <<< 8)) = packet.length :=
    length_bytes (hmtu.trans t.settings.mtu_le_u16)
  have hdrop : (dataPayload packet ++ padding).drop FIPS_ETHERNET_DATA_HEADER_LENGTH = packet ++ padding := rfl
  have htotal : (dataPayload packet ++ padding).length
      = FIPS_ETHERNET_DATA_HEADER_LENGTH + (packet.length + padding.length) := by
    simp [dataPayload, FIPS_ETHERNET_DATA_HEADER_LENGTH]
    omega
  unfold receiveData
  simp only [hlen, hdrop, htotal]
  rw [if_neg (by omega), if_neg (by omega), List.take_left' rfl]

/-- What a transport hands on is no longer than its `mtu`. -/
theorem receiveFrame_onPacket {frame data : Bytes} {remoteAddr : TransportAddress}
    (h : .onPacket remoteAddr data ∈ (t.receiveFrame frame).2) : data.length ≤ t.settings.mtu := by
  have hbeacon : ∀ localIdentity source payload,
      .onPacket remoteAddr data ∉ (t.receiveBeacon localIdentity source payload).2 := by
    intro localIdentity source payload hm
    unfold receiveBeacon at hm
    dsimp only at hm
    split at hm
    · cases hm
    split at hm
    · cases hm
    split at hm
    · cases hm
    split at hm
    · cases hm
    split at hm
    · cases hm
    split at hm
    · cases hm
    · simp at hm
  have hdata : ∀ source payload, .onPacket remoteAddr data ∈ t.receiveData source payload →
      data.length ≤ t.settings.mtu := by
    intro source payload hm
    unfold receiveData at hm
    dsimp only at hm
    split at hm
    · cases hm
    split at hm
    · cases hm
    · rename_i hle
      simp only [List.mem_singleton, EthernetEffect.onPacket.injEq] at hm
      rw [hm.2, List.length_take]
      omega
  unfold receiveFrame at h
  split at h
  · cases h
  dsimp only at h
  split at h
  · cases h
  split at h
  · cases h
  split at h
  · cases h
  split at h
  · cases h
  split at h
  · cases h
  split at h
  · exact hdata _ _ h
  split at h
  · exact absurd h (hbeacon _ _ _)
  · cases h

/-- A packet within both transports' `mtu`, sent to the receiver's MAC from another, arrives as it is
with the sender's MAC for its address, whatever padding the network adds within the receiver's
interface MTU; and no frame at all makes a transport hand on more than its `mtu`. -/
theorem data_frames_transparent :
    (∀ sender receiver : VirtualEthernetTransport onCurve, sender.ctx.isSome → receiver.ctx.isSome →
      sender.settings.localMac ≠ receiver.settings.localMac → ∀ addr packet,
      parseMac (.text addr) = .ok receiver.settings.localMac → packet.length ≤ sender.settings.mtu →
      packet.length ≤ receiver.settings.mtu →
      ∃ frame, sender.send ⟨type, addr⟩ packet = .ok frame ∧ ∀ padding : Bytes,
        (frame ++ padding).length ≤ ETHERNET_HEADER_LENGTH + receiver.settings.interfaceMtu →
        receiver.receiveFrame (frame ++ padding)
          = (receiver, [.onPacket ⟨type, formatMac sender.settings.localMac⟩ packet])) ∧
    ∀ (receiver : VirtualEthernetTransport onCurve) (frame : Bytes) remoteAddr data,
      .onPacket remoteAddr data ∈ (receiver.receiveFrame frame).2 → data.length ≤ receiver.settings.mtu := by
  refine ⟨?_, fun receiver frame remoteAddr data h => receiveFrame_onPacket h⟩
  intro sender receiver hsender hreceiver hne addr packet hmac hs hr
  obtain ⟨localIdentity, hctx⟩ := Option.isSome_iff_exists.1 hreceiver
  refine ⟨_, send_eq_ok hsender hs hmac receiver.settings.nonzero, ?_⟩
  intro padding hfits
  have htype : (dataPayload packet ++ padding).getD 0 0 = FRAME_TYPE_DATA := rfl
  rw [receiveFrame_build hctx hne (.inl rfl) (by rintro ⟨⟩) hfits, if_pos htype, receiveData_dataPayload hr]

/-- A transport with MAC `02:00:00:00:00:0n` and the key whose bytes are `n`. -/
def toy (n : UInt8) (scope : Option (List UInt16)) (hs : scope ≠ some []) :
    VirtualEthernetTransport (fun _ => true) where
  settings := {
    localMac := ⟨[2, 0, 0, 0, 0, n], rfl⟩
    nonzero := by simp [isZeroMac]
    unicast := by
      show (2 : UInt8) &&& 1 = 0
      decide
    interfaceMtu := 1500
    mtu := 1497
    mtu_le := by decide
    mtu_le_u16 := by decide
    discoveryEnabled := true
    discoveryScope := scope
    scope_ne := hs }
  macByPubkey := []
  pubkeyByMac := []
  ctx := some ⟨List.replicate 32 n, List.length_replicate, rfl⟩

/-- A packet of one byte crosses with two bytes of padding. -/
theorem data_frames_transparent_toy :
    ∃ frame, (toy 1 none (by decide)).send ⟨type, "02:00:00:00:00:02"⟩ [7] = .ok frame ∧
      (toy 2 none (by decide)).receiveFrame (frame ++ [0, 9])
        = (toy 2 none (by decide), [.onPacket ⟨type, formatMac ⟨[2, 0, 0, 0, 0, 1], rfl⟩⟩ [7]]) := by
  have hne : (toy 1 none (by decide)).settings.localMac ≠ (toy 2 none (by decide)).settings.localMac :=
    fun h => absurd (congrArg Mac.bytes h) (by decide)
  obtain ⟨frame, hsend, hreceive⟩ := (@data_frames_transparent (fun _ => true)).1 (toy 1 none (by decide))
    (toy 2 none (by decide)) rfl rfl hne "02:00:00:00:00:02" [7] rfl (by decide) (by decide)
  refine ⟨frame, hsend, hreceive [0, 9] ?_⟩
  cases hsend
  decide

/-- Between two transports with one MAC, the receiver takes the sender's frame for its own. -/
theorem own_mac_dropped :
    (toy 1 none (by decide)).send ⟨type, "02:00:00:00:00:01"⟩ [7]
      = .ok [2, 0, 0, 0, 0, 1, 2, 0, 0, 0, 0, 1, 0x21, 0x21, 0, 1, 0, 7] ∧
    (toy 1 none (by decide)).receiveFrame [2, 0, 0, 0, 0, 1, 2, 0, 0, 0, 0, 1, 0x21, 0x21, 0, 1, 0, 7]
      = (toy 1 none (by decide), []) := ⟨rfl, rfl⟩

/-! ## Beacons -/

/-- The payload of a beacon. -/
def beaconPayload (key announced : Bytes) : Bytes :=
  [FRAME_TYPE_BEACON, DISCOVERY_VERSION] ++ key
    ++ if announced.length > 0 then UInt8.ofNat announced.length :: announced else []

/-- The bytes of its scope that a transport announces. -/
def announced (scope : Option (List UInt16)) : Bytes := (scope.map fun scope => (encode scope).take 0xff).getD []

theorem length_announced (scope : Option (List UInt16)) : (announced scope).length ≤ 0xff := by
  cases scope with
  | none => exact Nat.zero_le _
  | some scope => exact List.length_take_le _ _

theorem sendBeacon_eq (hctx : t.ctx = some localIdentity) :
    t.sendBeacon = some (buildEthernetFrame broadcast t.settings.localMac
      (beaconPayload localIdentity.bytes (announced t.settings.discoveryScope))) := by
  unfold sendBeacon
  simp only [hctx]
  cases t.settings.discoveryScope <;> rfl

theorem decode_nil : decode [] = some [] := @decode_encode [] rfl (by rintro ⟨⟩)

/-- The receiver reads the announced bytes back, however much zero padding follows. -/
theorem beaconScope_beaconPayload {key bytes : Bytes} (hkey : key.length = 32) (hbytes : bytes.length ≤ 0xff) (n : Nat) :
    beaconScope (beaconPayload key bytes ++ List.replicate n 0) = (decode bytes).map nonEmpty := by
  unfold beaconScope beaconPayload
  by_cases hpos : bytes.length > 0
  · have hhead : ([FRAME_TYPE_BEACON, DISCOVERY_VERSION] ++ key).length = BASE_BEACON_LENGTH := by
      simp [hkey, BASE_BEACON_LENGTH]
    have hlen : (UInt8.ofNat bytes.length).toNat = bytes.length := by
      rw [UInt8.toNat_ofNat']
      omega
    have hget : ([FRAME_TYPE_BEACON, DISCOVERY_VERSION] ++ key ++ UInt8.ofNat bytes.length :: bytes
        ++ List.replicate n 0).getD BASE_BEACON_LENGTH 0 = UInt8.ofNat bytes.length := by
      rw [List.append_assoc, List.getD_append_right _ _ _ _ (le_of_eq hhead), hhead, Nat.sub_self]
      rfl
    have hdrop : ([FRAME_TYPE_BEACON, DISCOVERY_VERSION] ++ key ++ UInt8.ofNat bytes.length :: bytes
        ++ List.replicate n 0).drop (BASE_BEACON_LENGTH + 1) = bytes ++ List.replicate n 0 := by
      rw [List.append_assoc, ← List.drop_drop, List.drop_left' hhead]
      rfl
    have htotal : ([FRAME_TYPE_BEACON, DISCOVERY_VERSION] ++ key ++ UInt8.ofNat bytes.length :: bytes
        ++ List.replicate n 0).length = BASE_BEACON_LENGTH + 1 + bytes.length + n := by
      rw [List.length_append, List.length_append, hhead, List.length_cons, List.length_replicate]
      omega
    rw [if_pos hpos, htotal, if_pos (by omega)]
    dsimp only
    rw [hget, hlen, hdrop, if_neg (by omega), List.take_left' rfl]
  · have hnil : bytes = [] := List.eq_nil_of_length_eq_zero (by omega)
    have hhead : ([FRAME_TYPE_BEACON, DISCOVERY_VERSION] ++ key).length = BASE_BEACON_LENGTH := by
      simp [hkey, BASE_BEACON_LENGTH]
    rw [if_neg hpos, List.append_nil, List.length_append, hhead, List.length_replicate, hnil, decode_nil]
    cases n with
    | zero => rw [if_neg (by omega)]; rfl
    | succ n =>
      have hget : ([FRAME_TYPE_BEACON, DISCOVERY_VERSION] ++ key ++ List.replicate (n + 1) 0).getD
          BASE_BEACON_LENGTH 0 = 0 := by
        rw [List.getD_append_right _ _ _ _ (le_of_eq hhead), hhead, Nat.sub_self]
        rfl
      rw [if_pos (by omega)]
      dsimp only
      rw [hget, if_neg (by simp), UInt8.toNat_zero, List.take_zero, decode_nil]

/-- What `receiver` does once it takes the beacon of a key from a MAC. -/
def discover (t : VirtualEthernetTransport onCurve) (key : Bytes) (source : Mac) (scope : Option (List UInt16)) :
    VirtualEthernetTransport onCurve × List EthernetEffect :=
  ({ t with
      macByPubkey := t.macByPubkey.set key source
      pubkeyByMac := t.pubkeyByMac.set source (0x02 :: key) },
    [.discovered ⟨⟨type, formatMac source⟩, 0x02 :: key, scope⟩])

/-- The receiver's cases for a beacon of another identity. -/
theorem receiveBeacon_beaconPayload {senderIdentity : XOnlyPubkey onCurve} {source : Mac} {bytes : Bytes}
    (henabled : t.settings.discoveryEnabled = true) (hne : senderIdentity.bytes ≠ localIdentity.bytes)
    (hbytes : bytes.length ≤ 0xff) (n : Nat) :
    t.receiveBeacon localIdentity source (beaconPayload senderIdentity.bytes bytes ++ List.replicate n 0) =
      ((decode bytes).map nonEmpty).elim (t, []) fun scope =>
        if t.settings.discoveryScope.isSome ∧ scope ≠ t.settings.discoveryScope then (t, [])
        else t.discover senderIdentity.bytes source scope := by
  have hkey : ((beaconPayload senderIdentity.bytes bytes ++ List.replicate n 0).take 34).drop 2
      = senderIdentity.bytes := by
    have hhead : ([FRAME_TYPE_BEACON, DISCOVERY_VERSION] ++ senderIdentity.bytes).length = 34 := by
      simp [senderIdentity.length_eq]
    rw [beaconPayload, List.append_assoc, List.take_left' hhead]
    rfl
  have hlen : ¬(t.settings.discoveryEnabled = false
      ∨ (beaconPayload senderIdentity.bytes bytes ++ List.replicate n 0).length < BASE_BEACON_LENGTH) := by
    rintro (h | h)
    · rw [henabled] at h
      cases h
    · simp [beaconPayload, senderIdentity.length_eq, BASE_BEACON_LENGTH] at h
      omega
  have hversion : ¬((beaconPayload senderIdentity.bytes bytes ++ List.replicate n 0).getD 1 0 ≠ DISCOVERY_VERSION) :=
    not_not.2 rfl
  unfold receiveBeacon
  rw [if_neg hlen, if_neg hversion, beaconScope_beaconPayload senderIdentity.length_eq hbytes]
  rcases (decode bytes).map nonEmpty with _ | scope
  · rfl
  · rw [Option.elim_some]
    dsimp only
    by_cases hs : t.settings.discoveryScope.isSome ∧ scope ≠ t.settings.discoveryScope
    · rw [if_pos hs, if_pos hs]
    · rw [if_neg hs, if_neg hs, hkey, senderIdentity.lifts, if_neg (by rintro ⟨⟩), if_neg hne]
      rfl

/-! ### Scopes -/

/-- A scope that comes through a beacon as it is: well-formed Unicode without a byte order mark at the
front, of at most 255 bytes. -/
def Carriable (scope : List UInt16) : Prop :=
  WellFormed scope ∧ scope.head? ≠ some 0xfeff ∧ (encode scope).length ≤ 0xff

instance (scope : List UInt16) : Decidable (Carriable scope) := inferInstanceAs (Decidable (_ ∧ _ ∧ _))

/-- The bytes that `s` is announced with are those of `r`, perhaps behind a byte order mark. -/
def Confusable (s r : List UInt16) : Prop :=
  WellFormed r ∧ ((encode s).take 0xff = encode r ∧ r.head? ≠ some 0xfeff ∨ (encode s).take 0xff = markBytes ++ encode r)

theorem decode_announced {s r : List UInt16} : decode (announced (some s)) = some r ↔ Confusable s r := decode_eq_some

/-- A scope is confused with itself exactly when a beacon carries it. -/
theorem confusable_self {s : List UInt16} : Confusable s s ↔ Carriable s := by
  constructor
  · rintro ⟨hw, ⟨htake, hm⟩ | htake⟩
    · refine ⟨hw, hm, ?_⟩
      rw [← htake]
      exact List.length_take_le _ _
    · have hlen := congrArg List.length htake
      rw [List.length_take, List.length_append] at hlen
      simp only [markBytes, List.length_cons, List.length_nil] at hlen
      omega
  · rintro ⟨hw, hm, hlen⟩
    exact ⟨hw, .inl ⟨List.take_of_length_le hlen, hm⟩⟩

/-- The receiver takes the frame for a beacon of this key from this MAC. -/
structure Hears (t : VirtualEthernetTransport onCurve) (frame key : Bytes) (source : Mac) : Prop where
  mac : (t.receiveFrame frame).1.macByPubkey.get key = some source
  pubkey : (t.receiveFrame frame).1.pubkeyByMac.get source = some (0x02 :: key)
  event : ∃ scope, (t.receiveFrame frame).2 = [.discovered ⟨⟨type, formatMac source⟩, 0x02 :: key, scope⟩]

def Ignores (t : VirtualEthernetTransport onCurve) (frame : Bytes) : Prop := t.receiveFrame frame = (t, [])

/-- The sender's beacon frame with `n` bytes of padding. -/
def beaconFrame (t : VirtualEthernetTransport onCurve) (localIdentity : XOnlyPubkey onCurve) (n : Nat) : Bytes :=
  buildEthernetFrame broadcast t.settings.localMac
    (beaconPayload localIdentity.bytes (announced t.settings.discoveryScope)) ++ List.replicate n 0

theorem hears_of_discover {frame key : Bytes} {source : Mac} {scope : Option (List UInt16)}
    (h : t.receiveFrame frame = t.discover key source scope) : Hears t frame key source := by
  refine ⟨?_, ?_, scope, ?_⟩
  · rw [h]
    exact (JsMap.get_set ..).trans (if_pos rfl)
  · rw [h]
    exact (JsMap.get_set ..).trans (if_pos rfl)
  · rw [h]
    rfl

theorem not_hears_of_ignores {frame key : Bytes} {source : Mac} (h : Ignores t frame) : ¬Hears t frame key source := by
  rintro ⟨-, -, scope, he⟩
  rw [h] at he
  cases he

section
variable {senderIdentity : XOnlyPubkey onCurve} {n : Nat} (hctx : receiver.ctx = some localIdentity)
  (henabled : receiver.settings.discoveryEnabled = true)
  (hmac : sender.settings.localMac ≠ receiver.settings.localMac)
  (hne : senderIdentity.bytes ≠ localIdentity.bytes)
  (hfits : (sender.beaconFrame senderIdentity n).length ≤ ETHERNET_HEADER_LENGTH + receiver.settings.interfaceMtu)
include hctx henabled hmac hne hfits

theorem receiveFrame_beacon : receiver.receiveFrame (sender.beaconFrame senderIdentity n) =
    ((decode (announced sender.settings.discoveryScope)).map nonEmpty).elim (receiver, []) fun scope =>
      if receiver.settings.discoveryScope.isSome ∧ scope ≠ receiver.settings.discoveryScope then (receiver, [])
      else receiver.discover senderIdentity.bytes sender.settings.localMac scope := by
  have htype : (beaconPayload senderIdentity.bytes (announced sender.settings.discoveryScope)
      ++ List.replicate n 0).getD 0 0 = FRAME_TYPE_BEACON := rfl
  have hdata : ¬FRAME_TYPE_BEACON = FRAME_TYPE_DATA := by decide
  rw [beaconFrame, receiveFrame_build hctx hmac (.inr rfl) (by rintro ⟨⟩) hfits, htype, if_neg hdata, if_pos rfl,
    receiveBeacon_beaconPayload henabled hne (length_announced _)]

/-- A receiver without a scope hears a sender without one. -/
theorem hears_unscoped (hs : sender.settings.discoveryScope = none) (hr : receiver.settings.discoveryScope = none) :
    Hears receiver (sender.beaconFrame senderIdentity n) senderIdentity.bytes sender.settings.localMac := by
  have hscope : (decode (announced sender.settings.discoveryScope)).map nonEmpty = some none := by
    rw [hs]
    exact congrArg (Option.map nonEmpty) decode_nil
  refine @hears_of_discover _ _ _ _ _ none ?_
  rw [receiveFrame_beacon hctx henabled hmac hne hfits, hscope, Option.elim_some, hr, if_neg (by rintro ⟨⟨⟩, -⟩)]

/-- A receiver with a scope hears the senders whose scope it confuses with its own. -/
theorem hears_confusable {s r : List UInt16} (hs : sender.settings.discoveryScope = some s)
    (hr : receiver.settings.discoveryScope = some r) (hc : Confusable s r) :
    Hears receiver (sender.beaconFrame senderIdentity n) senderIdentity.bytes sender.settings.localMac := by
  have hr' : r ≠ [] := by
    rintro rfl
    exact receiver.settings.scope_ne hr
  have hscope : (decode (announced sender.settings.discoveryScope)).map nonEmpty = some (some r) := by
    rw [hs, decode_announced.2 hc, Option.map_some, nonEmpty, if_neg hr']
  refine @hears_of_discover _ _ _ _ _ (some r) ?_
  rw [receiveFrame_beacon hctx henabled hmac hne hfits, hscope, Option.elim_some, hr]
  exact if_neg fun h => h.2 rfl

theorem ignores_not_confusable {s r : List UInt16} (hs : sender.settings.discoveryScope = some s)
    (hr : receiver.settings.discoveryScope = some r) (hc : ¬Confusable s r) :
    Ignores receiver (sender.beaconFrame senderIdentity n) := by
  rw [Ignores, receiveFrame_beacon hctx henabled hmac hne hfits]
  rcases hd : (decode (announced sender.settings.discoveryScope)).map nonEmpty with _ | scope
  · rfl
  · rw [Option.elim_some, hr]
    refine if_pos ⟨rfl, ?_⟩
    rintro rfl
    obtain ⟨r', hr', hn⟩ := Option.map_eq_some_iff.1 hd
    have hsame : r' = r := by
      unfold nonEmpty at hn
      split at hn
      · cases hn
      · exact Option.some.inj hn
    rw [hs, hsame] at hr'
    exact hc (decode_announced.1 hr')

end

theorem ignores_oversized {frame : Bytes} (h : frame.length > ETHERNET_HEADER_LENGTH + t.settings.interfaceMtu) :
    Ignores t frame := by
  unfold Ignores receiveFrame
  rcases t.ctx with _ | localIdentity
  · rfl
  · have hlow : ¬frame.length < ETHERNET_HEADER_LENGTH + 1 := by omega
    dsimp only
    rw [dif_neg hlow, if_pos h]

/-- What a receiver with discovery makes of the beacons of another transport with another MAC and
identity. With the same scope it hears those that fit its interface MTU, and with two different scopes
none, exactly when a shared scope is one that a beacon carries as it is, and the announced part of the
sender's scope is not mistaken for the receiver's. -/
theorem beacons_discover_iff (sender receiver : VirtualEthernetTransport onCurve)
    (senderIdentity localIdentity : XOnlyPubkey onCurve) (n : Nat) (hsender : sender.ctx = some senderIdentity)
    (hreceiver : receiver.ctx = some localIdentity) (henabled : receiver.settings.discoveryEnabled = true)
    (hmac : sender.settings.localMac ≠ receiver.settings.localMac)
    (hne : senderIdentity.bytes ≠ localIdentity.bytes) :
    ∃ frame, sender.sendBeacon = some frame ∧
      let padded := frame ++ List.replicate n 0
      let fits := padded.length ≤ ETHERNET_HEADER_LENGTH + receiver.settings.interfaceMtu
      let s := sender.settings.discoveryScope
      let r := receiver.settings.discoveryScope
      (((s = r → fits → Hears receiver padded senderIdentity.bytes sender.settings.localMac) ∧
          (s ≠ r → s.isSome → r.isSome → Ignores receiver padded)) ↔
        (fits → (∀ scope, s = some scope → r = some scope → Carriable scope) ∧
          ∀ announced own, s = some announced → r = some own → announced ≠ own → ¬Confusable announced own)) := by
  refine ⟨_, sendBeacon_eq hsender, ?_⟩
  dsimp only
  constructor
  · rintro ⟨hsame, hother⟩ hfits
    refine ⟨?_, ?_⟩
    · intro scope hs hr
      by_contra hc
      have hig := ignores_not_confusable hreceiver henabled hmac hne hfits hs hr (fun h => hc (confusable_self.1 h))
      exact not_hears_of_ignores hig (hsame (hs.trans hr.symm) hfits)
    · intro announced own hs hr hdiff hc
      have hears := hears_confusable hreceiver henabled hmac hne hfits hs hr hc
      have hig := hother (by rw [hs, hr]; exact fun h => hdiff (Option.some.inj h)) (by rw [hs]; rfl) (by rw [hr]; rfl)
      exact not_hears_of_ignores hig hears
  · intro hcond
    constructor
    · intro hsr hfits
      obtain hs | ⟨scope, hs⟩ := Option.eq_none_or_eq_some sender.settings.discoveryScope
      · exact hears_unscoped hreceiver henabled hmac hne hfits hs (hsr ▸ hs)
      · have hr : receiver.settings.discoveryScope = some scope := hsr ▸ hs
        exact hears_confusable hreceiver henabled hmac hne hfits hs hr
          (confusable_self.2 ((hcond hfits).1 scope hs hr))
    · intro hdiff hs hr
      obtain ⟨announced, hs⟩ := Option.isSome_iff_exists.1 hs
      obtain ⟨own, hr⟩ := Option.isSome_iff_exists.1 hr
      by_cases hfits : (sender.beaconFrame senderIdentity n).length
          ≤ ETHERNET_HEADER_LENGTH + receiver.settings.interfaceMtu
      · refine ignores_not_confusable hreceiver henabled hmac hne hfits hs hr ?_
        refine (hcond hfits).2 announced own hs hr ?_
        rintro rfl
        exact hdiff (hs.trans hr.symm)
      · exact ignores_oversized (Nat.lt_of_not_le hfits)

/-- Two transports of the scope `lab`. -/
theorem beacons_discover_iff_toy : ∃ frame, (toy 1 (some [108, 97, 98]) (by decide)).sendBeacon = some frame ∧
    Hears (toy 2 (some [108, 97, 98]) (by decide)) (frame ++ List.replicate 8 0) (List.replicate 32 1)
      ⟨[2, 0, 0, 0, 0, 1], rfl⟩ := by
  have hmac : (toy 1 (some [108, 97, 98]) (by decide)).settings.localMac
      ≠ (toy 2 (some [108, 97, 98]) (by decide)).settings.localMac :=
    fun h => absurd (congrArg Mac.bytes h) (by decide)
  obtain ⟨frame, hframe, hiff⟩ := beacons_discover_iff (toy 1 (some [108, 97, 98]) (by decide))
    (toy 2 (some [108, 97, 98]) (by decide)) ⟨List.replicate 32 1, List.length_replicate, rfl⟩
    ⟨List.replicate 32 2, List.length_replicate, rfl⟩ 8 rfl rfl rfl hmac (by decide)
  refine ⟨frame, hframe, (hiff.2 ?_).1 rfl ?_⟩
  · intro _
    refine ⟨?_, ?_⟩
    · rintro scope ⟨⟩ -
      decide +kernel
    · rintro announced own ⟨⟩ ⟨⟩ hne
      exact absurd rfl hne
  · cases hframe
    decide +kernel

/-- The letter `a`, 256 times. -/
def longScope : List UInt16 := List.replicate 256 97

/-- Two transports of one scope of 256 letters do not hear each other, and a transport whose scope is
255 of the letters hears the beacon of theirs. -/
theorem long_scope_cut : ∃ frame, (toy 1 (some longScope) (by decide)).sendBeacon = some frame ∧
    Ignores (toy 2 (some longScope) (by decide)) frame ∧
    Hears (toy 2 (some (longScope.drop 1)) (by decide)) frame (List.replicate 32 1) ⟨[2, 0, 0, 0, 0, 1], rfl⟩ := by
  have hmac : ∀ r hr, (toy 1 (some longScope) (by decide)).settings.localMac ≠ (toy 2 (some r) hr).settings.localMac :=
    fun r hr h => absurd (congrArg Mac.bytes h) (by simp [toy])
  have hreceiver : ∀ r hr, (toy 2 (some r) hr).ctx = some ⟨List.replicate 32 2, List.length_replicate, rfl⟩ :=
    fun r hr => rfl
  have hlong : ¬Confusable longScope longScope := fun h => absurd (confusable_self.1 h).2.2 (by decide +kernel)
  have hcut : Confusable longScope (longScope.drop 1) := ⟨by decide +kernel, .inl ⟨by decide +kernel, by decide +kernel⟩⟩
  have hsender : (toy 1 (some longScope) (by decide)).ctx = some ⟨List.replicate 32 1, List.length_replicate, rfl⟩ := rfl
  have hne : (List.replicate 32 1 : Bytes) ≠ List.replicate 32 2 := by decide
  refine ⟨beaconFrame (toy 1 (some longScope) (by decide)) ⟨List.replicate 32 1, List.length_replicate, rfl⟩ 0, ?_, ?_, ?_⟩
  · rw [sendBeacon_eq hsender, beaconFrame, List.replicate_zero, List.append_nil]
  · exact ignores_not_confusable (hreceiver _ _) rfl (hmac _ _) hne (by decide +kernel) rfl rfl hlong
  · exact hears_confusable (hreceiver _ _) rfl (hmac _ _) hne (by decide +kernel) rfl rfl hcut

end VirtualEthernetTransport

end Fips
