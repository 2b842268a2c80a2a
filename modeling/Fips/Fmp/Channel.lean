import Fips.Fmp.Handshake
import Fips.Lib.Run

/-!
# The link as a secure channel

One end seals frames, the network delivers any byte strings in any order, the other end decrypts. The
channel keeps what was sealed, produced and accepted so far. `Genuine` is the ideal AEAD, per delivery:
what opens under the key of the channel was sealed under it.
-/

namespace Fips
open Exec Run LittleEndian

namespace FmpLink

/-- The key of `tx` or `rx`, once the handshake is complete. -/
def keyOf (c : Option CipherState) : Option Bytes := c.bind CipherState.key

/-- The AEAD call that `encryptOutgoing` makes. -/
def sealing (S : Suite) (payload : Bytes) (msgType : Nat) (nowMs : ℚ) (l : FmpLink) : Except String Seal := do
  let inner ← encodeFmpInner ⟨toU32 (nowMs - l.sessionStartMs), msgType, payload⟩
  let aad ← encodeFmpEstablishedHeader 0 (l.remoteSessionIdx.getD 0) l.txCounter inner.length
  let ciphertext ← aeadSeal S ((keyOf l.tx).getD []) l.txCounter inner aad
  return ⟨l.txCounter, aad, inner, ciphertext⟩

/-- An established end that seals under `key` for the receiver index `idx`. -/
structure Seals (l : FmpLink) (key : Bytes) (idx : Nat) : Prop where
  state : l.state = .established
  tx : l.tx = some ⟨some key, 0⟩
  key : key.length = 32
  idx : l.remoteSessionIdx = some idx

/-- An established end that opens under `key` with the local index `idx`. -/
structure Opens (l : FmpLink) (key : Bytes) (idx : Nat) : Prop where
  state : l.state = .established
  rx : l.rx = some ⟨some key, 0⟩
  key : key.length = 32
  idx : l.localSessionIdx = idx

section
variable {S : Suite} {l l' : FmpLink} {key payload packet : Bytes} {idx msgType : Nat} {nowMs : ℚ} {e : String}

theorem sealing_eq_ok (h : l.Seals key idx) {s : Seal} (hs : l.sealing S payload msgType nowMs = .ok s) :
    s.counter = l.txCounter ∧ idx < 2 ^ 32 ∧ l.txCounter < 2 ^ 64 ∧ s.plaintext.length < 65536 ∧
      s.aad = fmpHeaderBytes 0 idx l.txCounter s.plaintext.length ∧
      s.ciphertext = S.encrypt key (noiseNonce l.txCounter) s.aad s.plaintext ∧
      decodeFmpInner s.plaintext = .ok ⟨toU32 (nowMs - l.sessionStartMs), msgType, payload⟩ := by
  obtain ⟨inner, hinner, hs⟩ := except_bind_eq_ok.1 hs
  obtain ⟨aad, haad, hs⟩ := except_bind_eq_ok.1 hs
  obtain ⟨ct, hct, hs⟩ := except_bind_eq_ok.1 hs
  cases hs
  simp only [h.idx, Option.getD_some] at haad
  obtain ⟨hi, hc, hl, rfl⟩ := encodeFmpEstablishedHeader_eq_ok (by omega) haad
  simp only [keyOf, h.tx, Option.bind_some, Option.getD_some, aeadSeal, h.key, ne_eq, not_true_eq_false,
    if_false, Except.ok.injEq] at hct
  exact ⟨rfl, hi, hc, hl, rfl, hct.symm, decodeFmpInner_encode hinner⟩

/-- Everything `encryptOutgoing` does on an established end: it seals under the next counter, or throws
before or after consuming it. -/
theorem run_encryptOutgoing (h : l.Seals key idx) :
    (encryptOutgoing S payload msgType nowMs).run l =
      if l.txCounter ≥ maxNonce then .error "FMP nonce exhausted" l
      else match l.sealing S payload msgType nowMs with
        | .ok s => .ok (s.aad ++ s.ciphertext) { l with txCounter := l.txCounter + 1 }
        | .error e => .error e { l with txCounter := l.txCounter + 1 } := by
  have hkey : aeadSeal S key = fun c pt aad => .ok (S.encrypt key (noiseNonce c) aad pt) := by
    funext c pt aad; simp [aeadSeal, h.key]
  by_cases hn : l.txCounter ≥ maxNonce
  · simp [encryptOutgoing, h.state, h.tx, h.idx, hn]
  · cases hin : encodeFmpInner ⟨toU32 (nowMs - l.sessionStartMs), msgType, payload⟩ with
    | error e => simp [encryptOutgoing, sealing, h.state, h.tx, h.idx, hn, hin]
    | ok inner =>
      cases had : encodeFmpEstablishedHeader 0 idx l.txCounter inner.length with
      | error e => simp [encryptOutgoing, sealing, h.state, h.tx, h.idx, hn, hin, had]
      | ok aad =>
        simp [encryptOutgoing, sealing, h.state, h.tx, h.idx, hn, hin, had, keyOf, hkey,
          CipherState.getKey, encodeFmpEstablished]

/-- The link after a frame of counter `counter` has been accepted and recorded. -/
def accepted (est : FmpEstablished) (inner : FmpInnerPacket) (packet : Bytes) (nowMs : ℚ) (l : FmpLink) : FmpLink :=
  { l with
    rxReplay := (l.rxReplay.accept est.counter).2
    receiverReports := l.receiverReports.record
      ⟨est.counter, inner.timestamp, packet.length, est.flags / 2 % 2 = 1⟩ nowMs }

/-- Everything `decryptIncoming` does on an established end. Only a frame that opens to a plaintext too
short for an inner packet is rejected with an effect. -/
theorem run_decryptIncoming (h : l.Opens key idx) :
    (decryptIncoming S packet nowMs).run l =
      match decodeFmpEstablished packet with
      | .error e => .error e l
      | .ok est =>
        if est.receiverIdx ≠ idx then .error "FMP Established receiver_idx mismatch" l
        else if !l.rxReplay.check est.counter then .error "FMP replay/duplicate counter" l
        else match aeadOpen S key est.counter est.ciphertext
            (fmpHeaderBytes est.flags est.receiverIdx est.counter est.payloadLen) with
          | .error e => .error e l
          | .ok plaintext =>
            match decodeFmpInner plaintext with
            | .error e => .error e { l with rxReplay := (l.rxReplay.accept est.counter).2 }
            | .ok inner => .ok (inner.msgType, inner.payload) (l.accepted est inner packet nowMs) := by
  obtain ⟨hstate, hrx, -, hidx⟩ := h
  cases l
  dsimp only at hstate hrx hidx
  subst hstate hrx hidx
  unfold decryptIncoming
  rw [EStateM.run_bind, run_get]
  dsimp only
  rw [EStateM.run_bind]
  cases hdec : decodeFmpEstablished packet with
  | error e => rfl
  | ok est =>
    obtain ⟨hf, hr, hc, hl, -, -⟩ := decodeFmpEstablished_eq_ok hdec
    have hhdr := encodeFmpEstablishedHeader_eq hf hr hc hl
    rw [run_lift_ok]
    dsimp only
    split
    · rfl
    · split
      · rfl
      · simp only [hhdr, EStateM.run_bind, run_lift_ok, CipherState.getKey, ok_bind]
        cases hop : aeadOpen S key est.counter est.ciphertext
            (fmpHeaderBytes est.flags est.receiverIdx est.counter est.payloadLen) with
        | error e => rfl
        | ok plaintext =>
          simp only [run_lift_ok, run_modify]
          cases hin : decodeFmpInner plaintext with
          | error e => rfl
          | ok inner => simp only [run_lift_ok, run_pure, accepted]

end

end FmpLink

/-- A frame the sender produced, with what it was given. -/
structure ProducedFrame where
  packet : Bytes
  counter : Nat
  msgType : Nat
  payload : Bytes
deriving DecidableEq

/-- One direction of a link, with its history. -/
structure FmpChannel where
  sender : FmpLink
  receiver : FmpLink
  seals : List Seal
  produced : List ProducedFrame
  /-- What `decryptIncoming` returned, with the byte string it returned it for. -/
  accepted : List (Bytes × Nat × Bytes)

inductive FmpChannelEvent
  | send (payload : Bytes) (msgType : Nat) (nowMs : ℚ)
  | deliver (packet : Bytes) (nowMs : ℚ)

namespace FmpChannel

def new (sender receiver : FmpLink) : FmpChannel := ⟨sender, receiver, [], [], []⟩

def send (S : Suite) (payload : Bytes) (msgType : Nat) (nowMs : ℚ) (ch : FmpChannel) : FmpChannel :=
  match (FmpLink.encryptOutgoing S payload msgType nowMs).run ch.sender with
  | .ok packet sender => { ch with
      sender
      seals := ch.seals ++ (ch.sender.sealing S payload msgType nowMs).toOption.toList
      produced := ch.produced ++ [⟨packet, ch.sender.txCounter, msgType, payload⟩] }
  | .error _ sender => { ch with sender }

def deliver (S : Suite) (packet : Bytes) (nowMs : ℚ) (ch : FmpChannel) : FmpChannel :=
  match (FmpLink.decryptIncoming S packet nowMs).run ch.receiver with
  | .ok result receiver => { ch with receiver, accepted := ch.accepted ++ [(packet, result)] }
  | .error _ receiver => { ch with receiver }

def step (S : Suite) (ch : FmpChannel) : FmpChannelEvent → FmpChannel
  | .send payload msgType nowMs => ch.send S payload msgType nowMs
  | .deliver packet nowMs => ch.deliver S packet nowMs

/-- The ideal AEAD at one delivery: if the packet opens at the receiver, the sender sealed its
ciphertext under the same counter and associated data. -/
def Genuine (S : Suite) (ch : FmpChannel) : FmpChannelEvent → Prop
  | .send _ _ _ => True
  | .deliver packet _ => ∀ key est aad plaintext, FmpLink.keyOf ch.receiver.rx = some key →
      decodeFmpEstablished packet = .ok est →
      encodeFmpEstablishedHeader est.flags est.receiverIdx est.counter est.payloadLen = .ok aad →
      aeadOpen S key est.counter est.ciphertext aad = .ok plaintext →
      ∃ s ∈ ch.seals, s.counter = est.counter ∧ s.aad = aad ∧ s.ciphertext = est.ciphertext

instance (S : Suite) (ch : FmpChannel) : ∀ e, Decidable (Genuine S ch e)
  | .send _ _ _ => .isTrue trivial
  | .deliver packet _ =>
    match hk : FmpLink.keyOf ch.receiver.rx, hd : decodeFmpEstablished packet with
    | none, _ => .isTrue fun _ _ _ _ h => by rw [hk] at h; cases h
    | some _, .error _ => .isTrue fun _ _ _ _ _ h => by rw [hd] at h; cases h
    | some key, .ok est =>
      match ha : encodeFmpEstablishedHeader est.flags est.receiverIdx est.counter est.payloadLen with
      | .error _ => .isTrue fun _ _ _ _ _ h h' => by rw [hd] at h; cases h; rw [ha] at h'; cases h'
      | .ok aad =>
        decidable_of_iff ((aeadOpen S key est.counter est.ciphertext aad).toOption.isSome = true →
          ∃ s ∈ ch.seals, s.counter = est.counter ∧ s.aad = aad ∧ s.ciphertext = est.ciphertext)
          ⟨fun h _ _ _ _ h₁ h₂ h₃ h₄ => by
            rw [hk] at h₁; rw [hd] at h₂; cases h₁; cases h₂; rw [ha] at h₃; cases h₃
            exact h (by rw [h₄]; rfl),
          fun h h' => by
            cases ho : aeadOpen S key est.counter est.ciphertext aad with
            | error e => rw [ho] at h'; cases h'
            | ok plaintext => exact h key est aad plaintext hk hd ha ho⟩

/-- What ties a produced frame to its AEAD call. -/
structure Produces (S : Suite) (key : Bytes) (idx : Nat) (s : Seal) (f : ProducedFrame) : Prop where
  counter : s.counter = f.counter
  bound : f.counter < maxNonce
  packet : f.packet = s.aad ++ s.ciphertext
  idx_lt : idx < 2 ^ 32
  length : s.plaintext.length < 65536
  aad : s.aad = fmpHeaderBytes 0 idx f.counter s.plaintext.length
  ciphertext : s.ciphertext = S.encrypt key (noiseNonce f.counter) s.aad s.plaintext
  inner : ∃ timestamp, decodeFmpInner s.plaintext = .ok ⟨timestamp, f.msgType, f.payload⟩

/-- The counters of the frames accepted so far. -/
def acceptedCounters (ch : FmpChannel) : Set Int :=
  {c | ∃ a ∈ ch.accepted, ∃ f ∈ ch.produced, f.packet = a.1 ∧ c = f.counter}

/-- The invariant of the channel. -/
structure Inv (S : Suite) (key : Bytes) (idx : Nat) (ch : FmpChannel) : Prop where
  seals : ch.sender.Seals key idx
  opens : ch.receiver.Opens key idx
  sealed : ∀ s ∈ ch.seals, ∃ f ∈ ch.produced, Produces S key idx s f
  produced : ∀ f ∈ ch.produced, ∃ s, Produces S key idx s f
  fresh : ∀ f ∈ ch.produced, f.counter < ch.sender.txCounter
  distinct : ∀ f ∈ ch.produced, ∀ g ∈ ch.produced, f.counter = g.counter → f = g
  accepted : ∀ a ∈ ch.accepted, ∃ f ∈ ch.produced, a = (f.packet, f.msgType, f.payload)
  once : (ch.accepted.map Prod.fst).Nodup
  window : ch.receiver.rxReplay.Accepted ch.acceptedCounters

variable {S : Suite} {key : Bytes} {idx : Nat} {ch : FmpChannel} {nowMs : ℚ} {packet : Bytes}

/-- The counter stands in the header, so a frame has only one. -/
theorem Produces.counter_inj {s t : Seal} {f g : ProducedFrame} (hf : Produces S key idx s f)
    (hg : Produces S key idx t g) (h : f.packet = g.packet) : f.counter = g.counter := by
  have hbf : f.counter < 2 ^ 64 := hf.bound.trans (by decide)
  have hbg : g.counter < 2 ^ 64 := hg.bound.trans (by decide)
  rw [hf.packet, hg.packet, hf.aad, hg.aad] at h
  exact fmpHeaderBytes_inj hbf hbg (List.append_inj h (by simp)).1

theorem Inv.send (h : Inv S key idx ch) (payload : Bytes) (msgType : Nat) (nowMs : ℚ) :
    Inv S key idx (ch.send S payload msgType nowMs) := by
  unfold FmpChannel.send
  rw [FmpLink.run_encryptOutgoing h.seals]
  have hlink : ({ ch.sender with txCounter := ch.sender.txCounter + 1 } : FmpLink).Seals key idx :=
    ⟨h.seals.state, h.seals.tx, h.seals.key, h.seals.idx⟩
  have hfresh : ∀ f ∈ ch.produced, f.counter < ch.sender.txCounter + 1 :=
    fun f hf => (h.fresh f hf).trans (Nat.lt_succ_self _)
  by_cases hn : ch.sender.txCounter ≥ maxNonce
  · simp only [hn, if_true]
    exact h
  · simp only [hn, if_false]
    cases hs : ch.sender.sealing S payload msgType nowMs with
    | error e => exact { h with seals := hlink, fresh := hfresh }
    | ok s =>
      obtain ⟨hc, hi, hlt, hlen, haad, hct, hin⟩ := FmpLink.sealing_eq_ok h.seals hs
      have hnew : Produces S key idx s ⟨s.aad ++ s.ciphertext, ch.sender.txCounter, msgType, payload⟩ :=
        ⟨hc, Nat.lt_of_not_le hn, rfl, hi, hlen, haad, hct, _, hin⟩
      refine ⟨hlink, h.opens, ?_, ?_, ?_, ?_, ?_, h.once, ?_⟩
      · intro t ht
        rcases List.mem_append.1 ht with ht | ht
        · obtain ⟨f, hf, hp⟩ := h.sealed t ht
          exact ⟨f, List.mem_append_left _ hf, hp⟩
        · have ht' : t = s := by simpa [Except.toOption] using ht
          exact ⟨_, List.mem_append_right _ (List.mem_singleton_self _), ht' ▸ hnew⟩
      · intro f hf
        rcases List.mem_append.1 hf with hf | hf
        · exact h.produced f hf
        · exact ⟨s, List.mem_singleton.1 hf ▸ hnew⟩
      · intro f hf
        rcases List.mem_append.1 hf with hf | hf
        · exact hfresh f hf
        · rw [List.mem_singleton.1 hf]; exact Nat.lt_succ_self _
      · intro f hf g hg hfg
        rcases List.mem_append.1 hf with hf | hf <;> rcases List.mem_append.1 hg with hg | hg
        · exact h.distinct f hf g hg hfg
        · rw [List.mem_singleton.1 hg] at hfg; exact absurd hfg (h.fresh f hf).ne
        · rw [List.mem_singleton.1 hf] at hfg; exact absurd hfg (h.fresh g hg).ne'
        · rw [List.mem_singleton.1 hf, List.mem_singleton.1 hg]
      · intro a ha
        obtain ⟨f, hf, he⟩ := h.accepted a ha
        exact ⟨f, List.mem_append_left _ hf, he⟩
      · -- the new counter is no accepted one: an accepted byte string has the counter of an older frame
        convert h.window using 1
        ext c
        refine exists_congr fun a => and_congr_right fun ha => ⟨?_, ?_⟩
        · rintro ⟨f, hf, hfa, rfl⟩
          rcases List.mem_append.1 hf with hf | hf
          · exact ⟨f, hf, hfa, rfl⟩
          · obtain ⟨g, hg, rfl⟩ := h.accepted a ha
            obtain ⟨t, ht⟩ := h.produced g hg
            rw [List.mem_singleton.1 hf] at hfa
            exact absurd (hnew.counter_inj ht hfa) (h.fresh g hg).ne'
        · rintro ⟨f, hf, hfa, rfl⟩
          exact ⟨f, List.mem_append_left _ hf, hfa, rfl⟩

section
variable (hS : S.Lawful)
include hS

/-- A genuine packet that opens is a produced frame, and opens to the plaintext that was sealed. -/
theorem Inv.opened (h : Inv S key idx ch) (hg : Genuine S ch (.deliver packet nowMs)) {est : FmpEstablished}
    (hdec : decodeFmpEstablished packet = .ok est) {plaintext : Bytes}
    (hopen : aeadOpen S key est.counter est.ciphertext
      (fmpHeaderBytes est.flags est.receiverIdx est.counter est.payloadLen) = .ok plaintext) :
    ∃ f ∈ ch.produced, ∃ s, Produces S key idx s f ∧ packet = f.packet ∧ est.counter = f.counter ∧
      plaintext = s.plaintext := by
  obtain ⟨hf, hr, hc, hl, -, hbuf⟩ := decodeFmpEstablished_eq_ok hdec
  obtain ⟨s, hs, hcs, haad, hct⟩ := hg key est _ plaintext (by simp [FmpLink.keyOf, h.opens.rx]) hdec
    (encodeFmpEstablishedHeader_eq hf hr hc hl) hopen
  obtain ⟨f, hf, hp⟩ := h.sealed s hs
  refine ⟨f, hf, s, hp, ?_, hcs.symm.trans hp.counter, ?_⟩
  · rw [hbuf, hp.packet, haad, hct]
  · rw [← haad, ← hct, hp.ciphertext, ← hcs, hp.counter, aeadOpen_seal hS h.opens.key] at hopen
    exact (Except.ok.inj hopen).symm

/-- A produced frame that is in the window and not accepted yet is accepted, with what was sent. -/
theorem Inv.accepts (h : Inv S key idx ch) {f : ProducedFrame} (hf : f ∈ ch.produced)
    (hnew : (f.counter : Int) ∉ ch.acceptedCounters) (hwin : ch.receiver.rxReplay.high - 2048 < f.counter) :
    ∃ receiver, (FmpLink.decryptIncoming S f.packet nowMs).run ch.receiver = .ok (f.msgType, f.payload) receiver := by
  obtain ⟨s, hp⟩ := h.produced f hf
  obtain ⟨timestamp, hin⟩ := hp.inner
  have hbound : f.counter < 2 ^ 64 := hp.bound.trans (by decide)
  have hlen : s.ciphertext.length = s.plaintext.length + 16 := by rw [hp.ciphertext]; exact hS.encrypt_length _ _ _ _
  have hdec : decodeFmpEstablished f.packet = .ok ⟨0, idx, f.counter, s.plaintext.length, s.ciphertext⟩ := by
    rw [hp.packet, hp.aad]
    exact decodeFmpEstablished_append (by omega) hp.idx_lt hbound hp.length hlen
  have hcheck : ch.receiver.rxReplay.check f.counter = true :=
    h.window.check_iff.2 ⟨by omega, by have := hp.bound; simp only [maxNonce] at this; omega, hwin, hnew⟩
  have hopen : aeadOpen S key f.counter s.ciphertext (fmpHeaderBytes 0 idx f.counter s.plaintext.length) =
      .ok s.plaintext := by
    rw [hp.ciphertext, hp.aad]
    exact aeadOpen_seal hS h.opens.key _ _ _
  rw [FmpLink.run_decryptIncoming h.opens, hdec]
  simp only [ne_eq, not_true_eq_false, if_false, hcheck, Bool.not_true, Bool.false_eq_true, hopen, hin]
  exact ⟨_, rfl⟩

/-- The outcome of a genuine delivery: nothing changes, or a produced frame is taken. -/
theorem Inv.delivered (h : Inv S key idx ch) (hg : Genuine S ch (.deliver packet nowMs)) :
    (∃ e, (FmpLink.decryptIncoming S packet nowMs).run ch.receiver = .error e ch.receiver) ∨
    ∃ f ∈ ch.produced, ∃ s receiver, Produces S key idx s f ∧ packet = f.packet ∧
      (FmpLink.decryptIncoming S packet nowMs).run ch.receiver = .ok (f.msgType, f.payload) receiver ∧
      receiver.Opens key idx ∧ ch.receiver.rxReplay.check f.counter = true ∧
      receiver.rxReplay = (ch.receiver.rxReplay.accept f.counter).2 := by
  rw [FmpLink.run_decryptIncoming h.opens]
  cases hdec : decodeFmpEstablished packet with
  | error e => exact .inl ⟨e, rfl⟩
  | ok est =>
    dsimp only
    split
    · exact .inl ⟨_, rfl⟩
    split
    · exact .inl ⟨_, rfl⟩
    cases hop : aeadOpen S key est.counter est.ciphertext
        (fmpHeaderBytes est.flags est.receiverIdx est.counter est.payloadLen) with
    | error e => exact .inl ⟨e, rfl⟩
    | ok plaintext =>
      obtain ⟨f, hf, s, hp, hpk, hc, rfl⟩ := h.opened hS hg hdec hop
      obtain ⟨timestamp, hin⟩ := hp.inner
      have hcheck : ch.receiver.rxReplay.check f.counter = true := by
        have hw : ¬ (!ch.receiver.rxReplay.check est.counter) = true := ‹_›
        rw [← hc]
        simpa using hw
      simp only [hin]
      exact .inr ⟨f, hf, s, _, hp, hpk, rfl, ⟨h.opens.state, h.opens.rx, h.opens.key, h.opens.idx⟩, hcheck,
        by rw [← hc]; rfl⟩

theorem Inv.deliver (h : Inv S key idx ch) (hg : Genuine S ch (.deliver packet nowMs)) :
    Inv S key idx (ch.deliver S packet nowMs) := by
  unfold FmpChannel.deliver
  obtain ⟨e, he⟩ | ⟨f, hf, s, receiver, hp, rfl, hok, hopens, hcheck, hrep⟩ := h.delivered hS hg
  · rw [he]
    exact h
  · rw [hok]
    refine ⟨h.seals, hopens, h.sealed, h.produced, h.fresh, h.distinct, ?_, ?_, ?_⟩
    · intro a ha
      rcases List.mem_append.1 ha with ha | ha
      · exact h.accepted a ha
      · exact ⟨f, hf, List.mem_singleton.1 ha⟩
    · obtain ⟨-, -, -, hnew⟩ := h.window.check_iff.1 hcheck
      simp only [List.map_append, List.map_cons, List.map_nil]
      refine List.nodup_append.2 ⟨h.once, List.nodup_singleton _, fun a ha b hb => ?_⟩
      rw [List.mem_singleton.1 hb]
      rintro rfl
      obtain ⟨a, ha, hfa⟩ := List.mem_map.1 ha
      exact hnew ⟨a, ha, f, hf, hfa.symm, rfl⟩
    · rw [hrep]
      convert (h.window.accept hcheck).2 using 1
      ext c
      constructor
      · rintro ⟨a, ha, g, hg, hga, rfl⟩
        rcases List.mem_append.1 ha with ha | ha
        · exact .inr ⟨a, ha, g, hg, hga, rfl⟩
        · obtain ⟨t, ht⟩ := h.produced g hg
          rw [List.mem_singleton.1 ha] at hga
          exact .inl (by rw [ht.counter_inj hp hga])
      · rintro (rfl | ⟨a, ha, g, hg, hga, rfl⟩)
        · exact ⟨_, List.mem_append_right _ (List.mem_singleton_self _), f, hf, rfl, rfl⟩
        · exact ⟨a, List.mem_append_left _ ha, g, hg, hga, rfl⟩

theorem Inv.step {e : FmpChannelEvent} (h : Inv S key idx ch) (hg : Genuine S ch e) :
    Inv S key idx (ch.step S e) := by
  cases e with
  | send payload msgType nowMs => exact h.send payload msgType nowMs
  | deliver packet nowMs => exact h.deliver hS hg

omit hS in
/-- Two ends that agree on a key and an index are a channel in its initial state. -/
theorem Inv.init {sender receiver : FmpLink} (hs : sender.Seals key idx) (hr : receiver.Opens key idx)
    (hw : receiver.rxReplay = .new) : Inv S key idx (new sender receiver) := by
  have hnone : (new sender receiver).acceptedCounters = ∅ :=
    Set.eq_empty_of_forall_notMem fun c ⟨a, ha, _⟩ => nomatch ha
  refine ⟨hs, hr, nofun, nofun, nofun, nofun, nofun, .nil, ?_⟩
  rw [hnone, show (new sender receiver).receiver.rxReplay = .new from hw]
  exact ReplayWindow.accepted_new

/-- Either direction of a completed handshake is a channel. -/
theorem Inv.of_handshake {I R : Party} {remoteStatic : Bytes} {idxI idxR : Nat} {nowI nowR : ℚ}
    {h : FmpHandshake} {sender receiver : FmpLink} (hI : I.Valid S) (hR : R.Valid S)
    (hr : SameX remoteStatic R.identity.publicKey) (hiI : idxI < 2 ^ 32) (hiR : idxR < 2 ^ 32)
    (hh : FmpLink.handshake S I R remoteStatic idxI idxR nowI nowR = .ok h)
    (hends : (sender = h.initiator ∧ receiver = h.responder) ∨ (sender = h.responder ∧ receiver = h.initiator)) :
    ∃ key idx, Inv S key idx (new sender receiver) := by
  obtain ⟨m, h', -, hh', -, -, -, -, -, -, -, -, hends'⟩ := @FmpLink.handshake_completes _ _ _ _ _ _ nowI nowR
    hS hI hR hr hiI hiR
  obtain rfl : h = h' := Except.ok.inj (hh.symm.trans hh')
  obtain ⟨kt, hkt, hlt⟩ := hends'.tx_key
  obtain ⟨kr, hkr, hlr⟩ := hends'.rx_key
  rcases hends with ⟨rfl, rfl⟩ | ⟨rfl, rfl⟩
  · exact ⟨kt, idxR, .init ⟨hends'.i_state, hkt, hlt, hends'.i_idx.2⟩
      ⟨hends'.r_state, hends'.i_tx ▸ hkt, hlt, hends'.r_idx.1⟩ hends'.fresh.2.2.2⟩
  · exact ⟨kr, idxI, .init ⟨hends'.r_state, hends'.r_tx ▸ hkr, hlr, hends'.r_idx.2⟩
      ⟨hends'.i_state, hkr, hlr, hends'.i_idx.1⟩ hends'.fresh.2.2.1⟩

/-- The link is a secure channel: along every run with an ideal AEAD, only produced frames are taken,
each at most once and with what was sent; every fresh frame still in the window would be taken; and a
rejected packet changes nothing. -/
theorem secure {I R : Party} {remoteStatic : Bytes} {idxI idxR : Nat} {nowI nowR : ℚ}
    {h : FmpHandshake} {sender receiver : FmpLink} (hI : I.Valid S) (hR : R.Valid S)
    (hr : SameX remoteStatic R.identity.publicKey) (hiI : idxI < 2 ^ 32) (hiR : idxR < 2 ^ 32)
    (hh : FmpLink.handshake S I R remoteStatic idxI idxR nowI nowR = .ok h)
    (hends : (sender = h.initiator ∧ receiver = h.responder) ∨ (sender = h.responder ∧ receiver = h.initiator))
    {es : List FmpChannelEvent} (hes : Along (Genuine S) (FmpChannel.step S) (new sender receiver) es)
    {ch : FmpChannel} (hch : ch = run (FmpChannel.step S) (new sender receiver) es) :
    (∀ a ∈ ch.accepted, ∃ f ∈ ch.produced, a = (f.packet, f.msgType, f.payload)) ∧
    (ch.accepted.map Prod.fst).Nodup ∧
    (∀ f ∈ ch.produced, f.packet ∉ ch.accepted.map Prod.fst →
      (∀ g ∈ ch.produced, g.packet ∈ ch.accepted.map Prod.fst → (g.counter : Int) - 2048 < f.counter) →
      ∀ nowMs, ∃ receiver,
        (FmpLink.decryptIncoming S f.packet nowMs).run ch.receiver = .ok (f.msgType, f.payload) receiver) ∧
    (∀ packet nowMs e receiver, Genuine S ch (.deliver packet nowMs) →
      (FmpLink.decryptIncoming S packet nowMs).run ch.receiver = .error e receiver →
      receiver.rxReplay = ch.receiver.rxReplay ∧ receiver.receiverReports = ch.receiver.receiverReports) := by
  obtain ⟨key, idx, h0⟩ := Inv.of_handshake hS hI hR hr hiI hiR hh hends
  have hinv : Inv S key idx ch := by
    rw [hch]
    exact hes.invariant (fun _ _ hi hg => hi.step hS hg) h0
  refine ⟨hinv.accepted, hinv.once, fun f hf hnew hwin nowMs => ?_, fun packet nowMs e receiver hg he => ?_⟩
  · refine hinv.accepts hS hf ?_ ?_
    · rintro ⟨a, ha, g, hg, hga, hc⟩
      obtain rfl := hinv.distinct f hf g hg (by omega)
      exact hnew (List.mem_map.2 ⟨a, ha, hga.symm⟩)
    · rcases hinv.window.high_mem with hh | ⟨a, ha, g, hg, hga, hc⟩
      · rw [hh]; omega
      · rw [hc]
        exact hwin g hg (List.mem_map.2 ⟨a, ha, hga.symm⟩)
  · rcases hinv.delivered hS hg with ⟨e', he'⟩ | ⟨f, -, s, receiver', -, -, hok, -⟩
    · rw [he'] at he
      cases he
      exact ⟨rfl, rfl⟩
    · rw [hok] at he
      cases he

end

/-- A handshake of two toy parties, the initiator holding the odd parity of the responder's key. -/
def toyHandshake : Except String FmpHandshake :=
  FmpLink.handshake toySuite (toyParty 1 11) (toyParty 2 12) (3 :: List.replicate 32 2) 7 9 0 0

/-- One frame sent, its packet delivered twice and then damaged. -/
def toyEvents (h : FmpHandshake) : List FmpChannelEvent :=
  let ch := (new h.initiator h.responder).send toySuite [1, 2, 3] 16 5
  let packet := (ch.produced.map ProducedFrame.packet).headD []
  [.send [1, 2, 3] 16 5, .deliver packet 6, .deliver packet 7, .deliver (packet.set 20 99) 8]

theorem toyHandshake_isSome : toyHandshake.toOption.isSome = true := by decide +kernel

theorem secure_toy : ∃ h ch, toyHandshake = .ok h ∧
    ch = run (FmpChannel.step toySuite) (new h.initiator h.responder) (toyEvents h) ∧
    (∀ a ∈ ch.accepted, ∃ f ∈ ch.produced, a = (f.packet, f.msgType, f.payload)) ∧ ch.accepted.length = 1 := by
  refine ⟨toyHandshake.toOption.get toyHandshake_isSome, _, eq_ok_get toyHandshake_isSome, rfl, ?_, by decide +kernel⟩
  exact (secure toySuite_lawful (toyParty_valid 1 11) (toyParty_valid 2 12) (toyIdentity_sameX 2) (by decide) (by decide)
    (eq_ok_get toyHandshake_isSome) (.inl ⟨rfl, rfl⟩) (by decide +kernel) rfl).1

end FmpChannel

end Fips
