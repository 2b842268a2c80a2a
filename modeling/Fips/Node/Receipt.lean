import Fips.Fsp.Evolution
import Fips.Node.Session

/-!
# What a record does to a session

`Receipt` lists the ways `handleEstablished` can end, thrown or not: the record is dropped, queued, only
takes its counter (its content does not decode), or is opened, with the promotion and the deliveries
that follow. `Sealing` does the same for the sending side.
-/

namespace Fips
open Exec

/-- Is a payload handed to the application? -/
def Effect.isDelivery : Effect → Bool
  | .datagram _ _ => true
  | .service _ _ => true
  | .linkNegotiation _ _ => true
  | .endpointData _ _ => true
  | _ => false

namespace Session

/-- The keys a record is tried under in a slot. -/
def ReceiveSlot.fsp (s : Session) : ReceiveSlot → Option FspSession
  | .current => some s.fsp
  | .pending p => some p
  | .previous p => some p.fsp
  | .queue => none
  | .mismatch => none

/-- The session with the object of the slot replaced. -/
def ReceiveSlot.put (f : FspSession) (s : Session) : ReceiveSlot → Session
  | .current => { s with fsp := f }
  | .pending _ => { s with pendingResponderFsp := some f }
  | .previous p => { s with previousFsp := some { p with fsp := f } }
  | .queue => s
  | .mismatch => s

/-- What the callback of `decryptIncoming` makes of the session. -/
def ReceiveSlot.adopt (k : Bool) (dateMs : ℚ) (f : FspSession) (s : Session) : ReceiveSlot → Session
  | .pending _ => s.promotePendingSession f k dateMs
  | _ => s

/-- The effects of a datagram. -/
def datagramEffects (cfg : ManagerConfig) (src : Bytes) (data : DataPacket) : List Effect :=
  if data.dstPort = LINK_NEGOTIATION_SERVICE_PORT then [.linkNegotiation src data.payload]
  else .datagram src data :: if data.dstPort ∈ cfg.services then [.service src data] else []

theorem wp_deliverDatagram {cfg : ManagerConfig} {src : Bytes} {data : DataPacket} {c : SessionCtx}
    {Q : Unit → SessionCtx → Prop} {E : String → SessionCtx → Prop}
    (h : Q () { c with log := c.log ++ datagramEffects cfg src data }) : wp (deliverDatagram cfg src data) Q E c := by
  unfold deliverDatagram
  unfold datagramEffects at h
  by_cases hp : data.dstPort = LINK_NEGOTIATION_SERVICE_PORT
  · simpa [hp, emit] using h
  · by_cases hs : data.dstPort ∈ cfg.services <;> simpa [hp, hs, emit] using h

/-- The effects of an opened record. -/
def recordEffects (cfg : ManagerConfig) (src : Bytes) (receivePubkey : Option Bytes) (inner : FspInnerPacket) :
    List Effect :=
  if inner.msgType = FSP_MSG_DATA then
    match decodeDataPacket inner.payload with
    | .ok data => datagramEffects cfg src data
    | .error _ => []
  else if inner.msgType = FSP_MSG_ENDPOINT_DATA then [.endpointData src inner.payload]
  else if inner.msgType = FSP_MSG_TRAVERSAL_OFFER then
    match receivePubkey with
    | some remotePubkey =>
      match cfg.assertPeerAllowed remotePubkey, cfg.traversalAnswer inner.payload remotePubkey with
      | .ok (), some answer => [.traversalAnswer answer]
      | _, _ => []
    | none => []
  else []

theorem filter_datagramEffects {cfg : ManagerConfig} {src : Bytes} {data : DataPacket} :
    (datagramEffects cfg src data).filter Effect.isDelivery = datagramEffects cfg src data := by
  unfold datagramEffects
  by_cases hp : data.dstPort = LINK_NEGOTIATION_SERVICE_PORT
  · simp [hp, Effect.isDelivery]
  · by_cases hs : data.dstPort ∈ cfg.services <;> simp [hp, hs, Effect.isDelivery]

/-- What an opened record hands to the application. -/
def deliveries (cfg : ManagerConfig) (src : Bytes) (inner : FspInnerPacket) : List Effect :=
  if inner.msgType = FSP_MSG_DATA then
    match decodeDataPacket inner.payload with
    | .ok data => datagramEffects cfg src data
    | .error _ => []
  else if inner.msgType = FSP_MSG_ENDPOINT_DATA then [.endpointData src inner.payload]
  else []

theorem filter_recordEffects {cfg : ManagerConfig} {src : Bytes} {receivePubkey : Option Bytes} {inner : FspInnerPacket} :
    (recordEffects cfg src receivePubkey inner).filter Effect.isDelivery = deliveries cfg src inner := by
  unfold recordEffects deliveries
  by_cases hd : inner.msgType = FSP_MSG_DATA
  · simp only [hd, if_true]
    cases decodeDataPacket inner.payload with
    | error e => rfl
    | ok data => exact filter_datagramEffects
  by_cases he : inner.msgType = FSP_MSG_ENDPOINT_DATA
  · simp only [he, if_true]
    rfl
  simp only [hd, he, if_false]
  split
  · cases receivePubkey with
    | none => rfl
    | some P =>
      dsimp only
      split <;> rfl
  · rfl

section
variable {S : Suite} {cfg : ManagerConfig} {env : Env} {peer : PeerId} {src : NodeAddr} {frame : Bytes}
  {receivePubkey : Option Bytes} {inner : FspInnerPacket} {c : SessionCtx} {s : Session} {log : List Effect}

/-- Decoding and dispatching a record only emits, whether or not it throws. -/
theorem wp_dispatch {P : SessionCtx → Prop}
    (h : P { c with log := c.log ++ recordEffects cfg (c.session.eventName src) receivePubkey inner }) :
    wp (lift (FspSession.contentOf inner))
      (fun result => wp (dispatch cfg src receivePubkey result) (fun _ => P) (fun _ => P)) (fun _ => P) c := by
  unfold FspSession.contentOf dispatch
  unfold recordEffects at h
  by_cases hd : inner.msgType = FSP_MSG_DATA
  · cases hdec : decodeDataPacket inner.payload with
    | error e => simpa [hd, hdec, wp_lift] using h
    | ok data =>
      simp only [hd, hdec, if_true] at h
      simpa [hd, wp_lift] using wp_deliverDatagram h
  by_cases he : inner.msgType = FSP_MSG_ENDPOINT_DATA
  · have hne : FSP_MSG_ENDPOINT_DATA ≠ FSP_MSG_TRAVERSAL_OFFER := by decide
    rw [he] at hd
    simp only [hd, he, if_false, if_true] at h
    cases receivePubkey <;> simpa [hd, he, hne, wp_lift, emit] using h
  by_cases ho : inner.msgType = FSP_MSG_TRAVERSAL_OFFER
  · rw [ho] at hd he
    simp only [hd, he, ho, if_false, if_true] at h
    cases receivePubkey with
    | none => simpa [hd, he, ho, wp_lift] using h
    | some remotePubkey =>
      cases ha : cfg.assertPeerAllowed remotePubkey with
      | error e => simpa [hd, he, ho, ha, wp_lift] using h
      | ok u =>
        cases ht : cfg.traversalAnswer inner.payload remotePubkey with
        | none => simpa [hd, he, ho, ha, ht, wp_lift] using h
        | some answer => simpa [hd, he, ho, ha, ht, wp_lift, emit] using h
  · cases receivePubkey <;> simpa [hd, he, ho, wp_lift] using h

theorem receiveSlot_pending {k : Bool} {p : FspSession} (h : s.receiveSlot k = .pending p) :
    s.pendingResponderFsp = some p ∧ p.state = .established := by
  unfold receiveSlot at h
  split at h
  · cases h
  · split at h
    · rename_i pending _ _
      split at h
      · cases h
        exact ⟨‹_›, ‹_›⟩
      · cases h
      · cases hf : (s.previousFsp.filter (·.kBit = k)) <;> simp [hf] at h
    · cases hf : (s.previousFsp.filter (·.kBit = k)) <;> simp [hf] at h

theorem receiveSlot_previous {k : Bool} {p : PreviousFsp} (h : s.receiveSlot k = .previous p) :
    s.previousFsp = some p ∧ p.kBit = k := by
  have hfilter (h : ((s.previousFsp.filter (·.kBit = k)).elim ReceiveSlot.mismatch .previous) = .previous p) :
      s.previousFsp = some p ∧ p.kBit = k := by
    cases hf : s.previousFsp.filter (·.kBit = k) with
    | none => simp [hf] at h
    | some q =>
      simp only [hf, Option.elim_some, ReceiveSlot.previous.injEq] at h
      subst h
      simpa [Option.filter_eq_some_iff] using hf
  unfold receiveSlot at h
  split at h
  · cases h
  · split at h
    · split at h
      · cases h
      · cases h
      · exact hfilter h
    · exact hfilter h

theorem put_pending {p : FspSession} (h : s.pendingResponderFsp = some p) : { s with pendingResponderFsp := some p } = s := by
  cases s; cases h; rfl

theorem put_previous {p : PreviousFsp} (h : s.previousFsp = some p) :
    { s with previousFsp := some { p with fsp := p.fsp } } = s := by
  cases s; cases h; rfl

/-- The record was authenticated under the keys `f` of `slot`. -/
structure Authenticated (S : Suite) (env : Env) (frame : Bytes) (s : Session) (slot : ReceiveSlot) (f : FspSession)
    (est : FspEstablished) (pt : Bytes) : Prop where
  state : s.fsp.state = .established
  tried : (s.prunePreviousFsp env.dateMs).receiveSlot (hasFlag est.flags FSP_FLAG_K) = slot
  fsp : slot.fsp (s.prunePreviousFsp env.dateMs) = some f
  auth : f.authenticate S frame = .ok (est, pt)

/-- The keys that open a record as it arrives, with the record and its plaintext. -/
def authenticates (S : Suite) (env : Env) (frame : Bytes) (s : Session) : Option (FspSession × FspEstablished × Bytes) :=
  if s.fsp.state = .established then do
    let est ← (decodeFspEstablished frame).toOption
    let s := s.prunePreviousFsp env.dateMs
    let f ← (s.receiveSlot (hasFlag est.flags FSP_FLAG_K)).fsp s
    let (est, pt) ← (f.authenticate S frame).toOption
    return (f, est, pt)
  else none

theorem authenticates_of_not_established (h : s.fsp.state ≠ .established) : s.authenticates S env frame = none := by
  unfold authenticates
  rw [if_neg h]

/-- Which keys a record is tried under once it has been decoded. -/
theorem authenticates_of_decode {est : FspEstablished} (hst : s.fsp.state = .established)
    (hest : decodeFspEstablished frame = .ok est) : s.authenticates S env frame =
      ((s.prunePreviousFsp env.dateMs).receiveSlot (hasFlag est.flags FSP_FLAG_K)).fsp (s.prunePreviousFsp env.dateMs)
        >>= fun f => (f.authenticate S frame).toOption >>= fun r => some (f, r) := by
  unfold authenticates
  rw [if_pos hst, hest]
  rfl

theorem Authenticated.authenticates {slot : ReceiveSlot} {f : FspSession} {est : FspEstablished} {pt : Bytes}
    (h : Authenticated S env frame s slot f est pt) : s.authenticates S env frame = some (f, est, pt) := by
  obtain ⟨_, _, _, _, _, _, hd, -⟩ := FspSession.authenticate_eq_ok h.auth
  rw [authenticates_of_decode h.state hd, h.tried, h.fsp]
  simp only [Option.bind_eq_bind, Option.bind_some, h.auth]
  rfl

/-- The session once an authenticated record has taken its counter. -/
def ReceiveSlot.take (env : Env) (s : Session) (slot : ReceiveSlot) (f : FspSession) (est : FspEstablished) : Session :=
  slot.put (f.taken est.counter) (s.prunePreviousFsp env.dateMs)

/-- The session once the record has been opened. -/
def ReceiveSlot.received (env : Env) (s : Session) (slot : ReceiveSlot) (f : FspSession) (est : FspEstablished) :
    Session :=
  slot.adopt (hasFlag est.flags FSP_FLAG_K) env.dateMs (f.taken est.counter) (slot.take env s f est)

/-- The session with a record at the end of its queue. -/
def queue (peer : PeerId) (frame : Bytes) (s : Session) : Session :=
  { s with
    earlyEstablishedRecords := s.earlyEstablishedRecords ++ [⟨peer, frame⟩]
    earlyEstablishedBytes := s.earlyEstablishedBytes + frame.length }

/-- The ways `handleEstablished` leaves the session, with the effects it had. Only a record that some keys
open gets past the first three. -/
inductive Receipt (S : Suite) (cfg : ManagerConfig) (env : Env) (peer : PeerId) (src : NodeAddr) (frame : Bytes)
    (s : Session) : Session → List Effect → Prop
  | dropped (ha : s.authenticates S env frame = none) : Receipt S cfg env peer src frame s s []
  | pruned (ha : s.authenticates S env frame = none) (h : s.fsp.state = .established) :
      Receipt S cfg env peer src frame s (s.prunePreviousFsp env.dateMs) []
  | queued {s₁ : Session} (ha : s.authenticates S env frame = none)
      (h : s₁ = s ∨ s.fsp.state = .established ∧ s₁ = s.prunePreviousFsp env.dateMs) :
      Receipt S cfg env peer src frame s (s₁.queue peer frame) []
  | taken {slot : ReceiveSlot} {f : FspSession} {est : FspEstablished} {pt : Bytes} {e : String}
      (h : Authenticated S env frame s slot f est pt) (hi : decodeFspInner pt = .error e) :
      Receipt S cfg env peer src frame s (slot.take env s f est) []
  | opened {slot : ReceiveSlot} {f : FspSession} {est : FspEstablished} {pt : Bytes} {inner : FspInnerPacket}
      (h : Authenticated S env frame s slot f est pt) (hi : decodeFspInner pt = .ok inner)
      (reports : Option ReceiverReports) : Receipt S cfg env peer src frame s
        { slot.received env s f est with receiverReports := reports }
        (.reverseRoute src peer :: recordEffects cfg ((slot.received env s f est).eventName src) f.remotePubkey inner)

theorem wp_queueEarlyEstablishedRecord {P : SessionCtx → Prop} (h₀ : P c)
    (h : P { c with session := c.session.queue peer frame }) :
    wp (queueEarlyEstablishedRecord peer frame src) (fun _ => P) (fun _ => P) c := by
  unfold queueEarlyEstablishedRecord
  simp only [wp_bind, wp_lift, wp_get, wp_ite, wp_throw, update, wp_modify]
  exact ⟨fun _ _ => ⟨fun _ => h₀, fun _ => h⟩, fun _ _ => h₀⟩

theorem wp_onAuthenticated {promote : Session → Session} {currentEpoch : Bool} {received : ReceivedRecord}
    {Q : Unit → SessionCtx → Prop} {E : String → SessionCtx → Prop}
    (h : ∀ reports, Q () ⟨{ promote c.session with receiverReports := reports }, c.log ++ [.reverseRoute src peer]⟩) :
    wp (onAuthenticated src peer env promote currentEpoch received) Q E c := by
  simp only [onAuthenticated, wp_bind, emit, update, wp_modify]
  exact h _

/-- The record with its keys in `slot` of the pruned session. -/
theorem wp_receiveRecord {est : FspEstablished} {slot : ReceiveSlot} (hst : s.fsp.state = .established)
    (hest : decodeFspEstablished frame = .ok est)
    (hslot : (s.prunePreviousFsp env.dateMs).receiveSlot (hasFlag est.flags FSP_FLAG_K) = slot) :
    wp (receiveRecord S cfg env peer src frame (hasFlag est.flags FSP_FLAG_K) slot)
      (fun _ c' => ∃ delta, Receipt S cfg env peer src frame s c'.session delta ∧ c'.log = log ++ delta)
      (fun _ c' => ∃ delta, Receipt S cfg env peer src frame s c'.session delta ∧ c'.log = log ++ delta)
      ⟨s.prunePreviousFsp env.dateMs, log⟩ := by
  -- once the record is authenticated, `est` is what it decodes to
  have hauth {f : FspSession} {est' pt} (hf : slot.fsp (s.prunePreviousFsp env.dateMs) = some f)
      (ha : f.authenticate S frame = .ok (est', pt)) : est' = est ∧ Authenticated S env frame s slot f est pt := by
    obtain ⟨_, _, _, _, _, _, hd, -⟩ := FspSession.authenticate_eq_ok ha
    rw [hest] at hd
    cases hd
    exact ⟨rfl, hst, hslot, hf, ha⟩
  have hnone (h : ∀ f, slot.fsp (s.prunePreviousFsp env.dateMs) = some f → ∃ e, f.authenticate S frame = .error e) :
      s.authenticates S env frame = none := by
    rw [authenticates_of_decode hst hest, hslot]
    cases hf : slot.fsp (s.prunePreviousFsp env.dateMs) with
    | none => rfl
    | some f =>
      obtain ⟨e, he⟩ := h f hf
      simp only [Option.bind_eq_bind, Option.bind_some, he]
      rfl
  unfold receiveRecord
  cases slot with
  | queue =>
    have hna := hnone fun _ h => absurd h (Option.some_ne_none _).symm
    exact wp_queueEarlyEstablishedRecord ⟨[], .pruned hna hst, by simp⟩ ⟨[], .queued hna (.inr ⟨hst, rfl⟩), by simp⟩
  | mismatch => exact ⟨[], .pruned (hnone fun _ h => absurd h (Option.some_ne_none _).symm) hst, by simp⟩
  | current =>
    simp only [wp_bind, onFsp, wp_zoom]
    refine wp_mono FspSession.wp_openRecord ?_ ?_
    · rintro ⟨received, inner⟩ f' ⟨est', pt, ha, hi, rfl⟩
      obtain ⟨rfl, ha⟩ := hauth rfl ha
      refine wp_onAuthenticated fun reports => ?_
      simp only [wp_bind, wp_get]
      refine wp_dispatch ?_
      exact ⟨_, .opened ha hi reports, by simp [ReceiveSlot.received, ReceiveSlot.adopt, eventName]; rfl⟩
    · rintro e f' (⟨rfl, he⟩ | ⟨est', pt, ha, hi, rfl⟩)
      · refine ⟨[], .pruned (hnone ?_) hst, by simp⟩
        rintro f ⟨⟩
        exact ⟨e, he⟩
      · obtain ⟨rfl, ha⟩ := hauth rfl ha
        exact ⟨[], .taken ha hi, by simp⟩
  | pending p =>
    have hput := put_pending (receiveSlot_pending hslot).1
    simp only [wp_bind, onPending, wp_zoom]
    refine wp_mono FspSession.wp_openRecord ?_ ?_
    · rintro ⟨received, inner⟩ f' ⟨est', pt, ha, hi, rfl⟩
      obtain ⟨rfl, ha⟩ := hauth rfl ha
      simp only [wp_bind, wp_get]
      refine wp_onAuthenticated fun reports => ?_
      refine wp_bind.2 (wp_dispatch ?_)
      exact ⟨_, .opened ha hi reports, by simp; rfl⟩
    · rintro e f' (⟨rfl, he⟩ | ⟨est', pt, ha, hi, rfl⟩)
      · refine ⟨[], hput.symm ▸ Receipt.pruned (s := s) (hnone ?_) hst, by simp⟩
        rintro f ⟨⟩
        exact ⟨e, he⟩
      · obtain ⟨rfl, ha⟩ := hauth rfl ha
        exact ⟨[], .taken ha hi, by simp⟩
  | previous p =>
    have hput := put_previous (receiveSlot_previous hslot).1
    simp only [wp_bind, onPrevious, wp_zoom]
    refine wp_mono FspSession.wp_openRecord ?_ ?_
    · rintro ⟨received, inner⟩ f' ⟨est', pt, ha, hi, rfl⟩
      obtain ⟨rfl, ha⟩ := hauth rfl ha
      refine wp_onAuthenticated fun reports => ?_
      refine wp_bind.2 (wp_dispatch ?_)
      exact ⟨_, .opened ha hi reports, by simp; rfl⟩
    · rintro e f' (⟨rfl, he⟩ | ⟨est', pt, ha, hi, rfl⟩)
      · refine ⟨[], hput.symm ▸ Receipt.pruned (s := s) (hnone ?_) hst, by simp⟩
        rintro f ⟨⟩
        exact ⟨e, he⟩
      · obtain ⟨rfl, ha⟩ := hauth rfl ha
        exact ⟨[], .taken ha hi, by simp⟩

theorem wp_handleEstablished : wp (handleEstablished S cfg env peer src frame)
    (fun _ c' => ∃ delta, Receipt S cfg env peer src frame s c'.session delta ∧ c'.log = log ++ delta)
    (fun _ c' => ∃ delta, Receipt S cfg env peer src frame s c'.session delta ∧ c'.log = log ++ delta) ⟨s, log⟩ := by
  unfold handleEstablished
  simp only [wp_bind, wp_get]
  have hdropped (h : s.authenticates S env frame = none) :
      ∃ delta, Receipt S cfg env peer src frame s s delta ∧ log = log ++ delta := ⟨[], .dropped h, by simp⟩
  cases hst : s.fsp.state with
  | init => exact hdropped (authenticates_of_not_established (by simp [hst]))
  | closed => exact hdropped (authenticates_of_not_established (by simp [hst]))
  | handshaking =>
    have hna : s.authenticates S env frame = none := authenticates_of_not_established (by simp [hst])
    exact wp_queueEarlyEstablishedRecord (hdropped hna) ⟨[], .queued hna (.inl rfl), by simp⟩
  | established =>
    simp only [wp_bind, update, wp_modify, wp_lift, wp_get]
    refine ⟨fun est hest => wp_receiveRecord hst hest rfl, fun e he => ⟨[], .pruned ?_ hst, by simp⟩⟩
    unfold authenticates
    rw [if_pos hst, he]
    rfl

/-! ### Sending -/

/-- Sending seals under the current keys; only their counter, the route warm-up and the receiver reports
move. -/
structure Sealing (s s' : Session) : Prop where
  sent : ∃ n warmup reports, s' = { s with
    fsp := { s.fsp with txCounter := n }, routeWarmup := warmup, receiverReports := reports }

theorem Sealing.refl (s : Session) : Sealing s s := ⟨s.fsp.txCounter, s.routeWarmup, s.receiverReports, rfl⟩

theorem Sealing.warmup (s : Session) (w : Option (PeerId × Nat)) : Sealing s { s with routeWarmup := w } :=
  ⟨s.fsp.txCounter, w, s.receiverReports, rfl⟩

theorem Sealing.reports (s : Session) (r : Option ReceiverReports) : Sealing s { s with receiverReports := r } :=
  ⟨s.fsp.txCounter, s.routeWarmup, r, rfl⟩

theorem Sealing.trans {s₁ s₂ s₃ : Session} (h : Sealing s₁ s₂) (h' : Sealing s₂ s₃) : Sealing s₁ s₃ := by
  obtain ⟨n, w, r, rfl⟩ := h
  obtain ⟨n', w', r', rfl⟩ := h'
  exact ⟨n', w', r', rfl⟩

/-- The outcomes of a method that only seals. -/
theorem wp_onFsp_encryptMessage {msgType flags : Nat} {payload : Bytes} {cs : Option (List NodeAddr × List NodeAddr)}
    {Q : Bytes → SessionCtx → Prop} {E : String → SessionCtx → Prop}
    (hQ : ∀ b s', Sealing c.session s' → Q b { c with session := s' })
    (hE : ∀ e s', Sealing c.session s' → E e { c with session := s' }) :
    wp (onFsp (FspSession.encryptMessage S msgType payload flags cs env.nowMs)) Q E c := by
  simp only [onFsp, wp_zoom]
  refine wp_mono FspSession.wp_encryptMessage ?_ ?_
  · rintro b f' ⟨n, rfl⟩
    exact hQ b _ ⟨n, c.session.routeWarmup, c.session.receiverReports, rfl⟩
  · rintro e f' ⟨n, rfl⟩
    exact hE e _ ⟨n, c.session.routeWarmup, c.session.receiverReports, rfl⟩

theorem wp_sealWarmup {route : Route} {remaining : Nat} {Q : List Bytes → SessionCtx → Prop}
    {E : String → SessionCtx → Prop} (hQ : ∀ b s', Sealing c.session s' → Q b { c with session := s' })
    (hE : ∀ e s', Sealing c.session s' → E e { c with session := s' }) : wp (sealWarmup S env route remaining) Q E c := by
  unfold sealWarmup
  cases env.destCoords with
  | none => exact hQ [] c.session (.refl _)
  | some destCoords =>
    simp only [wp_ite, wp_bind, wp_get, wp_pure]
    refine ⟨fun _ => ?_, fun _ => hQ [] c.session (.refl _)⟩
    refine wp_onFsp_encryptMessage (fun b s' hs => ?_) hE
    simp only [wp_bind, update, wp_modify, wp_pure]
    exact hQ _ _ (hs.trans (.warmup _ _))

/-- Sending hands frames for the session's own node to the routing layer, all or none. -/
theorem wp_sendSessionMessage {route : Route} {msgType : Nat} {payload : Bytes} :
    wp (sendSessionMessage S cfg env route msgType payload)
      (fun _ c' => Sealing c.session c'.session ∧
        ∃ frames : List Bytes, c'.log = c.log ++ frames.map (.send c.session.remoteNodeAddr))
      (fun _ c' => Sealing c.session c'.session ∧ c'.log = c.log) c := by
  unfold sendSessionMessage
  simp only [wp_bind, wp_get, wp_lift]
  refine ⟨fun _ _ => ?_, fun _ _ => ⟨.refl _, trivial⟩⟩
  rw [wp_ite]
  refine ⟨fun _ => ?_, fun _ => ?_⟩
  · simp only [wp_bind, update, wp_modify]
    refine wp_onFsp_encryptMessage (fun b s' hs => ?_) (fun e s' hs => ⟨(Sealing.warmup _ _).trans hs, rfl⟩)
    simp only [emit, wp_modify]
    exact ⟨(Sealing.warmup _ _).trans hs, [b], rfl⟩
  · simp only [wp_bind, update, wp_modify]
    refine wp_sealWarmup (fun warmup s₁ h₁ => ?_) (fun e s' hs => ⟨(Sealing.warmup _ _).trans hs, rfl⟩)
    refine wp_bind.2 (wp_onFsp_encryptMessage (fun b s₂ h₂ => ?_) (fun e s' hs => ?_))
    · simp only [wp_modify]
      exact ⟨((Sealing.warmup _ _).trans h₁).trans h₂, warmup ++ [b], rfl⟩
    · exact ⟨((Sealing.warmup _ _).trans h₁).trans hs, rfl⟩

theorem wp_sendReceiverReport {route : Route} :
    wp (sendReceiverReport S cfg env route)
      (fun _ c' => Sealing c.session c'.session ∧
        ∃ frames : List Bytes, c'.log = c.log ++ frames.map (.send c.session.remoteNodeAddr))
      (fun _ c' => Sealing c.session c'.session ∧ c'.log = c.log) c := by
  unfold sendReceiverReport
  simp only [wp_bind, wp_get, wp_ite, wp_pure]
  refine ⟨fun _ => ?_, fun _ => ⟨.refl _, [], by simp⟩⟩
  cases c.session.receiverReports with
  | none => exact ⟨.refl _, [], by simp⟩
  | some reports =>
    simp only [wp_bind, update, wp_modify]
    cases (reports.build env.nowMs).1 with
    | none => exact ⟨.reports _ _, [], by simp⟩
    | some report =>
      refine wp_mono wp_sendSessionMessage ?_ ?_
      · rintro _ c' ⟨hs, hlog⟩
        exact ⟨(Sealing.reports _ _).trans hs, hlog⟩
      · rintro _ c' ⟨hs, hlog⟩
        exact ⟨(Sealing.reports _ _).trans hs, hlog⟩

end

end Session

end Fips
