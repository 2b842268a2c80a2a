import Fips.Fsp.Records
import Fips.Node.Arrivals
import Fips.Node.RemoteKeys

/-!
# Delivery

What the manager hands to the application over a run is what was sealed for it, each record at most once,
whatever frames arrive and however often the keys change. A frame that fails authentication delivers
nothing and leaves the key epochs alone; only a previous epoch whose drain is over goes.
-/

namespace Fips
open Exec Session

namespace Manager

namespace Opening

/-- The keys the record was tried under. -/
def slot (o : Opening) : ReceiveSlot :=
  (o.session.prunePreviousFsp o.env.dateMs).receiveSlot (hasFlag o.est.flags FSP_FLAG_K)

/-- The name listeners get for the sender. -/
def name (o : Opening) : Bytes := o.sender o.slot

/-- What the record hands to the application. -/
def delivers (cfg : ManagerConfig) (o : Opening) : List Effect :=
  match decodeFspInner o.plaintext with
  | .ok inner => deliveries cfg o.name inner
  | .error _ => []

end Opening

/-- What the application has been handed so far. -/
def delivered (m : Manager) : List Effect := m.log.filter Effect.isDelivery

section
variable {S : Suite} {cfg : ManagerConfig} {m m' : Manager} {e : ManagerEvent} {o : Opening} {sid : Nat} {s s' : Session}
  {l : List Effect}

theorem delivered_logged : (m.logged l).delivered = m.delivered ++ l.filter Effect.isDelivery := List.filter_append ..

theorem delivered_quiet (h : ∀ x ∈ l, x.isDelivery = false) : (m.logged l).delivered = m.delivered := by
  rw [delivered_logged, List.filter_eq_nil_iff.2 fun x hx => by simp [h x hx], List.append_nil]

theorem log_settleSetup {outcome : PromiseState} : (m.settleSetup sid s outcome).log = m.log := by
  unfold settleSetup
  split <;> rfl

theorem delivered_settleSetup {outcome : PromiseState} : (m.settleSetup sid s outcome).delivered = m.delivered :=
  congrArg (List.filter _) log_settleSetup

theorem delivered_rejectSessionSetup {err : String} : (m.rejectSessionSetup sid s err).delivered = m.delivered := by
  unfold rejectSessionSetup
  dsimp only
  split
  · refine (List.filter_append ..).trans ?_
    exact (List.append_nil _).trans delivered_settleSetup
  · exact delivered_settleSetup

theorem delivered_dropSession {err : String} {announce : Bool} {entry : NodeAddr × Nat} :
    (m.dropSession err announce entry).delivered = m.delivered := by
  unfold dropSession
  split
  · rfl
  · split
    · exact delivered_rejectSessionSetup
    · cases announce with
      | false => rfl
      | true => exact delivered_quiet (m := m) (l := [_]) (by simp [Effect.isDelivery])

theorem delivered_dropSessions {err : String} {announce : Bool} (entries : List (NodeAddr × Nat)) :
    (entries.foldl (dropSession err announce) m).delivered = m.delivered := by
  induction entries generalizing m with
  | nil => rfl
  | cons entry entries ih => exact ih.trans delivered_dropSession

theorem delivered_awaited {node : NodeAddr} : (m.awaited node sid s).delivered = m.delivered := by
  unfold awaited waitForSessionSetup
  split <;> rfl

theorem delivered_completed {env : Env} : (m.completed env sid s).delivered = m.delivered := delivered_settleSetup

theorem Receipt.effects_of_not_opening {env : Env} {peer : PeerId} {src : NodeAddr} {frame : Bytes}
    (h : Receipt S cfg env peer src frame s s' l) (ha : m.arrival cfg e = some ⟨sid, s, env, peer, src, frame⟩)
    (hno : m.opening S cfg e = none) : l = [] := by
  have hauth : s.authenticates S env frame = none := by
    unfold opening at hno
    simp only [ha, Option.bind_eq_bind, Option.bind_some] at hno
    cases h : s.authenticates S env frame with
    | none => rfl
    | some r => simp [h] at hno
  cases h with
  | dropped ha => rfl
  | pruned ha h => rfl
  | queued ha h => rfl
  | taken h hi => rfl
  | opened h hi reports => exact absurd (hauth.symm.trans h.authenticates) nofun

/-- An event that opens no record delivers nothing. -/
theorem Transition.delivered (ht : Transition S cfg m e m') (hno : m.opening S cfg e = none) :
    m'.delivered = m.delivered := by
  cases ht with
  | idle h => exact delivered_quiet h
  | receipt hl ha h =>
    rw [Receipt.effects_of_not_opening h ha hno]
    exact delivered_logged.trans (List.append_nil _)
  | drained hd ho h =>
    rw [Receipt.effects_of_not_opening h (arrival_drain hd ho) hno]
    exact delivered_logged.trans (List.append_nil _)
  | drainLost hd ho => rfl
  | sealed he ho h =>
    refine delivered_quiet (m := m.setObj _ _) fun x hx => ?_
    obtain ⟨frame, -, rfl⟩ := List.mem_map.1 hx
    rfl
  | rekey hp hl hu hst hr => exact delivered_quiet (m := { m.setObj _ _ with nextOid := _ }) (by simp [Effect.isDelivery])
  | yields hp hl hu hst hrole hc hr =>
    exact delivered_quiet (m := { m.setObj _ _ with nextOid := _ }) (by simp [Effect.isDelivery])
  | yieldsNothing hp hl hu hst hrole hc hr => rfl
  | contact hp hl hr => exact delivered_quiet (m := m.contacted _ _) (by simp [Effect.isDelivery])
  | ackFailed hp hl hrun hs h => rfl
  | ackRepeated hp hl hst hlog => exact (delivered_quiet hlog).trans delivered_settleSetup
  | ackCompletes hp hl hst hrun hs h hlog => exact (delivered_quiet hlog).trans delivered_settleSetup
  | msg3Failed hp hl hrun hs h => rfl
  | msg3RefusedPending hp hl hpend hrun ha => rfl
  | msg3Refused hp hl hpend hrun ha => rfl
  | msg3Completes hp hl hrun ha hlog => exact (delivered_quiet hlog).trans delivered_completed
  | awaits he hn hl hst => exact delivered_awaited
  | initiates he hn hl hf hst hrem hset hlog => exact delivered_quiet (m := m.initiated _ _ _ _) hlog
  | rejects ho he => exact delivered_rejectSessionSetup
  | closes => exact delivered_dropSessions _
  | stops => exact delivered_dropSessions (m := m) m.sessions

theorem delivers_under {admission : PeerAdmission} {localEpoch : Bytes} :
    o.delivers (cfg.under S admission localEpoch) = o.delivers cfg := rfl

theorem delivered_opening (ho : m.opening S cfg e = some o) :
    (Manager.step S cfg m e).delivered = m.delivered ++ o.delivers cfg := by
  obtain ⟨slot, s', l, hstep⟩ := Manager.step_opening ho
  obtain ⟨ds, hres⟩ := hstep.result
  have hslot : slot = o.slot := hstep.auth.tried.symm
  rw [hres, delivered_logged, hstep.delivered, hslot]
  refine congrArg (m.delivered ++ ·) ?_
  unfold Opening.effects Opening.delivers
  cases decodeFspInner o.plaintext with
  | error e => rfl
  | ok inner => exact filter_recordEffects

/-- What a run delivers is what its openings deliver, in order. -/
theorem delivered_run {es : List PolicyEvent} :
    (Run.run (stepUnder S cfg) init es).delivered = (openings S cfg init es).flatMap (·.delivers cfg) := by
  induction es using List.reverseRecOn with
  | nil => rfl
  | append_singleton es pe ih =>
    rw [openings_concat, run_stepUnder_concat, List.flatMap_append, ← ih]
    have hm : Safe S (Run.run (stepUnder S cfg) init es) := safe_runUnder
    cases ho : (Run.run (stepUnder S cfg) init es).opening S (cfg.under S pe.admission pe.localEpoch) pe.event with
    | none =>
      rw [Option.toList_none, List.flatMap_nil, List.append_nil]
      exact (hm.wf.transition pe.event).delivered ho
    | some o =>
      rw [Option.toList_some, List.flatMap_cons, List.flatMap_nil, List.append_nil]
      exact (delivered_opening ho).trans (by rw [delivers_under])

/-! ### Authenticity -/

/-- A record handed to the application: who sealed it, and for which node and name it is delivered. -/
structure Delivered where
  src : NodeAddr
  name : Bytes
  remote : Bytes
  record : FspRecord

/-- The record is one of those its remote sealed, and the remote is the node it is delivered for. -/
structure Delivered.Genuine (S : Suite) (sealed : Bytes → List FspRecord) (d : Delivered) : Prop where
  sealed : d.record ∈ sealed d.remote
  remote : deriveNodeAddr S d.remote = .ok d.src
  name : d.name = d.src ∨ deriveNodeAddr S d.name = .ok d.src

/-- The ideal AEAD at one opening: what opens under keys authenticated for a remote was sealed under them
by the holder of the remote's key. -/
def Opening.Genuine (sealed : Bytes → List FspRecord) (o : Opening) : Prop :=
  ∀ P key, o.fsp.remotePubkey = some P → o.fsp.rxKey = some key → ∃ r ∈ sealed P, FspRecord.Sealed o.frame key r

instance (sealed : Bytes → List FspRecord) (o : Opening) : Decidable (o.Genuine sealed) :=
  decidable_of_iff (∀ P ∈ o.fsp.remotePubkey, ∀ key ∈ o.fsp.rxKey, ∃ r ∈ sealed P, FspRecord.Sealed o.frame key r)
    ⟨fun h P key hP hkey => h P hP key hkey, fun h P hP key hkey => h P key hP hkey⟩

/-- Distinct handshakes have distinct keys. -/
def DistinctKeys (H : List Opening) : Prop := ∀ o ∈ H, ∀ o' ∈ H, o.fsp.rxKey = o'.fsp.rxKey → o.fsp.oid = o'.fsp.oid

instance (H : List Opening) : Decidable (DistinctKeys H) := List.decidableBAll _ _

theorem mem_openings {es : List PolicyEvent} (h : o ∈ openings S cfg init es) :
    ∃ (es₁ : List PolicyEvent) (pe : PolicyEvent) (slot : ReceiveSlot) (s' : Session) (l : List Effect),
    Safe S (Run.run (stepUnder S cfg) init es₁) ∧
    OpenStep S (cfg.under S pe.admission pe.localEpoch) (Run.run (stepUnder S cfg) init es₁) pe.event o slot s' l := by
  induction es using List.reverseRecOn with
  | nil => cases h
  | append_singleton es pe ih =>
    rw [openings_concat] at h
    rcases List.mem_append.1 h with h | h
    · exact ih h
    · have ho := Option.mem_toList.1 h
      obtain ⟨slot, s', l, hstep⟩ := Manager.step_opening ho
      exact ⟨es, pe, slot, s', l, safe_runUnder, hstep⟩

theorem Opening.genuine (hS : S.Lawful) {sealed : Bytes → List FspRecord} (hmade : ∀ P, ∀ r ∈ sealed P, r.Made S)
    {es : List PolicyEvent} (h : o ∈ openings S cfg init es) (hg : o.Genuine sealed) :
    ∃ d : Delivered, d.Genuine S sealed ∧ o.fsp.rxKey = some d.record.key ∧ d.record.aead.counter = o.est.counter ∧
      o.delivers cfg = deliveries cfg d.name d.record.inner := by
  obtain ⟨es₁, pe, slot, s', l, hm, hstep⟩ := mem_openings h
  have hs : o.session ∈ (Run.run (stepUnder S cfg) init es₁).objs := List.mem_of_getElem? (arrival_objs hstep.arrival)
  have hauth : o.session.Authentic S := authentic_run _ hs
  obtain ⟨rx, key, aad, hst, hrx, hget, -⟩ := FspSession.authenticate_eq_ok hstep.auth.auth
  have hkey : o.fsp.rxKey = some key := Option.bind_eq_some_iff.2 ⟨rx, hrx, CipherState.getKey_eq_ok.1 hget⟩
  obtain ⟨P, hP, hnode⟩ := hauth.epochs o.fsp hstep.auth.mem (.inr hst)
  obtain ⟨r, hr, hsealed⟩ := hg P key hP hkey
  obtain ⟨hpt, hcounter⟩ := FspSession.plaintext_of_sealed hS (hmade P r hr) hstep.auth.auth hkey hsealed
  have hslot : slot = o.slot := hstep.auth.tried.symm
  have hreceived := (hstep.auth.authentic hauth).2
  have haddr : (slot.received o.env o.session o.fsp o.est).remoteNodeAddr = o.session.remoteNodeAddr :=
    remoteNodeAddr_received
  refine ⟨⟨o.session.remoteNodeAddr, o.name, P, r⟩, ⟨hr, hnode, ?_⟩, by rw [hkey, hsealed.key], hcounter, ?_⟩
  · unfold Opening.name Opening.sender Session.eventName
    rw [← hslot]
    cases hname : (slot.received o.env o.session o.fsp o.est).remotePubkey with
    | none => exact .inl (arrival_src hm hstep.arrival)
    | some Q => exact .inr ((hreceived.known Q hname).trans (congrArg _ haddr))
  · unfold Opening.delivers
    rw [hpt, (hmade P r hr).decodes]

/-- Only what the remotes sealed is delivered, each record at most once. -/
theorem delivered_genuine (hS : S.Lawful) {sealed : Bytes → List FspRecord} (hmade : ∀ P, ∀ r ∈ sealed P, r.Made S)
    {es : List PolicyEvent} (hideal : ∀ o ∈ openings S cfg init es, o.Genuine sealed)
    (hkeys : DistinctKeys (openings S cfg init es)) :
    ∃ D : List Delivered, (∀ d ∈ D, d.Genuine S sealed) ∧
      (D.map fun d => (d.record.key, d.record.aead.counter)).Nodup ∧
      (Run.run (stepUnder S cfg) init es).delivered = D.flatMap fun d => deliveries cfg d.name d.record.inner := by
  have hex (o : { o // o ∈ openings S cfg init es }) := Opening.genuine hS hmade o.2 (hideal o.1 o.2)
  choose d hd using hex
  refine ⟨(openings S cfg init es).attach.map d, fun x hx => ?_, ?_, ?_⟩
  · obtain ⟨o, -, rfl⟩ := List.mem_map.1 hx
    exact (hd o).1
  · have hnodup := (@windows_run S cfg es).nodup
    rw [← List.attach_map_subtype_val (openings S cfg init es), List.map_map] at hnodup
    rw [List.map_map]
    refine List.pairwise_map.2 ((List.pairwise_map.1 hnodup).imp fun {o o'} hne heq => hne ?_)
    -- equal keys and counters of the records are equal objects and counters of the openings
    obtain ⟨hkey, hcounter⟩ := Prod.mk.inj heq
    have hoid := hkeys o.1 o.2 o'.1 o'.2 (by rw [(hd o).2.1, (hd o').2.1, hkey])
    have hc := (hd o).2.2.1.symm.trans (hcounter.trans (hd o').2.2.1)
    exact Prod.ext hoid hc
  · rw [delivered_run, List.flatMap_map]
    conv_lhs => rw [← List.attach_map_subtype_val (openings S cfg init es), List.flatMap_map]
    exact congrArg (List.flatMap · _) (funext fun o => (hd o).2.2.2)

/-! ### Frames that fail authentication -/

/-- A record that nothing opens, or a handshake frame that is rejected: a SessionAck or SessionMsg3 whose
Noise message does not authenticate, a SessionSetup that no responder accepts and that does not cost a local
initiator its handshake. -/
def FailsAuthentication (S : Suite) (cfg : ManagerConfig) (m : Manager) : ManagerEvent → Prop
  | .fromPeer env peer src frame =>
    m.opening S cfg (.fromPeer env peer src frame) = none ∧
    (peekFspPhase frame = .ok FSP_PHASE_MSG1 →
      (∀ r, respond S cfg env src frame m.nextOid ≠ .ok r) ∧ ¬ LosesOpen cfg m src frame) ∧
    (peekFspPhase frame = .ok FSP_PHASE_MSG2 →
      ∀ sid s, m.lookup src = some (sid, s) → ¬ s.fsp.AuthenticAck S frame) ∧
    (peekFspPhase frame = .ok FSP_PHASE_MSG3 →
      ∀ sid s, m.lookup src = some (sid, s) → ¬ s.handshakeFsp.AuthenticMsg3 S frame)
  | .drain env i => m.opening S cfg (.drain env i) = none
  | _ => False

/-- The key epochs of `s'` are those of `s`, except that a previous one may have expired. -/
structure SameEpochs (date : Option ℚ) (s s' : Session) : Prop where
  fsp : s'.fsp = s.fsp
  kBit : s'.currentKBit = s.currentKBit
  pending : s'.pendingResponderFsp = s.pendingResponderFsp
  previous : s'.previousFsp = s.previousFsp ∨
    s'.previousFsp = none ∧ ∃ p, s.previousFsp = some p ∧ ∃ d ∈ date, p.expiresAtMs ≤ d

theorem SameEpochs.refl {date : Option ℚ} (s : Session) : SameEpochs date s s := ⟨rfl, rfl, rfl, .inl rfl⟩

theorem SameEpochs.of_prune {date : ℚ} (h : s' = s.prunePreviousFsp date) : SameEpochs (some date) s s' := by
  subst h
  unfold prunePreviousFsp
  cases hp : s.previousFsp with
  | none => exact .refl s
  | some p =>
    dsimp only
    split
    · exact .refl s
    · exact ⟨rfl, rfl, rfl, .inr ⟨rfl, p, hp, date, rfl, not_lt.1 ‹_›⟩⟩

/-- The objects of `m'` are those of `m` with their key epochs. -/
def KeepsEpochs (date : Option ℚ) (m m' : Manager) : Prop :=
  ∀ (i : Nat) s, m.objs[i]? = some s → ∃ s', m'.objs[i]? = some s' ∧ SameEpochs date s s'

theorem KeepsEpochs.of_set {date : Option ℚ} (ho : m.objs[sid]? = some s) (h : SameEpochs date s s')
    (hobjs : m'.objs = m.objs.set sid s') : KeepsEpochs date m m' := by
  intro i t ht
  rw [hobjs]
  by_cases hi : sid = i
  · subst hi
    cases ho.symm.trans ht
    exact ⟨s', List.getElem?_set_self (List.getElem?_eq_some_iff.1 ho).1, h⟩
  · exact ⟨t, by rw [List.getElem?_set_ne hi]; exact ht, .refl t⟩

theorem KeepsEpochs.of_eq {date : Option ℚ} (hobjs : m'.objs = m.objs) : KeepsEpochs date m m' := fun _ s hs =>
  ⟨s, hobjs ▸ hs, .refl s⟩

theorem Receipt.sameEpochs {env : Env} {peer : PeerId} {src : NodeAddr} {frame : Bytes}
    (h : Receipt S cfg env peer src frame s s' l) (ha : s.authenticates S env frame = none) :
    SameEpochs (some env.dateMs) s s' := by
  cases h with
  | dropped ha => exact .refl s
  | pruned ha h => exact .of_prune rfl
  | queued ha h =>
    rcases h with rfl | ⟨-, rfl⟩
    · exact ⟨rfl, rfl, rfl, .inl rfl⟩
    · have hp := @SameEpochs.of_prune s _ env.dateMs rfl
      exact ⟨hp.fsp, hp.kBit, hp.pending, hp.previous⟩
  | taken h hi => exact absurd (ha.symm.trans h.authenticates) nofun
  | opened h hi reports => exact absurd (ha.symm.trans h.authenticates) nofun

/-- A frame that fails authentication leaves every key epoch, its keys, window and K bit, as it was. -/
theorem Transition.keepsEpochs (ht : Transition S cfg m e m') (hf : FailsAuthentication S cfg m e) :
    KeepsEpochs e.dateMs m m' ∧ m'.sessions = m.sessions ∧ m'.delivered = m.delivered := by
  have hno : m.opening S cfg e = none := by
    cases e with
    | fromPeer env peer src frame => exact hf.1
    | drain env i => exact hf
    | _ => exact hf.elim
  have hauth {env : Env} {peer : PeerId} {src : NodeAddr} {frame : Bytes} {sid : Nat} {s : Session}
      (ha : m.arrival cfg e = some ⟨sid, s, env, peer, src, frame⟩) : s.authenticates S env frame = none := by
    unfold opening at hno
    simp only [ha, Option.bind_eq_bind, Option.bind_some] at hno
    cases h : s.authenticates S env frame with
    | none => rfl
    | some r => simp [h] at hno
  suffices h : KeepsEpochs e.dateMs m m' ∧ m'.sessions = m.sessions from ⟨h.1, h.2, ht.delivered hno⟩
  cases ht with
  | idle h => exact ⟨.of_eq rfl, rfl⟩
  | receipt hl ha h => exact ⟨.of_set (objs_of_lookup hl) (Receipt.sameEpochs h (hauth ha)) rfl, rfl⟩
  | drained hd ho h => exact ⟨.of_set ho (Receipt.sameEpochs h (hauth (arrival_drain hd ho))) rfl, rfl⟩
  | drainLost hd ho => exact ⟨.of_eq rfl, rfl⟩
  | sealed he ho h =>
    rcases he with ⟨env, route, t, p, rfl⟩ | ⟨env, route, rfl⟩
    · exact hf.elim
    · exact hf.elim
  | rekey hp hl hu hst hr => exact absurd hr ((hf.2.1 hp).1 _)
  | yields hp hl hu hst hrole hc hr => exact absurd hr ((hf.2.1 hp).1 _)
  | yieldsNothing hp hl hu hst hrole hc hr => exact absurd ⟨_, _, hl, hu, hst, hrole, hc⟩ (hf.2.1 hp).2
  | contact hp hl hr => exact absurd hr ((hf.2.1 hp).1 _)
  | ackFailed hp hl hrun hs h =>
    have hna := hf.2.2.1 hp _ _ hl
    have heq := (wp_of_error hrun).1 (FspSession.wp_handleSessionAck_of_not_authentic hna)
    refine ⟨.of_set (objs_of_lookup hl) ?_ rfl, rfl⟩
    exact ⟨heq, rfl, rfl, .inl rfl⟩
  | ackRepeated hp hl hst hlog =>
    refine ⟨.of_set (objs_of_lookup hl) ?_ (objs_settleSetup (objs_of_lookup hl)), sessions_settleSetup⟩
    exact ⟨rfl, rfl, rfl, .inl rfl⟩
  | ackCompletes hp hl hst hrun hs h hlog =>
    exact ((wp_of_ok hrun).1 (FspSession.wp_handleSessionAck_of_not_authentic (hf.2.2.1 hp _ _ hl))).elim
  | @msg3Failed env peer src frame sid s f err hp hl hrun hs h =>
    have hna := hf.2.2.2 hp _ _ hl
    have heq := (wp_of_error hrun).1 (FspSession.wp_handleSessionMsg3_of_not_authentic hna)
    refine ⟨.of_set (objs_of_lookup hl) ?_ rfl, rfl⟩
    rw [heq, putHandshakeFsp_self]
    exact .refl s
  | msg3RefusedPending hp hl hpend hrun ha =>
    have hna := hf.2.2.2 hp _ _ hl
    rw [handshakeFsp_of_some hpend] at hna
    exact ((wp_of_ok hrun).1 (FspSession.wp_handleSessionMsg3_of_not_authentic hna)).elim
  | msg3Refused hp hl hpend hrun ha =>
    have hna := hf.2.2.2 hp _ _ hl
    rw [handshakeFsp_of_none hpend] at hna
    exact ((wp_of_ok hrun).1 (FspSession.wp_handleSessionMsg3_of_not_authentic hna)).elim
  | msg3Completes hp hl hrun ha hlog =>
    exact ((wp_of_ok hrun).1 (FspSession.wp_handleSessionMsg3_of_not_authentic (hf.2.2.2 hp _ _ hl))).elim
  | awaits he hn hl hst =>
    rcases he with rfl | rfl
    · exact hf.elim
    · exact hf.elim
  | initiates he hn hl hf' hst hrem hset hlog =>
    rcases he with rfl | rfl
    · exact hf.elim
    · exact hf.elim
  | rejects ho he =>
    rcases he with ⟨rfl, -⟩ | ⟨rfl, -⟩
    · exact hf.elim
    · exact hf.elim
  | closes => exact hf.elim
  | stops => exact hf.elim

/-- Over any run the application is handed only what the authenticated remotes sealed, each record at most
once; and a frame that fails authentication delivers nothing and changes no replay window, no K bit and no
key epoch but a previous one that has expired. -/
theorem delivery (hS : S.Lawful) {sealed : Bytes → List FspRecord} (hmade : ∀ P, ∀ r ∈ sealed P, r.Made S)
    {es : List PolicyEvent} (hideal : ∀ o ∈ openings S cfg init es, o.Genuine sealed)
    (hkeys : DistinctKeys (openings S cfg init es)) :
    (∃ D : List Delivered, (∀ d ∈ D, d.Genuine S sealed) ∧
      (D.map fun d => (d.record.key, d.record.aead.counter)).Nodup ∧
      (Run.run (stepUnder S cfg) init es).delivered = D.flatMap fun d => deliveries cfg d.name d.record.inner) ∧
    ∀ pe : PolicyEvent,
      FailsAuthentication S (cfg.under S pe.admission pe.localEpoch) (Run.run (stepUnder S cfg) init es) pe.event →
      KeepsEpochs pe.event.dateMs (Run.run (stepUnder S cfg) init es) (Run.run (stepUnder S cfg) init (es ++ [pe])) ∧
      (Run.run (stepUnder S cfg) init (es ++ [pe])).sessions = (Run.run (stepUnder S cfg) init es).sessions ∧
      (Run.run (stepUnder S cfg) init (es ++ [pe])).delivered = (Run.run (stepUnder S cfg) init es).delivered := by
  refine ⟨delivered_genuine hS hmade hideal hkeys, fun pe hf => ?_⟩
  rw [run_stepUnder_concat]
  have hm : Safe S (Run.run (stepUnder S cfg) init es) := safe_runUnder
  exact (hm.wf.transition pe.event).keepsEpochs hf

end

/-- The frame of phase 0 that no epoch opens. -/
def forgedRecord : Bytes := [0, 0, 0, 0]

/-- A forged record that arrives after the drain of a previous epoch takes it away. -/
theorem forged_record_drops_previous :
    ¬ ∀ (S : Suite) (cfg : ManagerConfig) (es : List PolicyEvent) (pe : PolicyEvent), S.Lawful →
      FailsAuthentication S (cfg.under S pe.admission pe.localEpoch) (Run.run (stepUnder S cfg) init es) pe.event →
      ∀ (i : Nat) (s : Session), (Run.run (stepUnder S cfg) init es).objs[i]? = some s →
        ∃ s', (Run.run (stepUnder S cfg) init (es ++ [pe])).objs[i]? = some s' ∧ s'.fsp = s.fsp ∧
          s'.currentKBit = s.currentKBit ∧ s'.pendingResponderFsp = s.pendingResponderFsp ∧
          s'.previousFsp = s.previousFsp := by
  intro h
  let es := toyUnder 2 (toyRekeyed 2 1)
  let pe : PolicyEvent := ⟨⟨[]⟩, List.replicate 8 2,
    .fromPeer { toyEnv 2 with dateMs := 50000 } 0 (toyIdentity 1).nodeAddr forgedRecord⟩
  have hno : ((Run.run (stepUnder toySuite (toyConfig 2)) init es).opening toySuite
      ((toyConfig 2).under toySuite pe.admission pe.localEpoch) pe.event).isNone = true := by decide +kernel
  have hfails : FailsAuthentication toySuite ((toyConfig 2).under toySuite pe.admission pe.localEpoch)
      (Run.run (stepUnder toySuite (toyConfig 2)) init es) pe.event :=
    ⟨Option.isNone_iff_eq_none.1 hno, fun hp => absurd hp (by decide), fun hp => absurd hp (by decide),
      fun hp => absurd hp (by decide)⟩
  have hbefore : (Run.run (stepUnder toySuite (toyConfig 2)) init es).objs[0]?.map (·.previousFsp.isSome) = some true := by
    decide +kernel
  have hafter : (Run.run (stepUnder toySuite (toyConfig 2)) init (es ++ [pe])).objs[0]?.map (·.previousFsp.isSome) =
      some false := by
    decide +kernel
  obtain ⟨s, hs, hprev⟩ := Option.map_eq_some_iff.1 hbefore
  obtain ⟨s', hs', -, -, -, hsame⟩ := h toySuite (toyConfig 2) es pe toySuite_lawful hfails 0 s hs
  rw [hs', Option.map_some, hsame, hprev] at hafter
  exact absurd hafter (by decide)

/-- The frame of a message that the toy node `n` sends to `k` first thing. -/
def toyRecord (n k : UInt8) (payload : Bytes) : Bytes :=
  toyFrame n k 2 (toyOpened n k ++ [.send (toyEnv n) ⟨false, 0, true⟩ 0 FSP_MSG_ENDPOINT_DATA payload])

/-- The records `n` seals with it. -/
def toySealed (n k : UInt8) (payload : Bytes) : List FspRecord :=
  match (Run.run (step toySuite (toyConfig n)) init (toyOpened n k)).lookup (toyIdentity k).nodeAddr with
  | some (_, s) => (s.fsp.sealing toySuite FSP_MSG_ENDPOINT_DATA payload 0 0).toOption.toList
  | none => []

theorem toySealed_made (n k : UInt8) (payload : Bytes) : ∀ r ∈ toySealed n k payload, r.Made toySuite := by
  intro r hr
  unfold toySealed at hr
  split at hr
  · exact (FspSession.sealing_eq_ok (mem_toOption.1 (Option.mem_toList.1 hr))).1
  · cases hr

theorem toySealed_carried : ∀ r ∈ toySealed 1 2 [7, 8, 9], ∃ est, r.Carries (toyRecord 1 2 [7, 8, 9]) est := by
  decide +kernel

/-- The toy node 2 receives one message twice. -/
def toyConversation : List PolicyEvent :=
  toyUnder 2 (toyAccepted 2 1 ++ [toyReceive 2 1 (toyRecord 1 2 [7, 8, 9]), toyReceive 2 1 (toyRecord 1 2 [7, 8, 9])])

theorem delivery_toy : ∃ D : List Delivered, (∀ d ∈ D, d.Genuine toySuite fun _ => toySealed 1 2 [7, 8, 9]) ∧
    (D.map fun d => (d.record.key, d.record.aead.counter)).Nodup ∧
    [Effect.endpointData (toyIdentity 1).publicKey [7, 8, 9]] =
      D.flatMap fun d => deliveries (toyConfig 2) d.name d.record.inner := by
  have hdel : (Run.run (stepUnder toySuite (toyConfig 2)) init toyConversation).delivered =
      [Effect.endpointData (toyIdentity 1).publicKey [7, 8, 9]] := by decide +kernel
  rw [← hdel]
  exact (@delivery toySuite (toyConfig 2) toySuite_lawful (fun _ => toySealed 1 2 [7, 8, 9]) (fun _ => toySealed_made
      1 2 _) toyConversation (by decide +kernel) (by decide +kernel)).1

end Manager

end Fips
