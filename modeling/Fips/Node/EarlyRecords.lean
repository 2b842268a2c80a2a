import Fips.Node.PreviousEpoch

/-!
# Records ahead of their SessionMsg3

A record sealed under a handshake whose SessionMsg3 is still on its way is put in the queue of the session,
or is tried under the keys in use, as its K bit says. The queue is drained once the SessionMsg3 has completed
the handshake, and a record in it opens if its K bit is the one the session then has.
-/

namespace Fips
open Exec

namespace Session
variable {S : Suite} {cfg : ManagerConfig} {env : Env} {peer : PeerId} {src : NodeAddr} {frame : Bytes}
  {s s' : Session} {f : FspSession} {oid : Nat}

/-- The responder `oid` of the session has answered a SessionSetup and waits for the SessionMsg3. -/
structure Awaits (oid : Nat) (s : Session) : Prop where
  oid : s.handshakeFsp.oid = oid
  state : s.handshakeFsp.state = .handshaking
  role : s.handshakeFsp.role = .responder

theorem Awaits.of_sameBinding (h : SameBinding s s') (hw : s'.Awaits oid) : s.Awaits oid := by
  obtain ⟨hoid, hst, hrole⟩ := hw
  cases hp : s.pendingResponderFsp with
  | none =>
    rw [handshakeFsp_of_none (h.pending.trans hp)] at hoid hst hrole
    refine ⟨?_, ?_, ?_⟩ <;> rw [handshakeFsp_of_none hp]
    · exact h.fsp.symm.trans hoid
    · exact h.state.symm.trans hst
    · exact h.role.symm.trans hrole
  | some p =>
    rw [handshakeFsp_of_some (h.pending.trans hp)] at hoid hst hrole
    refine ⟨?_, ?_, ?_⟩ <;> rw [handshakeFsp_of_some hp]
    · exact hoid
    · exact hst
    · exact hrole

/-- The K bit a session has once the SessionMsg3 is read: a process that has restarted begins anew. -/
def nextKBit (restarted : Bool) (s : Session) : Bool :=
  if s.pendingResponderFsp.isSome then !restarted && !s.currentKBit else s.currentKBit

/-- Two sessions with one handshake in progress: the later one has the K bit and all queued records of the
earlier one. -/
structure Continues (s s' : Session) : Prop where
  kBit : s'.currentKBit = s.currentKBit
  pending : s'.pendingResponderFsp.isSome = s.pendingResponderFsp.isSome
  queue : s.earlyEstablishedRecords <+: s'.earlyEstablishedRecords

theorem Continues.refl (s : Session) : Continues s s := ⟨rfl, rfl, List.prefix_rfl⟩

theorem Continues.trans {s₁ s₂ s₃ : Session} (h : Continues s₁ s₂) (h' : Continues s₂ s₃) : Continues s₁ s₃ :=
  ⟨h'.kBit.trans h.kBit, h'.pending.trans h.pending, h.queue.trans h'.queue⟩

theorem queue_prunePreviousFsp {dateMs : ℚ} :
    (s.prunePreviousFsp dateMs).earlyEstablishedRecords = s.earlyEstablishedRecords ∧
      (s.prunePreviousFsp dateMs).earlyEstablishedBytes = s.earlyEstablishedBytes := by
  unfold prunePreviousFsp
  split
  · split <;> exact ⟨rfl, rfl⟩
  · exact ⟨rfl, rfl⟩

theorem queue_take {slot : ReceiveSlot} {est : FspEstablished} :
    (slot.take env s f est).earlyEstablishedRecords = s.earlyEstablishedRecords := by
  rw [← (@queue_prunePreviousFsp s env.dateMs).1]
  cases slot <;> rfl

theorem queue_received {slot : ReceiveSlot} {est : FspEstablished} :
    (slot.received env s f est).earlyEstablishedRecords = s.earlyEstablishedRecords := by
  rw [← @queue_take env s f slot est]
  cases slot <;> rfl

/-- A record received leaves the queue as it is, or is put at its end. -/
theorem Receipt.queue {l : List Effect} (h : Receipt S cfg env peer src frame s s' l) :
    s'.earlyEstablishedRecords = s.earlyEstablishedRecords ∨
      s'.earlyEstablishedRecords = s.earlyEstablishedRecords ++ [⟨peer, frame⟩] := by
  cases h with
  | dropped ha => exact .inl rfl
  | pruned ha hst => exact .inl queue_prunePreviousFsp.1
  | queued ha hq =>
    right
    rcases hq with rfl | ⟨-, rfl⟩
    · rfl
    · exact congrArg (· ++ [_]) queue_prunePreviousFsp.1
  | taken ha hi => exact .inl queue_take
  | opened ha hi reports => exact .inl queue_received

theorem Receipt.prefix_queue {l : List Effect} (h : Receipt S cfg env peer src frame s s' l) :
    s.earlyEstablishedRecords <+: s'.earlyEstablishedRecords := by
  rcases h.queue with heq | heq
  · rw [heq]
  · rw [heq]
    exact List.prefix_append _ _

/-- A record tried under the current keys has their K bit. -/
theorem receiveSlot_current {k : Bool} (h : s.receiveSlot k = .current) : k = s.currentKBit := by
  have hother (o : Option PreviousFsp) : o.elim ReceiveSlot.mismatch .previous ≠ .current := by
    cases o <;> exact nofun
  unfold receiveSlot at h
  split at h
  · assumption
  · split at h
    · split at h
      · cases h
      · cases h
      · exact absurd h (hother _)
    · exact absurd h (hother _)

/-- Is there room in the queue for the frame? -/
def Room (frame : Bytes) (s : Session) : Prop :=
  s.earlyEstablishedRecords.length < MAX_EARLY_ESTABLISHED_RECORDS ∧
    s.earlyEstablishedBytes + frame.length ≤ MAX_EARLY_ESTABLISHED_BYTES

theorem wp_queue_of_room {c : SessionCtx} {est : FspEstablished} (hdec : decodeFspEstablished frame = .ok est)
    (hroom : c.session.Room frame) {Q : Unit → SessionCtx → Prop} {E : String → SessionCtx → Prop}
    (h : Q () { c with session := c.session.queue peer frame }) : wp (queueEarlyEstablishedRecord peer frame src) Q E c := by
  unfold queueEarlyEstablishedRecord
  have hno : ¬ (c.session.earlyEstablishedRecords.length ≥ MAX_EARLY_ESTABLISHED_RECORDS ∨
      c.session.earlyEstablishedBytes + frame.length > MAX_EARLY_ESTABLISHED_BYTES) := by
    rintro (hfull | hfull)
    · exact absurd hroom.1 (not_lt.2 hfull)
    · exact absurd hroom.2 (not_le.2 hfull)
  simp only [wp_bind, wp_lift, hdec, Except.ok.injEq, forall_eq', wp_get, wp_ite, hno, false_implies, not_false_eq_true,
    true_implies, true_and, reduceCtorEq, implies_true, and_true, update, wp_modify]
  exact h

/-- A record of a handshake in progress is queued when there are no keys to try it under: in first contact,
and when its K bit is not the one in use. -/
theorem Awaits.queues {est : FspEstablished} {log : List Effect} (hw : s.Awaits oid)
    (hpair : s.pendingResponderFsp.isSome → s.fsp.state = .established) (hdec : decodeFspEstablished frame = .ok est)
    (hroom : s.Room frame) (hk : s.pendingResponderFsp.isSome → hasFlag est.flags FSP_FLAG_K ≠ s.currentKBit) :
    wp (handleEstablished S cfg env peer src frame)
      (fun _ c => c.session.earlyEstablishedRecords = s.earlyEstablishedRecords ++ [⟨peer, frame⟩]) (fun _ _ => False)
      ⟨s, log⟩ := by
  have hst := hw.state
  unfold handleEstablished
  simp only [wp_bind, wp_get]
  cases hp : s.pendingResponderFsp with
  | none =>
    rw [handshakeFsp_of_none hp] at hst
    simp only [hst]
    exact wp_queue_of_room hdec hroom rfl
  | some p =>
    rw [handshakeFsp_of_some hp] at hst
    have hslot : (s.prunePreviousFsp env.dateMs).receiveSlot (hasFlag est.flags FSP_FLAG_K) = .queue := by
      have hsame : SameBinding s (s.prunePreviousFsp env.dateMs) := sameBinding_prunePreviousFsp
      unfold receiveSlot
      rw [hsame.kBit, if_neg (hk (by simp [hp])), hsame.pending, hp]
      simp only [hst]
    simp only [hpair (by simp [hp]), wp_bind, update, wp_modify, wp_lift, hdec, Except.ok.injEq, forall_eq', wp_get,
      reduceCtorEq, false_implies, implies_true, and_true, hslot, receiveRecord]
    refine wp_queue_of_room hdec ?_ ?_
    · show Room frame (s.prunePreviousFsp env.dateMs)
      unfold Room
      rw [queue_prunePreviousFsp.1, queue_prunePreviousFsp.2]
      exact hroom
    · exact congrArg (· ++ [_]) queue_prunePreviousFsp.1

/-- A record with the K bit in use is tried, not queued. -/
theorem handleEstablished_tries {est : FspEstablished} {log : List Effect} (hst : s.fsp.state = .established)
    (hdec : decodeFspEstablished frame = .ok est) (hk : hasFlag est.flags FSP_FLAG_K = s.currentKBit) :
    wp (handleEstablished S cfg env peer src frame)
      (fun _ c => c.session.earlyEstablishedRecords = s.earlyEstablishedRecords)
      (fun _ c => c.session.earlyEstablishedRecords = s.earlyEstablishedRecords) ⟨s, log⟩ := by
  have hslot : (s.prunePreviousFsp env.dateMs).receiveSlot (hasFlag est.flags FSP_FLAG_K) = .current := by
    have hsame : SameBinding s (s.prunePreviousFsp env.dateMs) := sameBinding_prunePreviousFsp
    unfold receiveSlot
    rw [hsame.kBit, if_pos hk]
  unfold handleEstablished
  simp only [wp_bind, wp_get, hst, update, wp_modify, wp_lift, hdec, Except.ok.injEq, forall_eq', reduceCtorEq,
    false_implies, implies_true, and_true, hslot, receiveRecord, onFsp, wp_zoom]
  refine wp_mono FspSession.wp_openRecord ?_ ?_
  · rintro ⟨received, inner⟩ f' -
    refine wp_onAuthenticated fun reports => ?_
    simp only [wp_bind, wp_get]
    exact wp_dispatch queue_prunePreviousFsp.1
  · rintro e f' -
    exact queue_prunePreviousFsp.1

end Session

namespace Manager
open Session

section
variable {S : Suite} {cfg : ManagerConfig} {m m' : Manager} {e : ManagerEvent} {n : NodeAddr} {sid oid : Nat}
  {s s' : Session}

/-- What a record makes of the stored session is all it makes of the manager. -/
theorem stepUnder_established {pe : PolicyEvent} {env : Env} {peer : PeerId} {frame : Bytes}
    (he : pe.event = .fromPeer env peer n frame) (hallow : pe.admission.assertNode S n = .ok ())
    (hphase : peekFspPhase frame = .ok FSP_PHASE_ESTABLISHED) (hl : m.lookup n = some (sid, s)) {P : Session → Prop}
    (h : wp (Session.handleEstablished S (cfg.under S pe.admission pe.localEpoch) env peer n frame)
      (fun _ c => P c.session) (fun _ c => P c.session) ⟨s, m.log⟩) :
    ∃ s' l, P s' ∧ stepUnder S cfg m pe = { m.setObj sid s' with log := l } := by
  unfold stepUnder
  rw [he]
  refine (wp_after (P := fun m' : Manager => ∃ s' l, P s' ∧ m' = { m.setObj sid s' with log := l })).2 ?_
  have hallow' : (cfg.under S pe.admission pe.localEpoch).assertNodeAllowed n = .ok () := hallow
  unfold handleFromPeer
  simp only [wp_bind, wp_lift, hallow', hphase, wp_get, Except.ok.injEq, forall_eq', if_true, hl, reduceCtorEq,
    false_implies, implies_true, and_true, onSession, wp_zoom]
  refine fun _ _ => wp_mono h ?_ ?_
  · exact fun _ c hc => ⟨c.session, c.log, hc, rfl⟩
  · exact fun _ c hc => ⟨c.session, c.log, hc, rfl⟩

/-- While a handshake waits for its SessionMsg3, its session goes on as it is. -/
theorem Next.continues (hm : Safe S m) (hl : m.lookup n = some (sid, s))
    (hpair : s.pendingResponderFsp.isSome → s.fsp.state = .established) (h : Next S cfg m e False s s')
    (hw : s'.Awaits oid) : s.Awaits oid ∧ Continues s s' := by
  cases h with
  | refl => exact ⟨hw, .refl s⟩
  | promise p =>
    have hsame : SameBinding s { s with setupPromise := p } := .of_epochs rfl rfl rfl rfl rfl rfl rfl rfl rfl
    exact ⟨hw.of_sameBinding hsame, rfl, rfl, List.prefix_rfl⟩
  | closed h p => exact h.elim
  | receipt ha h =>
    have hsame := h.sameBinding (hm.bound _ _ _ hl)
    exact ⟨hw.of_sameBinding hsame, hsame.kBit, by rw [hsame.pending], h.prefix_queue⟩
  | sealed h =>
    obtain ⟨k, w, r, rfl⟩ := h
    have hsame : SameBinding s { s with fsp := { s.fsp with txCounter := k }, routeWarmup := w, receiverReports := r } :=
      .of_epochs rfl rfl rfl rfl rfl rfl rfl rfl rfl
    exact ⟨hw.of_sameBinding hsame, rfl, rfl, List.prefix_rfl⟩
  | fspClosed hst =>
    cases hp : s.pendingResponderFsp with
    | none =>
      have hclosed := hw.state
      rw [handshakeFsp_of_none (s := { s with fsp := s.fsp.close }) hp] at hclosed
      cases hclosed
    | some p => exact absurd (hst.symm.trans (hpair (by simp [hp]))) nofun
  | @ackFailed f hs h =>
    refine ⟨?_, rfl, rfl, List.prefix_rfl⟩
    obtain ⟨hoid, hst, hrole⟩ := hw
    cases hp : s.pendingResponderFsp with
    | none =>
      rw [handshakeFsp_of_none (s := { s with fsp := f }) hp] at hoid hst hrole
      refine ⟨?_, ?_, ?_⟩ <;> rw [handshakeFsp_of_none hp]
      · exact h.oid.symm.trans hoid
      · exact h.state.symm.trans hst
      · exact h.role.symm.trans hrole
    | some p =>
      rw [handshakeFsp_of_some (s := { s with fsp := f }) hp] at hoid hst hrole
      refine ⟨?_, ?_, ?_⟩ <;> rw [handshakeFsp_of_some hp]
      · exact hoid
      · exact hst
      · exact hrole
  | @ackCompletes env peer src frame reply sid' f p he hl' hrun hs h =>
    cases hp : s.pendingResponderFsp with
    | none =>
      have hst := hw.state
      rw [handshakeFsp_of_none (s := { s with fsp := f, setupPromise := p }) hp] at hst
      exact absurd (h.state.symm.trans hst) nofun
    | some q => exact absurd (hpair (by simp [hp])) (hm.not_established hl hs)
  | @msg3Failed f hs h =>
    obtain ⟨hoid, hst, hrole⟩ := hw
    rw [handshakeFsp_putHandshakeFsp] at hoid hst hrole
    refine ⟨⟨h.oid.symm.trans hoid, h.state.symm.trans hst, h.role.symm.trans hrole⟩, ?_⟩
    cases hp : s.pendingResponderFsp with
    | none =>
      rw [putHandshakeFsp_of_none hp]
      exact ⟨rfl, rfl, List.prefix_rfl⟩
    | some p =>
      rw [putHandshakeFsp_of_some hp]
      exact ⟨rfl, by simp [hp], List.prefix_rfl⟩
  | pendingDropped =>
    cases hp : s.pendingResponderFsp with
    | none =>
      have hsame : { s with pendingResponderFsp := none } = s := by cases s; cases hp; rfl
      rw [hsame] at hw ⊢
      exact ⟨hw, .refl s⟩
    | some p => exact absurd ((hpair (by simp [hp])).symm.trans hw.state) nofun
  | fspRefused h hrun => exact h.elim
  | @msg3Completes env peer src frame sid' f p he hph hl' hrun ha =>
    -- the completed keys are established
    exfalso
    have hf : f.state = .established := by
      rcases FspSession.handleSessionMsg3_eq_ok hrun with ⟨rfl, hst⟩ | ⟨-, hc, -⟩
      · exact hst
      · exact hc.state
    have hnone := @pendingResponderFsp_completeResponder (s.putHandshakeFsp f) env
    have hst : (completeResponder env (s.putHandshakeFsp f)).handshakeFsp.state = .handshaking := hw.state
    rw [handshakeFsp_of_none hnone] at hst
    cases hp : s.pendingResponderFsp with
    | none =>
      rw [putHandshakeFsp_of_none hp] at hst
      rw [completeResponder_of_none (s := { s with fsp := f }) hp] at hst
      exact absurd (hf.symm.trans hst) nofun
    | some q =>
      rw [putHandshakeFsp_of_some hp] at hst
      have hcur := congrArg FspSession.state (@completeResponder_of_pending s env f).1
      exact absurd (hf.symm.trans (hcur.symm.trans hst)) nofun

theorem NextStored.continues (hm : Safe S m) (hp : m.Paired) (hlt : oid < m.nextOid) (h : NextStored S cfg m e n sid s')
    (hw : s'.Awaits oid) : ∃ s, m.lookup n = some (sid, s) ∧ s.Awaits oid ∧ Continues s s' := by
  -- a new handshake has a new object
  have hnew {f : FspSession} {role : Role} (hun : FspSession.Unkeyed f m.nextOid role) (hoid : f.oid = oid) : False := by
    have := hun.oid
    omega
  cases h with
  | old hl h => exact ⟨_, hl, h.continues hm hl (hp _ _ _ hl) hw⟩
  | @renewed s₀ s' hl h =>
    cases h with
    | rekey hst hr => exact (hnew (respond_eq_ok hr).1 hw.oid).elim
    | @yields env src frame reply _ fsp hst hr =>
      cases hpend : s₀.pendingResponderFsp with
      | none =>
        have hoid := hw.oid
        rw [handshakeFsp_of_none (s := { s₀ with fsp }) hpend] at hoid
        exact (hnew (respond_eq_ok hr).1 hoid).elim
      | some p => exact absurd (hst.symm.trans (hp _ _ _ hl (by simp [hpend]))) nofun
  | new hsid hn h =>
    cases h with
    | contact hr => exact (hnew (respond_eq_ok hr).1 hw.oid).elim
    | initiated p hn hf hst hrem => exact (hnew hf hw.oid).elim

theorem nextOid_le_step (hm : Safe S m) : m.nextOid ≤ (Manager.step S cfg m e).nextOid := by
  rcases (hm.wf.transition e).objects with ⟨h, -⟩ | ⟨h, -⟩
  · exact h.ge
  · omega

end

section
variable {S : Suite} {cfg : ManagerConfig} {m : Manager} {n : NodeAddr} {sid oid : Nat} {s t t' : Session}
  {es es' : List PolicyEvent} {pe : PolicyEvent}

theorem nextOid_le_run : (Run.run (stepUnder S cfg) init es).nextOid ≤
    (Run.run (stepUnder S cfg) init (es ++ es')).nextOid := by
  induction es' using List.reverseRecOn with
  | nil => rw [List.append_nil]
  | append_singleton es' pe ih =>
    rw [← List.append_assoc, run_stepUnder_concat]
    exact ih.trans (nextOid_le_step safe_runUnder)

/-- A handshake that waits at the end of a run, and existed before, has waited all along. -/
theorem awaits_run (hlt : oid < (Run.run (stepUnder S cfg) init es).nextOid)
    (hl : (Run.run (stepUnder S cfg) init (es ++ es')).lookup n = some (sid, t)) (hw : t.Awaits oid) :
    ∃ s, (Run.run (stepUnder S cfg) init es).lookup n = some (sid, s) ∧ s.Awaits oid ∧ Continues s t := by
  induction es' using List.reverseRecOn generalizing t with
  | nil =>
    rw [List.append_nil] at hl
    exact ⟨t, hl, hw, .refl t⟩
  | append_singleton es' pe ih =>
    rw [← List.append_assoc, run_stepUnder_concat] at hl
    have hm : Safe S (Run.run (stepUnder S cfg) init (es ++ es')) := safe_runUnder
    obtain ⟨s₁, hl₁, hw₁, hc₁⟩ := ((hm.wf.transition pe.event).stored hm.wf.stored hl).continues hm paired_run
      (hlt.trans_le nextOid_le_run) hw
    obtain ⟨s, hls, hws, hc⟩ := ih hl₁ hw₁
    exact ⟨s, hls, hws, hc.trans hc₁⟩

end

/-! ### The SessionMsg3 -/

/-- The event completes the handshake `oid` of the session. -/
structure CompletesHandshake (S : Suite) (cfg : ManagerConfig) (m : Manager) (pe : PolicyEvent) (n : NodeAddr)
    (sid oid : Nat) (t t' : Session) : Prop where
  before : m.lookup n = some (sid, t)
  awaits : t.Awaits oid
  after : (stepUnder S cfg m pe).lookup n = some (sid, t')
  fsp : t'.fsp.oid = oid
  state : t'.fsp.state = .established

section
variable {S : Suite} {cfg : ManagerConfig} {m m' : Manager} {e : ManagerEvent} {n : NodeAddr} {sid oid : Nat}
  {t t' : Session} {pe : PolicyEvent}

/-- The keys in use are not those of the handshake that waits. -/
theorem awaits_not_established (hm : Safe S m) (hl : m.lookup n = some (sid, t)) (hw : t.Awaits oid)
    (hoid : t.fsp.oid = oid) : t.fsp.state ≠ .established := by
  intro hst
  cases hp : t.pendingResponderFsp with
  | none =>
    have hsame := hw.state
    rw [handshakeFsp_of_none hp, hst] at hsame
    cases hsame
  | some p =>
    have hsame := hw.oid
    rw [handshakeFsp_of_some hp] at hsame
    exact pending_oid_ne hm hl hp (hsame.trans hoid.symm)

/-- Only a SessionMsg3 establishes it. -/
theorem NextStored.msg3 (hm : Safe S m) (hp : m.Paired) (hl : m.lookup n = some (sid, t)) (hw : t.Awaits oid)
    (h : NextStored S cfg m e n sid t') (hoid : t'.fsp.oid = oid) (hst : t'.fsp.state = .established) :
    ∃ env peer frame f, e = .fromPeer env peer n frame ∧ peekFspPhase frame = .ok FSP_PHASE_MSG3 ∧
      (FspSession.handleSessionMsg3 S frame env.nowMs).run t.handshakeFsp = .ok () f ∧ admitResponder S cfg n t f = .ok () := by
  have hsame {P : Prop} (ho : t'.fsp.oid = t.fsp.oid) (hs : t'.fsp.state = t.fsp.state) : P :=
    absurd (hs.symm.trans hst) (awaits_not_established hm hl hw (ho.symm.trans hoid))
  cases h with
  | old hl' h =>
    cases hl.symm.trans hl'
    cases h with
    | refl => exact hsame rfl rfl
    | promise p => exact hsame rfl rfl
    | closed h p => exact h.elim
    | receipt ha h =>
      have hb := h.sameBinding (hm.bound _ _ _ hl)
      exact hsame hb.fsp hb.state
    | sealed h =>
      obtain ⟨k, w, r, rfl⟩ := h
      exact hsame rfl rfl
    | fspClosed hst' => cases hst
    | ackFailed hs h => exact hsame h.oid h.state
    | @ackCompletes env peer src frame reply sid' f p he hl'' hrun hs h =>
      exfalso
      cases hpend : t.pendingResponderFsp with
      | none =>
        have hrole := hw.role
        rw [handshakeFsp_of_none hpend] at hrole
        have hinit := ((wp_of_ok hrun).1 FspSession.wp_handleSessionAck_remotePubkey).1
        exact absurd (hinit.symm.trans hrole) nofun
      | some q => exact absurd (hp _ _ _ hl (by simp [hpend])) (hm.not_established hl hs)
    | @msg3Failed f hs h =>
      cases hpend : t.pendingResponderFsp with
      | none =>
        rw [handshakeFsp_of_none hpend] at h
        rw [putHandshakeFsp_of_none hpend] at hsame
        exact hsame h.oid h.state
      | some p =>
        rw [putHandshakeFsp_of_some hpend] at hsame
        exact hsame rfl rfl
    | pendingDropped => exact hsame rfl rfl
    | fspRefused h hrun => exact h.elim
    | @msg3Completes env peer src frame sid' f p he hph hl'' hrun ha =>
      have hsrc : src = n := (hm.wf.stored.remoteNodeAddr hl'').symm.trans (hm.wf.stored.remoteNodeAddr hl)
      subst hsrc
      exact ⟨env, peer, frame, f, he, hph, hrun, ha⟩
  | renewed hl' h =>
    cases hl.symm.trans hl'
    cases h with
    | rekey hst' hr => exact hsame rfl rfl
    | yields hst' hr => exact absurd ((respond_eq_ok hr).2.1.symm.trans hst) nofun
  | new hsid hn h =>
    have hlt := (List.getElem?_eq_some_iff.1 (objs_of_lookup hl)).1
    omega

theorem arrival_phase {env : Env} {peer : PeerId} {frame : Bytes} {a : Arrival}
    (h : m.arrival cfg (.fromPeer env peer n frame) = some a) : peekFspPhase frame = .ok FSP_PHASE_ESTABLISHED := by
  simp only [arrival] at h
  split at h
  · exact (‹_ ∧ _›).2
  · cases h

/-- The session and the drains once the SessionMsg3 has been read. -/
theorem CompletesHandshake.spec (hm : Safe S m) (hp : m.Paired) (h : CompletesHandshake S cfg m pe n sid oid t t') :
    ∃ env peer frame f l, pe.event = .fromPeer env peer n frame ∧ peekFspPhase frame = .ok FSP_PHASE_MSG3 ∧
      (FspSession.handleSessionMsg3 S frame env.nowMs).run t.handshakeFsp = .ok () f ∧
      stepUnder S cfg m pe = (m.completed env sid (t.putHandshakeFsp f)).logged l := by
  have ht : Transition S (cfg.under S pe.admission pe.localEpoch) m pe.event (stepUnder S cfg m pe) :=
    hm.wf.transition pe.event
  obtain ⟨env, peer, frame, f, he, hph, hrun, ha⟩ :=
    (ht.stored hm.wf.stored h.after).msg3 hm hp h.before h.awaits h.fsp h.state
  have hphase {p : Nat} {P : Prop} (hp' : peekFspPhase frame = .ok p) (hne : p ≠ FSP_PHASE_MSG3) : P :=
    absurd (Except.ok.inj (hp'.symm.trans hph)) hne
  revert ht
  generalize hm' : stepUnder S cfg m pe = m'
  rw [he]
  intro ht
  cases ht with
  | idle hl =>
    -- the session would be the one before
    have hafter := h.after
    rw [hm'] at hafter
    cases h.before.symm.trans hafter
    exact absurd h.state (awaits_not_established hm h.before h.awaits h.fsp)
  | receipt hl harr hr =>
    exact hphase (arrival_phase harr) (by decide)
  | sealed he' => exact absurd he' (by simp)
  | rekey hp' => exact hphase hp' (by decide)
  | yields hp' => exact hphase hp' (by decide)
  | yieldsNothing hp' => exact hphase hp' (by decide)
  | contact hp' => exact hphase hp' (by decide)
  | ackFailed hp' => exact hphase hp' (by decide)
  | ackRepeated hp' => exact hphase hp' (by decide)
  | ackCompletes hp' => exact hphase hp' (by decide)
  | msg3Failed hp' hl hrun' =>
    cases h.before.symm.trans hl
    cases hrun.symm.trans hrun'
  | msg3RefusedPending hp' hl hpend hrun' ha' =>
    cases h.before.symm.trans hl
    rw [handshakeFsp_of_some hpend] at hrun
    cases hrun.symm.trans hrun'
    cases ha.symm.trans ha'
  | msg3Refused hp' hl hpend hrun' ha' =>
    cases h.before.symm.trans hl
    rw [handshakeFsp_of_none hpend] at hrun
    cases hrun.symm.trans hrun'
    cases ha.symm.trans ha'
  | @msg3Completes _ _ _ _ _ _ _ l hp' hl hrun' ha' hlog =>
    cases h.before.symm.trans hl
    cases hrun.symm.trans hrun'
    exact ⟨env, peer, frame, f, l, rfl, hph, hrun, rfl⟩
  | awaits he' => exact absurd he' (by simp [Opens])
  | initiates he' => exact absurd he' (by simp [Opens])
  | rejects ho he' => exact absurd he' (by simp)

theorem queue_putHandshakeFsp {s : Session} {f : FspSession} :
    (s.putHandshakeFsp f).earlyEstablishedRecords = s.earlyEstablishedRecords := by
  unfold putHandshakeFsp
  split <;> rfl

theorem queue_completeResponder {env : Env} {s : Session} :
    (completeResponder env s).earlyEstablishedRecords = s.earlyEstablishedRecords := by
  unfold completeResponder
  split
  · rfl
  · dsimp only
    split <;> rfl

/-- The queue of the session is what is drained from here on. -/
theorem CompletesHandshake.drains (hm : Safe S m) (hp : m.Paired) (h : CompletesHandshake S cfg m pe n sid oid t t') :
    (stepUnder S cfg m pe).drains = m.drains ++ [(sid, t.earlyEstablishedRecords)] := by
  obtain ⟨env, peer, frame, f, l, -, -, -, hstep⟩ := h.spec hm hp
  rw [hstep]
  show (m.completed env sid (t.putHandshakeFsp f)).drains = _
  unfold completed resolveSessionSetup settleSetup
  dsimp only
  rw [queue_completeResponder, queue_putHandshakeFsp]
  split <;> rfl

theorem CompletesHandshake.kBit (hm : Safe S m) (hp : m.Paired) (h : CompletesHandshake S cfg m pe n sid oid t t') :
    t'.currentKBit = t.nextKBit (remoteRestarted t t'.fsp) := by
  obtain ⟨env, peer, frame, f, l, -, -, -, hstep⟩ := h.spec hm hp
  have hobj := objs_of_lookup h.after
  have hold := objs_of_lookup h.before
  rw [hstep, objs_logged, objs_completed hold, List.getElem?_set_self (List.getElem?_eq_some_iff.1 hold).1] at hobj
  cases hobj
  unfold nextKBit
  cases hpend : t.pendingResponderFsp with
  | none =>
    rw [putHandshakeFsp_of_none hpend]
    show (completeResponder env { t with fsp := f }).currentKBit = _
    rw [completeResponder_of_none (s := { t with fsp := f }) hpend]
    rfl
  | some p =>
    rw [putHandshakeFsp_of_some hpend]
    show (completeResponder env { t with pendingResponderFsp := some f }).currentKBit =
      (!remoteRestarted t (completeResponder env { t with pendingResponderFsp := some f }).fsp && !t.currentKBit)
    rw [completeResponder_of_pending.1]
    unfold completeResponder
    dsimp only
    by_cases hr : remoteRestarted t f = true
    · have hr' : remoteRestarted { t with pendingResponderFsp := some f } f = true := hr
      rw [if_pos hr', hr]
      rfl
    · have hr' : ¬ remoteRestarted { t with pendingResponderFsp := some f } f = true := hr
      rw [if_neg hr', Bool.eq_false_iff.2 hr]
      rfl

/-- Nothing has opened under the keys of the handshake yet. -/
theorem CompletesHandshake.unopened {H : List Opening} (hm : Safe S m) (hp : m.Paired)
    (h : CompletesHandshake S cfg m pe n sid oid t t') (hw : Windows H m) : ∀ o ∈ H, o.fsp.oid ≠ oid := by
  obtain ⟨env, peer, frame, f, l, -, -, hrun, -⟩ := h.spec hm hp
  have hs : t.handshakeFsp.hs.isSome := by
    rcases FspSession.handleSessionMsg3_eq_ok hrun with ⟨-, hst⟩ | ⟨hs, -⟩
    · exact absurd (hst.symm.trans h.awaits.state) nofun
    · exact hs
  have hempty := hw.unopened t (List.mem_of_getElem? (objs_of_lookup h.before)) _ handshakeFsp_mem hs
  rw [h.awaits.oid] at hempty
  intro o ho hoid
  have hmem : (o.est.counter : Int) ∈ counters H oid := ⟨o, ho, hoid, rfl⟩
  rw [hempty] at hmem
  exact hmem

/-- The SessionMsg3 itself opens nothing. -/
theorem CompletesHandshake.opening (hm : Safe S m) (hp : m.Paired) (h : CompletesHandshake S cfg m pe n sid oid t t') :
    m.opening S (cfg.under S pe.admission pe.localEpoch) pe.event = none := by
  obtain ⟨env, peer, frame, f, l, he, hph, -⟩ := h.spec hm hp
  cases ho : m.opening S (cfg.under S pe.admission pe.localEpoch) pe.event with
  | none => rfl
  | some o =>
    obtain ⟨a, ha, -⟩ := Option.bind_eq_some_iff.1 ho
    rw [he] at ha
    exact absurd (Except.ok.inj ((arrival_phase ha).symm.trans hph)) (by decide)

end

/-! ### Draining the queue -/

section
variable {S : Suite} {cfg : ManagerConfig} {m m' : Manager} {e : ManagerEvent} {n : NodeAddr} {sid oid i : Nat}
  {s s' : Session} {H : List Opening} {k : Bool} {r : FspRecord}

theorem drains_settleSetup {outcome : PromiseState} : (m.settleSetup sid s outcome).drains = m.drains := by
  unfold settleSetup
  split <;> rfl

theorem drains_rejectSessionSetup {err : String} : (m.rejectSessionSetup sid s err).drains = m.drains := by
  unfold rejectSessionSetup
  dsimp only
  split <;> exact drains_settleSetup

theorem drains_dropSessions {err : String} {announce : Bool} (entries : List (NodeAddr × Nat)) :
    (entries.foldl (dropSession err announce) m).drains = m.drains := by
  induction entries generalizing m with
  | nil => rfl
  | cons entry entries ih =>
    refine ih.trans ?_
    unfold dropSession
    split
    · rfl
    · split
      · exact drains_rejectSessionSetup
      · rfl

theorem drains_awaited {node : NodeAddr} : (m.awaited node sid s).drains = m.drains := by
  unfold awaited waitForSessionSetup
  split <;> rfl

/-- A drain goes on by one record, or the queue of a session becomes a new drain. -/
theorem Transition.drains (ht : Transition S cfg m e m') : m'.drains = m.drains ∨
    (∃ env i sid record rest, e = .drain env i ∧ m.drains[i]? = some (sid, record :: rest) ∧
      m'.drains = m.drains.set i (sid, rest)) ∨
    ∃ (sid : Nat) (s : Session), m.objs[sid]? = some s ∧ m'.drains = m.drains ++ [(sid, s.earlyEstablishedRecords)] := by
  cases ht with
  | drained hd ho h => exact .inr (.inl ⟨_, _, _, _, _, rfl, hd, rfl⟩)
  | drainLost hd ho => exact .inr (.inl ⟨_, _, _, _, _, rfl, hd, rfl⟩)
  | ackRepeated hp hl hst hlog => exact .inl drains_settleSetup
  | ackCompletes hp hl hst hrun hs h hlog => exact .inl drains_settleSetup
  | @msg3Completes env peer src frame sid s f l hp hl hrun ha hlog =>
    refine .inr (.inr ⟨sid, s, objs_of_lookup hl, ?_⟩)
    refine (drains_settleSetup).trans ?_
    dsimp only
    rw [queue_completeResponder, queue_putHandshakeFsp]
  | awaits he hn hl hst => exact .inl drains_awaited
  | rejects ho he => exact .inl drains_rejectSessionSetup
  | closes => exact .inl (drains_dropSessions _)
  | stops => exact .inl (drains_dropSessions (m := m) m.sessions)
  | _ => exact .inl rfl

/-- The K bit stays as long as the keys do. -/
theorem NextStored.kBit (hm : Safe S m) (hl : m.lookup n = some (sid, s)) (h : NextStored S cfg m e n sid s')
    (hoid : s'.fsp.oid = s.fsp.oid) : s'.currentKBit = s.currentKBit := by
  cases h with
  | old hl' h =>
    cases hl.symm.trans hl'
    cases h with
    | refl => rfl
    | promise p => rfl
    | closed h p => exact h.elim
    | receipt ha h => exact (h.sameBinding (hm.bound _ _ _ hl)).kBit
    | sealed h =>
      obtain ⟨c, w, r, rfl⟩ := h
      rfl
    | fspClosed hst => rfl
    | ackFailed hs h => rfl
    | ackCompletes p he hl'' hrun hs h => rfl
    | msg3Failed hs h =>
      unfold putHandshakeFsp
      split <;> rfl
    | pendingDropped => rfl
    | fspRefused h hrun => exact h.elim
    | @msg3Completes env peer src frame sid' f p he hph hl'' hrun ha =>
      cases hp : s.pendingResponderFsp with
      | none =>
        rw [putHandshakeFsp_of_none hp]
        show (completeResponder env { s with fsp := f }).currentKBit = s.currentKBit
        rw [completeResponder_of_none (s := { s with fsp := f }) hp]
        rfl
      | some q =>
        rw [handshakeFsp_of_some hp] at hrun
        rw [putHandshakeFsp_of_some hp] at hoid
        have hcur := congrArg FspSession.oid (@completeResponder_of_pending s env f).1
        have hf : f.oid = q.oid := ((@FspSession.handleSessionMsg3_moves _ False) hrun).oid
        exact absurd (hf.symm.trans (hcur.symm.trans hoid)) (pending_oid_ne hm hl hp)
  | renewed hl' h =>
    cases hl.symm.trans hl'
    cases h with
    | rekey hst hr => rfl
    | yields hst hr => rfl
  | new hsid hn h =>
    have hlt := (List.getElem?_eq_some_iff.1 (objs_of_lookup hl)).1
    omega

theorem moves_rx {takes : Prop} {f f' : FspSession} (h : f.Moves takes f') (hk : f.Keyless) (hst : f.state = .established)
    (hst' : f'.state = .established) : f'.rx = f.rx := by
  have hnone : ¬ f.hs.isSome := fun hs => (hk hs).1 hst
  cases h with
  | refl => rfl
  | sealed n => rfl
  | taken h c hst => rfl
  | progress hs h => exact absurd hs hnone
  | completes hs h => exact absurd hs hnone
  | closed oid => cases hst'

theorem NextStored.rx (hm : Safe S m) (hl : m.lookup n = some (sid, s)) (h : NextStored S cfg m e n sid s')
    (hoid : s'.fsp.oid = s.fsp.oid) (hst : s.fsp.state = .established) (hst' : s'.fsp.state = .established) :
    s'.fsp.rx = s.fsp.rx := by
  have hs : s ∈ m.objs := List.mem_of_getElem? (objs_of_lookup hl)
  cases h with
  | old hl' h =>
    cases hl.symm.trans hl'
    obtain ⟨f, hf, hmv⟩ := (h.kept.moves s'.fsp (mem_fsps.2 (.inl rfl))).resolve_right id
    have hsame : f = s.fsp :=
      List.inj_on_of_nodup_map (hm.unshared.nodup s hs) hf (mem_fsps.2 (.inl rfl)) (hmv.oid.symm.trans hoid)
    subst hsame
    exact moves_rx hmv (hm.wf.keyless s hs _ hf) hst hst'
  | renewed hl' h =>
    cases hl.symm.trans hl'
    cases h with
    | rekey hst hr => rfl
    | yields hst'' hr => exact absurd (hst''.symm.trans hst) nofun
  | new hsid hn h =>
    have hlt := (List.getElem?_eq_some_iff.1 (objs_of_lookup hl)).1
    omega

theorem fsp_prunePreviousFsp {dateMs : ℚ} : (s.prunePreviousFsp dateMs).fsp = s.fsp := by
  unfold prunePreviousFsp
  split
  · split <;> rfl
  · rfl

theorem previousFsp_of_prune {dateMs : ℚ} {p : PreviousFsp} (h : (s.prunePreviousFsp dateMs).previousFsp = some p) :
    s.previousFsp = some p := by
  unfold prunePreviousFsp at h
  split at h
  · split at h
    · exact h
    · cases h
  · exact h

/-- The keys of a stored session open records that arrive for it, with the K bit in use. -/
theorem OpenStep.current (hm : Safe S m) (hl : m.lookup n = some (sid, s)) {o : Opening} {slot : ReceiveSlot}
    {l : List Effect} (h : OpenStep S cfg m e o slot s' l) (hoid : o.fsp.oid = s.fsp.oid) :
    o.session = s ∧ o.fsp = s.fsp ∧ hasFlag o.est.flags FSP_FLAG_K = s.currentKBit := by
  have hobj := arrival_objs h.arrival
  have hsid : o.sid = sid :=
    hm.unshared.apart o.sid sid o.session s hobj (objs_of_lookup hl) o.fsp h.auth.mem s.fsp (mem_fsps.2 (.inl rfl)) hoid
  rw [hsid, objs_of_lookup hl] at hobj
  cases hobj
  have hsame : SameBinding o.session (o.session.prunePreviousFsp o.env.dateMs) := sameBinding_prunePreviousFsp
  have htried := h.auth.tried
  have hfsp := h.auth.fsp
  refine ⟨rfl, ?_⟩
  cases slot with
  | current =>
    refine ⟨?_, ?_⟩
    · exact (Option.some.inj hfsp).symm.trans fsp_prunePreviousFsp
    · exact (receiveSlot_current htried).trans hsame.kBit
  | pending q => exact absurd htried (receiveSlot_ne_pending (hsame.bound (hm.bound _ _ _ hl)))
  | previous q =>
    have hprev := previousFsp_of_prune (receiveSlot_previous htried).1
    have hq : q.fsp = o.fsp := Option.some.inj hfsp
    exact absurd ((congrArg FspSession.oid hq).trans hoid) (previous_oid_ne hm hl hprev)
  | queue => cases hfsp
  | mismatch => cases hfsp

/-- The keys `oid` are in use, with the K bit `k` and the receive key `key`; so are they wherever they have opened
a record. -/
structure Serves (n : NodeAddr) (sid oid : Nat) (k : Bool) (key : Bytes) (H : List Opening) (m : Manager) : Prop where
  stored : ∃ s, m.lookup n = some (sid, s) ∧ s.fsp.oid = oid ∧ s.fsp.state = .established ∧ s.currentKBit = k ∧
    s.fsp.rxKey = some key
  keys : ∀ o ∈ H, o.fsp.oid = oid → o.fsp.rxKey = some key ∧ hasFlag o.est.flags FSP_FLAG_K = k

/-- An event after which the keys `oid` of the session are still in use. -/
def LeavesInUse (S : Suite) (cfg : ManagerConfig) (n : NodeAddr) (sid oid : Nat) (m : Manager) (pe : PolicyEvent) : Prop :=
  ∃ s, (stepUnder S cfg m pe).lookup n = some (sid, s) ∧ s.fsp.oid = oid ∧ s.fsp.state = .established

theorem Serves.step {key : Bytes} (hm : Safe S m) (h : Serves n sid oid k key H m)
    (huse : ∃ s, (Manager.step S cfg m e).lookup n = some (sid, s) ∧ s.fsp.oid = oid ∧ s.fsp.state = .established) :
    Serves n sid oid k key (H ++ (m.opening S cfg e).toList) (Manager.step S cfg m e) := by
  obtain ⟨s, hl, hoid, hst, hkBit, hkey⟩ := h.stored
  obtain ⟨s', hl', hoid', hst'⟩ := huse
  have hnext := (@WF.transition S cfg _ hm.wf e).stored hm.wf.stored hl'
  refine ⟨⟨s', hl', hoid', hst', (hnext.kBit hm hl (hoid'.trans hoid.symm)).trans hkBit, ?_⟩, ?_⟩
  · unfold FspSession.rxKey
    rw [hnext.rx hm hl (hoid'.trans hoid.symm) hst hst']
    exact hkey
  · intro o ho hoid''
    rcases List.mem_append.1 ho with ho | ho
    · exact h.keys o ho hoid''
    · obtain ⟨slot, s₁, l, hstep⟩ := Manager.step_opening (Option.mem_toList.1 ho)
      obtain ⟨-, hf, hflag⟩ := hstep.current hm hl (hoid''.trans hoid.symm)
      exact ⟨hf ▸ hkey, hflag.trans hkBit⟩

/-- A copy of the record that opened under the keys `oid`. -/
def Opening.Copy (oid : Nat) (r : FspRecord) (o : Opening) : Prop := o.fsp.oid = oid ∧ ∃ est, r.Carries o.frame est

/-- Until the record opens, nothing opens under its keys that puts its counter behind the replay window. -/
def InWindow (oid : Nat) (r : FspRecord) (H : List Opening) : Prop :=
  ∀ H₁ o H₂, H = H₁ ++ o :: H₂ → o.fsp.oid = oid → (∀ o' ∈ H₁, ¬ o'.Copy oid r) → o.est.counter < r.aead.counter + 2048

theorem InWindow.of_append {H' : List Opening} (h : InWindow oid r (H ++ H')) : InWindow oid r H := by
  rintro H₁ o H₂ rfl hoid hno
  exact h H₁ o (H₂ ++ H') (by rw [List.append_assoc, List.cons_append]) hoid hno

theorem InWindow.lt (h : InWindow oid r H) (hno : ∀ o ∈ H, ¬ o.Copy oid r) {o : Opening} (ho : o ∈ H)
    (hoid : o.fsp.oid = oid) : o.est.counter < r.aead.counter + 2048 := by
  obtain ⟨H₁, H₂, rfl⟩ := List.append_of_mem ho
  exact h H₁ o H₂ rfl hoid fun o' ho' => hno o' (List.mem_append_left _ ho')

/-- The record is still in the drain `i` of the session, or has opened under the keys `oid`. -/
def Owed (sid oid i : Nat) (r : FspRecord) (H : List Opening) (m : Manager) : Prop :=
  ∃ rest, m.drains[i]? = some (sid, rest) ∧
    ((∃ record ∈ rest, ∃ est, r.Carries record.frame est) ∨ ∃ o ∈ H, o.Copy oid r)

/-- A record at the head of its drain opens, unless it has opened before. -/
theorem Serves.opens (hS : S.Lawful) (hw : Windows H m) (hr : r.Made S)
    (h : Serves n sid oid r.kBit r.key H m) {env : Env} {record : EarlyRecord} {rest : List EarlyRecord}
    (hd : m.drains[i]? = some (sid, record :: rest)) {est : FspEstablished} (hc : r.Carries record.frame est)
    (hideal : ∀ o ∈ H, o.fsp.oid = oid → o.est.counter = r.aead.counter → ∃ est, r.Carries o.frame est)
    (hwin : InWindow oid r H) :
    (∃ o ∈ H, o.Copy oid r) ∨ ∃ o, m.opening S cfg (.drain env i) = some o ∧ o.fsp.oid = oid ∧ o.frame = record.frame := by
  by_cases hopened : ∃ o ∈ H, o.Copy oid r
  · exact .inl hopened
  right
  have hno : ∀ o ∈ H, ¬ o.Copy oid r := fun o ho hcopy => hopened ⟨o, ho, hcopy⟩
  obtain ⟨s, hl, hoid, hst, hkBit, hkey⟩ := h.stored
  have hs : s ∈ m.objs := List.mem_of_getElem? (objs_of_lookup hl)
  have hcheck : s.fsp.replay.check r.aead.counter = true :=
    hw.check hs (mem_fsps.2 (.inl rfl)) (by simp [hst]) hr.bound
      (fun o ho hoid' hcounter => hno o ho ⟨hoid'.trans hoid, hideal o ho (hoid'.trans hoid) hcounter⟩)
      (fun o ho hoid' => hwin.lt hno ho (hoid'.trans hoid))
  have hauth := FspSession.authenticate_of_carries hS hr hc hst hkey hcheck
  have hsame : SameBinding s (s.prunePreviousFsp env.dateMs) := sameBinding_prunePreviousFsp
  have hflag : hasFlag est.flags FSP_FLAG_K = r.kBit := congrArg (hasFlag · FSP_FLAG_K) hc.flags
  have hslot : (s.prunePreviousFsp env.dateMs).receiveSlot (hasFlag est.flags FSP_FLAG_K) = .current := by
    unfold receiveSlot
    rw [hsame.kBit, hkBit, if_pos hflag]
  have hauthenticates := (@authenticates_of_decode S env) hst hc.decodes
  rw [hslot] at hauthenticates
  refine ⟨⟨⟨sid, s, env, record.peer, s.remoteNodeAddr, record.frame⟩, s.fsp, est, r.aead.plaintext⟩, ?_, hoid, rfl⟩
  unfold opening
  rw [arrival_drain hd (objs_of_lookup hl)]
  simp only [Option.bind_eq_bind, Option.bind_some, hauthenticates, ReceiveSlot.fsp, fsp_prunePreviousFsp, hauth,
    Except.toOption, Option.pure_def]

/-- What is owed is owed after every event, as long as the keys are in use. -/
theorem Owed.step (hS : S.Lawful) (hm : Safe S m) (hw : Windows H m) (hr : r.Made S)
    (hserves : Serves n sid oid r.kBit r.key H m) (h : Owed sid oid i r H m)
    (hideal : ∀ o ∈ H, o.fsp.oid = oid → o.est.counter = r.aead.counter → ∃ est, r.Carries o.frame est)
    (hwin : InWindow oid r H) : Owed sid oid i r (H ++ (m.opening S cfg e).toList) (Manager.step S cfg m e) := by
  have ht : Transition S cfg m e (Manager.step S cfg m e) := hm.wf.transition e
  obtain ⟨rest, hd, howed⟩ := h
  have hopened (h : ∃ o ∈ H, o.Copy oid r) : ∃ o ∈ H ++ (m.opening S cfg e).toList, o.Copy oid r := by
    obtain ⟨o, ho, hcopy⟩ := h
    exact ⟨o, List.mem_append_left _ ho, hcopy⟩
  have hkeep (hd' : (Manager.step S cfg m e).drains[i]? = some (sid, rest)) :
      Owed sid oid i r (H ++ (m.opening S cfg e).toList) (Manager.step S cfg m e) := ⟨rest, hd', howed.imp_right hopened⟩
  rcases ht.drains with hsame | ⟨env, j, sid', record, rest', rfl, hd', hset⟩ | ⟨sid', t, -, happend⟩
  · exact hkeep (hsame ▸ hd)
  · by_cases hij : i = j
    · subst hij
      cases hd.symm.trans hd'
      refine ⟨rest', by rw [hset, List.getElem?_set_self (List.getElem?_eq_some_iff.1 hd').1], ?_⟩
      rcases howed with ⟨record', hmem, est, hc⟩ | hcopy
      · rcases List.mem_cons.1 hmem with rfl | hmem
        · right
          rcases (@Manager.Serves.opens _ cfg _ _ _ _ _ _ _ hS hw hr hserves env) hd' hc hideal hwin with hcopy | ⟨o, ho, hoid, hframe⟩
          · exact hopened hcopy
          · exact ⟨o, List.mem_append_right _ (Option.mem_toList.2 ho), hoid, est, hframe.symm ▸ hc⟩
        · exact .inl ⟨record', hmem, est, hc⟩
      · exact .inr (hopened hcopy)
    · exact hkeep (by rw [hset, List.getElem?_set_ne (Ne.symm hij)]; exact hd)
  · refine hkeep ?_
    rw [happend, List.getElem?_append_left (List.getElem?_eq_some_iff.1 hd).1]
    exact hd

end

/-! ### Delivery from the queue -/

/-- The record opened once in the run, and what it says was handed to the application. -/
def DeliveredOnce (S : Suite) (cfg : ManagerConfig) (es : List PolicyEvent) (oid : Nat) (r : FspRecord) : Prop :=
  ∃ H₁ o H₂, openings S cfg init es = H₁ ++ o :: H₂ ∧ o.Copy oid r ∧ (∀ o' ∈ H₁ ++ H₂, ¬ o'.Copy oid r) ∧
    (Run.run (stepUnder S cfg) init es).delivered =
      H₁.flatMap (·.delivers cfg) ++ deliveries cfg o.name r.inner ++ H₂.flatMap (·.delivers cfg)

/-- The event brings a frame with the record. -/
def Brings (r : FspRecord) (pe : PolicyEvent) : Prop :=
  ∃ env peer n frame est, pe.event = .fromPeer env peer n frame ∧ r.Carries frame est

/-- Will a record survive that arrives ahead of the SessionMsg3? In first contact it needs the K bit of the new
session. In a rekey its K bit must differ from the one in use, and must be the one a session starts with if the
SessionMsg3 turns out to be from a process that has restarted. -/
def Survives (r : FspRecord) (s : Session) (restarted : Bool) : Prop :=
  if s.pendingResponderFsp.isSome then r.kBit ≠ s.currentKBit ∧ (restarted = true → r.kBit = false)
  else r.kBit = s.currentKBit

section
variable {S : Suite} {cfg : ManagerConfig} {m m' : Manager} {n : NodeAddr} {sid oid : Nat} {s t t' : Session}
  {es es' : List PolicyEvent} {pe : PolicyEvent} {r : FspRecord} {H : List Opening} {o : Opening}

theorem Survives.queues {restarted : Bool} (h : Survives r s restarted) :
    s.pendingResponderFsp.isSome → r.kBit ≠ s.currentKBit := by
  intro hp
  unfold Survives at h
  rw [if_pos hp] at h
  exact h.1

/-- It survives exactly if it is queued and has the K bit of the session after the SessionMsg3. -/
theorem survives_iff {restarted : Bool} : Survives r s restarted ↔
    (s.pendingResponderFsp.isSome → r.kBit ≠ s.currentKBit) ∧ r.kBit = s.nextKBit restarted := by
  unfold Survives nextKBit
  cases s.pendingResponderFsp.isSome <;> cases r.kBit <;> cases s.currentKBit <;> cases restarted <;> simp

theorem openings_append : openings S cfg init (es ++ es') =
    openings S cfg init es ++ openings S cfg (Run.run (stepUnder S cfg) init es) es' := by
  induction es' using List.reverseRecOn with
  | nil => simp [openings]
  | append_singleton es' pe ih =>
    rw [← List.append_assoc, openings_concat, ih, openings_concat, Run.run_append, List.append_assoc]

theorem Opening.Copy.counter (h : o.Copy oid r) (ho : o ∈ openings S cfg init es) : o.est.counter = r.aead.counter := by
  obtain ⟨es₁, pe, slot, s', l, -, hstep⟩ := mem_openings ho
  obtain ⟨-, est, hc⟩ := h
  obtain ⟨_, _, _, _, _, _, hdec, -⟩ := FspSession.authenticate_eq_ok hstep.auth.auth
  cases hc.decodes.symm.trans hdec
  exact hc.counter

/-- A record that opens opens once, since its keys take its counter once. -/
theorem deliveredOnce_of_copy (hS : S.Lawful) (hr : r.Made S) (ho : o ∈ openings S cfg init es) (hcopy : o.Copy oid r)
    (hkey : o.fsp.rxKey = some r.key) : DeliveredOnce S cfg es oid r := by
  obtain ⟨H₁, H₂, hH⟩ := List.append_of_mem ho
  refine ⟨H₁, o, H₂, hH, hcopy, fun o' ho' hcopy' => ?_, ?_⟩
  · have hmem : o' ∈ openings S cfg init es := by
      rw [hH]
      rcases List.mem_append.1 ho' with h | h
      · exact List.mem_append_left _ h
      · exact List.mem_append_right _ (List.mem_cons_of_mem _ h)
    have hpair : (o'.fsp.oid, o'.est.counter) = (o.fsp.oid, o.est.counter) :=
      Prod.ext (hcopy'.1.trans hcopy.1.symm) ((hcopy'.counter hmem).trans (hcopy.counter ho).symm)
    have hnodup := (@windows_run S cfg es).nodup
    rw [hH, List.map_append, List.map_cons, List.nodup_middle] at hnodup
    refine (List.nodup_cons.1 hnodup).1 ?_
    rw [← List.map_append]
    exact hpair ▸ List.mem_map_of_mem (f := fun o : Opening => (o.fsp.oid, o.est.counter)) ho'
  · rw [delivered_run, hH, List.flatMap_append, List.flatMap_cons, ← List.append_assoc]
    obtain ⟨es₁, pe, slot, s', l, -, hstep⟩ := mem_openings ho
    obtain ⟨est, hc⟩ := hcopy.2
    obtain ⟨_, _, aad, _, _, _, hdec, -, haad, -⟩ := FspSession.authenticate_eq_ok hstep.auth.auth
    cases hc.decodes.symm.trans hdec
    have hsealed : FspRecord.Sealed o.frame r.key r := by
      refine ⟨rfl, fun est' aad' hdec' haad' => ?_⟩
      cases hdec.symm.trans hdec'
      rw [hc.flags, hc.counter, hc.payloadLen, hr.aad] at haad'
      exact ⟨hc.counter.symm, Except.ok.inj haad', hc.ciphertext.symm⟩
    obtain ⟨hpt, -⟩ := FspSession.plaintext_of_sealed hS hr hstep.auth.auth hkey hsealed
    have hdel : o.delivers cfg = deliveries cfg o.name r.inner := by
      unfold Opening.delivers
      rw [hpt, hr.decodes]
    rw [hdel]

/-- What has opened before a record had opened when it arrived. -/
theorem openings_before {H₁ H₂ : List Opening} (h : openings S cfg init es = H₁ ++ o :: H₂) :
    ∃ (es₁ : List PolicyEvent) (pe : PolicyEvent), openings S cfg init es₁ = H₁ ∧
      (Run.run (stepUnder S cfg) init es₁).opening S (cfg.under S pe.admission pe.localEpoch) pe.event = some o := by
  induction es using List.reverseRecOn generalizing H₂ with
  | nil => exact absurd h (by simp [openings])
  | append_singleton es pe ih =>
    rw [openings_concat] at h
    cases hlast : (Run.run (stepUnder S cfg) init es).opening S (cfg.under S pe.admission pe.localEpoch) pe.event with
    | none =>
      rw [hlast, Option.toList_none, List.append_nil] at h
      exact ih h
    | some o' =>
      rw [hlast, Option.toList_some] at h
      rcases List.eq_nil_or_concat H₂ with rfl | ⟨H₂, o'', rfl⟩
      · obtain ⟨hbefore, heq⟩ := List.append_inj' h rfl
        cases heq
        exact ⟨es, pe, hbefore, hlast⟩
      · rw [List.concat_eq_append, ← List.cons_append, ← List.append_assoc] at h
        exact ih (List.append_inj' h rfl).1

/-- A record that opens has been in its window. -/
theorem DeliveredOnce.inWindow (h : DeliveredOnce S cfg es oid r) : InWindow oid r (openings S cfg init es) := by
  obtain ⟨A, c, B, hH, hcopy, -, -⟩ := h
  have hc : c.est.counter = r.aead.counter := hcopy.counter (hH ▸ List.mem_append_right _ List.mem_cons_self)
  obtain ⟨es₁, pe, hbefore, ho⟩ := openings_before hH
  intro H₁ o H₂ hsplit hoid hno
  rw [hH] at hsplit
  -- the other record is the one that opens, or opened before it
  have hcases : o = c ∨ o ∈ A := by
    rcases List.append_eq_append_iff.1 hsplit with ⟨L, rfl, hL⟩ | ⟨L, rfl, hL⟩
    · cases L with
      | nil =>
        cases hL
        exact .inl rfl
      | cons c' L =>
        cases hL
        exact absurd hcopy (hno c (List.mem_append_right _ List.mem_cons_self))
    · cases L with
      | nil =>
        cases hL
        exact .inl rfl
      | cons c' L =>
        cases hL
        exact .inr (List.mem_append_right _ List.mem_cons_self)
  rcases hcases with rfl | hA
  · omega
  obtain ⟨slot, s', l, hstep⟩ := Manager.step_opening ho
  obtain ⟨_, _, _, hst, _, _, _, hcheck, -⟩ := FspSession.authenticate_eq_ok hstep.auth.auth
  have hacc : c.fsp.replay.Accepted (counters A c.fsp.oid) := by
    have hwindows := @windows_run S cfg es₁
    rw [hbefore] at hwindows
    exact hwindows.window _ (List.mem_of_getElem? (arrival_objs hstep.arrival)) _ hstep.auth.mem (by simp [hst])
  have hhigh := hacc.le_high o.est.counter ⟨o, hA, hoid.trans hcopy.1.symm, rfl⟩
  have hbound := (hacc.check_iff.1 hcheck).2.2.1
  omega

/-- From the SessionMsg3 on the keys of the handshake serve, as long as the events leave them in use. -/
theorem serves_run {key : Bytes} (hmsg3 : CompletesHandshake S cfg (Run.run (stepUnder S cfg) init es) pe n sid oid t t')
    (hkey : t'.fsp.rxKey = some key)
    (huse : Run.Along (LeavesInUse S cfg n sid oid) (stepUnder S cfg) (Run.run (stepUnder S cfg) init (es ++ [pe])) es') :
    Serves n sid oid t'.currentKBit key (openings S cfg init (es ++ [pe] ++ es'))
      (Run.run (stepUnder S cfg) init (es ++ [pe] ++ es')) := by
  induction es' using List.reverseRecOn with
  | nil =>
    rw [List.append_nil, openings_concat, hmsg3.opening safe_runUnder paired_run, Option.toList_none, List.append_nil,
      run_stepUnder_concat]
    refine ⟨⟨t', hmsg3.after, hmsg3.fsp, hmsg3.state, rfl, hkey⟩, fun o ho hoid => ?_⟩
    exact absurd hoid (hmsg3.unopened safe_runUnder paired_run windows_run o ho)
  | append_singleton es' pe' ih =>
    obtain ⟨hbefore, hlast⟩ := Run.along_append.1 huse
    rw [← List.append_assoc, openings_concat, run_stepUnder_concat]
    rw [← Run.run_append] at hlast
    exact (ih hbefore).step safe_runUnder hlast.1

/-- A record in the queue stays owed. -/
theorem owed_run (hS : S.Lawful) (hr : r.Made S)
    (hmsg3 : CompletesHandshake S cfg (Run.run (stepUnder S cfg) init es) pe n sid oid t t')
    (hkey : t'.fsp.rxKey = some r.key) (hk : t'.currentKBit = r.kBit)
    (huse : Run.Along (LeavesInUse S cfg n sid oid) (stepUnder S cfg) (Run.run (stepUnder S cfg) init (es ++ [pe])) es')
    (hqueued : ∃ record ∈ t.earlyEstablishedRecords, ∃ est, r.Carries record.frame est)
    (hideal : ∀ o ∈ openings S cfg init (es ++ [pe] ++ es'), o.fsp.oid = oid → o.est.counter = r.aead.counter →
      ∃ est, r.Carries o.frame est)
    (hwin : InWindow oid r (openings S cfg init (es ++ [pe] ++ es'))) :
    Owed sid oid (Run.run (stepUnder S cfg) init es).drains.length r (openings S cfg init (es ++ [pe] ++ es'))
      (Run.run (stepUnder S cfg) init (es ++ [pe] ++ es')) := by
  induction es' using List.reverseRecOn with
  | nil =>
    refine ⟨t.earlyEstablishedRecords, ?_, .inl hqueued⟩
    rw [List.append_nil, run_stepUnder_concat, hmsg3.drains safe_runUnder paired_run,
      List.getElem?_append_right (le_refl _), Nat.sub_self]
    rfl
  | append_singleton es' pe' ih =>
    obtain ⟨hbefore, -⟩ := Run.along_append.1 huse
    rw [← List.append_assoc, openings_concat] at hideal hwin
    have hideal' := fun o ho => hideal o (List.mem_append_left _ ho)
    have hwin' := hwin.of_append
    rw [← List.append_assoc, openings_concat, run_stepUnder_concat]
    exact (ih hbefore hideal' hwin').step hS safe_runUnder windows_run hr (hk ▸ serves_run hmsg3 hkey hbefore) hideal' hwin'

/-! ### Where queued records come from -/

/-- No copy of the record is in a queue or a drain. -/
structure Unqueued (r : FspRecord) (m : Manager) : Prop where
  queues : ∀ s ∈ m.objs, ∀ record ∈ s.earlyEstablishedRecords, ¬ ∃ est, r.Carries record.frame est
  drains : ∀ d ∈ m.drains, ∀ record ∈ d.2, ¬ ∃ est, r.Carries record.frame est

theorem Next.queue {e : ManagerEvent} {gone : Prop} {s' : Session} (h : Next S cfg m e gone s s') {record : EarlyRecord}
    (hr : record ∈ s'.earlyEstablishedRecords) :
    record ∈ s.earlyEstablishedRecords ∨ ∃ a, m.arrival cfg e = some a ∧ a.frame = record.frame := by
  cases h with
  | receipt ha h =>
    rcases h.queue with heq | heq
    · exact .inl (heq ▸ hr)
    · rw [heq] at hr
      refine (List.mem_append.1 hr).imp_right fun hlast => ?_
      cases List.mem_singleton.1 hlast
      exact ⟨_, ha, rfl⟩
  | sealed h =>
    obtain ⟨c, w, reports, rfl⟩ := h
    exact .inl hr
  | msg3Failed hs h => exact .inl (queue_putHandshakeFsp ▸ hr)
  | msg3Completes p he hp hl hrun ha => exact absurd hr List.not_mem_nil
  | _ => exact .inl hr

theorem Created.queue {o : Option Session} {s' : Session} (h : Created S cfg m o s') {record : EarlyRecord}
    (hr : record ∈ s'.earlyEstablishedRecords) : ∃ s, o = some s ∧ record ∈ s.earlyEstablishedRecords := by
  cases h with
  | rekey hst h => exact ⟨_, rfl, hr⟩
  | yields hst h => exact ⟨_, rfl, hr⟩
  | contact h => exact absurd hr List.not_mem_nil
  | initiated p hn hf hst hrem => exact absurd hr List.not_mem_nil

/-- What arrives is not a copy of the record, unless the event brings one. -/
theorem Unqueued.arrival (h : Unqueued r m) {a : Arrival} (hno : ¬ Brings r pe) (ha : m.arrival cfg pe.event = some a) :
    ¬ ∃ est, r.Carries a.frame est := by
  rintro ⟨est, hc⟩
  obtain ⟨admission, epoch, e⟩ := pe
  cases e with
  | fromPeer env peer src frame =>
    have hframe : a.frame = frame := by
      simp only [Manager.arrival] at ha
      split at ha
      · obtain ⟨_, -, rfl⟩ := Option.map_eq_some_iff.1 ha
        rfl
      · cases ha
    exact hno ⟨env, peer, src, frame, est, rfl, hframe ▸ hc⟩
  | drain env i =>
    simp only [Manager.arrival] at ha
    split at ha
    · rename_i sid record rest hd
      obtain ⟨_, -, rfl⟩ := Option.map_eq_some_iff.1 ha
      exact h.drains _ (List.mem_of_getElem? hd) record List.mem_cons_self ⟨est, hc⟩
    · cases ha
  | _ => cases ha

theorem Unqueued.step (hm : Safe S m) (h : Unqueued r m) (hno : ¬ Brings r pe) : Unqueued r (stepUnder S cfg m pe) := by
  have ht : Transition S (cfg.under S pe.admission pe.localEpoch) m pe.event (stepUnder S cfg m pe) :=
    hm.wf.transition pe.event
  constructor
  · intro s' hs' record hrec
    obtain ⟨i, hi⟩ := List.getElem?_of_mem hs'
    rcases ht.objects with ⟨-, hch⟩ | ⟨-, k, hch⟩
    · obtain ⟨s, hs, hn⟩ := hch i s' hi
      rcases hn.queue hrec with hrec | ⟨a, ha, hframe⟩
      · exact h.queues s (List.mem_of_getElem? hs) record hrec
      · exact hframe ▸ h.arrival hno ha
    · rcases hch i s' hi with hs | ⟨-, hc⟩
      · exact h.queues s' (List.mem_of_getElem? hs) record hrec
      · obtain ⟨s, hs, hrec⟩ := hc.queue hrec
        exact h.queues s (List.mem_of_getElem? hs) record hrec
  · intro d hd record hrec
    rcases ht.drains with heq | ⟨env, i, sid, record', rest, -, hd', hset⟩ | ⟨sid, s, ho, happend⟩
    · exact h.drains d (heq ▸ hd) record hrec
    · rw [hset] at hd
      rcases List.mem_or_eq_of_mem_set hd with hd | rfl
      · exact h.drains d hd record hrec
      · exact h.drains _ (List.mem_of_getElem? hd') record (List.mem_cons_of_mem _ hrec)
    · rw [happend] at hd
      rcases List.mem_append.1 hd with hd | hd
      · exact h.drains d hd record hrec
      · cases List.mem_singleton.1 hd
        exact h.queues s (List.mem_of_getElem? ho) record hrec

theorem unqueued_run (h : Unqueued r (Run.run (stepUnder S cfg) init es)) (hno : ∀ pe ∈ es', ¬ Brings r pe) :
    Unqueued r (Run.run (stepUnder S cfg) init (es ++ es')) := by
  induction es' using List.reverseRecOn with
  | nil => rwa [List.append_nil]
  | append_singleton es' pe ih =>
    rw [← List.append_assoc, run_stepUnder_concat]
    exact (ih fun pe hpe => hno pe (List.mem_append_left _ hpe)).step safe_runUnder
      (hno pe (List.mem_append_right _ (List.mem_singleton.2 rfl)))

/-- What is in no queue and does not arrive does not open. -/
theorem unqueued_opens (h : Unqueued r (Run.run (stepUnder S cfg) init es)) (hno : ∀ pe ∈ es', ¬ Brings r pe) :
    ∀ o ∈ openings S cfg init (es ++ es'), o ∈ openings S cfg init es ∨ ¬ ∃ est, r.Carries o.frame est := by
  induction es' using List.reverseRecOn with
  | nil =>
    intro o ho
    rw [List.append_nil] at ho
    exact .inl ho
  | append_singleton es' pe ih =>
    have hno' : ∀ pe ∈ es', ¬ Brings r pe := fun pe hpe => hno pe (List.mem_append_left _ hpe)
    intro o ho
    rw [← List.append_assoc, openings_concat] at ho
    rcases List.mem_append.1 ho with ho | ho
    · exact ih hno' o ho
    · obtain ⟨slot, s', l, hstep⟩ := Manager.step_opening (Option.mem_toList.1 ho)
      exact .inr ((unqueued_run h hno').arrival (hno pe (List.mem_append_right _ (List.mem_singleton.2 rfl))) hstep.arrival)

end

/-! ### Early records -/

section
variable {S : Suite} {cfg : ManagerConfig} {n : NodeAddr} {sid oid : Nat} {s t t' : Session} {r : FspRecord} {env : Env}
  {peer : PeerId} {frame : Bytes} {est : FspEstablished} {es es₁ es₂ es₃ : List PolicyEvent} {pe₁ pe₂ : PolicyEvent}

/-- The record is in the queue at the SessionMsg3 if it had to wait when it arrived. -/
theorem early_record_queued (hl : (Run.run (stepUnder S cfg) init es₁).lookup n = some (sid, s)) (hw : s.Awaits oid)
    (he : pe₁.event = .fromPeer env peer n frame) (hallow : pe₁.admission.assertNode S n = .ok ())
    (hc : r.Carries frame est) (hroom : s.Room frame) (hk : s.pendingResponderFsp.isSome → r.kBit ≠ s.currentKBit)
    (hl' : (Run.run (stepUnder S cfg) init (es₁ ++ [pe₁] ++ es₂)).lookup n = some (sid, t)) (hw' : t.Awaits oid)
    (hlt : oid < (Run.run (stepUnder S cfg) init es₁).nextOid) :
    ∃ record ∈ t.earlyEstablishedRecords, ∃ est, r.Carries record.frame est := by
  have hphase : peekFspPhase frame = .ok FSP_PHASE_ESTABLISHED := (decodeFspEstablished_eq_ok hc.decodes).2.2.2.2
  have hflag : hasFlag est.flags FSP_FLAG_K = r.kBit := congrArg (hasFlag · FSP_FLAG_K) hc.flags
  obtain ⟨s₁, l, hqueue, hstep⟩ := @stepUnder_established S cfg _ _ _ _ _ _ _ _ he hallow hphase hl (fun s₁ =>
      s₁.earlyEstablishedRecords = s.earlyEstablishedRecords ++ [⟨peer, frame⟩])
    (wp_mono (hw.queues (paired_run _ _ _ hl) hc.decodes hroom (by rw [hflag]; exact hk)) (fun _ _ => id) fun _ _ => False.elim)
  have hl₁ : (Run.run (stepUnder S cfg) init (es₁ ++ [pe₁])).lookup n = some (sid, s₁) := by
    have hget : (Run.run (stepUnder S cfg) init es₁).sessions.get n = some sid := sessions_of_lookup hl
    have hobj := @objs_setObj _ _ _ s₁ (objs_of_lookup hl)
    rw [run_stepUnder_concat, hstep]
    exact lookup_eq_some hget hobj
  obtain ⟨s₁', hl₁', -, hcont⟩ := awaits_run (hlt.trans_le nextOid_le_run) hl' hw'
  cases hl₁.symm.trans hl₁'
  refine ⟨⟨peer, frame⟩, hcont.queue.subset ?_, est, hc⟩
  rw [hqueue]
  exact List.mem_append_right _ (List.mem_singleton.2 rfl)

/-- A record that arrives ahead of the SessionMsg3 survives if it is queued with the K bit that the session then has,
the keys are in use until it is taken from the queue, and it is in their window. Then it is delivered once, whatever
comes after. Otherwise it is not, unless another copy of it arrives. -/
theorem early_record_delivered (hS : S.Lawful) (hl : (Run.run (stepUnder S cfg) init es₁).lookup n = some (sid, s))
    (hw : s.Awaits oid) (he : pe₁.event = .fromPeer env peer n frame) (hallow : pe₁.admission.assertNode S n = .ok ())
    (hr : r.Made S) (hc : r.Carries frame est) (hroom : s.Room frame)
    (hmsg3 : CompletesHandshake S cfg (Run.run (stepUnder S cfg) init (es₁ ++ [pe₁] ++ es₂)) pe₂ n sid oid t t')
    (hkey : t'.fsp.rxKey = some r.key)
    (huse : Run.Along (LeavesInUse S cfg n sid oid) (stepUnder S cfg)
      (Run.run (stepUnder S cfg) init (es₁ ++ [pe₁] ++ es₂ ++ [pe₂])) es₃)
    (htaken : ∃ rest, (Run.run (stepUnder S cfg) init (es₁ ++ [pe₁] ++ es₂ ++ [pe₂] ++ es₃)).drains[
      (Run.run (stepUnder S cfg) init (es₁ ++ [pe₁] ++ es₂)).drains.length]? = some (sid, rest) ∧
        ∀ record ∈ rest, ¬ ∃ est, r.Carries record.frame est)
    (hideal : ∀ o ∈ openings S cfg init (es₁ ++ [pe₁] ++ es₂ ++ [pe₂] ++ es₃), o.fsp.oid = oid →
      o.est.counter = r.aead.counter → ∃ est, r.Carries o.frame est) :
    (Survives r s (remoteRestarted t t'.fsp) ∧
        InWindow oid r (openings S cfg init (es₁ ++ [pe₁] ++ es₂ ++ [pe₂] ++ es₃)) →
      ∀ es₄, DeliveredOnce S cfg (es₁ ++ [pe₁] ++ es₂ ++ [pe₂] ++ es₃ ++ es₄) oid r) ∧
    ((∀ pe ∈ es₁ ++ es₂ ++ es₃, ¬ Brings r pe) →
      (DeliveredOnce S cfg (es₁ ++ [pe₁] ++ es₂ ++ [pe₂] ++ es₃) oid r ↔
        Survives r s (remoteRestarted t t'.fsp) ∧
          InWindow oid r (openings S cfg init (es₁ ++ [pe₁] ++ es₂ ++ [pe₂] ++ es₃)))) := by
  have hm : Safe S (Run.run (stepUnder S cfg) init es₁) := safe_runUnder
  have hlt : oid < (Run.run (stepUnder S cfg) init es₁).nextOid :=
    hw.oid ▸ hm.unshared.lt s (List.mem_of_getElem? (objs_of_lookup hl)) _ handshakeFsp_mem
  have hflag : hasFlag est.flags FSP_FLAG_K = r.kBit := congrArg (hasFlag · FSP_FLAG_K) hc.flags
  have hphase : peekFspPhase frame = .ok FSP_PHASE_ESTABLISHED := (decodeFspEstablished_eq_ok hc.decodes).2.2.2.2
  -- the session that reads the SessionMsg3 has the K bit of the one the record arrived for
  have hk : t'.currentKBit = s.nextKBit (remoteRestarted t t'.fsp) := by
    have hbefore := hmsg3.before
    rw [List.append_assoc] at hbefore
    obtain ⟨s', hl', -, hcont⟩ := awaits_run hlt hbefore hmsg3.awaits
    cases hl.symm.trans hl'
    rw [hmsg3.kBit safe_runUnder paired_run]
    unfold nextKBit
    rw [hcont.pending, hcont.kBit]
  have hdelivered : Survives r s (remoteRestarted t t'.fsp) ∧
      InWindow oid r (openings S cfg init (es₁ ++ [pe₁] ++ es₂ ++ [pe₂] ++ es₃)) →
        ∀ es₄, DeliveredOnce S cfg (es₁ ++ [pe₁] ++ es₂ ++ [pe₂] ++ es₃ ++ es₄) oid r := by
    rintro ⟨hsurv, hwin⟩ es₄
    have hkt : t'.currentKBit = r.kBit := hk.trans (survives_iff.1 hsurv).2.symm
    have hqueued := early_record_queued hl hw he hallow hc hroom hsurv.queues hmsg3.before hmsg3.awaits hlt
    obtain ⟨rest, hrest, howed⟩ := owed_run hS hr hmsg3 hkey hkt huse hqueued hideal hwin
    obtain ⟨rest', hrest', hgone⟩ := htaken
    cases hrest'.symm.trans hrest
    rcases howed with ⟨record, hmem, hcarried⟩ | ⟨o, ho, hcopy⟩
    · exact absurd hcarried (hgone record hmem)
    · refine deliveredOnce_of_copy hS hr ?_ hcopy ((serves_run hmsg3 hkey huse).keys o ho hcopy.1).1
      rw [openings_append]
      exact List.mem_append_left _ ho
  refine ⟨hdelivered, fun hnone' => ⟨fun honce => ⟨?_, honce.inWindow⟩, fun h => ?_⟩⟩
  · obtain ⟨H₁, o, H₂, hH, hcopy, -, -⟩ := honce
    have ho : o ∈ openings S cfg init (es₁ ++ [pe₁] ++ es₂ ++ [pe₂] ++ es₃) := by
      rw [hH]
      exact List.mem_append_right _ List.mem_cons_self
    -- it opened under the keys of the handshake, so it has their K bit
    have hkt : r.kBit = t'.currentKBit := by
      obtain ⟨est', hc'⟩ := hcopy.2
      obtain ⟨es', pe, slot, s', l, -, hstep⟩ := mem_openings ho
      obtain ⟨_, _, _, _, _, _, hdec, -⟩ := FspSession.authenticate_eq_ok hstep.auth.auth
      cases hc'.decodes.symm.trans hdec
      have hflag' : hasFlag o.est.flags FSP_FLAG_K = r.kBit := congrArg (hasFlag · FSP_FLAG_K) hc'.flags
      exact hflag'.symm.trans ((serves_run hmsg3 hkey huse).keys o ho hcopy.1).2
    by_contra hsurv
    -- it has not been queued: its K bit was the one in use
    have hcur : s.fsp.state = .established ∧ r.kBit = s.currentKBit := by
      rw [survives_iff, ← hk] at hsurv
      have hnot : ¬ (s.pendingResponderFsp.isSome → r.kBit ≠ s.currentKBit) := fun h => hsurv ⟨h, hkt⟩
      obtain ⟨hp, hne⟩ := Classical.not_imp.1 hnot
      exact ⟨paired_run _ _ _ hl hp, not_not.1 hne⟩
    have hunqueued₁ : Unqueued r (Run.run (stepUnder S cfg) init es₁) := by
      have := @unqueued_run S cfg [] es₁ r
        ⟨fun s hs => absurd hs List.not_mem_nil, fun d hd => absurd hd List.not_mem_nil⟩
        (fun pe hpe => hnone' pe (List.mem_append_left _ (List.mem_append_left _ hpe)))
      rwa [List.nil_append] at this
    have hunqueued : Unqueued r (Run.run (stepUnder S cfg) init (es₁ ++ [pe₁])) := by
      obtain ⟨s₁, l, hqueue, hstep⟩ := @stepUnder_established S cfg _ _ _ _ _ _ _ _ he hallow hphase hl (fun s₁ =>
          s₁.earlyEstablishedRecords = s.earlyEstablishedRecords)
        (handleEstablished_tries hcur.1 hc.decodes (hflag.trans hcur.2))
      rw [run_stepUnder_concat, hstep]
      refine ⟨fun u hu record hrec => ?_, hunqueued₁.drains⟩
      rcases List.mem_or_eq_of_mem_set hu with hu | rfl
      · exact hunqueued₁.queues u hu record hrec
      · exact hunqueued₁.queues s (List.mem_of_getElem? (objs_of_lookup hl)) record (hqueue ▸ hrec)
    have hmsg3' : ¬ Brings r pe₂ := by
      rintro ⟨env', peer', n', frame', est', he', hc'⟩
      obtain ⟨env'', peer'', frame'', f, l, he'', hph, -⟩ := hmsg3.spec safe_runUnder paired_run
      cases he'.symm.trans he''
      exact absurd (Except.ok.inj ((decodeFspEstablished_eq_ok hc'.decodes).2.2.2.2.symm.trans hph)) (by decide)
    have hrest : ∀ pe ∈ es₂ ++ [pe₂] ++ es₃, ¬ Brings r pe := by
      intro pe hpe
      rcases List.mem_append.1 hpe with hpe | hpe
      · rcases List.mem_append.1 hpe with hpe | hpe
        · exact hnone' pe (List.mem_append_left _ (List.mem_append_right _ hpe))
        · cases List.mem_singleton.1 hpe
          exact hmsg3'
      · exact hnone' pe (List.mem_append_right _ hpe)
    have hassoc : es₁ ++ [pe₁] ++ es₂ ++ [pe₂] ++ es₃ = es₁ ++ [pe₁] ++ (es₂ ++ [pe₂] ++ es₃) := by
      simp only [List.append_assoc]
    rw [hassoc] at ho
    rcases unqueued_opens hunqueued hrest o ho with ho | hno
    · -- nothing opens under the keys before the SessionMsg3
      refine hmsg3.unopened safe_runUnder paired_run windows_run o ?_ hcopy.1
      rw [openings_append]
      exact List.mem_append_left _ ho
    · exact hno hcopy.2
  · have honce := hdelivered h []
    rwa [List.append_nil] at honce

end

/-- The frame of a message that the toy node `n` sends right after the SessionMsg3 of a rekey. -/
def toyRerecord (n k : UInt8) (payload : Bytes) : Bytes :=
  toyFrame n k 4 (toyOpened n k ++ toyReopening n k ++ [toyReceive n k (toyReack n k),
    .send (toyEnv n) ⟨false, 0, true⟩ 1 FSP_MSG_ENDPOINT_DATA payload])

/-- The records `n` seals with it. -/
def toyResealed (n k : UInt8) (payload : Bytes) : List FspRecord :=
  match (Run.run (step toySuite (toyConfig n)) init (toyOpened n k ++ toyReopening n k ++
    [toyReceive n k (toyReack n k)])).lookup (toyIdentity k).nodeAddr with
  | some (_, s) => (s.fsp.sealing toySuite FSP_MSG_ENDPOINT_DATA payload 0 0).toOption.toList
  | none => []

theorem toyResealed_made (n k : UInt8) (payload : Bytes) : ∀ r ∈ toyResealed n k payload, r.Made toySuite := by
  intro r hr
  unfold toyResealed at hr
  split at hr
  · exact (FspSession.sealing_eq_ok (mem_toOption.1 (Option.mem_toList.1 hr))).1
  · cases hr

/-- It arrives ahead of the SessionMsg3. -/
def toyEarly : PolicyEvent := ⟨⟨[]⟩, List.replicate 8 2, toyReceive 2 1 (toyRerecord 1 2 [7, 8, 9])⟩

section
variable {m : Manager} {pe : PolicyEvent} {oid : Nat} {key : Bytes}

theorem toy_awaits (h : (m.lookup (toyIdentity 1).nodeAddr).any fun x => x.1 = 0 ∧ x.2.handshakeFsp.oid = oid ∧
      x.2.handshakeFsp.state = .handshaking ∧ x.2.handshakeFsp.role = .responder ∧ x.2.earlyEstablishedRecords.length = 0 ∧
        x.2.earlyEstablishedBytes = 0) :
    ∃ s, m.lookup (toyIdentity 1).nodeAddr = some (0, s) ∧ s.Awaits oid ∧ s.earlyEstablishedRecords.length = 0 ∧
      s.earlyEstablishedBytes = 0 := by
  obtain ⟨⟨sid, s⟩, hl, hs⟩ := (Option.any_eq_true _ _).1 h
  obtain ⟨rfl, hoid, hst, hrole, hroom⟩ := of_decide_eq_true hs
  exact ⟨s, hl, ⟨hoid, hst, hrole⟩, hroom⟩

theorem toy_completes {t : Session} (hl : m.lookup (toyIdentity 1).nodeAddr = some (0, t)) (hw : t.Awaits oid)
    (h : ((stepUnder toySuite (toyConfig 2) m pe).lookup (toyIdentity 1).nodeAddr).any fun x => x.1 = 0 ∧
      x.2.fsp.oid = oid ∧ x.2.fsp.state = .established ∧ x.2.fsp.rxKey = some key) :
    ∃ t', CompletesHandshake toySuite (toyConfig 2) m pe (toyIdentity 1).nodeAddr 0 oid t t' ∧ t'.fsp.rxKey = some key := by
  obtain ⟨⟨sid, t'⟩, hl', ht'⟩ := (Option.any_eq_true _ _).1 h
  obtain ⟨rfl, hoid, hst, hkey⟩ := of_decide_eq_true ht'
  exact ⟨t', ⟨hl, hw, hl', hoid, hst⟩, hkey⟩

end

/-- A record that arrives ahead of the SessionMsg3 of the first rekey is lost. -/
theorem early_record_of_rekey_lost :
    ¬ ∀ (S : Suite) (cfg : ManagerConfig) (n : NodeAddr) (sid oid : Nat) (s t t' : Session) (r : FspRecord) (env : Env)
      (peer : PeerId) (frame : Bytes) (est : FspEstablished) (es₁ es₂ es₃ : List PolicyEvent) (pe₁ pe₂ : PolicyEvent),
      S.Lawful → (Run.run (stepUnder S cfg) init es₁).lookup n = some (sid, s) → s.Awaits oid →
      pe₁.event = .fromPeer env peer n frame → pe₁.admission.assertNode S n = .ok () → r.Made S → r.Carries frame est →
      s.Room frame → CompletesHandshake S cfg (Run.run (stepUnder S cfg) init (es₁ ++ [pe₁] ++ es₂)) pe₂ n sid oid t t' →
      t'.fsp.rxKey = some r.key →
      Run.Along (LeavesInUse S cfg n sid oid) (stepUnder S cfg)
        (Run.run (stepUnder S cfg) init (es₁ ++ [pe₁] ++ es₂ ++ [pe₂])) es₃ →
      (Run.run (stepUnder S cfg) init (es₁ ++ [pe₁] ++ es₂ ++ [pe₂] ++ es₃)).drains[
        (Run.run (stepUnder S cfg) init (es₁ ++ [pe₁] ++ es₂)).drains.length]? = some (sid, []) →
      (∀ o ∈ openings S cfg init (es₁ ++ [pe₁] ++ es₂ ++ [pe₂] ++ es₃), o.fsp.oid = oid →
        o.est.counter = r.aead.counter → ∃ est, r.Carries o.frame est) →
      (∀ o ∈ openings S cfg init (es₁ ++ [pe₁] ++ es₂ ++ [pe₂] ++ es₃), o.fsp.oid = oid →
        o.est.counter < r.aead.counter + 2048) →
      DeliveredOnce S cfg (es₁ ++ [pe₁] ++ es₂ ++ [pe₂] ++ es₃) oid r := by
  intro h
  obtain ⟨r, hr⟩ := List.length_eq_one_iff.1 (show (toyResealed 1 2 [7, 8, 9]).length = 1 by decide +kernel)
  have hmem : r ∈ toyResealed 1 2 [7, 8, 9] := by simp [hr]
  have hcarried : ∀ r ∈ toyResealed 1 2 [7, 8, 9], ∃ est, r.Carries (toyRerecord 1 2 [7, 8, 9]) est := by decide +kernel
  obtain ⟨est, hc⟩ := hcarried r hmem
  obtain ⟨s, hl, hw, hlen, hbytes⟩ := @toy_awaits (Run.run (stepUnder toySuite (toyConfig 2)) init toyBefore) 1
    (by decide +kernel)
  obtain ⟨t, hl', hw', -⟩ := @toy_awaits (Run.run (stepUnder toySuite (toyConfig 2)) init (toyBefore ++ [toyEarly] ++
      [])) 1 (by decide +kernel)
  have hafter : ∀ r ∈ toyResealed 1 2 [7, 8, 9], ((stepUnder toySuite (toyConfig 2)
      (Run.run (stepUnder toySuite (toyConfig 2)) init (toyBefore ++ [toyEarly] ++ [])) toyPromotion).lookup
      (toyIdentity 1).nodeAddr).any (fun x => x.1 = 0 ∧ x.2.fsp.oid = 1 ∧ x.2.fsp.state = .established ∧
        x.2.fsp.rxKey = some r.key) = true := by
    decide +kernel
  obtain ⟨t', hmsg3, hkey⟩ := toy_completes hl' hw' (hafter r hmem)
  have hnone : openings toySuite (toyConfig 2) init (toyBefore ++ [toyEarly] ++ [] ++ [toyPromotion] ++ []) = [] :=
    List.length_eq_zero_iff.1 (by decide +kernel)
  have hroom : s.Room (toyRerecord 1 2 [7, 8, 9]) := by
    unfold Room
    rw [hlen, hbytes]
    decide +kernel
  obtain ⟨H₁, o, H₂, hH, -⟩ := h toySuite (toyConfig 2) _ 0 1 s t t' r (toyEnv 2) 0 _ est toyBefore [] [] toyEarly toyPromotion
    toySuite_lawful hl hw rfl (by decide +kernel) (toyResealed_made 1 2 _ r hmem) hc hroom hmsg3 hkey trivial
    (by decide +kernel) (fun o ho => by rw [hnone] at ho; cases ho) (fun o ho => by rw [hnone] at ho; cases ho)
  rw [hnone] at hH
  exact List.cons_ne_nil _ _ (List.append_eq_nil_iff.1 hH.symm).2

/-- The record arrives once more after it has been delivered. -/
theorem early_record_delivered_toy : ∃ r ∈ toySealed 1 2 [7, 8, 9],
    DeliveredOnce toySuite (toyConfig 2) (toyUnder 2 [toyReceive 2 1 (toySetup 1 2)] ++ [toyLate] ++ [] ++
      [⟨⟨[]⟩, List.replicate 8 2, toyReceive 2 1 (toyMsg3 1 2)⟩] ++ [⟨⟨[]⟩, List.replicate 8 2, .drain (toyEnv 2) 0⟩] ++
        [toyLate]) 0 r := by
  let msg3 : PolicyEvent := ⟨⟨[]⟩, List.replicate 8 2, toyReceive 2 1 (toyMsg3 1 2)⟩
  let contacted := toyUnder 2 [toyReceive 2 1 (toySetup 1 2)]
  let drain : PolicyEvent := ⟨⟨[]⟩, List.replicate 8 2, .drain (toyEnv 2) 0⟩
  obtain ⟨r, hr⟩ := List.length_eq_one_iff.1 (show (toySealed 1 2 [7, 8, 9]).length = 1 by decide +kernel)
  have hmem : r ∈ toySealed 1 2 [7, 8, 9] := by simp [hr]
  obtain ⟨est, hc⟩ := toySealed_carried r hmem
  obtain ⟨s, hl, hw, hlen, hbytes⟩ := @toy_awaits (Run.run (stepUnder toySuite (toyConfig 2)) init contacted) 0 (by decide +kernel)
  have hqueued : ((Run.run (stepUnder toySuite (toyConfig 2)) init (contacted ++ [toyLate] ++ [])).lookup
      (toyIdentity 1).nodeAddr).any (fun x => x.1 = 0 ∧ x.2.handshakeFsp.oid = 0 ∧ x.2.handshakeFsp.state = .handshaking ∧
        x.2.handshakeFsp.role = .responder) = true := by
    decide +kernel
  obtain ⟨⟨sid, t⟩, hl', ht⟩ := (Option.any_eq_true _ _).1 hqueued
  obtain ⟨rfl, hoid, hst, hrole⟩ := of_decide_eq_true ht
  have hafter : ∀ r ∈ toySealed 1 2 [7, 8, 9], ((stepUnder toySuite (toyConfig 2)
      (Run.run (stepUnder toySuite (toyConfig 2)) init (contacted ++ [toyLate] ++ [])) msg3).lookup
      (toyIdentity 1).nodeAddr).any (fun x => x.1 = 0 ∧ x.2.fsp.oid = 0 ∧ x.2.fsp.state = .established ∧
        x.2.fsp.rxKey = some r.key) = true := by
    decide +kernel
  obtain ⟨t', hmsg3, hkey⟩ := toy_completes hl' ⟨hoid, hst, hrole⟩ (hafter r hmem)
  have huse : ((stepUnder toySuite (toyConfig 2) (Run.run (stepUnder toySuite (toyConfig 2)) init
      (contacted ++ [toyLate] ++ [] ++ [msg3])) drain).lookup (toyIdentity 1).nodeAddr).any (fun x => x.1 = 0 ∧
          x.2.fsp.oid = 0 ∧ x.2.fsp.state = .established) = true := by
    decide +kernel
  obtain ⟨⟨sid, u⟩, hu, huse⟩ := (Option.any_eq_true _ _).1 huse
  obtain ⟨rfl, huoid, hust⟩ := of_decide_eq_true huse
  have hcopies : ∀ r ∈ toySealed 1 2 [7, 8, 9], ∀ o ∈ openings toySuite (toyConfig 2) init
      (contacted ++ [toyLate] ++ [] ++ [msg3] ++ [drain]), (∃ est, r.Carries o.frame est) ∧
        o.est.counter < r.aead.counter + 2048 := by
    decide +kernel
  have hk : ((Run.run (stepUnder toySuite (toyConfig 2)) init contacted).lookup (toyIdentity 1).nodeAddr).any
      (fun x => x.2.pendingResponderFsp.isSome = false ∧ ∀ r ∈ toySealed 1 2 [7, 8, 9], r.kBit = x.2.currentKBit) = true := by
    decide +kernel
  rw [hl, Option.any_some] at hk
  obtain ⟨hpend, hk⟩ := of_decide_eq_true hk
  have hroom : s.Room (toyRecord 1 2 [7, 8, 9]) := by
    unfold Room
    rw [hlen, hbytes]
    decide +kernel
  have htaken : (Run.run (stepUnder toySuite (toyConfig 2)) init (contacted ++ [toyLate] ++ [] ++ [msg3] ++ [drain])).drains[
      (Run.run (stepUnder toySuite (toyConfig 2)) init (contacted ++ [toyLate] ++ [])).drains.length]? = some (0, []) := by
    decide +kernel
  refine ⟨r, hmem, (@early_record_delivered toySuite (toyConfig 2) _ _ _ _ _ _ _ (toyEnv 2) _ _ _ contacted []
      [drain] toyLate msg3 toySuite_lawful hl hw rfl (by decide +kernel)
    (toySealed_made 1 2 _ r hmem) hc hroom hmsg3 hkey ⟨⟨u, hu, huoid, hust⟩, trivial⟩
    ⟨[], htaken, fun _ hrec => absurd hrec List.not_mem_nil⟩ (fun o ho _ _ => (hcopies r hmem o ho).1)).1 ⟨?_, ?_⟩ [toyLate]⟩
  · unfold Survives
    rw [hpend, if_neg Bool.false_ne_true]
    exact hk r hmem
  · rintro H₁ o H₂ hsplit - -
    exact (hcopies r hmem o (hsplit ▸ List.mem_append_right _ List.mem_cons_self)).2

end Manager

end Fips
