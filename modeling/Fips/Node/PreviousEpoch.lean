import Fips.Node.Delivery

/-!
# The previous key epoch

After a promotion the keys it replaces stay for 45 s, through every event that neither promotes again nor
replaces or closes the session. A record sealed under them opens as long as its K bit tells it from the
current epoch and no other handshake is pending: while one is, the K bit that differs is taken to announce
the pending keys, and the record is put in the queue.
-/

namespace Fips
open Exec

namespace Session
variable {S : Suite} {cfg : ManagerConfig} {env : Env} {peer : PeerId} {src : NodeAddr} {frame : Bytes}
  {s s' : Session} {f : FspSession} {old p : PreviousFsp} {cur : Nat}

/-- The session works with the keys `cur`, and still has the previous ones `old`. -/
structure Draining (cur : Nat) (old : PreviousFsp) (s : Session) : Prop where
  fsp : s.fsp.oid = cur
  state : s.fsp.state = .established
  previous : ∃ p, s.previousFsp = some p ∧ p.fsp.oid = old.fsp.oid ∧ p.fsp.rx = old.fsp.rx ∧
    p.fsp.state = .established ∧ p.expiresAtMs = old.expiresAtMs

theorem Draining.of_previous (h : s.Draining cur old) (hf : s'.fsp.oid = s.fsp.oid) (hst : s'.fsp.state = s.fsp.state)
    (hp : s'.previousFsp = s.previousFsp) : s'.Draining cur old :=
  ⟨hf.trans h.fsp, hst.trans h.state, hp ▸ h.previous⟩

theorem prunePreviousFsp_of_lt {dateMs : ℚ} (hp : s.previousFsp = some p) (hd : dateMs < p.expiresAtMs) :
    s.prunePreviousFsp dateMs = s := by
  unfold prunePreviousFsp
  rw [hp]
  exact if_pos hd

theorem Draining.prune (h : s.Draining cur old) {dateMs : ℚ} (hd : dateMs < old.expiresAtMs) :
    s.prunePreviousFsp dateMs = s := by
  obtain ⟨p, hp, -, -, -, hexp⟩ := h.previous
  exact prunePreviousFsp_of_lt hp (hexp ▸ hd)

/-- Reading a record keeps both epochs. -/
theorem Draining.take (h : s.Draining cur old) (hb : s.Bound S) (hd : env.dateMs < old.expiresAtMs) {slot : ReceiveSlot}
    {est : FspEstablished} {pt : Bytes} (ha : Authenticated S env frame s slot f est pt) :
    (slot.take env s f est).Draining cur old := by
  have hprune := h.prune hd
  have htried := ha.tried
  have hfsp := ha.fsp
  rw [hprune] at htried hfsp
  unfold ReceiveSlot.take
  rw [hprune]
  cases slot with
  | current =>
    cases hfsp
    exact ⟨h.fsp, h.state, h.previous⟩
  | pending q => exact absurd htried (receiveSlot_ne_pending hb)
  | previous q =>
    cases hfsp
    obtain ⟨p, hp, hoid, hrx, hst, hexp⟩ := h.previous
    cases hp.symm.trans (receiveSlot_previous htried).1
    exact ⟨h.fsp, h.state, _, rfl, hoid, hrx, hst, hexp⟩
  | queue => cases hfsp
  | mismatch => cases hfsp

theorem Receipt.draining {l : List Effect} (hr : Receipt S cfg env peer src frame s s' l) (h : s.Draining cur old)
    (hb : s.Bound S) (hd : env.dateMs < old.expiresAtMs) : s'.Draining cur old := by
  have hprune := h.prune hd
  cases hr with
  | dropped ha => exact h
  | pruned ha hst => exact hprune.symm ▸ h
  | queued ha hq =>
    rw [hprune] at hq
    have heq := hq.elim id And.right
    subst heq
    exact h.of_previous rfl rfl rfl
  | taken ha hi => exact h.take hb hd ha
  | opened ha hi reports =>
    rw [(ha.sameBinding hb).2]
    exact (h.take hb hd ha).of_previous rfl rfl rfl

/-- Which records are tried under the previous keys. -/
theorem receiveSlot_previous_iff (hb : s.Bound S) (hp : s.previousFsp = some p) {k : Bool} :
    s.receiveSlot k = .previous p ↔ s.pendingResponderFsp = none ∧ k ≠ s.currentKBit := by
  unfold receiveSlot
  by_cases hk : k = s.currentKBit
  · simp [hk]
  · have hkp : p.kBit = k := by
      have hne := hb.previous p hp
      revert hne hk
      cases p.kBit <;> cases k <;> cases s.currentKBit <;> simp
    have hfilter : s.previousFsp.filter (·.kBit = k) = some p :=
      Option.filter_eq_some_iff.2 ⟨hp, decide_eq_true hkp⟩
    cases hpend : s.pendingResponderFsp with
    | none => simp [hk, hfilter]
    | some q => simp [hk, hb.pending q hpend]

end Session

namespace Manager
open Session

/-- A session with a pending responder has established keys beside it. -/
def Paired (m : Manager) : Prop :=
  ∀ n sid s, m.lookup n = some (sid, s) → s.pendingResponderFsp.isSome → s.fsp.state = .established

section
variable {S : Suite} {cfg : ManagerConfig} {m m' : Manager} {e : ManagerEvent} {n : NodeAddr} {sid : Nat}
  {s s' : Session} {cur : Nat} {old : PreviousFsp}

theorem pendingResponderFsp_completeResponder {env : Env} : (completeResponder env s).pendingResponderFsp = none := by
  unfold completeResponder
  cases hp : s.pendingResponderFsp with
  | none => exact hp
  | some p =>
    dsimp only
    split <;> rfl

theorem Next.paired (hm : Safe S m) (hl : m.lookup n = some (sid, s)) (hp : s.pendingResponderFsp.isSome → s.fsp.state = .established)
    (h : Next S cfg m e False s s') : s'.pendingResponderFsp.isSome → s'.fsp.state = .established := by
  intro hsome
  cases h with
  | refl => exact hp hsome
  | promise p => exact hp hsome
  | closed h p => exact h.elim
  | receipt ha h =>
    have hsame := h.sameBinding (hm.bound _ _ _ hl)
    rw [hsame.pending] at hsome
    exact hsame.state.trans (hp hsome)
  | sealed h =>
    obtain ⟨k, w, r, rfl⟩ := h
    exact hp hsome
  | fspClosed hst => exact absurd (hst.symm.trans (hp hsome)) nofun
  | ackFailed hs h => exact h.state.trans (hp hsome)
  | ackCompletes p he hl' hrun hs h => exact h.state
  | msg3Failed hs h =>
    cases hpend : s.pendingResponderFsp with
    | none => simp [putHandshakeFsp_of_none hpend, hpend] at hsome
    | some p =>
      rw [putHandshakeFsp_of_some hpend]
      exact hp (by simp [hpend])
  | pendingDropped => cases hsome
  | fspRefused h hrun => exact h.elim
  | msg3Completes p he hph hl' hrun ha =>
    simp [pendingResponderFsp_completeResponder] at hsome

theorem Paired.step (hm : Safe S m) (h : m.Paired) (e : ManagerEvent) : (Manager.step S cfg m e).Paired := by
  intro n sid s' hl'
  rcases (hm.wf.transition e).stored hm.wf.stored hl' with ⟨hl, hn⟩ | ⟨hl, hc⟩ | ⟨-, -, hc⟩
  · exact hn.paired hm hl (h _ _ _ hl)
  · cases hc with
    | rekey hst hr => exact fun _ => hst
    | yields hst hr => exact fun hsome => absurd (hst.symm.trans (h _ _ _ hl hsome)) nofun
  · cases hc with
    | contact hr => exact fun hsome => absurd hsome Bool.false_ne_true
    | initiated p hn hf hst hrem => exact fun hsome => absurd hsome Bool.false_ne_true

theorem paired_run {es : List PolicyEvent} : (Run.run (stepUnder S cfg) init es).Paired := by
  induction es using List.reverseRecOn with
  | nil => exact fun _ _ _ hl => absurd hl nofun
  | append_singleton es pe ih =>
    rw [run_stepUnder_concat]
    exact ih.step safe_runUnder pe.event

/-- What a session's keys become: they stay the same object, or a SessionMsg3 completes the pending ones. -/
theorem Next.current (hl : m.lookup n = some (sid, s)) (hm : Safe S m) (h : Next S cfg m e False s s') :
    s'.fsp.oid = s.fsp.oid ∨ ∃ env peer frame f p, e = .fromPeer env peer n frame ∧ s.pendingResponderFsp = some p ∧
      f.state = .established ∧ s' = { completeResponder env { s with pendingResponderFsp := some f } with
        earlyEstablishedRecords := [], earlyEstablishedBytes := 0, setupPromise := s'.setupPromise } := by
  cases h with
  | refl => exact .inl rfl
  | promise p => exact .inl rfl
  | closed h p => exact h.elim
  | receipt ha h => exact .inl (h.sameBinding (hm.bound _ _ _ hl)).fsp
  | sealed h =>
    obtain ⟨k, w, r, rfl⟩ := h
    exact .inl rfl
  | fspClosed hst => exact .inl rfl
  | ackFailed hs h => exact .inl h.oid
  | ackCompletes p he hl' hrun hs h => exact .inl h.oid
  | msg3Failed hs h =>
    cases hpend : s.pendingResponderFsp with
    | none =>
      rw [putHandshakeFsp_of_none hpend]
      rw [handshakeFsp_of_none hpend] at h
      exact .inl h.oid
    | some p =>
      rw [putHandshakeFsp_of_some hpend]
      exact .inl rfl
  | pendingDropped => exact .inl rfl
  | fspRefused h hrun => exact h.elim
  | @msg3Completes env peer src frame sid' f p he hph hl' hrun ha =>
    cases hpend : s.pendingResponderFsp with
    | none =>
      rw [putHandshakeFsp_of_none hpend]
      rw [handshakeFsp_of_none hpend] at hrun
      left
      show (completeResponder env { s with fsp := f }).fsp.oid = s.fsp.oid
      rw [completeResponder_of_none (s := { s with fsp := f }) hpend]
      exact ((@FspSession.handleSessionMsg3_moves _ False) hrun).oid
    | some q =>
      rw [putHandshakeFsp_of_some hpend]
      have hsrc : src = n := (hm.wf.stored.remoteNodeAddr hl').symm.trans (hm.wf.stored.remoteNodeAddr hl)
      rw [handshakeFsp_of_some hpend] at hrun
      have hst : f.state = .established := by
        rcases FspSession.handleSessionMsg3_eq_ok hrun with ⟨rfl, hst⟩ | ⟨-, hc, -⟩
        · exact hst
        · exact hc.state
      exact .inr ⟨env, peer, frame, f, q, hsrc ▸ he, rfl, hst, rfl⟩

theorem pending_oid_ne (hm : Safe S m) (hl : m.lookup n = some (sid, s)) {p : FspSession}
    (hp : s.pendingResponderFsp = some p) : p.oid ≠ s.fsp.oid := by
  have hnodup := hm.unshared.nodup s (List.mem_of_getElem? (objs_of_lookup hl))
  simp only [fsps, hp, Option.toList_some, List.map_cons, List.cons_append, List.nodup_cons, List.mem_cons,
    not_or] at hnodup
  exact fun heq => hnodup.1.1 heq.symm

theorem previous_oid_ne (hm : Safe S m) (hl : m.lookup n = some (sid, s)) {p : PreviousFsp}
    (hp : s.previousFsp = some p) : p.fsp.oid ≠ s.fsp.oid := by
  have hnodup := hm.unshared.nodup s (List.mem_of_getElem? (objs_of_lookup hl))
  intro heq
  simp only [fsps, hp, Option.map_some, Option.toList_some, List.map_cons, List.map_append, List.nodup_cons,
    List.mem_append, not_or] at hnodup
  exact hnodup.1.2 (by simp [heq])

/-- A completed pending responder is the new current epoch. -/
theorem completeResponder_of_pending {env : Env} {f : FspSession} :
    (completeResponder env { s with pendingResponderFsp := some f }).fsp = f ∧
      ((completeResponder env { s with pendingResponderFsp := some f }).previousFsp = none ∨
        (completeResponder env { s with pendingResponderFsp := some f }).previousFsp =
          some ⟨s.fsp, s.currentKBit, env.dateMs + FSP_REKEY_DRAIN_MS⟩) := by
  unfold completeResponder
  dsimp only
  split
  · exact ⟨rfl, .inl rfl⟩
  · exact ⟨rfl, .inr rfl⟩

/-- A stored session that keeps its current keys keeps the previous ones, until they expire. -/
theorem NextStored.draining (hm : Safe S m) (hl : m.lookup n = some (sid, s)) (hd : s.Draining cur old)
    (hdate : ∀ d ∈ e.dateMs, d < old.expiresAtMs) (h : NextStored S cfg m e n sid s') (hcur : s'.fsp.oid = cur) :
    s'.Draining cur old := by
  have hb := hm.bound _ _ _ hl
  cases h with
  | old hl' h =>
    cases hl.symm.trans hl'
    have hchange := h.current hl hm
    cases h with
    | refl => exact hd
    | promise p => exact hd.of_previous rfl rfl rfl
    | closed h p => exact h.elim
    | receipt ha h => exact h.draining hd hb (hdate _ (arrival_dateMs ha))
    | sealed h =>
      obtain ⟨k, w, r, rfl⟩ := h
      exact hd.of_previous rfl rfl rfl
    | fspClosed hst => exact absurd (hst.symm.trans hd.state) nofun
    | ackFailed hs h => exact hd.of_previous h.oid h.state rfl
    | ackCompletes p he hl' hrun hs h => exact hd.of_previous h.oid (h.state.trans hd.state.symm) rfl
    | msg3Failed hs h =>
      cases hpend : s.pendingResponderFsp with
      | none =>
        rw [putHandshakeFsp_of_none hpend]
        rw [handshakeFsp_of_none hpend] at h
        exact hd.of_previous h.oid h.state rfl
      | some p =>
        rw [putHandshakeFsp_of_some hpend]
        exact hd.of_previous rfl rfl rfl
    | pendingDropped => exact hd.of_previous rfl rfl rfl
    | fspRefused h hrun => exact h.elim
    | @msg3Completes env peer src frame sid' f p he hph hl' hrun ha =>
      cases hpend : s.pendingResponderFsp with
      | none =>
        rw [handshakeFsp_of_none hpend] at hrun
        rw [putHandshakeFsp_of_none hpend]
        have hf : f = s.fsp := by
          rcases FspSession.handleSessionMsg3_eq_ok hrun with ⟨rfl, -⟩ | ⟨hs, -⟩
          · rfl
          · exact absurd hd.state (hm.not_established hl hs)
        rw [hf, completeResponder_of_none (s := { s with fsp := s.fsp }) hpend]
        exact hd.of_previous rfl rfl rfl
      | some q =>
        -- the keys in use would be those of the pending responder
        rw [putHandshakeFsp_of_some hpend] at hcur
        rw [handshakeFsp_of_some hpend] at hrun
        have hoid : f.oid = q.oid := ((@FspSession.handleSessionMsg3_moves _ False) hrun).oid
        have hfsp : f.oid = cur := (congrArg FspSession.oid completeResponder_of_pending.1).symm.trans hcur
        exact absurd (hoid.symm.trans (hfsp.trans hd.fsp.symm)) (pending_oid_ne hm hl hpend)
  | renewed hl' h =>
    cases hl.symm.trans hl'
    cases h with
    | rekey hst hr => exact hd.of_previous rfl rfl rfl
    | yields hst hr => exact absurd (hst.symm.trans hd.state) nofun
  | new hsid hn h =>
    have hlt := (List.getElem?_eq_some_iff.1 (objs_of_lookup hl)).1
    omega

/-! ### The drain of a promotion -/

/-- The event makes the pending keys of the session the current ones, and the current ones the previous. -/
structure Promotes (S : Suite) (cfg : ManagerConfig) (m : Manager) (pe : PolicyEvent) (n : NodeAddr) (sid : Nat)
    (s s' : Session) : Prop where
  before : m.lookup n = some (sid, s)
  after : (stepUnder S cfg m pe).lookup n = some (sid, s')
  pending : ∃ p, s.pendingResponderFsp = some p ∧ s'.fsp.oid = p.oid
  previous : s'.previousFsp.isSome

/-- An event of the 45 s after the promotion at `date` that leaves the keys `cur` of the session in use. -/
def InDrain (S : Suite) (cfg : ManagerConfig) (n : NodeAddr) (sid cur : Nat) (date : ℚ) (m : Manager) (pe : PolicyEvent) :
    Prop :=
  (∀ d ∈ pe.event.dateMs, d < date + FSP_REKEY_DRAIN_MS) ∧
    ∃ s, (stepUnder S cfg m pe).lookup n = some (sid, s) ∧ s.fsp.oid = cur

theorem Promotes.draining {pe : PolicyEvent} (hm : Safe S m) (hp : m.Paired) (h : Promotes S cfg m pe n sid s s') :
    ∃ date, pe.event.dateMs = some date ∧
      s'.Draining s'.fsp.oid ⟨s.fsp, s.currentKBit, date + FSP_REKEY_DRAIN_MS⟩ := by
  obtain ⟨p, hpend, hoid⟩ := h.pending
  have hne : s'.fsp.oid ≠ s.fsp.oid := hoid ▸ pending_oid_ne hm h.before hpend
  have hprev := h.previous
  rcases (hm.wf.transition pe.event).stored hm.wf.stored h.after with ⟨hl, hn⟩ | ⟨hl, hc⟩ | ⟨hsid, -, hc⟩
  · cases h.before.symm.trans hl
    rcases hn.current hl hm with hsame | ⟨env, peer, frame, f, q, he, hq, hst, hs'⟩
    · exact absurd hsame hne
    · have hst' : s'.fsp.state = .established := by
        rw [hs']
        exact (congrArg FspSession.state completeResponder_of_pending.1).trans hst
      rw [hs'] at hprev
      have hprevious := (@completeResponder_of_pending s env f).2.resolve_left fun hnone => by
        rw [show (_ : Option PreviousFsp) = none from hnone] at hprev
        cases hprev
      refine ⟨env.dateMs, by rw [he]; rfl, rfl, hst', ?_⟩
      rw [hs']
      exact ⟨_, hprevious, rfl, rfl, hp _ _ _ hl (by simp [hpend]), rfl⟩
  · cases h.before.symm.trans hl
    cases hc with
    | rekey hst hr => exact absurd rfl hne
    | yields hst hr => exact absurd (hst.symm.trans (hp _ _ _ hl (by simp [hpend]))) nofun
  · have hlt := (List.getElem?_eq_some_iff.1 (objs_of_lookup h.before)).1
    omega

/-- The previous epoch lasts as long as the run stays in the drain. -/
theorem draining_run {es₁ es₂ : List PolicyEvent} {pe₀ : PolicyEvent} {date : ℚ}
    (hp : Promotes S cfg (Run.run (stepUnder S cfg) init es₁) pe₀ n sid s s') (hdate : pe₀.event.dateMs = some date)
    (hdrain : Run.Along (InDrain S cfg n sid s'.fsp.oid date) (stepUnder S cfg)
      (Run.run (stepUnder S cfg) init (es₁ ++ [pe₀])) es₂) :
    ∃ t, (Run.run (stepUnder S cfg) init (es₁ ++ [pe₀] ++ es₂)).lookup n = some (sid, t) ∧
      t.Draining s'.fsp.oid ⟨s.fsp, s.currentKBit, date + FSP_REKEY_DRAIN_MS⟩ := by
  obtain ⟨date', hdate', hd⟩ := hp.draining safe_runUnder paired_run
  cases hdate.symm.trans hdate'
  rw [Run.run_append]
  refine (hdrain.invariant (I := fun m => Safe S m ∧ ∃ t, m.lookup n = some (sid, t) ∧
    t.Draining s'.fsp.oid ⟨s.fsp, s.currentKBit, date + FSP_REKEY_DRAIN_MS⟩) ?_ ?_).2
  · rintro m pe ⟨hm, t, hl, hd⟩ ⟨hlt, t', hl', hcur⟩
    refine ⟨hm.next pe.event, t', hl', ?_⟩
    exact ((hm.wf.transition pe.event).stored hm.wf.stored hl').draining hm hl hd hlt hcur
  · refine ⟨safe_runUnder, s', ?_, hd⟩
    rw [run_stepUnder_concat]
    exact hp.after

/-- The record opens under the keys it was sealed for, and what it says is handed to the application. -/
def OpensUnder (S : Suite) (cfg : ManagerConfig) (m : Manager) (pe : PolicyEvent) (oid : Nat) (r : FspRecord) : Prop :=
  ∃ o, m.opening S (cfg.under S pe.admission pe.localEpoch) pe.event = some o ∧ o.fsp.oid = oid ∧
    (stepUnder S cfg m pe).delivered = m.delivered ++ deliveries cfg o.name r.inner

/-- A record of the previous epoch, in its replay window and not received before, is delivered in the drain
of the promotion exactly if no responder is pending and its K bit is not the current one. -/
theorem previous_epoch_delivers_iff (hS : S.Lawful) {es₁ es₂ : List PolicyEvent} {pe₀ pe : PolicyEvent} {date : ℚ}
    {env : Env} {peer : PeerId} {frame : Bytes} {r : FspRecord} {est : FspEstablished}
    (hp : Promotes S cfg (Run.run (stepUnder S cfg) init es₁) pe₀ n sid s s') (hdate : pe₀.event.dateMs = some date)
    (hdrain : Run.Along (InDrain S cfg n sid s'.fsp.oid date) (stepUnder S cfg)
      (Run.run (stepUnder S cfg) init (es₁ ++ [pe₀])) es₂)
    (he : pe.event = .fromPeer env peer n frame) (hlt : env.dateMs < date + FSP_REKEY_DRAIN_MS)
    (hallow : pe.admission.assertNode S n = .ok ())
    (hr : r.Made S) (hc : r.Carries frame est) (hkey : s.fsp.rxKey = some r.key)
    (hnew : ∀ o ∈ openings S cfg init (es₁ ++ [pe₀] ++ es₂), o.fsp.oid = s.fsp.oid → o.est.counter ≠ r.aead.counter)
    (hwin : ∀ o ∈ openings S cfg init (es₁ ++ [pe₀] ++ es₂), o.fsp.oid = s.fsp.oid →
      o.est.counter < r.aead.counter + 2048) :
    OpensUnder S cfg (Run.run (stepUnder S cfg) init (es₁ ++ [pe₀] ++ es₂)) pe s.fsp.oid r ↔
      ∀ t, (Run.run (stepUnder S cfg) init (es₁ ++ [pe₀] ++ es₂)).lookup n = some (sid, t) →
        t.pendingResponderFsp = none ∧ r.kBit ≠ t.currentKBit := by
  obtain ⟨t, hl, hd⟩ := draining_run hp hdate hdrain
  have hm : Safe S (Run.run (stepUnder S cfg) init (es₁ ++ [pe₀] ++ es₂)) := safe_runUnder
  have hwindows := @windows_run S cfg (es₁ ++ [pe₀] ++ es₂)
  revert hm hwindows hl hnew hwin
  generalize Run.run (stepUnder S cfg) init (es₁ ++ [pe₀] ++ es₂) = m
  generalize openings S cfg init (es₁ ++ [pe₀] ++ es₂) = H
  intro hnew hwin hl hm hwindows
  have hb := hm.bound _ _ _ hl
  obtain ⟨p, hprev, hoid, hrx, hst, hexp⟩ := hd.previous
  have hprune : t.prunePreviousFsp env.dateMs = t := hd.prune hlt
  have hk : hasFlag est.flags FSP_FLAG_K = r.kBit := congrArg (hasFlag · FSP_FLAG_K) hc.flags
  have hphase : peekFspPhase frame = .ok FSP_PHASE_ESTABLISHED := (decodeFspEstablished_eq_ok hc.decodes).2.2.2.2
  have harr : m.arrival (cfg.under S pe.admission pe.localEpoch) (.fromPeer env peer n frame) =
      some ⟨sid, t, env, peer, n, frame⟩ := by
    have hallow' : (cfg.under S pe.admission pe.localEpoch).assertNodeAllowed n = .ok () := hallow
    simp only [arrival, hallow', hphase, and_self, if_true, hl, Option.map_some]
  -- the previous window takes the counter
  have hcheck : p.fsp.replay.check r.aead.counter = true :=
    hwindows.check (List.mem_of_getElem? (objs_of_lookup hl)) (mem_fsps.2 (.inr (.inr ⟨p, hprev, rfl⟩))) (by simp [hst])
      hr.bound (fun o ho hoid' => hnew o ho (hoid'.trans hoid)) (fun o ho hoid' => hwin o ho (hoid'.trans hoid))
  have hrxKey : p.fsp.rxKey = some r.key := by
    unfold FspSession.rxKey
    rw [hrx]
    exact hkey
  have hauth := FspSession.authenticate_of_carries hS hr hc hst hrxKey hcheck
  have hauthenticates := (@authenticates_of_decode S env) hd.state hc.decodes
  rw [hprune, hk] at hauthenticates
  unfold OpensUnder
  rw [he]
  constructor
  · rintro ⟨o, ho, hoid', -⟩ t' hl'
    cases hl.symm.trans hl'
    obtain ⟨slot, s₁, l, hstep⟩ := Manager.step_opening ho
    have ha := hstep.auth
    have harr' := Option.some.inj (hstep.arrival.symm.trans harr)
    rw [show o.session = t from congrArg Arrival.session harr', show o.env = env from congrArg Arrival.env harr',
      show o.frame = frame from congrArg Arrival.frame harr'] at ha
    have htried := ha.tried
    have hfsp := ha.fsp
    obtain ⟨_, _, _, _, _, _, hdec, -⟩ := FspSession.authenticate_eq_ok ha.auth
    cases hc.decodes.symm.trans hdec
    rw [hprune, hk] at htried
    rw [hprune] at hfsp
    cases slot with
    | current =>
      have hf : t.fsp = o.fsp := Option.some.inj hfsp
      have hsame : p.fsp.oid = t.fsp.oid := hoid.trans (hoid'.symm.trans (congrArg FspSession.oid hf.symm))
      exact absurd hsame (previous_oid_ne hm hl hprev)
    | pending q => exact absurd htried (receiveSlot_ne_pending hb)
    | previous q =>
      cases hprev.symm.trans (receiveSlot_previous htried).1
      exact (receiveSlot_previous_iff hb hprev).1 htried
    | queue => cases hfsp
    | mismatch => cases hfsp
  · intro hcond
    have hslot := (receiveSlot_previous_iff hb hprev).2 (hcond t hl)
    rw [hslot] at hauthenticates
    have hopen : m.opening S (cfg.under S pe.admission pe.localEpoch) (.fromPeer env peer n frame) =
        some ⟨⟨sid, t, env, peer, n, frame⟩, p.fsp, est, r.aead.plaintext⟩ := by
      unfold opening
      rw [harr]
      simp only [Option.bind_eq_bind, Option.bind_some, hauthenticates, ReceiveSlot.fsp, hauth, Except.toOption,
        Option.pure_def]
    refine ⟨_, hopen, hoid, ?_⟩
    have hdel := delivered_opening hopen
    rw [delivers_under] at hdel
    unfold stepUnder
    rw [he, hdel]
    unfold Opening.delivers
    rw [hr.decodes]

end

/-! ### A toy rekey -/

/-- The toy node 2 up to the SessionMsg3 of a rekey, and that SessionMsg3. -/
def toyBefore : List PolicyEvent := toyUnder 2 (toyAccepted 2 1 ++ [toyReceive 2 1 (toyResetup 1 2)])

def toyPromotion : PolicyEvent := ⟨⟨[]⟩, List.replicate 8 2, toyReceive 2 1 (toyRemsg3 1 2)⟩

/-- A message sealed before the rekey. -/
def toyLate : PolicyEvent := ⟨⟨[]⟩, List.replicate 8 2, toyReceive 2 1 (toyRecord 1 2 [7, 8, 9])⟩

/-- The first SessionSetup once more. -/
def toyDuplicate : PolicyEvent := ⟨⟨[]⟩, List.replicate 8 2, toyReceive 2 1 (toySetup 1 2)⟩

theorem toyLate_within : (toyEnv 2).dateMs < 0 + FSP_REKEY_DRAIN_MS := by
  show (0 : ℚ) < 0 + FSP_REKEY_DRAIN_MS
  norm_num [FSP_REKEY_DRAIN_MS]

theorem toyPromotes : ∃ s s', Promotes toySuite (toyConfig 2) (Run.run (stepUnder toySuite (toyConfig 2)) init toyBefore)
    toyPromotion (toyIdentity 1).nodeAddr 0 s s' ∧ s.fsp.oid = 0 ∧ s'.fsp.oid = 1 ∧
    ∀ r ∈ toySealed 1 2 [7, 8, 9], s.fsp.rxKey = some r.key := by
  have hbefore : ((Run.run (stepUnder toySuite (toyConfig 2)) init toyBefore).lookup (toyIdentity 1).nodeAddr).map
      (fun x => (x.1, x.2.fsp.oid, x.2.pendingResponderFsp.map (·.oid),
        decide (∀ r ∈ toySealed 1 2 [7, 8, 9], x.2.fsp.rxKey = some r.key))) = some (0, 0, some 1, true) := by
    decide +kernel
  have hafter : ((stepUnder toySuite (toyConfig 2) (Run.run (stepUnder toySuite (toyConfig 2)) init toyBefore)
      toyPromotion).lookup (toyIdentity 1).nodeAddr).map (fun x => (x.1, x.2.fsp.oid, x.2.previousFsp.isSome)) =
        some (0, 1, true) := by
    decide +kernel
  obtain ⟨⟨sid, s⟩, hl, hs⟩ := Option.map_eq_some_iff.1 hbefore
  obtain ⟨⟨sid', s'⟩, hl', hs'⟩ := Option.map_eq_some_iff.1 hafter
  simp only [Prod.mk.injEq] at hs hs'
  obtain ⟨rfl, hoid, hpend, hkey⟩ := hs
  obtain ⟨rfl, hoid', hprev⟩ := hs'
  obtain ⟨p, hp, hpoid⟩ := Option.map_eq_some_iff.1 hpend
  exact ⟨s, s', ⟨hl, hl', ⟨p, hp, hoid'.trans hpoid.symm⟩, hprev⟩, hoid, hoid', of_decide_eq_true hkey⟩

/-- A duplicate of an old SessionSetup keeps the records of the previous epoch out. -/
theorem duplicate_setup_blocks_previous_epoch :
    ¬ ∀ (S : Suite) (cfg : ManagerConfig) (n : NodeAddr) (sid : Nat) (s s' : Session) (es₁ es₂ : List PolicyEvent)
      (pe₀ pe : PolicyEvent) (date : ℚ) (env : Env) (peer : PeerId) (frame : Bytes) (r : FspRecord) (est : FspEstablished),
      S.Lawful → Promotes S cfg (Run.run (stepUnder S cfg) init es₁) pe₀ n sid s s' → pe₀.event.dateMs = some date →
      Run.Along (InDrain S cfg n sid s'.fsp.oid date) (stepUnder S cfg)
        (Run.run (stepUnder S cfg) init (es₁ ++ [pe₀])) es₂ →
      pe.event = .fromPeer env peer n frame → env.dateMs < date + FSP_REKEY_DRAIN_MS →
      pe.admission.assertNode S n = .ok () → r.Made S → r.Carries frame est → s.fsp.rxKey = some r.key →
      (∀ o ∈ openings S cfg init (es₁ ++ [pe₀] ++ es₂), o.fsp.oid = s.fsp.oid → o.est.counter ≠ r.aead.counter) →
      (∀ o ∈ openings S cfg init (es₁ ++ [pe₀] ++ es₂), o.fsp.oid = s.fsp.oid →
        o.est.counter < r.aead.counter + 2048) →
      OpensUnder S cfg (Run.run (stepUnder S cfg) init (es₁ ++ [pe₀] ++ es₂)) pe s.fsp.oid r := by
  intro h
  obtain ⟨s, s', hp, -, hoid', hkey⟩ := toyPromotes
  obtain ⟨r, hr⟩ := List.length_eq_one_iff.1 (show (toySealed 1 2 [7, 8, 9]).length = 1 by decide +kernel)
  have hmem : r ∈ toySealed 1 2 [7, 8, 9] := by simp [hr]
  obtain ⟨est, hc⟩ := toySealed_carried r hmem
  have hstays : ((stepUnder toySuite (toyConfig 2) (Run.run (stepUnder toySuite (toyConfig 2)) init
      (toyBefore ++ [toyPromotion])) toyDuplicate).lookup (toyIdentity 1).nodeAddr).map (fun x => (x.1, x.2.fsp.oid)) =
        some (0, 1) := by
    decide +kernel
  obtain ⟨⟨sid, t⟩, hl, ht⟩ := Option.map_eq_some_iff.1 hstays
  obtain ⟨rfl, hcur⟩ := Prod.mk.inj ht
  have hnone : openings toySuite (toyConfig 2) init (toyBefore ++ [toyPromotion] ++ [toyDuplicate]) = [] :=
    List.length_eq_zero_iff.1 (by decide +kernel)
  have hin : InDrain toySuite (toyConfig 2) (toyIdentity 1).nodeAddr 0 s'.fsp.oid 0
      (Run.run (stepUnder toySuite (toyConfig 2)) init (toyBefore ++ [toyPromotion])) toyDuplicate := by
    refine ⟨fun d hd => ?_, t, hl, hcur.trans hoid'.symm⟩
    cases hd
    exact toyLate_within
  obtain ⟨o, ho, -⟩ := h toySuite (toyConfig 2) _ 0 s s' toyBefore [toyDuplicate] toyPromotion toyLate 0 (toyEnv 2) 0 _ r est
    toySuite_lawful hp rfl ⟨hin, trivial⟩ rfl toyLate_within (by decide +kernel) (toySealed_made 1 2 _ r hmem) hc (hkey r hmem)
    (fun o ho => by rw [hnone] at ho; cases ho) (fun o ho => by rw [hnone] at ho; cases ho)
  have hno : ((Run.run (stepUnder toySuite (toyConfig 2)) init (toyBefore ++ [toyPromotion] ++ [toyDuplicate])).opening
      toySuite ((toyConfig 2).under toySuite toyLate.admission toyLate.localEpoch) toyLate.event).isNone = true := by
    decide +kernel
  rw [ho] at hno
  cases hno

/-- A SessionSetup that ends too early, and the message behind `toyLate`, which overtakes it. -/
def toyBetween : List PolicyEvent :=
  toyUnder 2 [toyReceive 2 1 [1, 0, 0, 0], toyReceive 2 1 (toyFrame 1 2 3 (toyOpened 1 2 ++
    [[7, 8, 9], [4]].map fun payload => .send (toyEnv 1) ⟨false, 0, true⟩ 0 FSP_MSG_ENDPOINT_DATA payload))]

theorem toyBetween_inDrain : Run.Along (InDrain toySuite (toyConfig 2) (toyIdentity 1).nodeAddr 0 1 0)
    (stepUnder toySuite (toyConfig 2)) (Run.run (stepUnder toySuite (toyConfig 2)) init (toyBefore ++ [toyPromotion]))
    toyBetween := by
  have hstays (m : Manager) (pe : PolicyEvent) (hdate : pe.event.dateMs = some 0)
      (h : ((stepUnder toySuite (toyConfig 2) m pe).lookup (toyIdentity 1).nodeAddr).map (fun x => (x.1, x.2.fsp.oid)) =
        some (0, 1)) : InDrain toySuite (toyConfig 2) (toyIdentity 1).nodeAddr 0 1 0 m pe := by
    obtain ⟨⟨sid, t⟩, hl, ht⟩ := Option.map_eq_some_iff.1 h
    obtain ⟨rfl, hcur⟩ := Prod.mk.inj ht
    refine ⟨fun d hd => ?_, t, hl, hcur⟩
    rw [hdate] at hd
    cases hd
    exact toyLate_within
  exact ⟨hstays _ _ rfl (by decide +kernel), hstays _ _ rfl (by decide +kernel), trivial⟩

theorem previous_epoch_delivers_toy : ∃ r ∈ toySealed 1 2 [7, 8, 9],
    OpensUnder toySuite (toyConfig 2)
      (Run.run (stepUnder toySuite (toyConfig 2)) init (toyBefore ++ [toyPromotion] ++ toyBetween)) toyLate 0 r := by
  obtain ⟨s, s', hp, hoid, hoid', hkey⟩ := toyPromotes
  obtain ⟨r, hr⟩ := List.length_eq_one_iff.1 (show (toySealed 1 2 [7, 8, 9]).length = 1 by decide +kernel)
  have hmem : r ∈ toySealed 1 2 [7, 8, 9] := by simp [hr]
  obtain ⟨est, hc⟩ := toySealed_carried r hmem
  have hfirst : ∀ r ∈ toySealed 1 2 [7, 8, 9], r.aead.counter = 0 := by decide +kernel
  -- the message that has overtaken it has the counter after its own
  have hopened : ∀ o ∈ openings toySuite (toyConfig 2) init (toyBefore ++ [toyPromotion] ++ toyBetween),
      o.est.counter = 1 := by
    have hcounters : (openings toySuite (toyConfig 2) init (toyBefore ++ [toyPromotion] ++ toyBetween)).map
        (fun o => o.est.counter) = [1] := by decide +kernel
    intro o ho
    have hcounter := List.mem_map_of_mem (f := fun o : Opening => o.est.counter) ho
    rw [hcounters] at hcounter
    exact List.mem_singleton.1 hcounter
  have hcond : ((Run.run (stepUnder toySuite (toyConfig 2)) init (toyBefore ++ [toyPromotion] ++ toyBetween)).lookup
      (toyIdentity 1).nodeAddr).map (fun x => (x.2.pendingResponderFsp.isNone,
        decide (∀ r ∈ toySealed 1 2 [7, 8, 9], r.kBit ≠ x.2.currentKBit))) = some (true, true) := by
    decide +kernel
  have hopens := ((@previous_epoch_delivers_iff _ _ _ _ _ _ toySuite_lawful _ toyBetween _ toyLate 0 (toyEnv 2)) hp rfl
    (hoid'.symm ▸ toyBetween_inDrain) rfl toyLate_within (by decide +kernel) (toySealed_made 1 2 _ r hmem) hc (hkey r hmem)
    (fun o ho _ => by rw [hopened o ho, hfirst r hmem]; decide)
    (fun o ho _ => by rw [hopened o ho, hfirst r hmem]; decide)).2 fun t hl => by
      rw [hl, Option.map_some] at hcond
      obtain ⟨hpend, hk⟩ := Prod.mk.inj (Option.some.inj hcond)
      exact ⟨Option.isNone_iff_eq_none.1 hpend, of_decide_eq_true hk r hmem⟩
  rw [hoid] at hopens
  exact ⟨r, hmem, hopens⟩

end Manager

end Fips
