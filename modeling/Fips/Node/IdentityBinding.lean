import Fips.Node.PeerAdmission
import Fips.Node.Stored

/-!
# Sessions are bound to identities

A stored session whose keys are established belongs to the identity it is stored under: the key its
handshake authenticated is the session's own, derives the node address, and was admitted by the policy of
the moment. The three key epochs keep their roles: a previous one differs in its K bit and a pending one is
still in its handshake.
-/

namespace Fips
open Exec

/-- The key the handshake of `s.fsp` authenticates is the session's own, and derives its node address. -/
def Session.Owned (S : Suite) (s : Session) : Prop :=
  ∃ P, s.fsp.remotePubkey = some P ∧ s.remotePubkey = some P ∧ deriveNodeAddr S P = .ok s.remoteNodeAddr

/-- What holds of every stored session between two events. -/
structure Session.Bound (S : Suite) (s : Session) : Prop where
  established : s.fsp.state = .established → s.Owned S
  initiator : s.fsp.role = .initiator → s.Owned S
  previous : ∀ p, s.previousFsp = some p → p.kBit ≠ s.currentKBit
  pending : ∀ p, s.pendingResponderFsp = some p → p.state = .handshaking

namespace Session
variable {S : Suite} {cfg : ManagerConfig} {env : Env} {peer : PeerId} {src : NodeAddr} {frame : Bytes}
  {s s' : Session} {f : FspSession}

/-- The parts of a session that `Bound` reads. -/
structure SameBinding (s s' : Session) : Prop where
  node : s'.remoteNodeAddr = s.remoteNodeAddr
  key : s'.remotePubkey = s.remotePubkey
  fsp : s'.fsp.oid = s.fsp.oid
  state : s'.fsp.state = s.fsp.state
  role : s'.fsp.role = s.fsp.role
  fspKey : s'.fsp.remotePubkey = s.fsp.remotePubkey
  kBit : s'.currentKBit = s.currentKBit
  previous : ∀ p', s'.previousFsp = some p' → ∃ p, s.previousFsp = some p ∧ p'.kBit = p.kBit
  pending : s'.pendingResponderFsp = s.pendingResponderFsp

theorem SameBinding.of_epochs (node : s'.remoteNodeAddr = s.remoteNodeAddr) (key : s'.remotePubkey = s.remotePubkey)
    (fsp : s'.fsp.oid = s.fsp.oid) (state : s'.fsp.state = s.fsp.state) (role : s'.fsp.role = s.fsp.role)
    (fspKey : s'.fsp.remotePubkey = s.fsp.remotePubkey) (kBit : s'.currentKBit = s.currentKBit)
    (previous : s'.previousFsp = s.previousFsp) (pending : s'.pendingResponderFsp = s.pendingResponderFsp) :
    SameBinding s s' :=
  ⟨node, key, fsp, state, role, fspKey, kBit, fun p h => ⟨p, previous ▸ h, rfl⟩, pending⟩

theorem SameBinding.refl (s : Session) : SameBinding s s := .of_epochs rfl rfl rfl rfl rfl rfl rfl rfl rfl

theorem SameBinding.trans {s'' : Session} (h : SameBinding s s') (h' : SameBinding s' s'') : SameBinding s s'' where
  node := h'.node.trans h.node
  key := h'.key.trans h.key
  fsp := h'.fsp.trans h.fsp
  state := h'.state.trans h.state
  role := h'.role.trans h.role
  fspKey := h'.fspKey.trans h.fspKey
  kBit := h'.kBit.trans h.kBit
  previous p'' hp'' :=
    let ⟨p', hp', hk'⟩ := h'.previous p'' hp''
    let ⟨p, hp, hk⟩ := h.previous p' hp'
    ⟨p, hp, hk'.trans hk⟩
  pending := h'.pending.trans h.pending

theorem SameBinding.owned (h : SameBinding s s') : s'.Owned S ↔ s.Owned S := by
  unfold Owned
  rw [h.fspKey, h.key, h.node]

theorem SameBinding.bound (h : SameBinding s s') (hb : s.Bound S) : s'.Bound S where
  established hst := h.owned.2 (hb.established (h.state.symm.trans hst))
  initiator hrole := h.owned.2 (hb.initiator (h.role.symm.trans hrole))
  previous p' hp' := by
    obtain ⟨p, hp, hk⟩ := h.previous p' hp'
    rw [hk, h.kBit]
    exact hb.previous p hp
  pending p hp := hb.pending p (h.pending ▸ hp)

theorem sameBinding_prunePreviousFsp {dateMs : ℚ} : SameBinding s (s.prunePreviousFsp dateMs) := by
  unfold prunePreviousFsp
  cases hp : s.previousFsp with
  | none => exact .refl s
  | some p =>
    dsimp only
    split
    · exact .refl s
    · exact ⟨rfl, rfl, rfl, rfl, rfl, rfl, rfl, fun _ h => absurd h (Option.some_ne_none _).symm, rfl⟩

/-- While no pending responder is established, a record is read under the current or the previous keys. -/
theorem receiveSlot_ne_pending (hb : s.Bound S) {k : Bool} {p : FspSession} : s.receiveSlot k ≠ .pending p := by
  intro h
  obtain ⟨hp, hst⟩ := receiveSlot_pending h
  rw [hb.pending p hp] at hst
  cases hst

theorem Authenticated.sameBinding {slot : ReceiveSlot} {est : FspEstablished} {pt : Bytes} (hb : s.Bound S)
    (h : Authenticated S env frame s slot f est pt) :
    SameBinding s (slot.take env s f est) ∧ slot.received env s f est = slot.take env s f est := by
  have hprune : SameBinding s (s.prunePreviousFsp env.dateMs) := sameBinding_prunePreviousFsp
  unfold ReceiveSlot.received ReceiveSlot.take
  cases slot with
  | current =>
    cases h.fsp
    exact ⟨hprune.trans (.of_epochs rfl rfl rfl rfl rfl rfl rfl rfl rfl), rfl⟩
  | pending p => exact absurd h.tried (receiveSlot_ne_pending (hprune.bound hb))
  | previous p =>
    cases h.fsp
    refine ⟨hprune.trans ?_, rfl⟩
    refine ⟨rfl, rfl, rfl, rfl, rfl, rfl, rfl, fun p' hp' => ⟨p, (receiveSlot_previous h.tried).1, ?_⟩, rfl⟩
    cases hp'
    rfl
  | queue => exact ⟨hprune, rfl⟩
  | mismatch => exact ⟨hprune, rfl⟩

theorem Receipt.sameBinding {l : List Effect} (hb : s.Bound S) (h : Receipt S cfg env peer src frame s s' l) :
    SameBinding s s' := by
  cases h with
  | dropped ha => exact .refl s
  | pruned ha h => exact sameBinding_prunePreviousFsp
  | queued ha h =>
    rcases h with h | ⟨-, h⟩
    · rw [h]
      exact .of_epochs rfl rfl rfl rfl rfl rfl rfl rfl rfl
    · rw [h]
      exact sameBinding_prunePreviousFsp.trans (.of_epochs rfl rfl rfl rfl rfl rfl rfl rfl rfl)
  | taken h hi => exact (h.sameBinding hb).1
  | opened h hi reports =>
    obtain ⟨hs, heq⟩ := h.sameBinding hb
    rw [heq]
    exact hs.trans (.of_epochs rfl rfl rfl rfl rfl rfl rfl rfl rfl)

/-- A key that is adopted once its node address has been checked. -/
theorem admitResponder_eq_ok {P : Bytes} (ha : Manager.admitResponder S cfg src s f = .ok ()) (hP : f.remotePubkey = some P) :
    cfg.assertPeerAllowed P = .ok () ∧ deriveNodeAddr S P = .ok src := by
  unfold Manager.admitResponder Manager.admitRemote at ha
  rw [hP] at ha
  obtain ⟨⟨⟩, hallow, ha⟩ := except_bind_eq_ok.1 ha
  obtain ⟨node, hnode, ha⟩ := except_bind_eq_ok.1 ha
  by_cases hne : node = src
  · exact ⟨hallow, hne ▸ hnode⟩
  · simp [hne] at ha

theorem withRemote_self {P : Bytes} (h : s.remotePubkey = some P) : s.withRemote (some P) = s := by
  cases s; cases h; rfl

theorem completeResponder_of_none (h : s.pendingResponderFsp = none) :
    Manager.completeResponder env s = s.withRemote s.fsp.remotePubkey := by
  unfold Manager.completeResponder
  rw [h]

/-- A SessionMsg3 of an admitted remote: a duplicate changes nothing, any other one installs the keys of
the responder that read it. -/
theorem completeResponder_bound (hb : s.Bound S) (haddr : s.remoteNodeAddr = src)
    (hrun : (FspSession.handleSessionMsg3 S frame env.nowMs).run s.handshakeFsp = .ok () f)
    (ha : Manager.admitResponder S cfg src s f = .ok ()) :
    Manager.completeResponder env (s.putHandshakeFsp f) = s ∨
      (Manager.completeResponder env (s.putHandshakeFsp f)).Bound S ∧
        (Manager.completeResponder env (s.putHandshakeFsp f)).fsp = f ∧ s.handshakeFsp.hs.isSome ∧
        FspSession.Completes s.handshakeFsp f := by
  have hmsg3 := FspSession.handleSessionMsg3_eq_ok hrun
  cases hpend : s.pendingResponderFsp with
  | none =>
    rw [handshakeFsp_of_none hpend] at hmsg3 ⊢
    rw [putHandshakeFsp_of_none hpend]
    rcases hmsg3 with ⟨rfl, hst⟩ | ⟨hs, hc, hsome⟩
    · obtain ⟨P, hfP, hsP, -⟩ := hb.established hst
      left
      rw [completeResponder_of_none hpend, hfP]
      exact withRemote_self hsP
    · obtain ⟨P, hP⟩ := Option.isSome_iff_exists.1 hsome
      obtain ⟨-, hnode⟩ := admitResponder_eq_ok ha hP
      right
      have hcr : Manager.completeResponder env { s with fsp := f } = withRemote f.remotePubkey { s with fsp := f } :=
        completeResponder_of_none hpend
      rw [hcr]
      have howned : Owned S (withRemote f.remotePubkey { s with fsp := f }) :=
        ⟨P, hP, by simp [withRemote, hP], haddr ▸ hnode⟩
      exact ⟨⟨fun _ => howned, fun _ => howned, hb.previous, fun p hp => absurd (hpend.symm.trans hp) nofun⟩, rfl, hs, hc⟩
  | some p =>
    rw [handshakeFsp_of_some hpend] at hmsg3 ⊢
    rw [putHandshakeFsp_of_some hpend]
    rcases hmsg3 with ⟨rfl, hst⟩ | ⟨hs, hc, hsome⟩
    · rw [hb.pending _ hpend] at hst
      cases hst
    · obtain ⟨P, hP⟩ := Option.isSome_iff_exists.1 hsome
      obtain ⟨-, hnode⟩ := admitResponder_eq_ok ha hP
      right
      unfold Manager.completeResponder
      dsimp only
      split
      · have howned : Owned S ((withRemote f.remotePubkey { s with pendingResponderFsp := some f }).replaceRestartedSession f) :=
          ⟨P, hP, by simp [replaceRestartedSession, hP], haddr ▸ hnode⟩
        exact ⟨⟨fun _ => howned, fun _ => howned, fun q hq => absurd hq nofun, fun q hq => absurd hq nofun⟩, rfl, hs, hc⟩
      · have howned : Owned S ((withRemote f.remotePubkey { s with pendingResponderFsp := some f }).promotePendingSession
            f (!s.currentKBit) env.dateMs) :=
          ⟨P, hP, by simp [promotePendingSession, hP], haddr ▸ hnode⟩
        refine ⟨⟨fun _ => howned, fun _ => howned, fun q hq => ?_, fun q hq => absurd hq nofun⟩, rfl, hs, hc⟩
        cases hq
        simp [promotePendingSession, withRemote]

end Session

namespace Manager
open Session

/-- The invariants of every run that the identity of sessions rests on. -/
structure Safe (S : Suite) (m : Manager) : Prop where
  wf : m.WF
  unshared : m.Unshared
  bound : ∀ n sid s, m.lookup n = some (sid, s) → s.Bound S

section
variable {S : Suite} {cfg : ManagerConfig} {m m' : Manager} {e : ManagerEvent} {n : NodeAddr} {sid : Nat}
  {s s' : Session}

theorem Safe.keyless (hm : Safe S m) (hl : m.lookup n = some (sid, s)) {f : FspSession} (hf : f ∈ s.fsps) : f.Keyless :=
  hm.wf.keyless s (List.mem_of_getElem? (objs_of_lookup hl)) f hf

theorem Safe.not_established (hm : Safe S m) (hl : m.lookup n = some (sid, s)) (hs : s.fsp.hs.isSome) :
    s.fsp.state ≠ .established :=
  (hm.keyless hl (mem_fsps.2 (.inl rfl)) hs).1

/-- A stored session has the keys of the session stored before, or its handshake has just completed. -/
inductive Holds (m : Manager) (e : ManagerEvent) (n : NodeAddr) (sid : Nat) (s' : Session) : Prop
  | kept {s : Session} (hl : m.lookup n = some (sid, s)) (oid : s'.fsp.oid = s.fsp.oid)
      (state : s'.fsp.state = s.fsp.state) (key : s'.fsp.remotePubkey = s.fsp.remotePubkey)
  | unestablished (h : s'.fsp.state ≠ .established)
  | completed {env : Env} {peer : PeerId} {frame : Bytes} {s : Session} (he : e = .fromPeer env peer n frame)
      (hl : m.lookup n = some (sid, s)) (h : s.fsp.state = .established → s'.fsp.oid ≠ s.fsp.oid)

theorem Holds.of_sameBinding (h : SameBinding s s') (hl : m.lookup n = some (sid, s)) : Holds m e n sid s' :=
  .kept hl h.fsp h.state h.fspKey

/-- A transition keeps the invariant of a session that stays stored. -/
theorem Next.bound (hm : Safe S m) (hl : m.lookup n = some (sid, s)) (h : Next S cfg m e False s s') :
    s'.Bound S ∧ Holds m e n sid s' := by
  have hb := hm.bound n sid s hl
  have hsame (h : SameBinding s s') : s'.Bound S ∧ Holds m e n sid s' := ⟨h.bound hb, .of_sameBinding h hl⟩
  cases h with
  | refl => exact hsame (.refl s)
  | promise p => exact hsame (.of_epochs rfl rfl rfl rfl rfl rfl rfl rfl rfl)
  | closed h p => exact h.elim
  | receipt ha h => exact hsame (h.sameBinding hb)
  | sealed h =>
    obtain ⟨k, w, r, rfl⟩ := h
    exact hsame (.of_epochs rfl rfl rfl rfl rfl rfl rfl rfl rfl)
  | fspClosed hst =>
    exact ⟨⟨nofun, hb.initiator, hb.previous, hb.pending⟩, .unestablished nofun⟩
  | ackFailed hs h =>
    have hne := hm.not_established hl hs
    refine ⟨⟨fun hst => absurd (h.state.symm.trans hst) hne, fun hrole => ?_, hb.previous, hb.pending⟩,
      .unestablished fun hst => hne (h.state.symm.trans hst)⟩
    have hrole := h.role.symm.trans hrole
    obtain ⟨P, hfP, hsP, hnode⟩ := hb.initiator hrole
    exact ⟨P, (h.initiator hrole).trans hfP, hsP, hnode⟩
  | ackCompletes p he hl' hrun hs h =>
    obtain ⟨hrole, hkey⟩ := (wp_of_ok hrun).1 FspSession.wp_handleSessionAck_remotePubkey
    obtain ⟨P, hfP, hsP, hnode⟩ := hb.initiator hrole
    have howned : Session.Owned S { s with fsp := _, setupPromise := p } := ⟨P, hkey.trans hfP, hsP, hnode⟩
    have hsrc := (hm.wf.stored.remoteNodeAddr hl').symm.trans (hm.wf.stored.remoteNodeAddr hl)
    refine ⟨⟨fun _ => howned, fun _ => howned, hb.previous, hb.pending⟩, ?_⟩
    exact .completed (hsrc ▸ he) hl fun hst => absurd hst (hm.not_established hl hs)
  | msg3Failed hs h =>
    cases hpend : s.pendingResponderFsp with
    | none =>
      rw [handshakeFsp_of_none hpend] at hs h
      rw [putHandshakeFsp_of_none hpend]
      have hne := hm.not_established hl hs
      refine ⟨⟨fun hst => absurd (h.state.symm.trans hst) hne, fun hrole => ?_, hb.previous, hb.pending⟩,
        .unestablished fun hst => hne (h.state.symm.trans hst)⟩
      have hrole := h.role.symm.trans hrole
      obtain ⟨P, hfP, hsP, hnode⟩ := hb.initiator hrole
      exact ⟨P, (h.initiator hrole).trans hfP, hsP, hnode⟩
    | some p =>
      rw [handshakeFsp_of_some hpend] at hs h
      rw [putHandshakeFsp_of_some hpend]
      refine ⟨⟨hb.established, hb.initiator, hb.previous, fun q hq => ?_⟩, .kept hl rfl rfl rfl⟩
      cases hq
      exact h.state.trans (hb.pending p hpend)
  | pendingDropped =>
    exact ⟨⟨hb.established, hb.initiator, hb.previous, fun q hq => absurd hq nofun⟩, .kept hl rfl rfl rfl⟩
  | fspRefused h hrun => exact h.elim
  | msg3Completes p he hp hl' hrun ha =>
    have hsrc := hm.wf.stored.remoteNodeAddr hl'
    have hnode := hm.wf.stored.remoteNodeAddr hl
    rcases completeResponder_bound hb hsrc hrun ha with heq | ⟨hb', hfsp, hs, hc⟩
    · refine hsame ?_
      rw [heq]
      exact .of_epochs rfl rfl rfl rfl rfl rfl rfl rfl rfl
    · refine ⟨⟨hb'.established, hb'.initiator, hb'.previous, hb'.pending⟩, ?_⟩
      refine .completed ((hsrc.symm.trans hnode) ▸ he) hl fun hst => ?_
      change (completeResponder _ _).fsp.oid ≠ _
      rw [hfsp, hc.oid]
      cases hpend : s.pendingResponderFsp with
      | none =>
        rw [handshakeFsp_of_none hpend] at hs
        exact absurd hst (hm.not_established hl hs)
      | some q =>
        -- the pending responder is another object than the session's own keys
        rw [handshakeFsp_of_some hpend]
        have hnodup := hm.unshared.nodup s (List.mem_of_getElem? (objs_of_lookup hl))
        simp only [fsps, hpend, Option.toList_some, List.map_cons, List.cons_append, List.nodup_cons,
          List.mem_cons, not_or] at hnodup
        exact fun heq => hnodup.1.1 heq.symm

theorem NextStored.bound (hm : Safe S m) (h : NextStored S cfg m e n sid s') : s'.Bound S ∧ Holds m e n sid s' := by
  cases h with
  | old hl h => exact h.bound hm hl
  | renewed hl h =>
    have hb := hm.bound _ _ _ hl
    cases h with
    | rekey hst hr =>
      refine ⟨⟨hb.established, hb.initiator, hb.previous, fun p hp => ?_⟩, .kept hl rfl rfl rfl⟩
      cases hp
      exact (respond_eq_ok hr).2.1
    | yields hst hr =>
      obtain ⟨hun, hst', -⟩ := respond_eq_ok hr
      have hrole := hun.role
      refine ⟨⟨fun h => ?_, fun h => ?_, hb.previous, hb.pending⟩, .unestablished (by simp [hst'])⟩
      · cases hst'.symm.trans h
      · cases hrole.symm.trans h
  | new hsid hn h =>
    cases h with
    | contact hr =>
      obtain ⟨hun, hst, -⟩ := respond_eq_ok hr
      have hrole := hun.role
      refine ⟨⟨fun h => ?_, fun h => ?_, by rintro p ⟨⟩, by rintro p ⟨⟩⟩,
        .unestablished (by simp [Session.new, hst])⟩
      · cases hst.symm.trans h
      · cases hrole.symm.trans h
    | initiated p hnode hf hst hrem =>
      have howned : Session.Owned S { Session.new _ (some _) _ with setupPromise := p } := ⟨_, hrem, rfl, hnode⟩
      refine ⟨⟨fun _ => howned, fun _ => howned, by rintro p ⟨⟩, by rintro p ⟨⟩⟩,
        .unestablished ?_⟩
      rcases hst with h | h <;> simp [Session.new, h]

theorem Safe.next (hm : Safe S m) (e : ManagerEvent) : Safe S (Manager.step S cfg m e) where
  wf := hm.wf.next e
  unshared := hm.unshared.step (hm.wf.transition e)
  bound _ _ _ hl := ((hm.wf.transition e).stored hm.wf.stored hl |>.bound hm).1

theorem safe_init : Safe S init where
  wf := wf_init
  unshared := ⟨fun _ h => absurd h List.not_mem_nil, fun _ h => absurd h List.not_mem_nil, fun _ _ _ _ h => by simp [init] at h⟩
  bound _ _ _ hl := absurd hl nofun

/-! ### Admission -/

/-- An event and the policy of the moment it is taken at, with the local epoch of the running process. -/
structure PolicyEvent where
  admission : PeerAdmission
  localEpoch : Bytes
  event : ManagerEvent

end

end Manager

/-- The configuration under a policy: `assertPeerAllowed` and `assertNodeAllowed` are those of the node. -/
def ManagerConfig.under (S : Suite) (cfg : ManagerConfig) (admission : PeerAdmission) (localEpoch : Bytes) :
    ManagerConfig :=
  { cfg with localEpoch, assertPeerAllowed := admission.assertPeer, assertNodeAllowed := admission.assertNode S }

namespace Manager
open Session

def stepUnder (S : Suite) (cfg : ManagerConfig) (m : Manager) (pe : PolicyEvent) : Manager :=
  Manager.step S (cfg.under S pe.admission pe.localEpoch) m pe.event

/-- The session stored for `n` has the established keys `oid`. -/
def HasKeys (m : Manager) (n : NodeAddr) (oid : Nat) : Prop :=
  ∃ sid s, m.lookup n = some (sid, s) ∧ s.fsp.state = .established ∧ s.fsp.oid = oid

/-- The event that established the keys `oid` of `n` was taken under a policy that admits `P`. -/
def AdmittedWhenEstablished (S : Suite) (cfg : ManagerConfig) (es : List PolicyEvent) (n : NodeAddr) (oid : Nat) (P : Bytes) :
    Prop :=
  ∃ es₁ pe es₂, es = es₁ ++ pe :: es₂ ∧ ¬ (Run.run (stepUnder S cfg) init es₁).HasKeys n oid ∧
    (Run.run (stepUnder S cfg) init (es₁ ++ [pe])).HasKeys n oid ∧ pe.admission.assertPeer P = .ok ()

section
variable {S : Suite} {cfg : ManagerConfig} {m : Manager} {es : List PolicyEvent} {n : NodeAddr} {sid : Nat}
  {s : Session}

theorem run_stepUnder_concat {pe : PolicyEvent} :
    Run.run (stepUnder S cfg) init (es ++ [pe]) = stepUnder S cfg (Run.run (stepUnder S cfg) init es) pe := by
  rw [Run.run_append]
  rfl

theorem safe_runUnder : Safe S (Run.run (stepUnder S cfg) init es) := by
  induction es using List.reverseRecOn with
  | nil => exact safe_init
  | append_singleton es pe ih =>
    rw [run_stepUnder_concat]
    exact ih.next pe.event

theorem AdmittedWhenEstablished.append {oid : Nat} {P : Bytes} (pe : PolicyEvent)
    (h : AdmittedWhenEstablished S cfg es n oid P) : AdmittedWhenEstablished S cfg (es ++ [pe]) n oid P := by
  obtain ⟨es₁, pe₁, es₂, rfl, hno, hyes, ha⟩ := h
  exact ⟨es₁, pe₁, es₂ ++ [pe], by simp, hno, hyes, ha⟩

/-- A frame from a blocked node does nothing. -/
theorem step_fromPeer_of_refused {cfg : ManagerConfig} {env : Env} {peer : PeerId} {frame : Bytes} {err : String}
    (h : cfg.assertNodeAllowed n = .error err) : Manager.step S cfg m (.fromPeer env peer n frame) = m := by
  unfold Manager.step
  refine (wp_after (P := fun m' : Manager => m' = m)).2 ?_
  unfold handleFromPeer
  simp only [wp_bind, wp_lift, h, reduceCtorEq, false_implies, implies_true, Except.error.injEq, and_self]

/-- The established keys of a stored session were admitted when they were established. -/
theorem admitted_of_lookup (hl : (Run.run (stepUnder S cfg) init es).lookup n = some (sid, s))
    (hst : s.fsp.state = .established) :
    ∃ P, s.fsp.remotePubkey = some P ∧ deriveNodeAddr S P = .ok n ∧ AdmittedWhenEstablished S cfg es n s.fsp.oid P := by
  induction es using List.reverseRecOn generalizing sid s with
  | nil => exact absurd hl nofun
  | append_singleton es pe ih =>
    have hm : Safe S (Run.run (stepUnder S cfg) init es) := safe_runUnder
    have hyes : (Run.run (stepUnder S cfg) init (es ++ [pe])).HasKeys n s.fsp.oid := ⟨sid, s, hl, hst, rfl⟩
    rw [run_stepUnder_concat] at hl
    obtain ⟨hb, hh⟩ := ((hm.wf.transition pe.event).stored hm.wf.stored hl).bound hm
    cases hh with
    | kept hl₀ oid state key =>
      obtain ⟨P, hP, hnode, ha⟩ := ih hl₀ (state.symm.trans hst)
      exact ⟨P, key.trans hP, hnode, oid ▸ ha.append pe⟩
    | unestablished h => exact absurd hst h
    | @completed env peer frame s₀ he hl₀ hnew =>
      obtain ⟨P, hP, -, hnode⟩ := hb.established hst
      have hnode : deriveNodeAddr S P = .ok n := by
        rw [hnode]
        exact congrArg _ ((hm.wf.stored.step (hm.wf.transition pe.event)).remoteNodeAddr hl)
      have hno : ¬ (Run.run (stepUnder S cfg) init es).HasKeys n s.fsp.oid := by
        rintro ⟨sid₁, s₁, hl₁, hst₁, hoid₁⟩
        cases hl₀.symm.trans hl₁
        exact hnew hst₁ hoid₁.symm
      -- a frame of a blocked node would have changed nothing
      have hallow : pe.admission.assertNode S n = .ok () := by
        cases hadm : pe.admission.assertNode S n with
        | ok u => rfl
        | error err =>
          unfold stepUnder at hl
          rw [he, step_fromPeer_of_refused hadm] at hl
          cases hl₀.symm.trans hl
          exact absurd rfl (hnew hst)
      exact ⟨P, hP, hnode, es, pe, [], rfl, hno, hyes, PeerAdmission.assertPeer_of_assertNode hnode hallow⟩

/-- Whatever frames, local calls and policy changes a manager has been through: a stored session with
established keys belongs to the identity it is stored under and was admitted when it was established, its
previous epoch has the other K bit, and its pending responder is in its handshake. -/
theorem identity_binding (hl : (Run.run (stepUnder S cfg) init es).lookup n = some (sid, s)) :
    (s.fsp.state = .established → ∃ P, s.fsp.remotePubkey = some P ∧ s.remotePubkey = some P ∧
      deriveNodeAddr S P = .ok n ∧ AdmittedWhenEstablished S cfg es n s.fsp.oid P) ∧
    (∀ p, s.previousFsp = some p → p.kBit ≠ s.currentKBit) ∧
    ∀ p, s.pendingResponderFsp = some p → p.state = .handshaking := by
  have hb := (@safe_runUnder _ cfg es).bound n sid s hl
  refine ⟨fun hst => ?_, hb.previous, hb.pending⟩
  obtain ⟨P, hfP, hsP, -⟩ := hb.established hst
  obtain ⟨Q, hQ, hnode, ha⟩ := admitted_of_lookup hl hst
  cases hfP.symm.trans hQ
  exact ⟨P, hfP, hsP, hnode, ha⟩

end

/-- The events of the toy manager `n` while nobody is blocked. -/
def toyUnder (n : UInt8) (es : List ManagerEvent) : List PolicyEvent := es.map fun e => ⟨⟨[]⟩, List.replicate 8 n, e⟩

/-- The toy node 1 opens a session with the toy node 2 while nobody is blocked. -/
def toyOpening : List PolicyEvent :=
  [toyEnsure 1 2, toyReceive 1 2 (toyAck 1 2)].map fun e => ⟨⟨[]⟩, List.replicate 8 1, e⟩

theorem identity_binding_toy : ∃ s : Session, s.fsp.state = .established ∧ ∃ P, s.fsp.remotePubkey = some P ∧
    s.remotePubkey = some P ∧ deriveNodeAddr toySuite P = .ok (toyIdentity 2).nodeAddr ∧
    AdmittedWhenEstablished toySuite (toyConfig 1) toyOpening (toyIdentity 2).nodeAddr s.fsp.oid P := by
  have hst : ((Run.run (stepUnder toySuite (toyConfig 1)) init toyOpening).lookup (toyIdentity 2).nodeAddr).map
      (·.2.fsp.state) = some .established := by decide +kernel
  obtain ⟨⟨sid, s⟩, hl, hst⟩ := Option.map_eq_some_iff.1 hst
  exact ⟨s, hst, (identity_binding hl).1 hst⟩

end Manager

end Fips
