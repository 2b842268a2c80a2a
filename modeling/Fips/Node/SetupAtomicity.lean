import Fips.Crypto.Toy
import Fips.Node.Objects

/-!
# A rejected SessionSetup

`setupReply` parses the frame before it installs anything, except where a local initiator loses a
simultaneous open: there the initiator is closed first. A SessionSetup that is then rejected leaves the
stored session closed; in every other case the manager is as it was, and an initiator in progress
completes on its SessionAck.
-/

namespace Fips
open Exec Session

namespace Manager

section
variable {S : Suite} {cfg : ManagerConfig} {env : Env} {peer : PeerId} {src : NodeAddr} {frame : Bytes}
  {m m' : Manager} {e : String}

/-- The session stored for `src` survives the step from `m` to `m'`: it is the same object with the same
keys, and a SessionAck that would have completed its initiator before still does. -/
structure SessionIntact (S : Suite) (cfg : ManagerConfig) (m m' : Manager) (src : NodeAddr) : Prop where
  entry : m'.sessions.get src = m.sessions.get src
  epochs : ∀ sid s, m.lookup src = some (sid, s) → ∃ s', m'.lookup src = some (sid, s') ∧ s'.fsp = s.fsp ∧
    s'.pendingResponderFsp = s.pendingResponderFsp
  completes : ∀ sid s env peer ack reply f, m.lookup src = some (sid, s) → s.fsp.state = .handshaking →
    s.fsp.role = .initiator → cfg.assertNodeAllowed src = .ok () → peekFspPhase ack = .ok FSP_PHASE_MSG2 →
    (FspSession.handleSessionAck S ack env.random env.nowMs).run s.fsp = .ok reply f → f.state = .established →
    ∃ s', (step S cfg m' (.fromPeer env peer src ack)).lookup src = some (sid, s') ∧ s'.fsp = f

/-- The SessionAck completes the initiator it is for. -/
theorem step_sessionAck {sid : Nat} {s : Session} {ack reply : Bytes} {f : FspSession}
    (hl : m.lookup src = some (sid, s)) (hst : s.fsp.state = .handshaking) (ha : cfg.assertNodeAllowed src = .ok ())
    (hp : peekFspPhase ack = .ok FSP_PHASE_MSG2)
    (hrun : (FspSession.handleSessionAck S ack env.random env.nowMs).run s.fsp = .ok reply f) :
    ∃ s', (step S cfg m (.fromPeer env peer src ack)).lookup src = some (sid, s') ∧ s'.fsp = f := by
  have ho := objs_of_lookup hl
  have hget := sessions_of_lookup hl
  have hack : wp (handleSessionAck S env src sid s ack)
      (fun _ m' => ∃ s', m'.lookup src = some (sid, s') ∧ s'.fsp = f)
      (fun _ m' => ∃ s', m'.lookup src = some (sid, s') ∧ s'.fsp = f) m := by
    unfold handleSessionAck
    simp only [wp_bind, onSession, onFsp, wp_zoom]
    rw [wp_of_ok hrun]
    change wp _ _ _ (m.setObj sid { s with fsp := f })
    simp only [hst, wp_ite, wp_bind, wp_emit, wp_modify]
    refine ⟨fun _ => ?_, fun h => by simp at h⟩
    have ho' := @objs_setObj _ _ _ { s with fsp := f } ho
    simp only [objs_logged, ho', Option.map_some, Option.getD_some, resolveSessionSetup_logged, logged_logged]
    refine ⟨{ s with fsp := f, setupPromise := none }, lookup_eq_some ?_ ?_, rfl⟩
    · exact (congrArg (JsMap.get · src) sessions_settleSetup).trans hget
    · rw [objs_logged, resolveSessionSetup, objs_settleSetup ho']
      obtain ⟨hlt, -⟩ := List.getElem?_eq_some_iff.1 ho
      simp [setObj, hlt]
  refine (wp_after (P := fun m' : Manager => ∃ s', m'.lookup src = some (sid, s') ∧ s'.fsp = f)).2 ?_
  have hne₁ : ¬ FSP_PHASE_MSG2 = FSP_PHASE_ESTABLISHED := by decide
  have hne₂ : ¬ FSP_PHASE_MSG2 = FSP_PHASE_MSG1 := by decide
  unfold handleFromPeer
  simp only [wp_bind, wp_lift, ha, hp, wp_get, Except.ok.injEq, forall_eq', hne₁, hne₂, if_false, if_true, hl, reduceCtorEq,
    false_implies, implies_true, and_true]
  exact fun _ _ => hack

theorem SessionIntact.refl : SessionIntact S cfg m m src where
  entry := rfl
  epochs _ s hl := ⟨s, hl, rfl, rfl⟩
  completes _ _ _ _ _ _ _ hl hst _ ha hp hrun _ := step_sessionAck hl hst ha hp hrun

/-- A SessionSetup that makes the manager throw leaves the stored session intact exactly when it is not
one that wins a simultaneous open. -/
theorem rejectedSetup_intact_iff (h : (handleSessionSetup S cfg env peer src frame).run m = .error e m')
    (hp : peekFspPhase frame = .ok FSP_PHASE_MSG1) :
    SessionIntact S cfg m m' src ↔ ¬ LosesOpen cfg m src frame := by
  cases (wp_of_error h).1 (@wp_handleSessionSetup S cfg env peer _ _ m hp) with
  | unchanged hno => exact ⟨fun _ => hno, fun _ => .refl⟩
  | closed hl hu hst hrole hc hr =>
    refine ⟨fun hi => ?_, fun hno => absurd ⟨_, _, hl, hu, hst, hrole, hc⟩ hno⟩
    obtain ⟨s', hl', hf, -⟩ := hi.epochs _ _ hl
    have ho := objs_of_lookup hl'
    rw [objs_setObj (objs_of_lookup hl)] at ho
    cases ho
    have hclosed := congrArg FspSession.state hf
    simp [FspSession.close, hst] at hclosed

end

/-- A frame of phase 1 that ends before its coordinates. -/
def truncatedSetup : Bytes := [1, 0, 0, 0]

/-- A truncated SessionSetup from the peer of an established session. -/
theorem rejectedSetup_intact_iff_established :
    let m := Run.run (step toySuite (toyConfig 2)) init (toyAccepted 2 1)
    (m.lookup (toyIdentity 1).nodeAddr).map (·.2.fsp.state) = some .established ∧
      ∃ e m', (handleSessionSetup toySuite (toyConfig 2) (toyEnv 5) 0 (toyIdentity 1).nodeAddr truncatedSetup).run m =
        .error e m' ∧ SessionIntact toySuite (toyConfig 2) m m' (toyIdentity 1).nodeAddr := by
  intro m
  have hstate : (m.lookup (toyIdentity 1).nodeAddr).map (·.2.fsp.state) = some .established := by decide +kernel
  have hkeeps : ¬ LosesOpen (toyConfig 2) m (toyIdentity 1).nodeAddr truncatedSetup := by
    rintro ⟨_, _, hl, -, hst, -⟩
    rw [hl, Option.map_some, hst] at hstate
    cases hstate
  obtain ⟨e, hrun⟩ := run_of_throws (x := handleSessionSetup toySuite (toyConfig 2) (toyEnv 5) 0
    (toyIdentity 1).nodeAddr truncatedSetup) (s := m) (by decide +kernel)
  exact ⟨hstate, e, _, hrun, (rejectedSetup_intact_iff hrun (by rfl)).2 hkeeps⟩

/-- A local initiator that has sent its SessionSetup to the node with the smaller address. -/
def toyInitiator : List ManagerEvent := [.ensureSession (toyEnv 5) (toyIdentity 1).publicKey]

/-- A truncated SessionSetup from the peer of an open handshake closes the local initiator. -/
theorem rejectedSetup_closes_initiator :
    ¬ ∀ (S : Suite) (cfg : ManagerConfig) (es : List ManagerEvent) (env : Env) (peer : PeerId) (src : NodeAddr)
      (frame : Bytes) (e : String) (m' : Manager), S.Lawful → peekFspPhase frame = .ok FSP_PHASE_MSG1 →
      (handleSessionSetup S cfg env peer src frame).run (Run.run (step S cfg) init es) = .error e m' →
      SessionIntact S cfg (Run.run (step S cfg) init es) m' src := by
  intro h
  obtain ⟨e, hrun⟩ := run_of_throws (x := handleSessionSetup toySuite (toyConfig 2) (toyEnv 6) 0
    (toyIdentity 1).nodeAddr truncatedSetup) (s := Run.run (step toySuite (toyConfig 2)) init toyInitiator)
    (by decide +kernel)
  have hi := h toySuite (toyConfig 2) toyInitiator (toyEnv 6) 0 _ _ e _ toySuite_lawful (by rfl) hrun
  have hbefore : ((Run.run (step toySuite (toyConfig 2)) init toyInitiator).lookup (toyIdentity 1).nodeAddr).map
      (·.2.fsp.state) = some .handshaking := by decide +kernel
  have hafter : ((after (handleSessionSetup toySuite (toyConfig 2) (toyEnv 6) 0 (toyIdentity 1).nodeAddr truncatedSetup)
      (Run.run (step toySuite (toyConfig 2)) init toyInitiator)).lookup (toyIdentity 1).nodeAddr).map
      (·.2.fsp.state) = some .closed := by decide +kernel
  obtain ⟨⟨sid, s⟩, hl, hs⟩ := Option.map_eq_some_iff.1 hbefore
  obtain ⟨s', hl', hf, -⟩ := hi.epochs sid s hl
  rw [hl', Option.map_some, hf] at hafter
  exact absurd (hs.symm.trans (Option.some.inj hafter)) (by decide)

end Manager

end Fips
