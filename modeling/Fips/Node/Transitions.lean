import Fips.Node.Receipt
import Fips.Node.SessionManager

/-!
# The transitions of the session manager

`Transition` lists everything one event can do to the manager, thrown or not, with the guards the code
has checked; `step_transition` says the list is complete. Invariants are proved by cases on it.
-/

namespace Fips
open Exec Session

/-- Does no key epoch of the session recognise the SessionSetup? -/
def Session.Unrecognised (s : Session) (frame : Bytes) : Prop :=
  s.pendingResponderFsp.filter (·.matchesSessionSetup frame) = none ∧ s.fsp.matchesSessionSetup frame = false

/-- The object a SessionMsg3 is for. -/
def Session.handshakeFsp (s : Session) : FspSession := s.pendingResponderFsp.getD s.fsp

/-- The session with that object replaced. -/
def Session.putHandshakeFsp (f : FspSession) (s : Session) : Session :=
  match s.pendingResponderFsp with
  | some _ => { s with pendingResponderFsp := some f }
  | none => { s with fsp := f }

namespace Session
variable {s : Session} {f p : FspSession}

theorem putHandshakeFsp_of_none (h : s.pendingResponderFsp = none) : s.putHandshakeFsp f = { s with fsp := f } := by
  unfold putHandshakeFsp
  rw [h]

theorem putHandshakeFsp_of_some (h : s.pendingResponderFsp = some p) :
    s.putHandshakeFsp f = { s with pendingResponderFsp := some f } := by
  unfold putHandshakeFsp
  rw [h]

theorem handshakeFsp_of_none (h : s.pendingResponderFsp = none) : s.handshakeFsp = s.fsp := by
  simp [handshakeFsp, h]

theorem handshakeFsp_of_some (h : s.pendingResponderFsp = some p) : s.handshakeFsp = p := by
  simp [handshakeFsp, h]

theorem putHandshakeFsp_self (s : Session) : s.putHandshakeFsp s.handshakeFsp = s := by
  cases h : s.pendingResponderFsp with
  | none => rw [putHandshakeFsp_of_none h, handshakeFsp_of_none h]
  | some p => rw [putHandshakeFsp_of_some h, handshakeFsp_of_some h, put_pending h]

theorem handshakeFsp_putHandshakeFsp : (s.putHandshakeFsp f).handshakeFsp = f := by
  cases h : s.pendingResponderFsp with
  | none => simp [putHandshakeFsp_of_none h, handshakeFsp, h]
  | some p => simp [putHandshakeFsp_of_some h, handshakeFsp]

end Session

namespace Manager

section
variable {m : Manager} {src : NodeAddr} {sid : Nat} {s s' : Session}

theorem sessions_of_lookup (h : m.lookup src = some (sid, s)) : m.sessions.get src = some sid := by
  simp only [lookup, Option.bind_eq_bind, Option.pure_def, Option.bind_eq_some_iff] at h
  obtain ⟨_, h, _, _, h'⟩ := h
  cases h'
  exact h

theorem objs_of_lookup (h : m.lookup src = some (sid, s)) : m.objs[sid]? = some s := by
  simp only [lookup, Option.bind_eq_bind, Option.pure_def, Option.bind_eq_some_iff] at h
  obtain ⟨_, _, _, h, h'⟩ := h
  cases h'
  exact h

theorem lookup_eq_some (h : m.sessions.get src = some sid) (h' : m.objs[sid]? = some s) :
    m.lookup src = some (sid, s) := by
  simp [lookup, h, h']

theorem setObj_self (h : m.objs[sid]? = some s) : m.setObj sid s = m := by
  obtain ⟨hlt, rfl⟩ := List.getElem?_eq_some_iff.1 h
  simp [setObj]

theorem objs_setObj (h : m.objs[sid]? = some s) : (m.setObj sid s').objs[sid]? = some s' := by
  obtain ⟨hlt, -⟩ := List.getElem?_eq_some_iff.1 h
  simp [setObj, hlt]

end

/-- The manager with effects appended to its log. -/
def logged (l : List Effect) (m : Manager) : Manager := { m with log := m.log ++ l }

@[simp] theorem logged_nil (m : Manager) : m.logged [] = m := by simp [logged]

@[simp] theorem logged_logged (l l' : List Effect) (m : Manager) : (m.logged l).logged l' = m.logged (l ++ l') := by
  simp [logged]

@[simp] theorem objs_logged (l : List Effect) (m : Manager) : (m.logged l).objs = m.objs := rfl

@[simp] theorem wp_emit {e : Effect} {m : Manager} {Q : Unit → Manager → Prop} {E : String → Manager → Prop} :
    wp (emit e) Q E m ↔ Q () (m.logged [e]) := Iff.rfl

/-- The session a first contact stores. -/
def contacted (src : NodeAddr) (fsp : FspSession) (m : Manager) : Manager :=
  { m with
    objs := m.objs ++ [Session.new src none fsp]
    sessions := m.sessions.set src m.objs.length
    nextOid := m.nextOid + 1 }

/-- The session an initiator stores, with the promise of its setup; the call awaits it once the
SessionSetup is built. -/
def initiated (node : NodeAddr) (remotePubkey : Bytes) (fsp : FspSession) (built : Bool) (m : Manager) : Manager :=
  { m with
    objs := m.objs ++ [{ Session.new node (some remotePubkey) fsp with setupPromise := some m.promises.length }]
    sessions := m.sessions.set node m.objs.length
    nextOid := m.nextOid + 1
    promises := m.promises ++ [.pending]
    calls := m.calls ++ if built then [⟨node, m.promises.length⟩] else [] }

/-- The call joins the setup of the stored session. -/
def awaited (node : NodeAddr) (sid : Nat) (s : Session) (m : Manager) : Manager :=
  let r := m.waitForSessionSetup sid s
  { r.2 with calls := r.2.calls ++ [⟨node, r.1⟩] }

/-- A SessionSetup no key epoch recognises, against a local initiator with the larger address. -/
def LosesOpen (cfg : ManagerConfig) (m : Manager) (src : NodeAddr) (frame : Bytes) : Prop :=
  ∃ sid s, m.lookup src = some (sid, s) ∧ s.Unrecognised frame ∧ s.fsp.state = .handshaking ∧
    s.fsp.role = .initiator ∧ compareNodeAddr cfg.identity.nodeAddr src = .ok .gt

/-- What a SessionSetup that throws leaves behind. -/
inductive SetupRejected (S : Suite) (cfg : ManagerConfig) (env : Env) (src : NodeAddr) (frame : Bytes) (m : Manager) :
    Manager → Prop
  | unchanged (h : ¬ LosesOpen cfg m src frame) : SetupRejected S cfg env src frame m m
  | closed {sid : Nat} {s : Session} {err : String} (hl : m.lookup src = some (sid, s)) (hu : s.Unrecognised frame)
      (hst : s.fsp.state = .handshaking) (hrole : s.fsp.role = .initiator)
      (hc : compareNodeAddr cfg.identity.nodeAddr src = .ok .gt)
      (hr : respond S cfg env src frame m.nextOid = .error err) :
      SetupRejected S cfg env src frame m (m.setObj sid { s with fsp := s.fsp.close })

/-- A record on its way into a session. -/
structure Arrival where
  sid : Nat
  session : Session
  env : Env
  peer : PeerId
  src : NodeAddr
  frame : Bytes

/-- The record an event hands to `handleEstablished`: one from a peer, or one taken from a queue. -/
def arrival (cfg : ManagerConfig) (m : Manager) : ManagerEvent → Option Arrival
  | .fromPeer env peer src frame =>
    if cfg.assertNodeAllowed src = .ok () ∧ peekFspPhase frame = .ok FSP_PHASE_ESTABLISHED then
      (m.lookup src).map fun (sid, s) => ⟨sid, s, env, peer, src, frame⟩
    else none
  | .drain env i =>
    match m.drains[i]? with
    | some (sid, record :: _) =>
      m.objs[sid]?.map fun s => ⟨sid, s, env, record.peer, s.remoteNodeAddr, record.frame⟩
    | _ => none
  | _ => none

/-- A record that opens where it arrives: the keys that open it, what it decodes to and its plaintext. -/
structure Opening extends Arrival where
  fsp : FspSession
  est : FspEstablished
  plaintext : Bytes

def opening (S : Suite) (cfg : ManagerConfig) (m : Manager) (e : ManagerEvent) : Option Opening := do
  let a ← m.arrival cfg e
  let (fsp, est, plaintext) ← a.session.authenticates S a.env a.frame
  return { a with fsp, est, plaintext }

/-- The calls that open a session with the holder of a key. -/
def Opens (e : ManagerEvent) (env : Env) (remotePubkey : Bytes) : Prop :=
  e = .ensureSession env remotePubkey ∨ e = .routeResolved env remotePubkey

inductive Transition (S : Suite) (cfg : ManagerConfig) (m : Manager) : ManagerEvent → Manager → Prop
  /-- Nothing but quiet effects: a throw, a duplicate, an event with no target. -/
  | idle {e : ManagerEvent} {l : List Effect} (h : ∀ x ∈ l, x.isDelivery = false) :
      Transition S cfg m e (m.logged l)
  | receipt {env : Env} {peer : PeerId} {src : NodeAddr} {frame : Bytes} {sid : Nat} {s s' : Session}
      {l : List Effect} (hl : m.lookup src = some (sid, s))
      (ha : m.arrival cfg (.fromPeer env peer src frame) = some ⟨sid, s, env, peer, src, frame⟩)
      (h : Receipt S cfg env peer src frame s s' l) :
      Transition S cfg m (.fromPeer env peer src frame) ((m.setObj sid s').logged l)
  | drained {env : Env} {i sid : Nat} {record : EarlyRecord} {rest : List EarlyRecord} {s s' : Session}
      {l : List Effect} (hd : m.drains[i]? = some (sid, record :: rest)) (ho : m.objs[sid]? = some s)
      (h : Receipt S cfg env record.peer s.remoteNodeAddr record.frame s s' l) :
      Transition S cfg m (.drain env i)
        (({ m with drains := m.drains.set i (sid, rest) }.setObj sid s').logged l)
  | drainLost {env : Env} {i sid : Nat} {record : EarlyRecord} {rest : List EarlyRecord}
      (hd : m.drains[i]? = some (sid, record :: rest)) (ho : m.objs[sid]? = none) :
      Transition S cfg m (.drain env i) { m with drains := m.drains.set i (sid, rest) }
  | sealed {e : ManagerEvent} {sid : Nat} {s s' : Session} {frames : List Bytes}
      (he : (∃ env route t p, e = .send env route sid t p) ∨ ∃ env route, e = .receiverReport env route sid)
      (ho : m.objs[sid]? = some s) (h : Sealing s s') :
      Transition S cfg m e ((m.setObj sid s').logged (frames.map (.send s.remoteNodeAddr)))
  | rekey {env : Env} {peer : PeerId} {src : NodeAddr} {frame reply : Bytes} {sid : Nat} {s : Session}
      {pending : FspSession} (hp : peekFspPhase frame = .ok FSP_PHASE_MSG1) (hl : m.lookup src = some (sid, s))
      (hu : s.Unrecognised frame) (hst : s.fsp.state = .established)
      (hr : respond S cfg env src frame m.nextOid = .ok (reply, pending)) :
      Transition S cfg m (.fromPeer env peer src frame)
        ({ m.setObj sid { s with pendingResponderFsp := some pending } with nextOid := m.nextOid + 1 }.logged
          [.reply src reply peer])
  /-- A local initiator loses a simultaneous open to a SessionSetup that is accepted. -/
  | yields {env : Env} {peer : PeerId} {src : NodeAddr} {frame reply : Bytes} {sid : Nat} {s : Session}
      {fsp : FspSession} (hp : peekFspPhase frame = .ok FSP_PHASE_MSG1) (hl : m.lookup src = some (sid, s))
      (hu : s.Unrecognised frame) (hst : s.fsp.state = .handshaking) (hrole : s.fsp.role = .initiator)
      (hc : compareNodeAddr cfg.identity.nodeAddr src = .ok .gt)
      (hr : respond S cfg env src frame m.nextOid = .ok (reply, fsp)) :
      Transition S cfg m (.fromPeer env peer src frame)
        ({ m.setObj sid { s with fsp } with nextOid := m.nextOid + 1 }.logged [.reply src reply peer])
  /-- A local initiator loses a simultaneous open to a SessionSetup that is then rejected. -/
  | yieldsNothing {env : Env} {peer : PeerId} {src : NodeAddr} {frame : Bytes} {sid : Nat} {s : Session} {err : String}
      (hp : peekFspPhase frame = .ok FSP_PHASE_MSG1) (hl : m.lookup src = some (sid, s))
      (hu : s.Unrecognised frame) (hst : s.fsp.state = .handshaking) (hrole : s.fsp.role = .initiator)
      (hc : compareNodeAddr cfg.identity.nodeAddr src = .ok .gt)
      (hr : respond S cfg env src frame m.nextOid = .error err) :
      Transition S cfg m (.fromPeer env peer src frame) (m.setObj sid { s with fsp := s.fsp.close })
  | contact {env : Env} {peer : PeerId} {src : NodeAddr} {frame reply : Bytes} {fsp : FspSession}
      (hp : peekFspPhase frame = .ok FSP_PHASE_MSG1)
      (hl : ∀ sid s, m.lookup src = some (sid, s) → s.Unrecognised frame ∧ s.fsp.state ≠ .established ∧
        ¬ (s.fsp.state = .handshaking ∧ s.fsp.role = .initiator))
      (hr : respond S cfg env src frame m.nextOid = .ok (reply, fsp)) :
      Transition S cfg m (.fromPeer env peer src frame)
        ((m.contacted src fsp).logged [.session src .establishing false, .reply src reply peer])
  | ackFailed {env : Env} {peer : PeerId} {src : NodeAddr} {frame : Bytes} {sid : Nat} {s : Session} {f : FspSession}
      {err : String} (hp : peekFspPhase frame = .ok FSP_PHASE_MSG2) (hl : m.lookup src = some (sid, s))
      (hrun : (FspSession.handleSessionAck S frame env.random env.nowMs).run s.fsp = .error err f)
      (hs : s.fsp.hs.isSome) (h : FspSession.SameKeys s.fsp f) :
      Transition S cfg m (.fromPeer env peer src frame) (m.setObj sid { s with fsp := f })
  | ackRepeated {env : Env} {peer : PeerId} {src : NodeAddr} {frame : Bytes} {sid : Nat} {s : Session} {l : List Effect}
      (hp : peekFspPhase frame = .ok FSP_PHASE_MSG2) (hl : m.lookup src = some (sid, s))
      (hst : s.fsp.state ≠ .established) (hlog : ∀ x ∈ l, x.isDelivery = false) :
      Transition S cfg m (.fromPeer env peer src frame) ((m.resolveSessionSetup sid s).logged l)
  | ackCompletes {env : Env} {peer : PeerId} {src : NodeAddr} {frame reply : Bytes} {sid : Nat} {s : Session}
      {f : FspSession} {l : List Effect} (hp : peekFspPhase frame = .ok FSP_PHASE_MSG2)
      (hl : m.lookup src = some (sid, s)) (hst : s.fsp.state ≠ .established)
      (hrun : (FspSession.handleSessionAck S frame env.random env.nowMs).run s.fsp = .ok reply f)
      (hs : s.fsp.hs.isSome) (h : FspSession.Completes s.fsp f) (hlog : ∀ x ∈ l, x.isDelivery = false) :
      Transition S cfg m (.fromPeer env peer src frame)
        (((m.setObj sid { s with fsp := f }).resolveSessionSetup sid { s with fsp := f }).logged l)
  | msg3Failed {env : Env} {peer : PeerId} {src : NodeAddr} {frame : Bytes} {sid : Nat} {s : Session} {f : FspSession}
      {err : String} (hp : peekFspPhase frame = .ok FSP_PHASE_MSG3) (hl : m.lookup src = some (sid, s))
      (hrun : (FspSession.handleSessionMsg3 S frame env.nowMs).run s.handshakeFsp = .error err f)
      (hs : s.handshakeFsp.hs.isSome) (h : FspSession.SameKeys s.handshakeFsp f) :
      Transition S cfg m (.fromPeer env peer src frame) (m.setObj sid (s.putHandshakeFsp f))
  /-- The responder that read the SessionMsg3 is not admitted: a pending one is dropped. -/
  | msg3RefusedPending {env : Env} {peer : PeerId} {src : NodeAddr} {frame : Bytes} {sid : Nat} {s : Session}
      {p f : FspSession} {err : String} (hp : peekFspPhase frame = .ok FSP_PHASE_MSG3)
      (hl : m.lookup src = some (sid, s)) (hpend : s.pendingResponderFsp = some p)
      (hrun : (FspSession.handleSessionMsg3 S frame env.nowMs).run p = .ok () f)
      (ha : admitResponder S cfg src s f = .error err) :
      Transition S cfg m (.fromPeer env peer src frame) (m.setObj sid { s with pendingResponderFsp := none })
  /-- The same for a session's only keys: the session goes with them. -/
  | msg3Refused {env : Env} {peer : PeerId} {src : NodeAddr} {frame : Bytes} {sid : Nat} {s : Session}
      {f : FspSession} {err : String} (hp : peekFspPhase frame = .ok FSP_PHASE_MSG3)
      (hl : m.lookup src = some (sid, s)) (hpend : s.pendingResponderFsp = none)
      (hrun : (FspSession.handleSessionMsg3 S frame env.nowMs).run s.fsp = .ok () f)
      (ha : admitResponder S cfg src s f = .error err) :
      Transition S cfg m (.fromPeer env peer src frame)
        { m.setObj sid { s with fsp := f.close } with sessions := m.sessions.delete src }
  | msg3Completes {env : Env} {peer : PeerId} {src : NodeAddr} {frame : Bytes} {sid : Nat} {s : Session}
      {f : FspSession} {l : List Effect} (hp : peekFspPhase frame = .ok FSP_PHASE_MSG3)
      (hl : m.lookup src = some (sid, s))
      (hrun : (FspSession.handleSessionMsg3 S frame env.nowMs).run s.handshakeFsp = .ok () f)
      (ha : admitResponder S cfg src s f = .ok ()) (hlog : ∀ x ∈ l, x.isDelivery = false) :
      Transition S cfg m (.fromPeer env peer src frame) ((m.completed env sid (s.putHandshakeFsp f)).logged l)
  | awaits {e : ManagerEvent} {env : Env} {remotePubkey : Bytes} {node : NodeAddr} {sid : Nat} {s : Session}
      (he : Opens e env remotePubkey) (hn : deriveNodeAddr S remotePubkey = .ok node) (hl : m.lookup node = some (sid, s))
      (hst : s.fsp.state = .handshaking) :
      Transition S cfg m e (m.awaited node sid s)
  | initiates {e : ManagerEvent} {env : Env} {remotePubkey : Bytes} {node : NodeAddr} {f : FspSession} {built : Bool}
      {l : List Effect} (he : Opens e env remotePubkey) (hn : deriveNodeAddr S remotePubkey = .ok node)
      (hl : ∀ sid s, m.lookup node = some (sid, s) → s.fsp.state ≠ .established ∧ s.fsp.state ≠ .handshaking)
      (hf : FspSession.Unkeyed f m.nextOid .initiator) (hst : f.state = .init ∨ f.state = .handshaking)
      (hrem : f.remotePubkey = some remotePubkey) (hset : f.receivedSessionSetup = none)
      (hlog : ∀ x ∈ l, x.isDelivery = false) :
      Transition S cfg m e ((m.initiated node remotePubkey f built).logged l)
  | rejects {e : ManagerEvent} {sid : Nat} {s : Session} {err : String} (ho : m.objs[sid]? = some s)
      (he : e = .setupTimeout sid ∧ s.setupPromise.isSome ∨
        e = .setupSendFailed sid err ∧ m.sessions.get s.remoteNodeAddr = some sid ∧ s.fsp.state ≠ .established) :
      Transition S cfg m e (m.rejectSessionSetup sid s err)
  | closes {remotePubkey : Bytes} :
      Transition S cfg m (.closePeerSessions remotePubkey) (m.closePeerSessions remotePubkey)
  | stops : Transition S cfg m .stop m.stop

section
variable {S : Suite} {cfg : ManagerConfig} {env : Env} {peer : PeerId} {src : NodeAddr} {frame : Bytes} {m : Manager}
  {sid : Nat} {s : Session}

theorem arrival_drain {i : Nat} {record : EarlyRecord} {rest : List EarlyRecord}
    (hd : m.drains[i]? = some (sid, record :: rest)) (ho : m.objs[sid]? = some s) :
    m.arrival cfg (.drain env i) = some ⟨sid, s, env, record.peer, s.remoteNodeAddr, record.frame⟩ := by
  simp only [arrival, hd, ho, Option.map_some]

theorem Transition.noop (e : ManagerEvent) : Transition S cfg m e m := by
  simpa using Transition.idle (l := []) (by simp)

/-- Work on a session that left it as it was. -/
theorem onSession_self (h : m.objs[sid]? = some s) : { m.setObj sid s with log := m.log } = m := by
  rw [setObj_self h]

theorem wp_firstContact (hp : peekFspPhase frame = .ok FSP_PHASE_MSG1)
    (hl : ∀ sid s, m.lookup src = some (sid, s) → s.Unrecognised frame ∧ s.fsp.state ≠ .established ∧
      ¬ (s.fsp.state = .handshaking ∧ s.fsp.role = .initiator)) :
    wp (firstContact S cfg env src frame)
      (fun r m' => Transition S cfg m (.fromPeer env peer src frame)
        (m'.logged (r.toList.map fun reply => .reply src reply peer)))
      (fun _ m' => SetupRejected S cfg env src frame m m') m := by
  unfold firstContact
  simp only [wp_bind, wp_get, wp_lift, wp_set, wp_pure]
  refine ⟨fun r hr => ?_, fun _ _ => .unchanged ?_⟩
  · simpa [contacted, logged] using (@Transition.contact _ _ _ _ peer) hp hl hr
  · rintro ⟨sid, s, h, -, hst, hrole, -⟩
    exact (hl sid s h).2.2 ⟨hst, hrole⟩

theorem wp_setupReply (hp : peekFspPhase frame = .ok FSP_PHASE_MSG1) :
    wp (setupReply S cfg env src frame)
      (fun r m' => Transition S cfg m (.fromPeer env peer src frame)
        (m'.logged (r.toList.map fun reply => .reply src reply peer)))
      (fun _ m' => SetupRejected S cfg env src frame m m') m := by
  have hidle (reply : Bytes) : Transition S cfg m (.fromPeer env peer src frame) (m.logged [.reply src reply peer]) :=
    .idle (by simp [Effect.isDelivery])
  unfold setupReply
  simp only [wp_bind, wp_get]
  cases hl : m.lookup src with
  | none => exact wp_firstContact hp (by simp [hl])
  | some entry =>
    obtain ⟨sid, s⟩ := entry
    have ho := objs_of_lookup hl
    -- in every branch but one the guards exclude the lost open
    have hsame (h : s.Unrecognised frame → ¬ (s.fsp.state = .handshaking ∧ s.fsp.role = .initiator ∧
        compareNodeAddr cfg.identity.nodeAddr src = .ok .gt)) : SetupRejected S cfg env src frame m m :=
      .unchanged (by
        rintro ⟨sid', s', hl', hu, hst, hrole, hc⟩
        cases hl.symm.trans hl'
        exact h hu ⟨hst, hrole, hc⟩)
    dsimp only
    cases hf : s.pendingResponderFsp.filter (·.matchesSessionSetup frame) with
    | some pending =>
      obtain ⟨hpend, hmatch⟩ := Option.filter_eq_some_iff.1 hf
      have hput : { s with pendingResponderFsp := some pending } = s := put_pending hpend
      simp only [wp_bind, onSession, onPending, wp_zoom]
      refine wp_mono (FspSession.wp_handleSessionSetup_of_matches hmatch) ?_ ?_
      · rintro reply f rfl
        simpa [hput, onSession_self ho] using hidle reply
      · rintro e f rfl
        simpa [hput, onSession_self ho] using hsame fun hu => absurd hu.1 (by simp [hf])
    | none =>
      dsimp only
      rw [wp_ite]
      refine ⟨fun hmatch => ?_, fun hmatch => ?_⟩
      · simp only [wp_bind, onSession, onFsp, wp_zoom]
        refine wp_mono (FspSession.wp_handleSessionSetup_of_matches hmatch) ?_ ?_
        · rintro reply f rfl
          simpa [onSession_self ho] using hidle reply
        · rintro e f rfl
          simpa [onSession_self ho] using hsame fun hu => absurd hu.2 (by simp [hmatch])
      have hu : s.Unrecognised frame := ⟨hf, by simpa using hmatch⟩
      rw [wp_ite]
      refine ⟨fun hst => ?_, fun hst => ?_⟩
      · simp only [wp_bind, wp_lift, wp_set, wp_pure]
        exact ⟨fun r hr => by simpa using (@Transition.rekey _ _ _ _ peer) hp hl hu hst hr,
          fun _ _ => hsame fun _ h => by simp [hst] at h⟩
      rw [wp_ite]
      refine ⟨fun hopen => ?_, fun hopen => ?_⟩
      · obtain ⟨hst, hrole⟩ := hopen
        simp only [wp_bind, wp_lift]
        refine ⟨fun order hc => ?_, fun e hc => hsame fun _ h => by simp [hc] at h⟩
        cases order with
        | lt => simpa using Transition.noop _
        | eq => exact hsame fun _ h => by simp [hc] at h
        | gt =>
          simp only [wp_bind, wp_lift, wp_set, wp_pure]
          exact ⟨fun r hr => by simpa using (@Transition.yields _ _ _ _ peer) hp hl hu hst hrole hc hr,
            fun e he => .closed hl hu hst hrole hc he⟩
      · exact wp_firstContact hp fun sid' s' h' => by
          cases hl.symm.trans h'
          exact ⟨hu, hst, hopen⟩

theorem wp_handleSessionSetup (hp : peekFspPhase frame = .ok FSP_PHASE_MSG1) :
    wp (handleSessionSetup S cfg env peer src frame)
      (fun _ m' => Transition S cfg m (.fromPeer env peer src frame) m')
      (fun _ m' => SetupRejected S cfg env src frame m m') m := by
  unfold handleSessionSetup
  rw [wp_bind]
  refine wp_mono ((@wp_setupReply _ _ _ peer) hp) (fun r m' ht => ?_) (fun _ _ => id)
  cases r with
  | none => simpa using ht
  | some reply => simpa [emit, logged] using ht

theorem SetupRejected.transition {m' : Manager} (hp : peekFspPhase frame = .ok FSP_PHASE_MSG1)
    (h : SetupRejected S cfg env src frame m m') : Transition S cfg m (.fromPeer env peer src frame) m' := by
  cases h with
  | unchanged h => exact .noop _
  | closed hl hu hst hrole hc hr => exact .yieldsNothing hp hl hu hst hrole hc hr

theorem resolveSessionSetup_logged {l : List Effect} :
    (m.logged l).resolveSessionSetup sid s = (m.resolveSessionSetup sid s).logged l := by
  unfold resolveSessionSetup settleSetup
  cases s.setupPromise <;> rfl

/-- What is left to do once a SessionAck has been read. -/
theorem wp_ackRead {reply : Bytes} {f : FspSession} (hp : peekFspPhase frame = .ok FSP_PHASE_MSG2)
    (hl : m.lookup src = some (sid, s)) (hk : s.fsp.state = .established → s.fsp.hs = none) (hf : f = s.fsp ∨
        s.fsp.hs.isSome ∧ FspSession.Completes s.fsp f)
    (hrun : (FspSession.handleSessionAck S frame env.random env.nowMs).run s.fsp = .ok reply f) :
    wp (do
      if s.fsp.state ≠ .established then
        emit (.session (s.eventName src) .established false)
        modify fun m => (m.objs[sid]?.map fun s => m.resolveSessionSetup sid s).getD m
      emit (.send src reply))
      (fun _ m' => Transition S cfg m (.fromPeer env peer src frame) m')
      (fun _ m' => Transition S cfg m (.fromPeer env peer src frame) m') (m.setObj sid { s with fsp := f }) := by
  have ho := objs_of_lookup hl
  have hlog : ∀ x ∈ [Effect.session (s.eventName src) .established false, .send src reply], x.isDelivery = false := by
    simp [Effect.isDelivery]
  rw [wp_ite]
  refine ⟨fun hst => ?_, fun hst => ?_⟩
  · simp only [wp_bind, wp_emit, wp_modify, objs_logged, objs_setObj ho, Option.map_some, Option.getD_some,
      resolveSessionSetup_logged, logged_logged]
    rcases hf with rfl | ⟨hs, hf⟩
    · exact (setObj_self ho).symm ▸ Transition.ackRepeated hp hl hst hlog
    · exact .ackCompletes hp hl hst hrun hs hf hlog
  · have hst : s.fsp.state = .established := by simpa using hst
    simp only [wp_emit]
    rcases hf with rfl | ⟨hs, -⟩
    · refine (setObj_self ho).symm ▸ Transition.idle ?_
      simp [Effect.isDelivery]
    · simp [hk hst] at hs

theorem wp_handleSessionAck (hp : peekFspPhase frame = .ok FSP_PHASE_MSG2) (hl : m.lookup src = some (sid, s))
    (hk : s.fsp.state = .established → s.fsp.hs = none) :
    wp (handleSessionAck S env src sid s frame)
      (fun _ m' => Transition S cfg m (.fromPeer env peer src frame) m')
      (fun _ m' => Transition S cfg m (.fromPeer env peer src frame) m') m := by
  have ho := objs_of_lookup hl
  unfold handleSessionAck
  simp only [wp_bind, onSession, onFsp, wp_zoom]
  rw [wp_iff]
  cases hs : s.fsp.hs with
  | none =>
    refine ⟨fun reply f hrun => ?_, fun e f hrun => ?_⟩
    · have h := (wp_of_ok hrun).1 (FspSession.wp_handleSessionAck_of_hs_none hs)
      exact wp_ackRead hp hl hk (.inl h.1) hrun
    · have h := (wp_of_error hrun).1 (FspSession.wp_handleSessionAck_of_hs_none hs)
      subst h
      exact (onSession_self ho).symm ▸ Transition.noop _
  | some hs' =>
    have hsome : s.fsp.hs.isSome := by simp [hs]
    refine ⟨fun reply f hrun => ?_, fun e f hrun => ?_⟩
    · have h := (wp_of_ok hrun).1 (FspSession.wp_handleSessionAck hsome)
      exact wp_ackRead hp hl hk (h.imp_right fun h => ⟨hsome, h⟩) hrun
    · have h := (wp_of_error hrun).1 (FspSession.wp_handleSessionAck hsome)
      exact .ackFailed hp hl hrun hsome h

theorem setObj_setObj (s₁ s₂ : Session) : (m.setObj sid s₁).setObj sid s₂ = m.setObj sid s₂ := by
  simp [setObj]

/-- What is left to do once a SessionMsg3 has been read. -/
theorem wp_finishSessionMsg3 {f : FspSession} (hp : peekFspPhase frame = .ok FSP_PHASE_MSG3)
    (hl : m.lookup src = some (sid, s))
    (hrun : (FspSession.handleSessionMsg3 S frame env.nowMs).run s.handshakeFsp = .ok () f) :
    wp (finishSessionMsg3 S cfg env peer src sid (s.putHandshakeFsp f))
      (fun _ m' => Transition S cfg m (.fromPeer env peer src frame) m')
      (fun _ m' => Transition S cfg m (.fromPeer env peer src frame) m') (m.setObj sid (s.putHandshakeFsp f)) := by
  have hadmit : admitResponder S cfg src (s.putHandshakeFsp f)
      ((s.putHandshakeFsp f).pendingResponderFsp.getD (s.putHandshakeFsp f).fsp) = admitResponder S cfg src s f := by
    unfold putHandshakeFsp
    cases s.pendingResponderFsp <;> rfl
  unfold finishSessionMsg3
  simp only [wp_bind, wp_get, hadmit]
  cases ha : admitResponder S cfg src s f with
  | error e =>
    cases hpend : s.pendingResponderFsp with
    | none =>
      rw [handshakeFsp_of_none hpend] at hrun
      rw [putHandshakeFsp_of_none hpend]
      have ht := (@Transition.msg3Refused _ _ _ _ peer) hp hl hpend hrun ha
      simp only [hpend] at ht
      simp only [hpend, wp_bind, wp_set, wp_throw, setObj_setObj]
      exact ht
    | some p =>
      rw [handshakeFsp_of_some hpend] at hrun
      rw [putHandshakeFsp_of_some hpend]
      simp only [wp_bind, wp_set, wp_throw, setObj_setObj]
      exact .msg3RefusedPending hp hl hpend hrun ha
  | ok u =>
    have ht := @Transition.msg3Completes _ _ _ _ peer _ _ _ _ _ [.reverseRoute src peer,
        .session ((completeResponder env (s.putHandshakeFsp f)).eventName src) .established
          ((s.putHandshakeFsp f).pendingResponderFsp.isSome && remoteRestarted (s.putHandshakeFsp f)
            ((s.putHandshakeFsp f).pendingResponderFsp.getD (s.putHandshakeFsp f).fsp))]
      hp hl hrun ha (by simp [Effect.isDelivery])
    simp only [wp_bind, wp_set, wp_emit, logged_logged, List.cons_append, List.nil_append]
    have hc : (m.setObj sid (s.putHandshakeFsp f)).completed env sid (s.putHandshakeFsp f) =
        m.completed env sid (s.putHandshakeFsp f) := by
      simp [completed, setObj]
    exact hc ▸ ht

theorem wp_handleSessionMsg3 (hp : peekFspPhase frame = .ok FSP_PHASE_MSG3) (hl : m.lookup src = some (sid, s)) :
    wp (handleSessionMsg3 S cfg env peer src sid s frame)
      (fun _ m' => Transition S cfg m (.fromPeer env peer src frame) m')
      (fun _ m' => Transition S cfg m (.fromPeer env peer src frame) m') m := by
  have ho := objs_of_lookup hl
  -- one call of `handshakeFsp`, wherever it is kept
  have hread : wp (FspSession.handleSessionMsg3 S frame env.nowMs)
      (fun _ f => wp (finishSessionMsg3 S cfg env peer src sid (s.putHandshakeFsp f))
        (fun _ m' => Transition S cfg m (.fromPeer env peer src frame) m')
        (fun _ m' => Transition S cfg m (.fromPeer env peer src frame) m') (m.setObj sid (s.putHandshakeFsp f)))
      (fun _ f => Transition S cfg m (.fromPeer env peer src frame) (m.setObj sid (s.putHandshakeFsp f)))
      s.handshakeFsp := by
    rw [wp_iff]
    refine ⟨fun _ f hrun => wp_finishSessionMsg3 hp hl hrun, fun e f hrun => ?_⟩
    cases hs : s.handshakeFsp.hs with
    | none =>
      have h := (wp_of_error hrun).1 (FspSession.wp_handleSessionMsg3_of_hs_none hs)
      subst h
      rw [putHandshakeFsp_self, setObj_self ho]
      exact .noop _
    | some hs' =>
      have hsome : s.handshakeFsp.hs.isSome := by simp [hs]
      exact .msg3Failed hp hl hrun hsome ((wp_of_error hrun).1 (FspSession.wp_handleSessionMsg3 hsome))
  unfold handleSessionMsg3
  cases hpend : s.pendingResponderFsp with
  | none =>
    simp only [putHandshakeFsp_of_none hpend, handshakeFsp_of_none hpend] at hread
    simp only [wp_bind, onSession, onFsp, wp_zoom, wp_get]
    refine wp_mono hread (fun _ f h => ?_) (fun _ f h => h)
    simp only [objs_setObj ho]
    exact h
  | some p =>
    simp only [putHandshakeFsp_of_some hpend, handshakeFsp_of_some hpend] at hread
    simp only [wp_bind, onSession, onPending, wp_zoom, wp_get]
    refine wp_mono hread (fun _ f h => ?_) (fun _ f h => h)
    simp only [objs_setObj ho]
    exact h

/-- The keys of every stored or dropped session's current epoch end its Noise state. -/
def Settled (m : Manager) : Prop := ∀ s ∈ m.objs, s.fsp.state = .established → s.fsp.hs = none

theorem wp_handleFromPeer (hk : m.Settled) :
    wp (handleFromPeer S cfg env peer src frame)
      (fun _ m' => Transition S cfg m (.fromPeer env peer src frame) m')
      (fun _ m' => Transition S cfg m (.fromPeer env peer src frame) m') m := by
  have hnoop : Transition S cfg m (.fromPeer env peer src frame) m := .noop _
  unfold handleFromPeer
  simp only [wp_bind, wp_lift, wp_get, wp_ite, wp_throw]
  refine ⟨fun _ hallow => ⟨fun phase hp => ⟨fun h0 => ?_, fun _ => ⟨fun h1 => ?_, fun _ => ⟨fun h2 => ?_, fun _ =>
    ⟨fun h3 => ?_, fun _ => hnoop⟩⟩⟩⟩, fun _ _ => hnoop⟩, fun _ _ => hnoop⟩
  · subst h0
    cases hl : m.lookup src with
    | none =>
      simp only [wp_bind, wp_lift, wp_pure]
      exact ⟨fun _ _ => hnoop, fun _ _ => hnoop⟩
    | some entry =>
      obtain ⟨sid, s⟩ := entry
      have harr : m.arrival cfg (.fromPeer env peer src frame) = some ⟨sid, s, env, peer, src, frame⟩ := by
        simp only [arrival, hallow, hp, and_self, if_true, hl, Option.map_some]
      simp only [onSession, wp_zoom]
      refine wp_mono wp_handleEstablished ?_ ?_
      · rintro _ ⟨s', log⟩ ⟨l, hr, rfl⟩
        exact .receipt hl harr hr
      · rintro _ ⟨s', log⟩ ⟨l, hr, rfl⟩
        exact .receipt hl harr hr
  · subst h1
    exact wp_mono (wp_handleSessionSetup hp) (fun _ _ => id) (fun _ _ h => h.transition hp)
  · subst h2
    cases hl : m.lookup src with
    | none => exact hnoop
    | some entry =>
      exact wp_handleSessionAck hp hl (hk _ (List.mem_of_getElem? (objs_of_lookup hl)))
  · subst h3
    cases hl : m.lookup src with
    | none => exact hnoop
    | some entry => exact wp_handleSessionMsg3 hp hl

theorem wp_initiate {e : ManagerEvent} {remotePubkey : Bytes} {node : NodeAddr} (he : Opens e env remotePubkey)
    (hn : deriveNodeAddr S remotePubkey = .ok node)
    (hl : ∀ sid s, m.lookup node = some (sid, s) → s.fsp.state ≠ .established ∧ s.fsp.state ≠ .handshaking) :
    wp (initiate S cfg env remotePubkey node) (fun _ m' => Transition S cfg m e m')
      (fun _ m' => Transition S cfg m e m') m := by
  unfold initiate
  simp only [wp_bind, wp_get, wp_lift, wp_set]
  refine ⟨fun fsp hf => ?_, fun _ _ => .noop _⟩
  obtain ⟨hun, hst, hrem, hset, -⟩ := FspSession.new_eq_ok hf
  simp only [onSession, onFsp, wp_zoom]
  refine wp_mono (FspSession.wp_buildSessionSetup hun) ?_ ?_
  · rintro setup f ⟨hun', hst', hrem', hset'⟩
    have ht := @Transition.initiates _ cfg _ _ _ _ _ _ true [.session remotePubkey .establishing false, .send node
        setup] he hn hl hun' (.inr hst') (hrem'.trans hrem)
      (hset'.trans hset) (by simp [Effect.isDelivery])
    simpa [initiated, emit, logged, setObj, Session.new] using ht
  · rintro err f ⟨hun', hst', hrem', hset'⟩
    have ht := @Transition.initiates _ cfg _ _ _ _ _ _ false [.session remotePubkey .establishing false] he hn hl
        hun' (hst'.imp_left fun h => h.trans hst)
      (hrem'.trans hrem) (hset'.trans hset) (by simp [Effect.isDelivery])
    simpa [initiated, logged, setObj, Session.new] using ht

theorem wp_openSession {e : ManagerEvent} {remotePubkey : Bytes} {node : NodeAddr} (he : Opens e env remotePubkey)
    (hn : deriveNodeAddr S remotePubkey = .ok node) :
    wp (openSession S cfg env remotePubkey node) (fun _ m' => Transition S cfg m e m')
      (fun _ m' => Transition S cfg m e m') m := by
  unfold openSession
  simp only [wp_bind, wp_get]
  cases hl : m.lookup node with
  | none => exact wp_initiate he hn (by simp [hl])
  | some entry =>
    obtain ⟨sid, s⟩ := entry
    have hinit (h : s.fsp.state ≠ .established ∧ s.fsp.state ≠ .handshaking) := (@wp_initiate _ cfg _ m) he hn
      (fun sid' s' h' => by cases hl.symm.trans h'; exact h)
    dsimp only
    cases hst : s.fsp.state with
    | established => exact .noop e
    | handshaking => exact .awaits he hn hl hst
    | init => exact hinit (by simp [hst])
    | closed => exact hinit (by simp [hst])

theorem wp_ensureSession {remotePubkey : Bytes} :
    wp (ensureSession S cfg env remotePubkey)
      (fun _ m' => Transition S cfg m (.ensureSession env remotePubkey) m')
      (fun _ m' => Transition S cfg m (.ensureSession env remotePubkey) m') m := by
  unfold ensureSession
  simp only [wp_bind, wp_lift]
  exact ⟨fun _ _ => ⟨fun node hn => wp_openSession (.inl rfl) hn, fun _ _ => .noop _⟩, fun _ _ => .noop _⟩

theorem wp_routeResolved {remotePubkey : Bytes} :
    wp (routeResolved S cfg env remotePubkey)
      (fun _ m' => Transition S cfg m (.routeResolved env remotePubkey) m')
      (fun _ m' => Transition S cfg m (.routeResolved env remotePubkey) m') m := by
  unfold routeResolved
  simp only [wp_bind, wp_lift]
  exact ⟨fun node hn => wp_openSession (.inr rfl) hn, fun _ _ => .noop _⟩

/-- Every event is one of the transitions. -/
theorem step_transition (hk : m.Settled) (e : ManagerEvent) : Transition S cfg m e (step S cfg m e) := by
  cases e with
  | ensureSession env remotePubkey => exact wp_after.2 wp_ensureSession
  | routeResolved env remotePubkey => exact wp_after.2 wp_routeResolved
  | setupSendFailed sid error =>
    cases ho : m.objs[sid]? with
    | none => simpa only [step, setupSendFailed, ho] using Transition.noop _
    | some s =>
      simp only [step, setupSendFailed, ho]
      split
      · exact .rejects ho (.inr ⟨rfl, ‹_›⟩)
      · exact .noop _
  | setupTimeout sid =>
    cases ho : m.objs[sid]? with
    | none => simpa only [step, setupTimeout, ho] using Transition.noop _
    | some s =>
      simp only [step, setupTimeout, ho]
      split
      · exact .rejects ho (.inl ⟨rfl, ‹_›⟩)
      · exact .noop _
  | fromPeer env peer src frame => exact wp_after.2 (wp_handleFromPeer hk)
  | drain env i =>
    simp only [step, drainRecord]
    split
    · rename_i sid record rest hd
      cases ho : m.objs[sid]? with
      | none => exact .drainLost hd ho
      | some s =>
        refine wp_after.2 ?_
        simp only [onSession, wp_zoom]
        refine wp_mono wp_handleEstablished ?_ ?_
        · rintro _ ⟨s', log⟩ ⟨l, hr, rfl⟩
          exact .drained hd ho hr
        · rintro _ ⟨s', log⟩ ⟨l, hr, rfl⟩
          exact .drained hd ho hr
    · exact .noop _
  | send env route sid t payload =>
    cases ho : m.objs[sid]? with
    | none => simpa only [step, ho] using Transition.noop _
    | some s =>
      simp only [step, ho]
      refine wp_after.2 ?_
      simp only [onSession, wp_zoom]
      refine wp_mono wp_sendSessionMessage ?_ ?_
      · rintro _ ⟨s', log⟩ ⟨hs, frames, rfl⟩
        exact .sealed (.inl ⟨env, route, t, payload, rfl⟩) ho hs
      · rintro _ ⟨s', log⟩ ⟨hs, rfl⟩
        simpa [logged, setObj] using @Transition.sealed _ _ _ _ _ _ _ [] (.inl ⟨env, route, t, payload, rfl⟩) ho hs
  | receiverReport env route sid =>
    cases ho : m.objs[sid]? with
    | none => simpa only [step, ho] using Transition.noop _
    | some s =>
      simp only [step, ho]
      refine wp_after.2 ?_
      simp only [onSession, wp_zoom]
      refine wp_mono wp_sendReceiverReport ?_ ?_
      · rintro _ ⟨s', log⟩ ⟨hs, frames, rfl⟩
        exact .sealed (.inr ⟨env, route, rfl⟩) ho hs
      · rintro _ ⟨s', log⟩ ⟨hs, rfl⟩
        simpa [logged, setObj] using @Transition.sealed _ _ _ _ _ _ _ [] (.inr ⟨env, route, rfl⟩) ho hs
  | closePeerSessions remotePubkey => exact .closes
  | stop => exact .stops

end

end Manager

end Fips
