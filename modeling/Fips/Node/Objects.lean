import Fips.Node.Transitions

/-!
# What a transition does to each session object

`Next` is the view of a transition from one session object, `Created` that of an object which gets or is
made for a new `FspSession`; `Transition.objects` says that nothing else happens to the heap. An
invariant of session objects is proved by cases on these.
-/

namespace Fips
open Exec Session

namespace Manager

/-- `gone` tells whether the object may have been closed and removed from the map. -/
inductive Next (S : Suite) (cfg : ManagerConfig) (m : Manager) (e : ManagerEvent) (gone : Prop) (s : Session) :
    Session → Prop
  | refl : Next S cfg m e gone s s
  | promise (p : Option Nat) : Next S cfg m e gone s { s with setupPromise := p }
  | closed (h : gone) (p : Option Nat) : Next S cfg m e gone s { s.close with setupPromise := p }
  | receipt {env : Env} {peer : PeerId} {src : NodeAddr} {frame : Bytes} {sid : Nat} {s' : Session} {l : List Effect}
      (ha : m.arrival cfg e = some ⟨sid, s, env, peer, src, frame⟩) (h : Receipt S cfg env peer src frame s s' l) :
          Next S cfg m e gone s s'
  | sealed {s' : Session} (h : Sealing s s') : Next S cfg m e gone s s'
  | fspClosed (hst : s.fsp.state = .handshaking) : Next S cfg m e gone s { s with fsp := s.fsp.close }
  | ackFailed {f : FspSession} (hs : s.fsp.hs.isSome) (h : FspSession.SameKeys s.fsp f) :
      Next S cfg m e gone s { s with fsp := f }
  | ackCompletes {env : Env} {peer : PeerId} {src : NodeAddr} {frame reply : Bytes} {sid : Nat} {f : FspSession}
      (p : Option Nat) (he : e = .fromPeer env peer src frame) (hl : m.lookup src = some (sid, s))
      (hrun : (FspSession.handleSessionAck S frame env.random env.nowMs).run s.fsp = .ok reply f)
      (hs : s.fsp.hs.isSome) (h : FspSession.Completes s.fsp f) :
      Next S cfg m e gone s { s with fsp := f, setupPromise := p }
  | msg3Failed {f : FspSession} (hs : s.handshakeFsp.hs.isSome) (h : FspSession.SameKeys s.handshakeFsp f) :
      Next S cfg m e gone s (s.putHandshakeFsp f)
  | pendingDropped : Next S cfg m e gone s { s with pendingResponderFsp := none }
  | fspRefused (h : gone) {frame : Bytes} {env : Env} {f : FspSession}
      (hrun : (FspSession.handleSessionMsg3 S frame env.nowMs).run s.fsp = .ok () f) :
      Next S cfg m e gone s { s with fsp := f.close }
  | msg3Completes {env : Env} {peer : PeerId} {src : NodeAddr} {frame : Bytes} {sid : Nat} {f : FspSession}
      (p : Option Nat) (he : e = .fromPeer env peer src frame) (hp : peekFspPhase frame = .ok FSP_PHASE_MSG3)
      (hl : m.lookup src = some (sid, s))
      (hrun : (FspSession.handleSessionMsg3 S frame env.nowMs).run s.handshakeFsp = .ok () f)
      (ha : admitResponder S cfg src s f = .ok ()) :
      Next S cfg m e gone s { completeResponder env (s.putHandshakeFsp f) with
        earlyEstablishedRecords := [], earlyEstablishedBytes := 0, setupPromise := p }

/-- An object that holds a new `FspSession`: an old object renewed, or a new one. -/
inductive Created (S : Suite) (cfg : ManagerConfig) (m : Manager) : Option Session → Session → Prop
  | rekey {env : Env} {src : NodeAddr} {frame reply : Bytes} {s : Session} {pending : FspSession}
      (hst : s.fsp.state = .established) (hr : respond S cfg env src frame m.nextOid = .ok (reply, pending)) :
      Created S cfg m (some s) { s with pendingResponderFsp := some pending }
  | yields {env : Env} {src : NodeAddr} {frame reply : Bytes} {s : Session} {fsp : FspSession}
      (hst : s.fsp.state = .handshaking) (hr : respond S cfg env src frame m.nextOid = .ok (reply, fsp)) :
      Created S cfg m (some s) { s with fsp }
  | contact {env : Env} {src : NodeAddr} {frame reply : Bytes} {fsp : FspSession}
      (hr : respond S cfg env src frame m.nextOid = .ok (reply, fsp)) : Created S cfg m none (Session.new src none fsp)
  | initiated {remotePubkey : Bytes} {node : NodeAddr} {f : FspSession} (p : Option Nat)
      (hn : deriveNodeAddr S remotePubkey = .ok node) (hf : FspSession.Unkeyed f m.nextOid .initiator)
      (hst : f.state = .init ∨ f.state = .handshaking) (hrem : f.remotePubkey = some remotePubkey) :
      Created S cfg m none { Session.new node (some remotePubkey) f with setupPromise := p }

section
variable {S : Suite} {cfg : ManagerConfig} {m m' : Manager} {e : ManagerEvent} {sid i : Nat} {s s' : Session}

theorem objs_settleSetup {outcome : PromiseState} (ho : m.objs[sid]? = some s) :
    (m.settleSetup sid s outcome).objs = m.objs.set sid { s with setupPromise := none } := by
  unfold settleSetup
  cases hp : s.setupPromise with
  | some p => rfl
  | none =>
    have hs : { s with setupPromise := none } = s := by cases s; cases hp; rfl
    rw [hs]
    exact (congrArg Manager.objs (setObj_self ho)).symm

@[simp] theorem sessions_settleSetup {outcome : PromiseState} : (m.settleSetup sid s outcome).sessions = m.sessions := by
  unfold settleSetup
  split <;> rfl

theorem objs_resolveSessionSetup_setObj (ho : m.objs[sid]? = some s) :
    ((m.setObj sid s').resolveSessionSetup sid s').objs = m.objs.set sid { s' with setupPromise := none } :=
  (objs_settleSetup (objs_setObj ho)).trans (List.set_set _)

theorem objs_completed {env : Env} {s₀ : Session} (ho : m.objs[sid]? = some s₀) :
    (m.completed env sid s).objs = m.objs.set sid { completeResponder env s with
      earlyEstablishedRecords := [], earlyEstablishedBytes := 0, setupPromise := none } := by
  have ho' := @objs_setObj _ _ _ { completeResponder env s with
    earlyEstablishedRecords := [], earlyEstablishedBytes := 0 } ho
  have hset := @objs_settleSetup { m.setObj sid { completeResponder env s with
    earlyEstablishedRecords := [], earlyEstablishedBytes := 0 } with
    drains := m.drains ++ [(sid, (completeResponder env s).earlyEstablishedRecords)] } _ _ .resolved ho'
  refine hset.trans ?_
  simp [setObj]

@[simp] theorem sessions_awaited {node : NodeAddr} : (m.awaited node sid s).sessions = m.sessions := by
  unfold awaited waitForSessionSetup
  split <;> rfl

theorem objs_awaited {node : NodeAddr} (ho : m.objs[sid]? = some s) :
    ∃ p, (m.awaited node sid s).objs = m.objs.set sid { s with setupPromise := p } := by
  unfold awaited waitForSessionSetup
  cases hp : s.setupPromise with
  | none => exact ⟨_, rfl⟩
  | some p => exact ⟨s.setupPromise, (congrArg Manager.objs (setObj_self ho)).symm⟩

/-- What giving up a session's setup, or the session, does to its object. -/
def Closing (s s' : Session) : Prop := ∃ p, s' = { s with setupPromise := p } ∨ s' = { s.close with setupPromise := p }

theorem Closing.refl (s : Session) : Closing s s := ⟨s.setupPromise, .inl rfl⟩

theorem Closing.trans {s₁ s₂ s₃ : Session} (h : Closing s₁ s₂) (h' : Closing s₂ s₃) : Closing s₁ s₃ := by
  obtain ⟨p, rfl | rfl⟩ := h <;> obtain ⟨q, rfl | rfl⟩ := h'
  · exact ⟨q, .inl rfl⟩
  · exact ⟨q, .inr rfl⟩
  · exact ⟨q, .inr rfl⟩
  · refine ⟨q, .inr ?_⟩
    cases hp : s₁.pendingResponderFsp <;> cases hq : s₁.previousFsp <;> simp [close, FspSession.close, hp, hq]

/-- Every object of `m'` is an object of `m` changed as `R` says. -/
def Changed (R : Session → Session → Prop) (m m' : Manager) : Prop :=
  ∀ (i : Nat) s', m'.objs[i]? = some s' → ∃ s, m.objs[i]? = some s ∧ R s s'

theorem Changed.of_set {R : Session → Session → Prop} (hrefl : ∀ s, R s s) (ho : m.objs[sid]? = some s) (h : R s s')
    (hobjs : m'.objs = m.objs.set sid s') : Changed R m m' := by
  intro i t ht
  rw [hobjs] at ht
  by_cases hi : sid = i
  · subst hi
    obtain ⟨hlt, -⟩ := List.getElem?_eq_some_iff.1 ho
    rw [List.getElem?_set_self hlt] at ht
    cases ht
    exact ⟨s, ho, h⟩
  · rw [List.getElem?_set_ne hi] at ht
    exact ⟨t, ht, hrefl t⟩

theorem Changed.of_eq {R : Session → Session → Prop} (hrefl : ∀ s, R s s) (hobjs : m'.objs = m.objs) :
    Changed R m m' := fun _ t ht => ⟨t, hobjs ▸ ht, hrefl t⟩

theorem changed_rejectSessionSetup {err : String} (ho : m.objs[sid]? = some s) :
    Changed Closing m (m.rejectSessionSetup sid s err) := by
  have hset := @objs_settleSetup _ _ _ (.rejected err) ho
  unfold rejectSessionSetup
  dsimp only
  split
  · refine .of_set .refl ho ⟨none, .inr rfl⟩ ?_
    simp only [setObj, hset, List.set_set]
  · exact .of_set .refl ho ⟨none, .inl rfl⟩ hset

theorem changed_dropSession {err : String} {announce : Bool} {entry : NodeAddr × Nat} :
    Changed Closing m (m.dropSession err announce entry) := by
  unfold dropSession
  cases ho : m.objs[entry.2]? with
  | none => exact .of_eq .refl rfl
  | some s =>
    dsimp only
    split
    · exact changed_rejectSessionSetup ho
    · exact .of_set .refl ho ⟨s.setupPromise, .inr rfl⟩ rfl

theorem changed_dropSessions {err : String} {announce : Bool} (entries : List (NodeAddr × Nat)) :
    Changed Closing m (entries.foldl (dropSession err announce) m) := by
  induction entries generalizing m with
  | nil => exact .of_eq .refl rfl
  | cons entry entries ih =>
    intro i s' hs'
    obtain ⟨s₁, hs₁, hc₁⟩ := ih i s' hs'
    obtain ⟨s, hs, hc⟩ := changed_dropSession i s₁ hs₁
    exact ⟨s, hs, hc.trans hc₁⟩

theorem Closing.next (h : Closing s s') : Next S cfg m e True s s' := by
  obtain ⟨p, rfl | rfl⟩ := h
  · exact .promise p
  · exact .closed trivial p

theorem Changed.next (h : Changed Closing m m') : Changed (Next S cfg m e True) m m' := fun i s' hs' =>
  let ⟨s, hs, hc⟩ := h i s' hs'
  ⟨s, hs, hc.next⟩

theorem nextOid_settleSetup {outcome : PromiseState} : (m.settleSetup sid s outcome).nextOid = m.nextOid := by
  unfold settleSetup
  split <;> rfl

theorem nextOid_rejectSessionSetup {err : String} : (m.rejectSessionSetup sid s err).nextOid = m.nextOid := by
  unfold rejectSessionSetup
  dsimp only
  split <;> exact nextOid_settleSetup

theorem nextOid_dropSessions {err : String} {announce : Bool} (entries : List (NodeAddr × Nat)) :
    (entries.foldl (dropSession err announce) m).nextOid = m.nextOid := by
  induction entries generalizing m with
  | nil => rfl
  | cons entry entries ih =>
    refine ih.trans ?_
    unfold dropSession
    split
    · rfl
    · split
      · exact nextOid_rejectSessionSetup
      · rfl

theorem nextOid_awaited {node : NodeAddr} : (m.awaited node sid s).nextOid = m.nextOid := by
  unfold awaited waitForSessionSetup
  split <;> rfl

/-- Every object after a transition is an object before it, changed as `Next` allows, except perhaps one
that holds the one `FspSession` created. -/
theorem Transition.objects (ht : Transition S cfg m e m') :
    m'.nextOid = m.nextOid ∧ Changed (Next S cfg m e True) m m' ∨
      m'.nextOid = m.nextOid + 1 ∧ ∃ k, ∀ (i : Nat) s', m'.objs[i]? = some s' →
        m.objs[i]? = some s' ∨ i = k ∧ Created S cfg m m.objs[i]? s' := by
  -- a new object at the end of the heap
  have hpush {t : Session} (hobjs : m'.objs = m.objs ++ [t]) (hc : Created S cfg m none t) (i : Nat) (s' : Session)
      (h : m'.objs[i]? = some s') : m.objs[i]? = some s' ∨ i = m.objs.length ∧ Created S cfg m m.objs[i]? s' := by
    rw [hobjs, List.getElem?_append] at h
    split at h
    · exact .inl h
    · rename_i hlt
      have hi : i - m.objs.length = 0 := by
        by_contra hne
        simp [hne] at h
      rw [hi] at h
      cases h
      have hlen : i = m.objs.length := by omega
      exact .inr ⟨hlen, by rw [hlen, List.getElem?_eq_none (le_refl _)]; exact hc⟩
  have hset {sid : Nat} {s t : Session} (ho : m.objs[sid]? = some s) (h : Next S cfg m e True s t)
      (hobjs : m'.objs = m.objs.set sid t) : Changed (Next S cfg m e True) m m' :=
    Changed.of_set (fun _ => .refl) ho h hobjs
  -- an old object that gets a new `FspSession`
  have hrenew {sid : Nat} {s t : Session} (ho : m.objs[sid]? = some s) (hc : Created S cfg m (some s) t)
      (hobjs : m'.objs = m.objs.set sid t) (i : Nat) (s' : Session) (h : m'.objs[i]? = some s') :
      m.objs[i]? = some s' ∨ i = sid ∧ Created S cfg m m.objs[i]? s' := by
    rw [hobjs] at h
    by_cases hi : sid = i
    · subst hi
      obtain ⟨hlt, -⟩ := List.getElem?_eq_some_iff.1 ho
      rw [List.getElem?_set_self hlt] at h
      cases h
      exact .inr ⟨rfl, ho ▸ hc⟩
    · rw [List.getElem?_set_ne hi] at h
      exact .inl h
  cases ht with
  | idle h => exact .inl ⟨rfl, .of_eq (fun _ => .refl) rfl⟩
  | receipt hl ha h => exact .inl ⟨rfl, hset (objs_of_lookup hl) (.receipt ha h) rfl⟩
  | drained hd ho h => exact .inl ⟨rfl, hset ho (.receipt (arrival_drain hd ho) h) rfl⟩
  | drainLost hd ho => exact .inl ⟨rfl, .of_eq (fun _ => .refl) rfl⟩
  | sealed he ho h => exact .inl ⟨rfl, hset ho (.sealed h) rfl⟩
  | rekey hp hl hu hst hr => exact .inr ⟨rfl, _, hrenew (objs_of_lookup hl) (.rekey hst hr) rfl⟩
  | yields hp hl hu hst hrole hc hr => exact .inr ⟨rfl, _, hrenew (objs_of_lookup hl) (.yields hst hr) rfl⟩
  | yieldsNothing hp hl hu hst hrole hc hr => exact .inl ⟨rfl, hset (objs_of_lookup hl) (.fspClosed hst) rfl⟩
  | contact hp hl hr => exact .inr ⟨rfl, _, hpush rfl (.contact hr)⟩
  | ackFailed hp hl hrun hs h => exact .inl ⟨rfl, hset (objs_of_lookup hl) (.ackFailed hs h) rfl⟩
  | ackRepeated hp hl hst hlog =>
    exact .inl ⟨nextOid_settleSetup,
      hset (objs_of_lookup hl) (.promise none) (objs_settleSetup (objs_of_lookup hl))⟩
  | ackCompletes hp hl hst hrun hs h hlog =>
    have ho := objs_of_lookup hl
    exact .inl ⟨nextOid_settleSetup, hset ho (.ackCompletes none rfl hl hrun hs h) (objs_resolveSessionSetup_setObj ho)⟩
  | msg3Failed hp hl hrun hs h => exact .inl ⟨rfl, hset (objs_of_lookup hl) (.msg3Failed hs h) rfl⟩
  | msg3RefusedPending hp hl hpend hrun ha => exact .inl ⟨rfl, hset (objs_of_lookup hl) .pendingDropped rfl⟩
  | msg3Refused hp hl hpend hrun ha => exact .inl ⟨rfl, hset (objs_of_lookup hl) (.fspRefused trivial hrun) rfl⟩
  | msg3Completes hp hl hrun ha hlog =>
    refine .inl ⟨nextOid_settleSetup, hset (objs_of_lookup hl) (.msg3Completes none rfl hp hl hrun ha) ?_⟩
    rw [objs_logged, objs_completed (objs_of_lookup hl)]
  | awaits he hn hl hst =>
    obtain ⟨p, hp⟩ := objs_awaited (objs_of_lookup hl)
    exact .inl ⟨nextOid_awaited, hset (objs_of_lookup hl) (.promise p) hp⟩
  | initiates he hn hl hf hst hrem hset' hlog => exact .inr ⟨rfl, _, hpush rfl (.initiated _ hn hf hst hrem)⟩
  | rejects ho he => exact .inl ⟨nextOid_rejectSessionSetup, (changed_rejectSessionSetup ho).next⟩
  | closes => exact .inl ⟨nextOid_dropSessions _, (changed_dropSessions _).next⟩
  | stops => exact .inl ⟨nextOid_dropSessions _, (changed_dropSessions (m := m) m.sessions).next⟩

end

end Manager

end Fips
