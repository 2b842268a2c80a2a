import Fips.Node.IdentityBinding

/-!
# The remote keys of a session

Every established key epoch of a session object, stored or not, was authenticated for a key whose node
address is the session's, and so is the key the session is known by. A queue drain may go on with a
session that has been replaced; its records have the same sender.
-/

namespace Fips
open Exec

namespace FspSession

/-- The remote key of an initiator, or of completed keys, is one of the node. -/
def BelongsTo (S : Suite) (n : NodeAddr) (f : FspSession) : Prop :=
  f.hs.isSome ∧ f.role = .initiator ∨ f.state = .established →
    ∃ P, f.remotePubkey = some P ∧ deriveNodeAddr S P = .ok n

variable {S : Suite} {n : NodeAddr} {f f' : FspSession}

theorem belongsTo_close : f.close.BelongsTo S n := by
  intro h
  rcases h with ⟨hs, -⟩ | hst
  · exact absurd hs Bool.false_ne_true
  · exact absurd hst nofun

theorem SameKeys.belongsTo (h : SameKeys f f') (hk : f.Keyless) (hs : f.hs.isSome) (hf : f.BelongsTo S n) :
    f'.BelongsTo S n := by
  intro h'
  rcases h' with ⟨-, hrole⟩ | hst
  · have hrole := h.role.symm.trans hrole
    rw [h.initiator hrole]
    exact hf (.inl ⟨hs, hrole⟩)
  · exact absurd (h.state.symm.trans hst) (hk hs).1

theorem Unkeyed.belongsTo {oid : Nat} (h : Unkeyed f oid .responder) (hst : f.state ≠ .established) :
    f.BelongsTo S n := by
  intro h'
  rcases h' with ⟨-, hrole⟩ | hst'
  · exact absurd (h.role.symm.trans hrole) nofun
  · exact absurd hst' hst

end FspSession

namespace Session
variable {S : Suite} {cfg : ManagerConfig} {env : Env} {peer : PeerId} {src : NodeAddr} {frame : Bytes}
  {s s' : Session} {f g : FspSession}

/-- All keys of the session belong to its node. -/
structure Authentic (S : Suite) (s : Session) : Prop where
  epochs : ∀ f ∈ s.fsps, f.BelongsTo S s.remoteNodeAddr
  known : ∀ P, s.remotePubkey = some P → deriveNodeAddr S P = .ok s.remoteNodeAddr

theorem Authentic.of_subset (h : s.Authentic S) (hn : s'.remoteNodeAddr = s.remoteNodeAddr)
    (hk : s'.remotePubkey = s.remotePubkey) (hf : ∀ f ∈ s'.fsps, f ∈ s.fsps ∨ f.BelongsTo S s.remoteNodeAddr) :
    s'.Authentic S where
  epochs f hmem := by
    rw [hn]
    rcases hf f hmem with hold | hnew
    · exact h.epochs f hold
    · exact hnew
  known P hP := by
    rw [hn]
    exact h.known P (hk.symm.trans hP)

theorem Authentic.setFsp (h : s.Authentic S) (hf : f.BelongsTo S s.remoteNodeAddr) : { s with fsp := f }.Authentic S := by
  refine h.of_subset rfl rfl fun g hg => ?_
  rcases mem_fsps.1 hg with rfl | hg | hg
  · exact .inr hf
  · exact .inl (mem_fsps.2 (.inr (.inl hg)))
  · exact .inl (mem_fsps.2 (.inr (.inr hg)))

theorem Authentic.setPending (h : s.Authentic S) (hf : f.BelongsTo S s.remoteNodeAddr) :
    { s with pendingResponderFsp := some f }.Authentic S := by
  refine h.of_subset rfl rfl fun g hg => ?_
  rcases mem_fsps.1 hg with rfl | hg | hg
  · exact .inl (mem_fsps.2 (.inl rfl))
  · cases hg
    exact .inr hf
  · exact .inl (mem_fsps.2 (.inr (.inr hg)))

theorem Authentic.putHandshakeFsp (h : s.Authentic S) (hf : f.BelongsTo S s.remoteNodeAddr) :
    (s.putHandshakeFsp f).Authentic S := by
  cases hp : s.pendingResponderFsp with
  | none =>
    rw [putHandshakeFsp_of_none hp]
    exact h.setFsp hf
  | some p =>
    rw [putHandshakeFsp_of_some hp]
    exact h.setPending hf

theorem handshakeFsp_mem : s.handshakeFsp ∈ s.fsps := by
  cases hp : s.pendingResponderFsp with
  | none => exact mem_fsps.2 (.inl (handshakeFsp_of_none hp))
  | some p =>
    rw [handshakeFsp_of_some hp]
    exact mem_fsps.2 (.inr (.inl hp))

theorem authentic_close (h : s.Authentic S) : s.close.Authentic S := by
  refine h.of_subset rfl rfl fun g hg => .inr ?_
  rcases mem_fsps.1 hg with rfl | hg | ⟨q, hq, rfl⟩
  · exact FspSession.belongsTo_close
  · obtain ⟨p, -, rfl⟩ := Option.map_eq_some_iff.1 hg
    exact FspSession.belongsTo_close
  · obtain ⟨p, -, rfl⟩ := Option.map_eq_some_iff.1 hq
    exact FspSession.belongsTo_close

theorem remotePubkey_prunePreviousFsp {dateMs : ℚ} : (s.prunePreviousFsp dateMs).remotePubkey = s.remotePubkey := by
  unfold prunePreviousFsp
  split
  · split <;> rfl
  · rfl

theorem Authentic.prunePreviousFsp (h : s.Authentic S) (dateMs : ℚ) : (s.prunePreviousFsp dateMs).Authentic S :=
  h.of_subset Manager.remoteNodeAddr_prunePreviousFsp remotePubkey_prunePreviousFsp
    fun _ hf => .inl (subperm_prunePreviousFsp.subset hf)

theorem Authenticated.authentic {slot : ReceiveSlot} {est : FspEstablished} {pt : Bytes} (h : s.Authentic S)
    (ha : Authenticated S env frame s slot f est pt) :
    (slot.take env s f est).Authentic S ∧ (slot.received env s f est).Authentic S := by
  have hst := ha.established
  have hf := h.epochs f ha.mem
  have htake : (slot.take env s f est).Authentic S := by
    refine h.of_subset Manager.remoteNodeAddr_take ?_ fun g hg => ?_
    · rw [← @remotePubkey_prunePreviousFsp s env.dateMs]
      cases slot <;> rfl
    · rcases ha.mem_take hg with rfl | hg
      · exact .inr hf
      · exact .inl hg
  refine ⟨htake, ?_⟩
  unfold ReceiveSlot.received
  cases slot with
  | pending p =>
    -- the promoted keys name the session from here on
    obtain ⟨P, hP, hnode⟩ := hf (.inr hst)
    refine ⟨fun g hg => htake.epochs g (ha.subperm_received.subset hg), fun Q hQ => ?_⟩
    have hname : (promotePendingSession (f.taken est.counter) (hasFlag est.flags FSP_FLAG_K) env.dateMs
        ((ReceiveSlot.pending p).take env s f est)).remotePubkey = some P := by
      show f.remotePubkey.orElse _ = some P
      rw [hP]
      rfl
    cases hname.symm.trans hQ
    refine hnode.trans (congrArg _ ?_)
    exact (@Manager.remoteNodeAddr_take s env (.pending p) f est).symm
  | current => exact htake
  | previous p => exact htake
  | queue => exact htake
  | mismatch => exact htake

theorem Receipt.authentic {l : List Effect} (h : s.Authentic S) (hr : Receipt S cfg env peer src frame s s' l) :
    s'.Authentic S := by
  cases hr with
  | dropped ha => exact h
  | pruned ha hst => exact h.prunePreviousFsp _
  | queued ha hq =>
    rcases hq with rfl | ⟨-, rfl⟩
    · exact ⟨h.epochs, h.known⟩
    · exact ⟨(h.prunePreviousFsp _).epochs, (h.prunePreviousFsp _).known⟩
  | taken ha hi => exact (ha.authentic h).1
  | opened ha hi reports => exact ⟨(ha.authentic h).2.epochs, (ha.authentic h).2.known⟩

/-- An admitted responder is one of the node. -/
theorem belongsTo_of_admitted {nowMs : ℚ} (hf : f.BelongsTo S src)
    (hrun : (FspSession.handleSessionMsg3 S frame nowMs).run f = .ok () g)
    (ha : Manager.admitResponder S cfg src s g = .ok ()) :
    g.BelongsTo S src ∧ ∀ P, g.remotePubkey = some P → deriveNodeAddr S P = .ok src := by
  have hall (P : Bytes) (hP : g.remotePubkey = some P) : deriveNodeAddr S P = .ok src := (admitResponder_eq_ok ha hP).2
  refine ⟨fun h => ?_, hall⟩
  rcases FspSession.handleSessionMsg3_eq_ok hrun with ⟨rfl, -⟩ | ⟨-, -, hsome⟩
  · exact hf h
  · obtain ⟨P, hP⟩ := Option.isSome_iff_exists.1 hsome
    exact ⟨P, hP, hall P hP⟩

theorem remotePubkey_completeResponder {P : Bytes} (h : (Manager.completeResponder env s).remotePubkey = some P) :
    s.handshakeFsp.remotePubkey = some P ∨ s.remotePubkey = some P := by
  unfold Manager.completeResponder at h
  cases hp : s.pendingResponderFsp with
  | none =>
    rw [handshakeFsp_of_none hp]
    simp only [hp, withRemote] at h
    cases hf : s.fsp.remotePubkey with
    | none => exact .inr (by simpa [hf] using h)
    | some Q => exact .inl (by simpa [hf] using h)
  | some p =>
    rw [handshakeFsp_of_some hp]
    simp only [hp, withRemote] at h
    cases hf : p.remotePubkey with
    | none =>
      refine .inr ?_
      split at h <;> simpa [replaceRestartedSession, promotePendingSession, hf] using h
    | some Q =>
      refine .inl ?_
      split at h <;> simpa [replaceRestartedSession, promotePendingSession, hf] using h

end Session

namespace Manager
open Session

section
variable {S : Suite} {cfg : ManagerConfig} {m m' : Manager} {e : ManagerEvent} {s s' : Session} {gone : Prop}

theorem Next.authentic (hm : Safe S m) (hs : s ∈ m.objs) (h : s.Authentic S) (hn : Next S cfg m e gone s s') :
    s'.Authentic S := by
  cases hn with
  | refl => exact h
  | promise p => exact ⟨h.epochs, h.known⟩
  | closed hg p => exact ⟨(authentic_close h).epochs, (authentic_close h).known⟩
  | receipt ha hr => exact hr.authentic h
  | sealed hseal =>
    obtain ⟨k, w, r, rfl⟩ := hseal
    have hf := h.setFsp (f := { s.fsp with txCounter := k }) (h.epochs s.fsp (mem_fsps.2 (.inl rfl)))
    exact ⟨hf.epochs, hf.known⟩
  | fspClosed hst => exact h.setFsp FspSession.belongsTo_close
  | ackFailed hhs hk =>
    have hmem : s.fsp ∈ s.fsps := mem_fsps.2 (.inl rfl)
    exact h.setFsp (hk.belongsTo (hm.wf.keyless s hs _ hmem) hhs (h.epochs _ hmem))
  | ackCompletes p he hl hrun hhs hc =>
    obtain ⟨hrole, hkey⟩ := (wp_of_ok hrun).1 FspSession.wp_handleSessionAck_remotePubkey
    have hf := h.setFsp (f := _) fun _ => hkey ▸ h.epochs s.fsp (mem_fsps.2 (.inl rfl)) (.inl ⟨hhs, hrole⟩)
    exact ⟨hf.epochs, hf.known⟩
  | msg3Failed hhs hk =>
    exact h.putHandshakeFsp (hk.belongsTo (hm.wf.keyless s hs _ handshakeFsp_mem) hhs (h.epochs _ handshakeFsp_mem))
  | pendingDropped =>
    refine h.of_subset rfl rfl fun g hg => .inl ?_
    rcases mem_fsps.1 hg with rfl | hg | hg
    · exact mem_fsps.2 (.inl rfl)
    · cases hg
    · exact mem_fsps.2 (.inr (.inr hg))
  | fspRefused hg hrun => exact h.setFsp FspSession.belongsTo_close
  | @msg3Completes env peer src frame sid f p he hp hl hrun ha =>
    have hnode := hm.wf.stored.remoteNodeAddr hl
    obtain ⟨hf, hall⟩ := belongsTo_of_admitted (hnode ▸ h.epochs _ handshakeFsp_mem) hrun ha
    have hput := h.putHandshakeFsp (f := f) (hnode.symm ▸ hf)
    have haddr : (completeResponder env (s.putHandshakeFsp f)).remoteNodeAddr = (s.putHandshakeFsp f).remoteNodeAddr :=
      remoteNodeAddr_completeResponder
    refine ⟨fun g hg => ?_, fun P hP => ?_⟩
    · have := hput.epochs g (subperm_completeResponder.subset hg)
      rwa [← haddr] at this
    · have hsame : (s.putHandshakeFsp f).remoteNodeAddr = src := remoteNodeAddr_putHandshakeFsp.trans hnode
      show _ = Except.ok (completeResponder env (s.putHandshakeFsp f)).remoteNodeAddr
      rw [haddr]
      rcases remotePubkey_completeResponder hP with hkey | hkey
      · rw [handshakeFsp_putHandshakeFsp] at hkey
        rw [hsame]
        exact hall P hkey
      · exact hput.known P hkey

theorem Created.authentic {o : Option Session} (h : ∀ s, o = some s → s.Authentic S) (hc : Created S cfg m o s') :
    s'.Authentic S := by
  cases hc with
  | rekey hst hr =>
    obtain ⟨hun, hst', -⟩ := respond_eq_ok hr
    exact (h _ rfl).setPending (hun.belongsTo (by simp [hst']))
  | yields hst hr =>
    obtain ⟨hun, hst', -⟩ := respond_eq_ok hr
    exact (h _ rfl).setFsp (hun.belongsTo (by simp [hst']))
  | contact hr =>
    obtain ⟨hun, hst', -⟩ := respond_eq_ok hr
    refine ⟨fun g hg => ?_, fun P hP => absurd hP nofun⟩
    rw [List.mem_singleton.1 hg]
    exact hun.belongsTo (by simp [hst'])
  | initiated p hn hf hst hrem =>
    refine ⟨fun g hg => ?_, fun P hP => ?_⟩
    · rw [List.mem_singleton.1 hg]
      exact fun _ => ⟨_, hrem, hn⟩
    · cases hP
      exact hn

/-- The sessions of a run know their remotes. -/
theorem authentic_step (hm : Safe S m) (h : ∀ s ∈ m.objs, s.Authentic S) (e : ManagerEvent) :
    ∀ s ∈ (Manager.step S cfg m e).objs, s.Authentic S := by
  intro s' hs'
  obtain ⟨i, hi⟩ := List.getElem?_of_mem hs'
  rcases (@WF.transition _ cfg _ hm.wf e).objects with ⟨-, hch⟩ | ⟨-, k, hch⟩
  · obtain ⟨s, hs, hn⟩ := hch i s' hi
    exact hn.authentic hm (List.mem_of_getElem? hs) (h s (List.mem_of_getElem? hs))
  · rcases hch i s' hi with hs | ⟨-, hc⟩
    · exact h s' (List.mem_of_getElem? hs)
    · exact hc.authentic fun s hs => h s (List.mem_of_getElem? hs)

theorem authentic_run {es : List PolicyEvent} : ∀ s ∈ (Run.run (stepUnder S cfg) init es).objs, s.Authentic S := by
  induction es using List.reverseRecOn with
  | nil => exact fun s hs => absurd hs List.not_mem_nil
  | append_singleton es pe ih =>
    rw [run_stepUnder_concat]
    exact authentic_step safe_runUnder ih pe.event

end

end Manager

end Fips
