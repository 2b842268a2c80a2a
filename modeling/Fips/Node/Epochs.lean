import Fips.Node.Objects

/-!
# The key epochs of a session

A session object keeps up to three `FspSession` objects: the current keys, the previous ones and a
pending responder. A transition moves them between these places, drops some and may add one new object;
`Moves` is what can happen to each. From this follow two facts about every reachable manager: an object
with a Noise state has no keys yet, and no `FspSession` object is in two places.
-/

namespace Fips
open Exec Session

namespace FspSession

/-- What a transition can do to an `FspSession` that stays in use; `takes` tells whether it may take the
counter of a record. -/
inductive Moves (takes : Prop) (f : FspSession) : FspSession → Prop
  | refl : Moves takes f f
  | sealed (n : Nat) : Moves takes f { f with txCounter := n }
  | taken (h : takes) (c : Nat) (hst : f.state = .established) : Moves takes f (f.taken c)
  | progress {f' : FspSession} (hs : f.hs.isSome) (h : SameKeys f f') : Moves takes f f'
  | completes {f' : FspSession} (hs : f.hs.isSome) (h : Completes f f') : Moves takes f f'
  | closed {f' : FspSession} (oid : f'.oid = f.oid) : Moves takes f f'.close

theorem Moves.oid {takes : Prop} {f f' : FspSession} (h : Moves takes f f') : f'.oid = f.oid := by
  cases h with
  | refl => rfl
  | sealed n => rfl
  | taken h c hst => rfl
  | progress hs h => exact h.oid
  | completes hs h => exact h.oid
  | closed oid => exact oid

/-- An object with a Noise state has no keys yet. -/
def Keyless (f : FspSession) : Prop := f.hs.isSome → f.state ≠ .established ∧ f.rx = none ∧ f.replay = .new

theorem Moves.keyless {takes : Prop} {f f' : FspSession} (h : Moves takes f f') (hk : f.Keyless) : f'.Keyless := by
  intro hs
  cases h with
  | refl => exact hk hs
  | sealed n => exact hk hs
  | taken h c hst => exact absurd hst (hk hs).1
  | progress hs' h => rw [h.state, h.rx, h.replay]; exact hk hs'
  | completes hs' h => simp [h.hs] at hs
  | closed oid => simp [close] at hs

theorem handleSessionMsg3_eq_ok {S : Suite} {f f' : FspSession} {frame : Bytes} {nowMs : ℚ}
    (h : (handleSessionMsg3 S frame nowMs).run f = .ok () f') :
    f' = f ∧ f.state = .established ∨ f.hs.isSome ∧ Completes f f' ∧ f'.remotePubkey.isSome := by
  cases hs : f.hs with
  | none => exact .inl ((wp_of_ok h).1 (wp_handleSessionMsg3_of_hs_none hs))
  | some hs' =>
    have hsome : f.hs.isSome := by simp [hs]
    exact ((wp_of_ok h).1 (wp_handleSessionMsg3 hsome)).imp_right fun h => ⟨rfl, h⟩

theorem handleSessionMsg3_moves {S : Suite} {takes : Prop} {f f' : FspSession} {frame : Bytes} {nowMs : ℚ}
    (h : (handleSessionMsg3 S frame nowMs).run f = .ok () f') : f.Moves takes f' := by
  rcases handleSessionMsg3_eq_ok h with ⟨rfl, -⟩ | ⟨hs, hc, -⟩
  · exact .refl
  · exact .completes hs hc

end FspSession

namespace Session

/-- The `FspSession` objects of a session. -/
def fsps (s : Session) : List FspSession :=
  s.fsp :: (s.pendingResponderFsp.toList ++ (s.previousFsp.map PreviousFsp.fsp).toList)

theorem mem_fsps {s : Session} {f : FspSession} :
    f ∈ s.fsps ↔ f = s.fsp ∨ s.pendingResponderFsp = some f ∨ ∃ p, s.previousFsp = some p ∧ p.fsp = f := by
  simp [fsps, Option.mem_toList]

/-- The objects of `s'` are objects of `s` that have moved, each at most once, perhaps with the new object
`fresh`. -/
structure Kept (takes : Prop) (fresh : FspSession → Prop) (s s' : Session) : Prop where
  moves : ∀ f' ∈ s'.fsps, (∃ f ∈ s.fsps, f.Moves takes f') ∨ fresh f'
  oids : (s'.fsps.map (·.oid)).Subperm (s.fsps.map (·.oid)) ∨
    ∃ f, fresh f ∧ (s'.fsps.map (·.oid)).Subperm (f.oid :: s.fsps.map (·.oid))

section
variable {takes : Prop} {fresh : FspSession → Prop} {s s₁ s₂ : Session} {f f' : FspSession}

theorem Kept.refl : Kept takes fresh s s := ⟨fun f hf => .inl ⟨f, hf, .refl⟩, .inl (List.Subperm.refl _)⟩

/-- Objects may then change places or be dropped. -/
theorem Kept.rearrange (h : Kept takes fresh s s₁) (hsub : s₂.fsps.Subperm s₁.fsps) : Kept takes fresh s s₂ where
  moves f hf := h.moves f (hsub.subset hf)
  oids := by
    obtain ⟨l, hperm, hl⟩ := hsub
    have hm : (s₂.fsps.map (·.oid)).Subperm (s₁.fsps.map (·.oid)) := ⟨l.map _, hperm.map _, hl.map _⟩
    exact h.oids.imp hm.trans fun ⟨f, hf, hs⟩ => ⟨f, hf, hm.trans hs⟩

theorem Kept.of_subperm (hsub : s₂.fsps.Subperm s.fsps) : Kept takes fresh s s₂ := Kept.refl.rearrange hsub

theorem subperm_prunePreviousFsp {dateMs : ℚ} : (s.prunePreviousFsp dateMs).fsps.Subperm s.fsps := by
  unfold prunePreviousFsp
  cases hp : s.previousFsp with
  | none => exact .refl _
  | some p =>
    dsimp only
    split
    · exact .refl _
    · refine List.Sublist.subperm ?_
      simp [fsps]

theorem Kept.current (h : s.fsp.Moves takes f') : Kept takes fresh s { s with fsp := f' } where
  moves g hg := by
    rcases mem_fsps.1 hg with rfl | hg | hg
    · exact .inl ⟨s.fsp, by simp [fsps], h⟩
    · exact .inl ⟨g, mem_fsps.2 (.inr (.inl hg)), .refl⟩
    · exact .inl ⟨g, mem_fsps.2 (.inr (.inr hg)), .refl⟩
  oids := .inl (by simp [fsps, h.oid, List.Subperm.refl])

theorem Kept.pending (hp : s.pendingResponderFsp = some f) (h : f.Moves takes f') :
    Kept takes fresh s { s with pendingResponderFsp := some f' } where
  moves g hg := by
    rcases mem_fsps.1 hg with rfl | hg | hg
    · exact .inl ⟨s.fsp, by simp [fsps], .refl⟩
    · cases hg
      exact .inl ⟨f, mem_fsps.2 (.inr (.inl hp)), h⟩
    · exact .inl ⟨g, mem_fsps.2 (.inr (.inr hg)), .refl⟩
  oids := .inl (by simp [fsps, hp, h.oid, List.Subperm.refl])

theorem Kept.previous {p : PreviousFsp} (hp : s.previousFsp = some p) (h : p.fsp.Moves takes f') :
    Kept takes fresh s { s with previousFsp := some { p with fsp := f' } } where
  moves g hg := by
    rcases mem_fsps.1 hg with rfl | hg | ⟨q, hq, rfl⟩
    · exact .inl ⟨s.fsp, by simp [fsps], .refl⟩
    · exact .inl ⟨g, mem_fsps.2 (.inr (.inl hg)), .refl⟩
    · cases hq
      exact .inl ⟨p.fsp, mem_fsps.2 (.inr (.inr ⟨p, hp, rfl⟩)), h⟩
  oids := .inl (by simp [fsps, hp, h.oid, List.Subperm.refl])

theorem Kept.putHandshakeFsp (h : s.handshakeFsp.Moves takes f') : Kept takes fresh s (s.putHandshakeFsp f') := by
  cases hp : s.pendingResponderFsp with
  | none =>
    rw [putHandshakeFsp_of_none hp]
    exact .current (handshakeFsp_of_none hp ▸ h)
  | some p =>
    rw [putHandshakeFsp_of_some hp]
    exact .pending hp (handshakeFsp_of_some hp ▸ h)

theorem Kept.newPending (hf : fresh f) : Kept takes fresh s { s with pendingResponderFsp := some f } where
  moves g hg := by
    rcases mem_fsps.1 hg with rfl | hg | hg
    · exact .inl ⟨s.fsp, by simp [fsps], .refl⟩
    · cases hg
      exact .inr hf
    · exact .inl ⟨g, mem_fsps.2 (.inr (.inr hg)), .refl⟩
  oids := by
    refine .inr ⟨f, hf, ?_⟩
    simp only [fsps, List.map_cons, Option.toList_some, List.map_append, List.cons_append, List.nil_append]
    refine (List.Perm.swap _ _ _).subperm.trans ?_
    exact List.Sublist.subperm (((List.sublist_append_right _ _).cons_cons _).cons_cons _)

theorem Kept.newCurrent (hf : fresh f) : Kept takes fresh s { s with fsp := f } where
  moves g hg := by
    rcases mem_fsps.1 hg with rfl | hg | hg
    · exact .inr hf
    · exact .inl ⟨g, mem_fsps.2 (.inr (.inl hg)), .refl⟩
    · exact .inl ⟨g, mem_fsps.2 (.inr (.inr hg)), .refl⟩
  oids := by
    refine .inr ⟨f, hf, List.Sublist.subperm ?_⟩
    simp [fsps]

theorem subperm_promotePendingSession {k : Bool} {dateMs : ℚ} (hp : s.pendingResponderFsp = some f) :
    (s.promotePendingSession f k dateMs).fsps.Subperm s.fsps := by
  unfold promotePendingSession
  simp only [fsps, hp, Option.toList_none, Option.map_some, Option.toList_some, List.nil_append, List.cons_append]
  refine (List.Perm.swap _ _ _).subperm.trans (List.Sublist.subperm ?_)
  simp

theorem subperm_replaceRestartedSession (hp : s.pendingResponderFsp = some f) :
    (s.replaceRestartedSession f).fsps.Subperm s.fsps := by
  unfold replaceRestartedSession
  simp [fsps, hp]

theorem Kept.close : Kept takes fresh s s.close where
  moves g hg := by
    rcases mem_fsps.1 hg with rfl | hg | ⟨q, hq, rfl⟩
    · exact .inl ⟨s.fsp, by simp [fsps], .closed rfl⟩
    · obtain ⟨p, hp, rfl⟩ := Option.map_eq_some_iff.1 hg
      exact .inl ⟨p, mem_fsps.2 (.inr (.inl hp)), .closed rfl⟩
    · obtain ⟨p, hp, rfl⟩ := Option.map_eq_some_iff.1 hq
      exact .inl ⟨p.fsp, mem_fsps.2 (.inr (.inr ⟨p, hp, rfl⟩)), .closed rfl⟩
  oids := .inl (by
    cases hp : s.pendingResponderFsp <;> cases hq : s.previousFsp <;>
      simp [fsps, Session.close, hp, hq, FspSession.close, List.Subperm.refl])

theorem Kept.after (hsub : s₁.fsps.Subperm s.fsps) (h : Kept takes fresh s₁ s₂) : Kept takes fresh s s₂ where
  moves f hf := (h.moves f hf).imp_left fun ⟨g, hg, hm⟩ => ⟨g, hsub.subset hg, hm⟩
  oids := by
    obtain ⟨l, hperm, hl⟩ := hsub
    have hm : (s₁.fsps.map (·.oid)).Subperm (s.fsps.map (·.oid)) := ⟨l.map _, hperm.map _, hl.map _⟩
    exact h.oids.imp (·.trans hm) fun ⟨f, hf, hs⟩ => ⟨f, hf, hs.trans ((List.subperm_cons _).2 hm)⟩

variable {S : Suite} {cfg : ManagerConfig} {env : Env} {peer : PeerId} {src : NodeAddr} {frame : Bytes}
  {slot : ReceiveSlot} {est : FspEstablished} {pt : Bytes}

theorem Authenticated.established (h : Authenticated S env frame s slot f est pt) : f.state = .established := by
  obtain ⟨_, _, _, hst, -⟩ := FspSession.authenticate_eq_ok h.auth
  exact hst

theorem Authenticated.kept_take (ht : takes) (h : Authenticated S env frame s slot f est pt) :
    Kept takes fresh s (slot.take env s f est) := by
  refine Kept.after (@subperm_prunePreviousFsp _ env.dateMs) ?_
  have hmove : f.Moves takes (f.taken est.counter) := .taken ht _ h.established
  unfold ReceiveSlot.take
  cases slot with
  | current =>
    cases h.fsp
    exact .current hmove
  | pending p =>
    cases h.fsp
    exact .pending (receiveSlot_pending h.tried).1 hmove
  | previous p =>
    cases h.fsp
    exact .previous (receiveSlot_previous h.tried).1 hmove
  | queue => exact .refl
  | mismatch => exact .refl

theorem Authenticated.kept_received (ht : takes) (h : Authenticated S env frame s slot f est pt) :
    Kept takes fresh s (slot.received env s f est) := by
  refine (h.kept_take ht).rearrange ?_
  unfold ReceiveSlot.received
  cases slot with
  | pending p => exact subperm_promotePendingSession rfl
  | current => exact .refl _
  | previous p => exact .refl _
  | queue => exact .refl _
  | mismatch => exact .refl _

theorem Receipt.kept {l : List Effect} (ht : (s.authenticates S env frame).isSome → takes)
    (h : Receipt S cfg env peer src frame s s₁ l) : Kept takes fresh s s₁ := by
  cases h with
  | dropped ha => exact .refl
  | pruned ha h => exact .of_subperm subperm_prunePreviousFsp
  | queued ha h =>
    rcases h with rfl | ⟨-, rfl⟩
    · exact .of_subperm (.refl _)
    · exact .of_subperm subperm_prunePreviousFsp
  | taken h hi => exact h.kept_take (ht (by simp [h.authenticates]))
  | opened h hi reports => exact (h.kept_received (ht (by simp [h.authenticates]))).rearrange (.refl _)

theorem subperm_completeResponder : (Manager.completeResponder env s).fsps.Subperm s.fsps := by
  unfold Manager.completeResponder
  cases hp : s.pendingResponderFsp with
  | none => exact .refl _
  | some p =>
    dsimp only
    split
    · exact subperm_replaceRestartedSession (s := s.withRemote p.remotePubkey) hp
    · exact subperm_promotePendingSession (s := s.withRemote p.remotePubkey) hp

end

end Session

/-! ### The objects of a session when a record opens -/

namespace Session
variable {S : Suite} {env : Env} {frame : Bytes} {s : Session} {slot : ReceiveSlot} {f g : FspSession}
  {est : FspEstablished} {pt : Bytes}

theorem Authenticated.mem_prunePreviousFsp (h : Authenticated S env frame s slot f est pt) :
    f ∈ (s.prunePreviousFsp env.dateMs).fsps := by
  have hfsp := h.fsp
  cases slot with
  | current => exact mem_fsps.2 (.inl (Option.some.inj hfsp).symm)
  | pending p => exact mem_fsps.2 (.inr (.inl ((receiveSlot_pending h.tried).1.trans hfsp)))
  | previous p => exact mem_fsps.2 (.inr (.inr ⟨p, (receiveSlot_previous h.tried).1, Option.some.inj hfsp⟩))
  | queue => cases hfsp
  | mismatch => cases hfsp

theorem Authenticated.mem (h : Authenticated S env frame s slot f est pt) : f ∈ s.fsps :=
  subperm_prunePreviousFsp.subset h.mem_prunePreviousFsp

/-- Only the object that opened the record differs afterwards. -/
theorem Authenticated.mem_take (h : Authenticated S env frame s slot f est pt)
    (hg : g ∈ (slot.take env s f est).fsps) : g = f.taken est.counter ∨ g ∈ s.fsps := by
  have hold (hg : g ∈ (s.prunePreviousFsp env.dateMs).fsps) : g = f.taken est.counter ∨ g ∈ s.fsps :=
    .inr (subperm_prunePreviousFsp.subset hg)
  unfold ReceiveSlot.take at hg
  cases slot with
  | current =>
    rcases mem_fsps.1 hg with rfl | hg | hg
    · exact .inl rfl
    · exact hold (mem_fsps.2 (.inr (.inl hg)))
    · exact hold (mem_fsps.2 (.inr (.inr hg)))
  | pending p =>
    rcases mem_fsps.1 hg with rfl | hg | hg
    · exact hold (mem_fsps.2 (.inl rfl))
    · exact .inl (Option.some.inj hg).symm
    · exact hold (mem_fsps.2 (.inr (.inr hg)))
  | previous p =>
    rcases mem_fsps.1 hg with rfl | hg | ⟨q, hq, rfl⟩
    · exact hold (mem_fsps.2 (.inl rfl))
    · exact hold (mem_fsps.2 (.inr (.inl hg)))
    · cases hq
      exact .inl rfl
  | queue => exact hold hg
  | mismatch => exact hold hg

theorem Authenticated.taken_mem_take (h : Authenticated S env frame s slot f est pt) :
    f.taken est.counter ∈ (slot.take env s f est).fsps := by
  have hfsp := h.fsp
  unfold ReceiveSlot.take
  cases slot with
  | current => exact mem_fsps.2 (.inl rfl)
  | pending p => exact mem_fsps.2 (.inr (.inl rfl))
  | previous p => exact mem_fsps.2 (.inr (.inr ⟨_, rfl, rfl⟩))
  | queue => cases hfsp
  | mismatch => cases hfsp

theorem Authenticated.subperm_received (h : Authenticated S env frame s slot f est pt) :
    (slot.received env s f est).fsps.Subperm (slot.take env s f est).fsps := by
  unfold ReceiveSlot.received
  cases slot with
  | pending p => exact subperm_promotePendingSession rfl
  | current => exact .refl _
  | previous p => exact .refl _
  | queue => exact .refl _
  | mismatch => exact .refl _

theorem Authenticated.taken_mem_received (h : Authenticated S env frame s slot f est pt) :
    f.taken est.counter ∈ (slot.received env s f est).fsps := by
  have hmem := h.taken_mem_take
  unfold ReceiveSlot.received
  cases slot with
  | pending p => exact mem_fsps.2 (.inl rfl)
  | current => exact hmem
  | previous p => exact hmem
  | queue => exact hmem
  | mismatch => exact hmem

end Session

namespace Manager

theorem respond_eq_ok {S : Suite} {cfg : ManagerConfig} {env : Env} {src : NodeAddr} {frame reply : Bytes} {oid : Nat}
    {fsp : FspSession} (h : respond S cfg env src frame oid = .ok (reply, fsp)) :
    FspSession.Unkeyed fsp oid .responder ∧ fsp.state = .handshaking ∧ fsp.remotePubkey = none ∧
      fsp.receivedSessionSetup = some frame := by
  obtain ⟨f, hf, hcall⟩ := except_bind_eq_ok.1 h
  obtain ⟨hun, -, hrem, hset, -⟩ := FspSession.new_eq_ok hf
  obtain ⟨h₁, h₂, h₃, h₄⟩ := (wp_of_ok (call_eq_ok.1 hcall)).1 (FspSession.wp_handleSessionSetup_fresh hun hset)
  exact ⟨h₁, h₂, h₃.trans hrem, h₄⟩

section
variable {S : Suite} {cfg : ManagerConfig} {m m' : Manager} {e : ManagerEvent} {s s' : Session} {o : Option Session}

/-- The objects of a session are moved or dropped; one of them takes a counter if a record opens. -/
theorem Next.kept {gone : Prop} (h : Next S cfg m e gone s s') :
    Kept (m.opening S cfg e).isSome (fun _ => False) s s' := by
  cases h with
  | refl => exact .refl
  | promise p => exact .of_subperm (.refl _)
  | closed h p => exact Kept.close.rearrange (.refl _)
  | receipt ha h =>
    refine h.kept fun hsome => ?_
    obtain ⟨r, hr⟩ := Option.isSome_iff_exists.1 hsome
    simp [opening, ha, hr]
  | sealed h =>
    obtain ⟨n, w, r, rfl⟩ := h
    exact (Kept.current (.sealed n)).rearrange (.refl _)
  | fspClosed hst => exact .current (.closed rfl)
  | ackFailed hs h => exact .current (.progress hs h)
  | ackCompletes p he hl hrun hs h => exact (Kept.current (.completes hs h)).rearrange (.refl _)
  | msg3Failed hs h => exact .putHandshakeFsp (.progress hs h)
  | pendingDropped =>
    refine .of_subperm (List.Sublist.subperm ?_)
    simp [fsps]
  | fspRefused h hrun => exact .current (.closed ((@FspSession.handleSessionMsg3_moves _ False) hrun).oid)
  | msg3Completes p he hp hl hrun ha =>
    exact (Kept.putHandshakeFsp (FspSession.handleSessionMsg3_moves hrun)).rearrange subperm_completeResponder

/-- The `FspSession` an event creates. -/
def NewFsp (m : Manager) (f : FspSession) : Prop := (∃ role, FspSession.Unkeyed f m.nextOid role) ∧ f.state ≠ .established

theorem newFsp_respond {env : Env} {src : NodeAddr} {frame reply : Bytes} {fsp : FspSession}
    (h : respond S cfg env src frame m.nextOid = .ok (reply, fsp)) : m.NewFsp fsp :=
  ⟨⟨_, (respond_eq_ok h).1⟩, by simp [(respond_eq_ok h).2.1]⟩

/-- Its session has it beside the objects it had before, if it had any. -/
theorem Created.kept (h : Created S cfg m o s') :
    (∃ s, o = some s ∧ Kept False m.NewFsp s s') ∨ o = none ∧ s'.fsps = [s'.fsp] ∧ m.NewFsp s'.fsp := by
  cases h with
  | rekey hst hr => exact .inl ⟨_, rfl, .newPending (newFsp_respond hr)⟩
  | yields hst hr => exact .inl ⟨_, rfl, .newCurrent (newFsp_respond hr)⟩
  | contact hr => exact .inr ⟨rfl, rfl, newFsp_respond hr⟩
  | initiated p hn hf hst hrem => exact .inr ⟨rfl, rfl, ⟨_, hf⟩, by rcases hst with h | h <;> simp [Session.new, h]⟩

/-! ### Invariants of every run -/

/-- No object has both a Noise state and keys. -/
def Keyless (m : Manager) : Prop := ∀ s ∈ m.objs, ∀ f ∈ s.fsps, f.Keyless

theorem Keyless.settled (h : m.Keyless) : m.Settled := fun s hs hst => by
  by_contra hne
  exact (h s hs s.fsp (by simp [fsps]) (Option.isSome_iff_ne_none.2 hne)).1 hst

theorem NewFsp.keyless {f : FspSession} (h : m.NewFsp f) : f.Keyless := fun _ =>
  let ⟨⟨_, hun⟩, hst⟩ := h
  ⟨hst, hun.rx, hun.replay⟩

theorem Keyless.step (h : m.Keyless) (ht : Transition S cfg m e m') : m'.Keyless := by
  intro s' hs' f' hf'
  obtain ⟨i, hi⟩ := List.getElem?_of_mem hs'
  rcases ht.objects with ⟨-, hch⟩ | ⟨-, k, hch⟩
  · obtain ⟨s, hs, hn⟩ := hch i s' hi
    obtain ⟨f, hf, hm⟩ := (hn.kept.moves f' hf').resolve_right id
    exact hm.keyless (h s (List.mem_of_getElem? hs) f hf)
  · rcases hch i s' hi with hs | ⟨-, hc⟩
    · exact h s' (List.mem_of_getElem? hs) f' hf'
    · rcases hc.kept with ⟨s, hs, hk⟩ | ⟨-, hone, hnew⟩
      · rcases hk.moves f' hf' with ⟨f, hf, hm⟩ | hnew
        · exact hm.keyless (h s (List.mem_of_getElem? hs) f hf)
        · exact hnew.keyless
      · rw [hone, List.mem_singleton] at hf'
        exact hf' ▸ hnew.keyless

/-- Every `FspSession` object is in one place of one session. -/
structure Unshared (m : Manager) : Prop where
  lt : ∀ s ∈ m.objs, ∀ f ∈ s.fsps, f.oid < m.nextOid
  nodup : ∀ s ∈ m.objs, (s.fsps.map (·.oid)).Nodup
  apart : ∀ (i j : Nat) s t, m.objs[i]? = some s → m.objs[j]? = some t → ∀ f ∈ s.fsps, ∀ g ∈ t.fsps, f.oid = g.oid → i = j

theorem nodup_of_subperm {l₁ l₂ : List Nat} (h : l₁.Subperm l₂) (hn : l₂.Nodup) : l₁.Nodup := by
  obtain ⟨l, hperm, hl⟩ := h
  exact hperm.nodup_iff.1 (hn.sublist hl)

theorem Unshared.nodup_kept (h : m.Unshared) (hs : s ∈ m.objs) {takes : Prop} (hk : Kept takes m.NewFsp s s') :
    (s'.fsps.map (·.oid)).Nodup := by
  rcases hk.oids with hsub | ⟨f, ⟨⟨_, hun⟩, -⟩, hsub⟩
  · exact nodup_of_subperm hsub (h.nodup s hs)
  · refine nodup_of_subperm hsub (List.nodup_cons.2 ⟨fun hmem => ?_, h.nodup s hs⟩)
    obtain ⟨g, hg, hgo⟩ := List.mem_map.1 hmem
    have := h.lt s hs g hg
    have := hun.oid
    omega

/-- Where the objects of a session come from. -/
theorem Transition.origin (ht : Transition S cfg m e m') (h : m.Unshared) : ∃ k, ∀ (i : Nat) s', m'.objs[i]? = some s' →
    (s'.fsps.map (·.oid)).Nodup ∧ ∀ f' ∈ s'.fsps, (∃ s, m.objs[i]? = some s ∧ ∃ f ∈ s.fsps, f'.oid = f.oid) ∨
      i = k ∧ f'.oid = m.nextOid ∧ m'.nextOid = m.nextOid + 1 := by
  have hold {takes : Prop} {i : Nat} {s : Session} {f' : FspSession} (hs : m.objs[i]? = some s)
      (hf : ∃ f ∈ s.fsps, f.Moves takes f') : ∃ s, m.objs[i]? = some s ∧ ∃ f ∈ s.fsps, f'.oid = f.oid :=
    let ⟨f, hf, hm⟩ := hf
    ⟨s, hs, f, hf, hm.oid⟩
  rcases ht.objects with ⟨-, hch⟩ | ⟨hn, k, hch⟩
  · refine ⟨0, fun i s' hi => ?_⟩
    obtain ⟨s, hs, hnext⟩ := hch i s' hi
    have hkept : Kept (m.opening S cfg e).isSome m.NewFsp s s' :=
      ⟨fun f hf => .inl ((hnext.kept.moves f hf).resolve_right id),
        .inl (hnext.kept.oids.resolve_right fun ⟨_, hf, _⟩ => hf)⟩
    exact ⟨h.nodup_kept (List.mem_of_getElem? hs) hkept,
      fun f' hf' => .inl (hold hs ((hnext.kept.moves f' hf').resolve_right id))⟩
  · refine ⟨k, fun i s' hi => ?_⟩
    rcases hch i s' hi with hs | ⟨hik, hc⟩
    · exact ⟨h.nodup s' (List.mem_of_getElem? hs), fun f' hf' => .inl ⟨s', hs, f', hf', rfl⟩⟩
    · rcases hc.kept with ⟨s, hs, hk⟩ | ⟨-, hone, ⟨⟨_, hun⟩, -⟩⟩
      · refine ⟨h.nodup_kept (List.mem_of_getElem? hs) hk, fun f' hf' => ?_⟩
        rcases hk.moves f' hf' with hf | ⟨⟨_, hun⟩, -⟩
        · exact .inl (hold hs hf)
        · exact .inr ⟨hik, hun.oid, hn⟩
      · refine ⟨by simp [hone], fun f' hf' => ?_⟩
        rw [hone, List.mem_singleton] at hf'
        exact .inr ⟨hik, hf' ▸ hun.oid, hn⟩

theorem Unshared.step (h : m.Unshared) (ht : Transition S cfg m e m') : m'.Unshared := by
  have hle : m.nextOid ≤ m'.nextOid := by
    rcases ht.objects with ⟨hn, -⟩ | ⟨hn, -⟩ <;> omega
  obtain ⟨k, horigin⟩ := ht.origin h
  constructor
  · intro s' hs' f' hf'
    obtain ⟨i, hi⟩ := List.getElem?_of_mem hs'
    rcases (horigin i s' hi).2 f' hf' with ⟨s, hs, f, hf, ho⟩ | ⟨-, ho, hn⟩
    · have := h.lt s (List.mem_of_getElem? hs) f hf
      omega
    · omega
  · intro s' hs'
    obtain ⟨i, hi⟩ := List.getElem?_of_mem hs'
    exact (horigin i s' hi).1
  · intro i j s' t' hi hj f' hf' g' hg' hoid
    rcases (horigin i s' hi).2 f' hf' with ⟨s, hs, f, hf, hfo⟩ | ⟨hik, hfo, hn⟩ <;>
      rcases (horigin j t' hj).2 g' hg' with ⟨t, ht', g, hg, hgo⟩ | ⟨hjk, hgo, hn'⟩
    · exact h.apart i j s t hs ht' f hf g hg (by omega)
    · have := h.lt s (List.mem_of_getElem? hs) f hf
      omega
    · have := h.lt t (List.mem_of_getElem? ht') g hg
      omega
    · omega

end

end Manager

end Fips
