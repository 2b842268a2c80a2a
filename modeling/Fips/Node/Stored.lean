import Fips.Node.Epochs

/-!
# The map of stored sessions

`sessions` has one entry per node, and the object of an entry is a session with that node. A stored
session is changed by a transition as `Next` allows without being closed, or it is a new one; closing a
session takes its entry away.
-/

namespace Fips
open Exec Session

namespace Manager

structure Stored (m : Manager) : Prop where
  nodup : m.sessions.Nodup
  addr : ∀ n sid, (n, sid) ∈ m.sessions → ∃ s, m.objs[sid]? = some s ∧ s.remoteNodeAddr = n

section
variable {S : Suite} {cfg : ManagerConfig} {m m' : Manager} {e : ManagerEvent} {n : NodeAddr} {sid : Nat}
  {s s' : Session} {gone : Prop}

theorem Stored.remoteNodeAddr (h : m.Stored) (hl : m.lookup n = some (sid, s)) : s.remoteNodeAddr = n := by
  obtain ⟨t, ht, hn⟩ := h.addr n sid (JsMap.mem_of_get (sessions_of_lookup hl))
  rw [objs_of_lookup hl] at ht
  cases ht
  exact hn

theorem Stored.lookup_iff (h : m.Stored) : m.lookup n = some (sid, s) ↔ (n, sid) ∈ m.sessions ∧ m.objs[sid]? = some s :=
  ⟨fun hl => ⟨JsMap.mem_of_get (sessions_of_lookup hl), objs_of_lookup hl⟩,
    fun ⟨hm, ho⟩ => lookup_eq_some (h.nodup.get_of_mem hm) ho⟩

/-- An object is stored under at most one node. -/
theorem Stored.node_unique (h : m.Stored) {n' : NodeAddr} {s' : Session} (hl : m.lookup n = some (sid, s))
    (hl' : m.lookup n' = some (sid, s')) : n = n' := by
  have hs := (objs_of_lookup hl).symm.trans (objs_of_lookup hl')
  cases hs
  exact (h.remoteNodeAddr hl).symm.trans (h.remoteNodeAddr hl')

theorem remoteNodeAddr_completeResponder {env : Env} : (completeResponder env s).remoteNodeAddr = s.remoteNodeAddr := by
  unfold completeResponder
  split
  · rfl
  · dsimp only
    split <;> rfl

theorem remoteNodeAddr_putHandshakeFsp {f : FspSession} : (s.putHandshakeFsp f).remoteNodeAddr = s.remoteNodeAddr := by
  unfold putHandshakeFsp
  split <;> rfl

theorem remoteNodeAddr_prunePreviousFsp {dateMs : ℚ} :
    (s.prunePreviousFsp dateMs).remoteNodeAddr = s.remoteNodeAddr := by
  unfold prunePreviousFsp
  split
  · split <;> rfl
  · rfl

theorem remoteNodeAddr_take {env : Env} {slot : ReceiveSlot} {f : FspSession} {est : FspEstablished} :
    (slot.take env s f est).remoteNodeAddr = s.remoteNodeAddr := by
  rw [← @remoteNodeAddr_prunePreviousFsp s env.dateMs]
  cases slot <;> rfl

theorem remoteNodeAddr_received {env : Env} {slot : ReceiveSlot} {f : FspSession} {est : FspEstablished} :
    (slot.received env s f est).remoteNodeAddr = s.remoteNodeAddr := by
  rw [← @remoteNodeAddr_take s env slot f est]
  cases slot <;> rfl

theorem remoteNodeAddr_receipt {env : Env} {peer : PeerId} {src : NodeAddr} {frame : Bytes} {l : List Effect}
    (h : Receipt S cfg env peer src frame s s' l) : s'.remoteNodeAddr = s.remoteNodeAddr := by
  cases h with
  | dropped ha => rfl
  | pruned ha h => exact remoteNodeAddr_prunePreviousFsp
  | queued ha h =>
    rcases h with rfl | ⟨-, rfl⟩
    · rfl
    · exact remoteNodeAddr_prunePreviousFsp
  | taken h hi => exact remoteNodeAddr_take
  | opened h hi reports => exact remoteNodeAddr_received

theorem remoteNodeAddr_sealing (h : Sealing s s') : s'.remoteNodeAddr = s.remoteNodeAddr := by
  obtain ⟨n, w, r, rfl⟩ := h
  rfl

theorem Next.remoteNodeAddr (h : Next S cfg m e gone s s') : s'.remoteNodeAddr = s.remoteNodeAddr := by
  cases h with
  | receipt ha h => exact remoteNodeAddr_receipt h
  | sealed h => exact remoteNodeAddr_sealing h
  | msg3Failed hs h => exact remoteNodeAddr_putHandshakeFsp
  | msg3Completes p he hp hl hrun ha => exact remoteNodeAddr_completeResponder.trans remoteNodeAddr_putHandshakeFsp
  | _ => rfl

/-! ### Closing entries -/

/-- `m'` is `m` with the entry of `n` taken away. -/
structure Removed (n : NodeAddr) (m m' : Manager) : Prop where
  sessions : m'.sessions = m.sessions.delete n
  lookup : ∀ n', m'.lookup n' = if n = n' then none else m.lookup n'

theorem Removed.of_set (hm : m.Stored) (hl : m.sessions.get n = some sid)
    (ho : m.objs[sid]? = some s) (hs : m'.sessions = m.sessions.delete n) (hobjs : m'.objs = m.objs.set sid s') :
    Removed n m m' := by
  refine ⟨hs, fun n' => ?_⟩
  unfold Manager.lookup
  rw [hs, JsMap.get_delete]
  split
  · rfl
  · rename_i hne
    cases hg : m.sessions.get n' with
    | none => rfl
    | some sid' =>
      have hne' : sid ≠ sid' := by
        rintro rfl
        exact hne (hm.node_unique (lookup_eq_some hl ho) (lookup_eq_some hg ho))
      simp only [Option.bind_eq_bind, Option.bind_some, hobjs, List.getElem?_set_ne hne']

theorem Removed.stored (h : Removed n m m') (hm : m.Stored) : m'.Stored where
  nodup := h.sessions ▸ hm.nodup.delete n
  addr n' sid' hmem := by
    rw [h.sessions] at hmem
    obtain ⟨hmem, hne⟩ := JsMap.mem_delete.1 hmem
    obtain ⟨t, ht, ha⟩ := hm.addr n' sid' hmem
    have hl : m.lookup n' = some (sid', t) := hm.lookup_iff.2 ⟨hmem, ht⟩
    have hl' := h.lookup n'
    rw [if_neg (fun heq => hne heq.symm), hl] at hl'
    exact ⟨t, objs_of_lookup hl', ha⟩

/-- Giving up the setup of a stored session removes it; another session only loses its promise. -/
theorem rejectSessionSetup_spec {err : String} (hm : m.Stored) (ho : m.objs[sid]? = some s) :
    m.sessions.get s.remoteNodeAddr = some sid ∧ Removed s.remoteNodeAddr m (m.rejectSessionSetup sid s err) ∨
      (∀ n, m.sessions.get n ≠ some sid) ∧ (m.rejectSessionSetup sid s err).sessions = m.sessions ∧
        ∀ n, (m.rejectSessionSetup sid s err).lookup n = m.lookup n := by
  have hset := @objs_settleSetup _ _ _ (.rejected err) ho
  by_cases hget : m.sessions.get s.remoteNodeAddr = some sid
  · have hr : (m.rejectSessionSetup sid s err).sessions = m.sessions.delete s.remoteNodeAddr ∧
        (m.rejectSessionSetup sid s err).objs = m.objs.set sid { s.close with setupPromise := none } := by
      unfold rejectSessionSetup
      simp only [sessions_settleSetup, hget, if_true, setObj, hset, List.set_set, and_self]
    exact .inl ⟨hget, .of_set hm hget ho hr.1 hr.2⟩
  · have hr : m.rejectSessionSetup sid s err = m.settleSetup sid s (.rejected err) := by
      unfold rejectSessionSetup
      simp only [sessions_settleSetup, hget, if_false]
    have hun (n : NodeAddr) : m.sessions.get n ≠ some sid := by
      intro hn
      have hl := lookup_eq_some hn ho
      rw [hm.remoteNodeAddr hl] at hget
      exact hget hn
    refine .inr ⟨hun, by rw [hr, sessions_settleSetup], fun n => ?_⟩
    rw [hr]
    unfold Manager.lookup
    rw [sessions_settleSetup, hset]
    cases hg : m.sessions.get n with
    | none => rfl
    | some sid' =>
      have hne : sid ≠ sid' := by
        rintro rfl
        exact hun n hg
      simp only [Option.bind_eq_bind, Option.bind_some, List.getElem?_set_ne hne]

theorem removed_dropSession {err : String} {announce : Bool} {entry : NodeAddr × Nat} (hm : m.Stored)
    (he : entry ∈ m.sessions) : Removed entry.1 m (m.dropSession err announce entry) := by
  obtain ⟨s, ho, ha⟩ := hm.addr entry.1 entry.2 he
  have hget : m.sessions.get entry.1 = some entry.2 := hm.nodup.get_of_mem he
  unfold dropSession
  rw [ho]
  dsimp only
  split
  · rcases @rejectSessionSetup_spec _ _ _ err hm ho with ⟨-, hr⟩ | ⟨hun, -⟩
    · exact ha ▸ hr
    · exact absurd hget (hun _)
  · exact .of_set hm hget ho rfl rfl

/-- Closing several entries takes just those away. -/
theorem dropSessions_spec {err : String} {announce : Bool} (entries : List (NodeAddr × Nat)) (hm : m.Stored)
    (hsub : ∀ entry ∈ entries, entry ∈ m.sessions) (hnodup : (entries.map Prod.fst).Nodup) :
    (entries.foldl (dropSession err announce) m).Stored ∧ ∀ n,
      (entries.foldl (dropSession err announce) m).lookup n =
        if n ∈ entries.map Prod.fst then none else m.lookup n := by
  induction entries generalizing m with
  | nil => exact ⟨hm, fun n => by simp⟩
  | cons entry entries ih =>
    have hr := (@removed_dropSession _ err announce) hm (hsub entry List.mem_cons_self)
    have hcons := List.nodup_cons.1 hnodup
    have hrest : ∀ x ∈ entries, x ∈ (m.dropSession err announce entry).sessions := by
      intro x hx
      rw [hr.sessions, JsMap.mem_delete]
      refine ⟨hsub x (List.mem_cons_of_mem _ hx), fun heq => ?_⟩
      exact hcons.1 (heq ▸ List.mem_map_of_mem (f := Prod.fst) hx)
    obtain ⟨hst, hl⟩ := ih (hr.stored hm) hrest hcons.2
    refine ⟨hst, fun n => ?_⟩
    rw [List.foldl_cons, hl, hr.lookup]
    by_cases hn : n ∈ entries.map Prod.fst
    · rw [if_pos hn, if_pos (List.mem_map.2 ?_)]
      obtain ⟨x, hx, hxn⟩ := List.mem_map.1 hn
      exact ⟨x, List.mem_cons_of_mem _ hx, hxn⟩
    · rw [if_neg hn]
      by_cases he : entry.1 = n
      · rw [if_pos he, if_pos (by simp [he])]
      · rw [if_neg he, if_neg]
        intro hmem
        rcases List.mem_cons.1 hmem with heq | hmem
        · exact he heq.symm
        · exact hn hmem

theorem closePeerSessions_spec {remotePubkey : Bytes} (hm : m.Stored) :
    (m.closePeerSessions remotePubkey).Stored ∧ ∀ n, (m.closePeerSessions remotePubkey).lookup n =
      if (m.lookup n).bind (·.2.remotePubkey) = some remotePubkey then none else m.lookup n := by
  have hsub := List.filter_sublist (l := m.sessions)
    (p := fun entry => (m.objs[entry.2]?.bind Session.remotePubkey) = some remotePubkey)
  obtain ⟨hst, hl⟩ := @dropSessions_spec _ ("remote FIPS peer restarted") true _ hm
    (fun entry he => hsub.subset he) (hm.nodup.sublist (hsub.map _))
  refine ⟨hst, fun n => ?_⟩
  unfold closePeerSessions
  rw [hl]
  -- the filter selects by the same key as the lookup
  have hiff : n ∈ (m.sessions.filter fun entry => (m.objs[entry.2]?.bind Session.remotePubkey) = some remotePubkey).map
      Prod.fst ↔ (m.lookup n).bind (·.2.remotePubkey) = some remotePubkey := by
    constructor
    · intro hmem
      obtain ⟨⟨n', sid⟩, he, rfl⟩ := List.mem_map.1 hmem
      obtain ⟨he, hk⟩ := List.mem_filter.1 he
      obtain ⟨s, ho, -⟩ := hm.addr n' sid he
      rw [hm.lookup_iff.2 ⟨he, ho⟩]
      simpa [ho] using hk
    · intro hk
      obtain ⟨⟨sid, s⟩, hl', hs⟩ := Option.bind_eq_some_iff.1 hk
      refine List.mem_map.2 ⟨(n, sid), List.mem_filter.2 ⟨JsMap.mem_of_get (sessions_of_lookup hl'), ?_⟩, rfl⟩
      simpa [objs_of_lookup hl'] using hs
  by_cases hn : (m.lookup n).bind (·.2.remotePubkey) = some remotePubkey
  · rw [if_pos hn, if_pos (hiff.2 hn)]
  · rw [if_neg hn, if_neg (fun h => hn (hiff.1 h))]

@[simp] theorem sessions_stop : m.stop.sessions = [] := rfl

/-! ### Transitions -/

/-- The session stored for `n` after a transition: it was stored before, or it is new. -/
inductive NextStored (S : Suite) (cfg : ManagerConfig) (m : Manager) (e : ManagerEvent) (n : NodeAddr) (sid : Nat) :
    Session → Prop
  | old {s s' : Session} (hl : m.lookup n = some (sid, s)) (h : Next S cfg m e False s s') : NextStored S cfg m e n sid s'
  | renewed {s s' : Session} (hl : m.lookup n = some (sid, s)) (h : Created S cfg m (some s) s') :
      NextStored S cfg m e n sid s'
  | new {s' : Session} (hsid : sid = m.objs.length) (hn : s'.remoteNodeAddr = n) (h : Created S cfg m none s') :
      NextStored S cfg m e n sid s'

theorem NextStored.of_set {sid₀ : Nat} {t : Session} (hl' : m'.lookup n = some (sid, s'))
    (ho : m.objs[sid₀]? = some s) (h : ∀ n, m.lookup n = some (sid₀, s) → NextStored S cfg m e n sid₀ t)
    (hs : m'.sessions = m.sessions) (hobjs : m'.objs = m.objs.set sid₀ t) : NextStored S cfg m e n sid s' := by
  have hget := sessions_of_lookup hl'
  have ho' := objs_of_lookup hl'
  rw [hs] at hget
  rw [hobjs] at ho'
  by_cases hsid : sid₀ = sid
  · subst hsid
    obtain ⟨hlt, -⟩ := List.getElem?_eq_some_iff.1 ho
    rw [List.getElem?_set_self hlt] at ho'
    cases ho'
    exact h n (lookup_eq_some hget ho)
  · rw [List.getElem?_set_ne hsid] at ho'
    exact .old (lookup_eq_some hget ho') .refl

theorem NextStored.of_push {node : NodeAddr} {t : Session} (hl' : m'.lookup n = some (sid, s')) (hm : m.Stored)
    (ht : t.remoteNodeAddr = node) (h : Created S cfg m none t)
    (hs : m'.sessions = m.sessions.set node m.objs.length) (hobjs : m'.objs = m.objs ++ [t]) : NextStored S cfg m e n sid s' := by
  have hget := sessions_of_lookup hl'
  have ho' := objs_of_lookup hl'
  rw [hs, JsMap.get_set] at hget
  rw [hobjs] at ho'
  split at hget
  · cases hget
    rename_i hn
    rw [List.getElem?_append_right (le_refl _), Nat.sub_self] at ho'
    cases ho'
    exact .new rfl (ht.trans hn) h
  · obtain ⟨s₀, ho, -⟩ := hm.addr n sid (JsMap.mem_of_get hget)
    obtain ⟨hlt, -⟩ := List.getElem?_eq_some_iff.1 ho
    rw [List.getElem?_append_left hlt] at ho'
    exact .old (lookup_eq_some hget ho') .refl

theorem NextStored.of_lookup (h : m.lookup n = some (sid, s')) : NextStored S cfg m e n sid s' := .old h .refl

theorem Transition.stored (ht : Transition S cfg m e m') (hm : m.Stored) (hl' : m'.lookup n = some (sid, s')) :
    NextStored S cfg m e n sid s' := by
  have hset {sid₀ : Nat} {s₀ t : Session} {src : NodeAddr} (hl : m.lookup src = some (sid₀, s₀))
      (h : Next S cfg m e False s₀ t) (hs : m'.sessions = m.sessions) (hobjs : m'.objs = m.objs.set sid₀ t) :
      NextStored S cfg m e n sid s' :=
    .of_set hl' (objs_of_lookup hl) (fun _ hl => .old hl h) hs hobjs
  have hgone {src : NodeAddr} (h : Removed src m m') : NextStored S cfg m e n sid s' := by
    have hl'' := h.lookup n
    rw [hl'] at hl''
    split at hl''
    · cases hl''
    · exact .of_lookup hl''.symm
  cases ht with
  | idle h => exact .of_lookup hl'
  | receipt hl ha h => exact hset hl (.receipt ha h) rfl rfl
  | drained hd ho h => exact .of_set hl' ho (fun _ hl => .old hl (.receipt (arrival_drain hd ho) h)) rfl rfl
  | drainLost hd ho => exact .of_lookup hl'
  | sealed he ho h => exact .of_set hl' ho (fun _ hl => .old hl (.sealed h)) rfl rfl
  | rekey hp hl hu hst hr =>
    exact .of_set hl' (objs_of_lookup hl) (fun _ hl => .renewed hl (.rekey hst hr)) rfl rfl
  | yields hp hl hu hst hrole hc hr =>
    exact .of_set hl' (objs_of_lookup hl) (fun _ hl => .renewed hl (.yields hst hr)) rfl rfl
  | yieldsNothing hp hl hu hst hrole hc hr => exact hset hl (.fspClosed hst) rfl rfl
  | contact hp hl hr => exact .of_push hl' hm rfl (.contact hr) rfl rfl
  | ackFailed hp hl hrun hs h => exact hset hl (.ackFailed hs h) rfl rfl
  | ackRepeated hp hl hst hlog =>
    exact hset hl (.promise none) sessions_settleSetup (objs_settleSetup (objs_of_lookup hl))
  | ackCompletes hp hl hst hrun hs h hlog =>
    exact hset hl (.ackCompletes none rfl hl hrun hs h) sessions_settleSetup
      (objs_resolveSessionSetup_setObj (objs_of_lookup hl))
  | msg3Failed hp hl hrun hs h => exact hset hl (.msg3Failed hs h) rfl rfl
  | msg3RefusedPending hp hl hpend hrun ha => exact hset hl .pendingDropped rfl rfl
  | msg3Refused hp hl hpend hrun ha =>
    exact hgone (.of_set hm (sessions_of_lookup hl) (objs_of_lookup hl) rfl rfl)
  | msg3Completes hp hl hrun ha hlog =>
    refine hset hl (.msg3Completes none rfl hp hl hrun ha) sessions_settleSetup ?_
    rw [objs_logged, objs_completed (objs_of_lookup hl)]
  | awaits he hn hl hst =>
    obtain ⟨p, hp⟩ := objs_awaited (objs_of_lookup hl)
    exact hset hl (.promise p) sessions_awaited hp
  | initiates he hn hl hf hst hrem hset' hlog => exact .of_push hl' hm rfl (.initiated _ hn hf hst hrem) rfl rfl
  | rejects ho he =>
    rcases rejectSessionSetup_spec hm ho with ⟨-, hr⟩ | ⟨-, -, hr⟩
    · exact hgone hr
    · rw [hr] at hl'
      exact .of_lookup hl'
  | closes =>
    rw [(closePeerSessions_spec hm).2] at hl'
    split at hl'
    · cases hl'
    · exact .of_lookup hl'
  | stops => cases hl'

theorem Created.remoteNodeAddr (h : Created S cfg m (some s) s') : s'.remoteNodeAddr = s.remoteNodeAddr := by
  cases h <;> rfl

theorem Stored.of_set {t : Session} (hm : m.Stored) (ho : m.objs[sid]? = some s) (ht : t.remoteNodeAddr = s.remoteNodeAddr)
    (hs : m'.sessions = m.sessions) (hobjs : m'.objs = m.objs.set sid t) : m'.Stored where
  nodup := hs ▸ hm.nodup
  addr n sid' hmem := by
    rw [hs] at hmem
    obtain ⟨s', ho', ha⟩ := hm.addr n sid' hmem
    rw [hobjs]
    by_cases hne : sid = sid'
    · subst hne
      obtain ⟨hlt, -⟩ := List.getElem?_eq_some_iff.1 ho
      rw [ho] at ho'
      cases ho'
      exact ⟨t, List.getElem?_set_self hlt, ht.trans ha⟩
    · exact ⟨s', (List.getElem?_set_ne hne).trans ho', ha⟩

theorem Stored.of_push {node : NodeAddr} {t : Session} (hm : m.Stored) (ht : t.remoteNodeAddr = node)
    (hs : m'.sessions = m.sessions.set node m.objs.length) (hobjs : m'.objs = m.objs ++ [t]) : m'.Stored where
  nodup := hs ▸ hm.nodup.set node m.objs.length
  addr n sid hmem := by
    rw [hs] at hmem
    rw [hobjs]
    rcases JsMap.mem_set hmem with heq | hmem
    · cases heq
      exact ⟨t, by rw [List.getElem?_append_right (le_refl _), Nat.sub_self]; rfl, ht⟩
    · obtain ⟨s, ho, ha⟩ := hm.addr n sid hmem
      obtain ⟨hlt, -⟩ := List.getElem?_eq_some_iff.1 ho
      exact ⟨s, (List.getElem?_append_left hlt).trans ho, ha⟩

theorem Stored.step (hm : m.Stored) (ht : Transition S cfg m e m') : m'.Stored := by
  have hset {sid₀ : Nat} {s₀ t : Session} {src : NodeAddr} (hl : m.lookup src = some (sid₀, s₀))
      (hs : m'.sessions = m.sessions) (hobjs : m'.objs = m.objs.set sid₀ t)
      (h : t.remoteNodeAddr = s₀.remoteNodeAddr) : m'.Stored :=
    hm.of_set (objs_of_lookup hl) h hs hobjs
  have hobj {sid₀ : Nat} {s₀ t : Session} (ho : m.objs[sid₀]? = some s₀) (hs : m'.sessions = m.sessions)
      (hobjs : m'.objs = m.objs.set sid₀ t) (h : t.remoteNodeAddr = s₀.remoteNodeAddr) : m'.Stored :=
    hm.of_set ho h hs hobjs
  have hpush {node : NodeAddr} {t : Session} (hs : m'.sessions = m.sessions.set node m.objs.length)
      (hobjs : m'.objs = m.objs ++ [t]) (h : t.remoteNodeAddr = node) : m'.Stored :=
    hm.of_push h hs hobjs
  cases ht with
  | idle h => exact ⟨hm.nodup, hm.addr⟩
  | receipt hl ha h => exact hset hl rfl rfl (remoteNodeAddr_receipt h)
  | drained hd ho h => exact hobj ho rfl rfl (remoteNodeAddr_receipt h)
  | drainLost hd ho => exact ⟨hm.nodup, hm.addr⟩
  | sealed he ho h => exact hobj ho rfl rfl (remoteNodeAddr_sealing h)
  | rekey hp hl hu hst hr => exact hset hl rfl rfl rfl
  | yields hp hl hu hst hrole hc hr => exact hset hl rfl rfl rfl
  | yieldsNothing hp hl hu hst hrole hc hr => exact hset hl rfl rfl rfl
  | contact hp hl hr => exact hpush rfl rfl rfl
  | ackFailed hp hl hrun hs h => exact hset hl rfl rfl rfl
  | ackRepeated hp hl hst hlog => exact hset hl sessions_settleSetup (objs_settleSetup (objs_of_lookup hl)) rfl
  | ackCompletes hp hl hst hrun hs h hlog =>
    exact hset hl sessions_settleSetup (objs_resolveSessionSetup_setObj (objs_of_lookup hl)) rfl
  | msg3Failed hp hl hrun hs h => exact hset hl rfl rfl remoteNodeAddr_putHandshakeFsp
  | msg3RefusedPending hp hl hpend hrun ha => exact hset hl rfl rfl rfl
  | msg3Refused hp hl hpend hrun ha =>
    exact (Removed.of_set hm (sessions_of_lookup hl) (objs_of_lookup hl) rfl rfl).stored hm
  | msg3Completes hp hl hrun ha hlog =>
    refine hset hl sessions_settleSetup (objs_completed (objs_of_lookup hl)) ?_
    exact remoteNodeAddr_completeResponder.trans remoteNodeAddr_putHandshakeFsp
  | awaits he hn hl hst =>
    obtain ⟨p, hp⟩ := objs_awaited (objs_of_lookup hl)
    exact hset hl sessions_awaited hp rfl
  | initiates he hn hl hf hst hrem hset' hlog => exact hpush rfl rfl rfl
  | rejects ho he =>
    rcases rejectSessionSetup_spec hm ho with ⟨-, hr⟩ | ⟨-, hs, hr⟩
    · exact hr.stored hm
    · refine ⟨hs ▸ hm.nodup, fun n sid hmem => ?_⟩
      rw [hs] at hmem
      obtain ⟨s', ho', ha⟩ := hm.addr n sid hmem
      have hl := hm.lookup_iff.2 ⟨hmem, ho'⟩
      rw [← hr] at hl
      exact ⟨s', objs_of_lookup hl, ha⟩
  | closes => exact (closePeerSessions_spec hm).1
  | stops => exact ⟨List.nodup_nil, nofun⟩

/-- The invariants every manager keeps from its start. -/
structure WF (m : Manager) : Prop where
  stored : m.Stored
  keyless : m.Keyless

theorem wf_init : init.WF where
  stored := ⟨List.nodup_nil, fun _ _ h => absurd h List.not_mem_nil⟩
  keyless _ h := absurd h List.not_mem_nil

theorem WF.transition (h : m.WF) (e : ManagerEvent) : Transition S cfg m e (Manager.step S cfg m e) :=
  step_transition h.keyless.settled e

theorem WF.next (h : m.WF) (e : ManagerEvent) : (Manager.step S cfg m e).WF :=
  ⟨h.stored.step (h.transition e), h.keyless.step (h.transition e)⟩

theorem WF.run (h : m.WF) (es : List ManagerEvent) : (Run.run (Manager.step S cfg) m es).WF := by
  induction es generalizing m with
  | nil => exact h
  | cons e es ih => exact ih (h.next e)

end

end Manager

end Fips
