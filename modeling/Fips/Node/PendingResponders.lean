import Fips.Crypto.Toy
import Fips.Lib.Run
import Fips.Node.PeerState

/-!
# `node/PendingFmpResponders.ts`: responders and their timers

A responder that waits for confirmation is known in three places: the map of records, the field of its peer and the callback
of its timer. Every operation changes them together, so they always tell the same; without the timers they are what the rest
of the model has of a node.
-/

namespace Fips
open Exec

abbrev TimerId := Nat

structure PendingResponder where
  link : LinkId
  timer : TimerId
deriving DecidableEq

/-- The node with the records of its `PendingFmpResponders` and the timers of the event loop. -/
structure PendingFmpResponders where
  node : FipsNode
  pending : JsMap PeerId PendingResponder
  /-- The timers that are running, with the peer and the link their callbacks are made for. -/
  running : JsMap TimerId (PeerId × LinkId)
  nextTimer : TimerId

namespace PendingFmpResponders

def withNode (f : FipsNode → FipsNode) (s : PendingFmpResponders) : PendingFmpResponders := { s with node := f s.node }

/-- `take`; the link taken is the `pendingResponderLink` of the peer. -/
def take (pid : PeerId) (s : PendingFmpResponders) : PendingFmpResponders where
  node := s.node.takePending pid
  pending := s.pending.delete pid
  running := (s.pending.get pid).elim s.running fun r => s.running.delete r.timer
  nextTimer := s.nextTimer

def discard (pid : PeerId) (s : PendingFmpResponders) : PendingFmpResponders :=
  match (s.node.peer pid).pendingResponderLink with
  | some lid => (s.take pid).withNode (FipsNode.closeLink lid)
  | none => s.take pid

def clear (s : PendingFmpResponders) : PendingFmpResponders :=
  (s.pending.map Prod.fst).foldl (fun s pid => s.discard pid) s

/-- The new record, and its timer. -/
def record (pid : PeerId) (lid : LinkId) (s : PendingFmpResponders) : PendingFmpResponders where
  node := { s.node.modifyPeer pid fun p => { p with pendingResponderLink := some lid } with
    pendingResponders := s.node.pendingResponders.set pid lid }
  pending := s.pending.set pid ⟨lid, s.nextTimer⟩
  running := s.running.set s.nextTimer (pid, lid)
  nextTimer := s.nextTimer + 1

section
variable (S : Suite) (cfg : NodeConfig)

def set (env : NodeEnv) (pid : PeerId) (lid : LinkId) (s : PendingFmpResponders) : Except String Unit × PendingFmpResponders :=
  if (s.pending.get pid).any fun r => r.link = lid then (.ok (), s)
  else
    let s := s.discard pid
    if s.pending.length ≥ MAX_PENDING_FMP_RESPONDERS then
      let s := s.withNode (FipsNode.closeLink lid)
      (.error "too many pending FMP responders",
        if (s.node.peer pid).link = lid then s.withNode (FipsNode.removeOwnPath S cfg env pid) else s)
    else (.ok (), s.record pid lid)

/-- The callback of a timer. -/
def timeout (env : NodeEnv) (pid : PeerId) (lid : LinkId) (s : PendingFmpResponders) : PendingFmpResponders :=
  if (s.pending.get pid).any fun r => r.link = lid then
    let s := s.discard pid
    if s.node.linkState pid ≠ .established ∧ (s.node.peer pid).outgoingHandshake.isNone then
      s.withNode fun n => (n.closeLink (n.peer pid).link).removeOwnPath S cfg env pid
    else s
  else s

/-- A running timer fires, and runs no longer. -/
def fire (env : NodeEnv) (timer : TimerId) (s : PendingFmpResponders) : PendingFmpResponders :=
  match s.running.get timer with
  | some (pid, lid) => { s with running := s.running.delete timer }.timeout S cfg env pid lid
  | none => s

inductive Event
  | set (env : NodeEnv) (pid : PeerId) (lid : LinkId)
  | take (pid : PeerId)
  | discard (pid : PeerId)
  | clear
  | fire (env : NodeEnv) (timer : TimerId)
  /-- The rest of the node becomes `n`. -/
  | elsewhere (n : FipsNode)

def step (s : PendingFmpResponders) : Event → PendingFmpResponders
  | .set env pid lid => (s.set S cfg env pid lid).2
  | .take pid => s.take pid
  | .discard pid => s.discard pid
  | .clear => s.clear
  | .fire env timer => s.fire S cfg env timer
  | .elsewhere n => { s with node := n }

end

/-- What the rest of the node leaves to `PendingFmpResponders`. -/
structure Untouched (n n' : FipsNode) : Prop where
  pendingResponders : n'.pendingResponders = n.pendingResponders
  link : ∀ pid, (n'.peer pid).pendingResponderLink = (n.peer pid).pendingResponderLink

/-- The rest of the node leaves the records and the fields of the peers alone. -/
def Respects (s : PendingFmpResponders) : Event → Prop
  | .elsewhere n => Untouched s.node n
  | _ => True

/-- The three copies tell the same, and there are not too many of them. -/
structure Inv (s : PendingFmpResponders) : Prop where
  few : s.pending.length ≤ MAX_PENDING_FMP_RESPONDERS
  field : ∀ pid, (s.node.peer pid).pendingResponderLink = (s.pending.get pid).map PendingResponder.link
  running : ∀ timer pid lid, s.running.get timer = some (pid, lid) ↔ s.pending.get pid = some ⟨lid, timer⟩
  drawn : ∀ pid r, s.pending.get pid = some r → r.timer < s.nextTimer
  model : s.node.pendingResponders = JsMap.mapValues PendingResponder.link s.pending

namespace Untouched
variable {n n' n'' : FipsNode}

theorem refl : Untouched n n := ⟨rfl, fun _ => rfl⟩

theorem trans (h : Untouched n n') (h' : Untouched n' n'') : Untouched n n'' :=
  ⟨h'.pendingResponders.trans h.pendingResponders, fun pid => (h'.link pid).trans (h.link pid)⟩

end Untouched

section
variable {S : Suite} {cfg : NodeConfig} {env : NodeEnv} {n : FipsNode} {pid : PeerId} {lid : LinkId}

/-- What removing a path changes: neither the peers nor the links. -/
structure PathOnly (n n' : FipsNode) : Prop where
  objs : n'.objs = n.objs
  links : n'.links = n.links
  pendingResponders : n'.pendingResponders = n.pendingResponders

theorem PathOnly.refl : PathOnly n n := ⟨rfl, rfl, rfl⟩

theorem PathOnly.trans {n' n'' : FipsNode} (h : PathOnly n n') (h' : PathOnly n' n'') : PathOnly n n'' :=
  ⟨h'.objs.trans h.objs, h'.links.trans h.links, h'.pendingResponders.trans h.pendingResponders⟩

theorem PathOnly.untouched {n' : FipsNode} (h : PathOnly n n') : Untouched n n' := by
  refine ⟨h.pendingResponders, fun pid => ?_⟩
  rw [FipsNode.peer, h.objs]
  rfl

theorem pathOnly_emit (e : NodeEffect) : PathOnly n (n.emit cfg e) := by
  unfold FipsNode.emit
  dsimp only
  split
  · unfold FipsNode.setBlockedPeerPubkeys
    split
    · exact ⟨rfl, rfl, rfl⟩
    · exact ⟨rfl, rfl, rfl⟩
  · exact ⟨rfl, rfl, rfl⟩

theorem pathOnly_withManager (m : Manager) : PathOnly n (n.withManager cfg m) := by
  unfold FipsNode.withManager
  have hfold {f : FipsNode → Effect → FipsNode} (hf : ∀ n e, PathOnly n (f n e)) (es : List Effect) (n' : FipsNode) :
      PathOnly n' (es.foldl f n') := by
    induction es generalizing n' with
    | nil => exact .refl
    | cons e es ih =>
      rw [List.foldl_cons]
      exact (hf n' e).trans (ih _)
  have hmanager : PathOnly n { n with sessionManager := m } := ⟨rfl, rfl, rfl⟩
  refine hmanager.trans (hfold (fun n e => ?_) _ _)
  split
  · exact pathOnly_emit _
  · exact .refl

theorem pathOnly_rememberPeer : PathOnly n (n.rememberPeer S pid) := by
  unfold FipsNode.rememberPeer
  split
  · exact .refl
  · exact ⟨rfl, rfl, rfl⟩

theorem pathOnly_forgetNodeAddr : PathOnly n (n.forgetNodeAddr S pid) := by
  unfold FipsNode.forgetNodeAddr
  split
  · exact .refl
  · split
    · exact ⟨rfl, rfl, rfl⟩
    · exact .refl

theorem pathOnly_removeOwnPath : PathOnly n (n.removeOwnPath S cfg env pid) := by
  unfold FipsNode.removeOwnPath
  dsimp only
  split
  · unfold FipsNode.removePeerPath
    dsimp only
    split
    · exact ⟨pathOnly_rememberPeer.objs, pathOnly_rememberPeer.links, pathOnly_rememberPeer.pendingResponders⟩
    · have hforget : PathOnly n (FipsNode.forgetNodeAddr S pid
          { n with
            peers := n.peers.delete (transportAddressKey (n.peer pid).remoteAddr)
            peersByPubkey := n.peersByPubkey.filter (·.2 ≠ pid) }) :=
        ⟨pathOnly_forgetNodeAddr.objs, pathOnly_forgetNodeAddr.links, pathOnly_forgetNodeAddr.pendingResponders⟩
      split
      · exact hforget.trans (pathOnly_withManager _)
      · exact hforget
  · exact .refl

theorem untouched_closeLink : Untouched n (n.closeLink lid) := ⟨rfl, fun _ => rfl⟩

end

/-! ### One operation -/

section
variable {S : Suite} {cfg : NodeConfig} {env : NodeEnv} {s : PendingFmpResponders} {n : FipsNode} {pid q : PeerId} {lid : LinkId}
  {timer : TimerId} {r : PendingResponder}

theorem peer_takePending : ((s.node.takePending pid).peer q).pendingResponderLink =
    if q = pid then none else (s.node.peer q).pendingResponderLink := by
  show ((s.node.objs.modify pid fun p => { p with pendingResponderLink := none }).get q).pendingResponderLink = _
  rw [Heap.get_modify]
  split <;> rfl

theorem Inv.untouched (h : s.Inv) (hn : Untouched s.node n) : Inv { s with node := n } where
  few := h.few
  field q := (hn.link q).trans (h.field q)
  running := h.running
  drawn := h.drawn
  model := hn.pendingResponders.trans h.model

/-- Without its record a peer has no field and no timer either. -/
theorem Inv.take (h : s.Inv) (pid : PeerId) : (s.take pid).Inv where
  few := JsMap.length_delete_le.trans h.few
  field q := by
    rw [show (s.take pid).node = s.node.takePending pid from rfl, peer_takePending,
      show (s.take pid).pending = s.pending.delete pid from rfl, JsMap.get_delete]
    by_cases hq : q = pid
    · rw [if_pos hq, if_pos hq.symm]
      rfl
    · rw [if_neg hq, if_neg (Ne.symm hq), h.field]
  running timer q lid := by
    rw [show (s.take pid).pending = s.pending.delete pid from rfl, JsMap.get_delete]
    cases hget : s.pending.get pid with
    | none =>
      have hrunning : (s.take pid).running = s.running := by rw [PendingFmpResponders.take, hget]; rfl
      rw [hrunning, h.running]
      by_cases hq : pid = q
      · rw [if_pos hq, ← hq, hget]
      · rw [if_neg hq]
    | some r =>
      have hrunning : (s.take pid).running = s.running.delete r.timer := by rw [PendingFmpResponders.take, hget]; rfl
      have hown : s.running.get r.timer = some (pid, r.link) := (h.running _ _ _).2 hget
      rw [hrunning, JsMap.get_delete]
      by_cases htimer : r.timer = timer
      · rw [if_pos htimer]
        refine ⟨nofun, fun hrecord => ?_⟩
        by_cases hq : pid = q
        · rw [if_pos hq] at hrecord
          cases hrecord
        · rw [if_neg hq] at hrecord
          have hother := (h.running _ _ _).2 hrecord
          rw [← htimer, hown] at hother
          cases hother
          exact absurd rfl hq
      · rw [if_neg htimer, h.running]
        by_cases hq : pid = q
        · rw [if_pos hq, ← hq, hget]
          refine ⟨fun heq => ?_, nofun⟩
          cases heq
          exact absurd rfl htimer
        · rw [if_neg hq]
  drawn q r' hr' := by
    rw [show (s.take pid).pending = s.pending.delete pid from rfl, JsMap.get_delete] at hr'
    split at hr'
    · cases hr'
    · exact h.drawn q r' hr'
  model := by
    show s.node.pendingResponders.delete pid = JsMap.mapValues PendingResponder.link (s.pending.delete pid)
    rw [h.model, JsMap.mapValues_delete]

theorem discard_pending : (s.discard pid).pending = s.pending.delete pid := by
  unfold discard
  split <;> rfl

theorem Inv.discard (h : s.Inv) (pid : PeerId) : (s.discard pid).Inv := by
  unfold PendingFmpResponders.discard
  split
  · exact (h.take pid).untouched untouched_closeLink
  · exact h.take pid

theorem Inv.clear (h : s.Inv) : s.clear.Inv := by
  unfold PendingFmpResponders.clear
  generalize s.pending.map Prod.fst = pids
  induction pids generalizing s with
  | nil => exact h
  | cons pid pids ih => exact ih (h.discard pid)

/-- A new record for a peer that has none. -/
theorem Inv.record (h : s.Inv) (hnone : s.pending.get pid = none) (hroom : s.pending.length < MAX_PENDING_FMP_RESPONDERS)
    (lid : LinkId) : (s.record pid lid).Inv where
  few := JsMap.length_set_le.trans hroom
  field q := by
    have hpeer : ((s.record pid lid).node.peer q).pendingResponderLink =
        if q = pid then some lid else (s.node.peer q).pendingResponderLink := by
      show ((s.node.objs.modify pid fun p => { p with pendingResponderLink := some lid }).get q).pendingResponderLink = _
      rw [Heap.get_modify]
      split <;> rfl
    rw [hpeer, show (s.record pid lid).pending = s.pending.set pid ⟨lid, s.nextTimer⟩ from rfl, JsMap.get_set]
    by_cases hq : q = pid
    · rw [if_pos hq, if_pos hq.symm]
      rfl
    · rw [if_neg hq, if_neg (Ne.symm hq), h.field]
  running timer q lid' := by
    rw [show (s.record pid lid).pending = s.pending.set pid ⟨lid, s.nextTimer⟩ from rfl,
      show (s.record pid lid).running = s.running.set s.nextTimer (pid, lid) from rfl, JsMap.get_set, JsMap.get_set]
    by_cases htimer : s.nextTimer = timer
    · rw [if_pos htimer]
      by_cases hq : pid = q
      · rw [if_pos hq, hq, htimer]
        simp
      · rw [if_neg hq]
        refine ⟨fun heq => ?_, fun hrecord => ?_⟩
        · cases heq
          exact absurd rfl hq
        · exact absurd (h.drawn q _ hrecord) (by simp [htimer])
    · rw [if_neg htimer, h.running]
      by_cases hq : pid = q
      · rw [if_pos hq, ← hq, hnone]
        refine ⟨nofun, fun heq => ?_⟩
        cases heq
        exact absurd rfl htimer
      · rw [if_neg hq]
  drawn q r hr := by
    rw [show (s.record pid lid).pending = s.pending.set pid ⟨lid, s.nextTimer⟩ from rfl, JsMap.get_set] at hr
    split at hr
    · cases hr
      exact Nat.lt_succ_self _
    · exact (h.drawn q r hr).trans (Nat.lt_succ_self _)
  model := by
    show s.node.pendingResponders.set pid lid = JsMap.mapValues PendingResponder.link (s.pending.set pid ⟨lid, s.nextTimer⟩)
    rw [h.model, JsMap.mapValues_set]

/-- What `set` does: nothing, or a new record, or it refuses the link. -/
theorem set_cases (S : Suite) (cfg : NodeConfig) (env : NodeEnv) (s : PendingFmpResponders) (pid : PeerId) (lid : LinkId) :
    s.set S cfg env pid lid = (.ok (), s) ∨
      ((s.pending.delete pid).length < MAX_PENDING_FMP_RESPONDERS ∧
        s.set S cfg env pid lid = (.ok (), (s.discard pid).record pid lid)) ∨
      ∃ n, PathOnly ((s.discard pid).node.closeLink lid) n ∧
        s.set S cfg env pid lid = (.error "too many pending FMP responders", { s.discard pid with node := n }) := by
  unfold PendingFmpResponders.set
  dsimp only
  split
  · exact .inl rfl
  · by_cases hfull : (s.discard pid).pending.length ≥ MAX_PENDING_FMP_RESPONDERS
    · rw [if_pos hfull]
      refine .inr (.inr ?_)
      split
      · exact ⟨_, pathOnly_removeOwnPath, rfl⟩
      · exact ⟨_, .refl, rfl⟩
    · rw [if_neg hfull]
      rw [discard_pending] at hfull
      exact .inr (.inl ⟨not_le.1 hfull, rfl⟩)

theorem Inv.set (h : s.Inv) (pid : PeerId) (lid : LinkId) : (s.set S cfg env pid lid).2.Inv := by
  rcases set_cases S cfg env s pid lid with heq | ⟨hroom, heq⟩ | ⟨n, hn, heq⟩
  · rw [heq]
    exact h
  · rw [heq]
    refine (h.discard pid).record ?_ (discard_pending ▸ hroom) lid
    rw [discard_pending, JsMap.get_delete, if_pos rfl]
  · rw [heq]
    exact (h.discard pid).untouched (untouched_closeLink.trans hn.untouched)

/-- A timer that runs fires for a record that is there, and goes with it. -/
theorem fire_cases (S : Suite) (cfg : NodeConfig) (env : NodeEnv) (h : s.Inv) (timer : TimerId) :
    s.running.get timer = none ∧ s.fire S cfg env timer = s ∨
      ∃ pid lid n, s.pending.get pid = some ⟨lid, timer⟩ ∧ Untouched (s.discard pid).node n ∧
        s.fire S cfg env timer = { s.discard pid with node := n } := by
  unfold fire
  cases hget : s.running.get timer with
  | none => exact .inl ⟨rfl, rfl⟩
  | some run =>
    obtain ⟨pid, lid⟩ := run
    have hrecord := (h.running _ _ _).1 hget
    have hdelete : (s.running.delete timer).delete timer = s.running.delete timer := by
      unfold JsMap.delete
      rw [List.filter_filter]
      simp only [Bool.and_self]
    have htake : { s with running := s.running.delete timer }.take pid = s.take pid := by
      unfold PendingFmpResponders.take
      rw [hrecord]
      dsimp only [Option.elim_some]
      rw [hdelete]
    have hdiscard : { s with running := s.running.delete timer }.discard pid = s.discard pid := by
      unfold PendingFmpResponders.discard
      rw [htake]
    refine .inr ⟨pid, lid, ?_⟩
    dsimp only
    unfold timeout
    rw [hrecord, hdiscard]
    dsimp only [Option.any_some]
    rw [if_pos (decide_eq_true rfl)]
    split
    · exact ⟨_, rfl, untouched_closeLink.trans pathOnly_removeOwnPath.untouched, rfl⟩
    · exact ⟨_, rfl, .refl, rfl⟩

theorem Inv.fire (h : s.Inv) (timer : TimerId) : (s.fire S cfg env timer).Inv := by
  rcases fire_cases S cfg env h timer with ⟨-, heq⟩ | ⟨pid, lid, n, -, hn, heq⟩
  · rw [heq]
    exact h
  · rw [heq]
    exact (h.discard pid).untouched hn

theorem Inv.step (h : s.Inv) (e : Event) (he : s.Respects e) : (s.step S cfg e).Inv := by
  cases e with
  | set env pid lid => exact h.set pid lid
  | take pid => exact h.take pid
  | discard pid => exact h.discard pid
  | clear => exact h.clear
  | fire env timer => exact h.fire timer
  | elsewhere n => exact h.untouched he

/-- Nothing is pending, and no timer runs. -/
structure Idle (s : PendingFmpResponders) : Prop where
  pending : s.pending = []
  running : s.running = []
  field : ∀ pid, (s.node.peer pid).pendingResponderLink = none
  model : s.node.pendingResponders = []

theorem Idle.inv (h : s.Idle) : s.Inv where
  few := by
    rw [h.pending]
    exact Nat.zero_le _
  field pid := by
    rw [h.field, h.pending]
    rfl
  running timer pid lid := by
    rw [h.running, h.pending]
    simp
  drawn pid r hr := by
    rw [h.pending] at hr
    cases hr
  model := by
    rw [h.model, h.pending]
    rfl

theorem discard_other (hq : q ≠ pid) : (s.discard pid).pending.get q = s.pending.get q := by
  rw [discard_pending, JsMap.get_delete, if_neg hq.symm]

/-- A `set` that throws leaves the records of the other peers, and closes the link. -/
theorem set_error {error : String} (h : (s.set S cfg env pid lid).1 = .error error) :
    (∀ q, q ≠ pid → (s.set S cfg env pid lid).2.pending.get q = s.pending.get q) ∧
      ((s.set S cfg env pid lid).2.node.link lid).state = .closed := by
  rcases set_cases S cfg env s pid lid with heq | ⟨-, heq⟩ | ⟨n, hn, heq⟩
  · rw [heq] at h
    cases h
  · rw [heq] at h
    cases h
  · rw [heq]
    refine ⟨fun q hq => discard_other hq, ?_⟩
    show (n.links.get lid).state = .closed
    rw [hn.links]
    show (((s.discard pid).node.links.modify lid FmpLink.close).get lid).state = .closed
    rw [Heap.get_modify_self]
    rfl

/-! ### The node without its timers -/

theorem discard_node : (s.discard pid).node = s.node.discardPending pid := by
  unfold discard FipsNode.discardPending
  cases (s.node.peer pid).pendingResponderLink <;> rfl

theorem Inv.get_model (h : s.Inv) : s.node.pendingResponders.get pid = (s.pending.get pid).map PendingResponder.link := by
  rw [h.model, JsMap.get_mapValues]

theorem any_link (h : s.Inv) : ((s.pending.get pid).any fun r => r.link = lid) = true ↔
    s.node.pendingResponders.get pid = some lid := by
  rw [h.get_model]
  cases s.pending.get pid with
  | none => simp
  | some r => simp

/-- `set` is the `setPending` of the packet processor. -/
theorem set_model (h : s.Inv) : (FipsNode.setPending S cfg env pid lid).run s.node =
    match s.set S cfg env pid lid with
    | (.ok _, s') => .ok () s'.node
    | (.error error, s') => .error error s'.node := by
  have hlength : (s.node.discardPending pid).pendingResponders.length = (s.discard pid).pending.length := by
    rw [← discard_node, (h.discard pid).model, JsMap.mapValues, List.length_map]
  unfold FipsNode.setPending set
  by_cases hrecord : s.node.pendingResponders.get pid = some lid
  · rw [if_pos ((any_link h).2 hrecord)]
    simp only [EStateM.run_bind, EStateM.run_get, hrecord, if_true]
    rfl
  · rw [if_neg (fun hany => hrecord ((any_link h).1 hany))]
    dsimp only
    by_cases hfull : (s.discard pid).pending.length ≥ MAX_PENDING_FMP_RESPONDERS
    · rw [if_pos hfull]
      rw [← hlength] at hfull
      simp only [EStateM.run_bind, run_get, run_modify, hrecord, if_false, hfull, if_true]
      rw [← discard_node]
      by_cases hlink : (((s.discard pid).node.closeLink lid).peer pid).link = lid
      · rw [if_pos hlink, if_pos (show ((withNode (FipsNode.closeLink lid) (s.discard pid)).node.peer pid).link = lid from hlink)]
        rfl
      · rw [if_neg hlink, if_neg (show ¬((withNode (FipsNode.closeLink lid) (s.discard pid)).node.peer pid).link = lid from hlink)]
        rfl
    · rw [if_neg hfull]
      rw [← hlength] at hfull
      simp only [EStateM.run_bind, run_get, run_modify, hrecord, if_false, hfull]
      rw [← discard_node]
      rfl

/-- The callback of a timer is `pendingTimeout`. -/
theorem timeout_model (h : s.Inv) : (s.timeout S cfg env pid lid).node = s.node.pendingTimeout S cfg env pid lid := by
  unfold timeout FipsNode.pendingTimeout
  by_cases hrecord : s.node.pendingResponders.get pid = some lid
  · rw [if_pos ((any_link h).2 hrecord), if_pos hrecord]
    dsimp only
    rw [discard_node]
    split
    · show ((s.discard pid).node.closeLink _).removeOwnPath S cfg env pid = _
      rw [discard_node]
    · exact discard_node
  · rw [if_neg (fun hany => hrecord ((any_link h).1 hany)), if_neg hrecord]

end

/-- Whatever the order of the calls and of the timers: at most 64 peers are pending, the field of a peer is defined when it
has a record and then names the same link, each record has one running timer and a timer that is no record's does nothing, and
a `set` that throws leaves the other peers' records and closes the link. -/
theorem responders_consistent (S : Suite) (cfg : NodeConfig) (s : PendingFmpResponders) (es : List Event) (hidle : s.Idle)
    (hes : Run.Along Respects (step S cfg) s es) :
    (Run.run (step S cfg) s es).pending.length ≤ 64 ∧
    (∀ pid, ((Run.run (step S cfg) s es).node.peer pid).pendingResponderLink =
      ((Run.run (step S cfg) s es).pending.get pid).map PendingResponder.link) ∧
    (∀ pid r, (Run.run (step S cfg) s es).pending.get pid = some r →
      ∃! timer, ∃ lid, (Run.run (step S cfg) s es).running.get timer = some (pid, lid)) ∧
    (∀ timer, (∀ pid r, (Run.run (step S cfg) s es).pending.get pid = some r → r.timer ≠ timer) →
      ∀ env, (Run.run (step S cfg) s es).fire S cfg env timer = Run.run (step S cfg) s es) ∧
    ∀ env pid lid error, ((Run.run (step S cfg) s es).set S cfg env pid lid).1 = .error error →
      (∀ q, q ≠ pid → ((Run.run (step S cfg) s es).set S cfg env pid lid).2.pending.get q =
        (Run.run (step S cfg) s es).pending.get q) ∧
      (((Run.run (step S cfg) s es).set S cfg env pid lid).2.node.link lid).state = .closed := by
  have hinv : (Run.run (step S cfg) s es).Inv :=
    hes.invariant (fun s e hs he => hs.step e he) hidle.inv
  generalize Run.run (step S cfg) s es = s' at hinv ⊢
  refine ⟨hinv.few, hinv.field, fun pid r hr => ⟨r.timer, ⟨r.link, (hinv.running _ _ _).2 hr⟩, ?_⟩, fun timer hnone env => ?_,
    fun env pid lid error herror => set_error herror⟩
  · rintro timer ⟨lid, htimer⟩
    have hrecord := (hinv.running _ _ _).1 htimer
    rw [hr] at hrecord
    cases hrecord
    rfl
  · rcases fire_cases S cfg env hinv timer with ⟨-, heq⟩ | ⟨pid, lid, -, hrecord, -⟩
    · exact heq
    · exact absurd rfl (hnone pid _ hrecord)

/-- A node that has just been made. -/
def toyNode : FipsNode where
  links := Heap.empty
  objs := Heap.empty
  handshakes := Heap.empty
  peers := []
  peersByPubkey := []
  peersByNodeAddr := []
  pendingResponders := []
  remoteEpochHistory := []
  connects := Heap.empty
  pendingPeerConnects := []
  nextFmpSessionIdx := 1
  pendingReports := []
  sessionManager := Manager.init
  startupEpoch := []
  admission := ⟨[]⟩
  discoveryGeneration := 0
  transportGeneration := 0
  lifecycle := .running
  hasStarted := true
  log := []

def toyNodeConfig : NodeConfig where
  identity := toyIdentity 1
  strictClient := false
  services := []
  traversalAnswer _ _ := none
  identityMayChangeAtAddress _ := false
  listener _ := none

def toyNodeEnv : NodeEnv where
  random := []
  nowMs := 0
  dateMs := 0
  coords := []
  destCoords := none
  hasUsableRoute _ := false
  ingest _ := none

/-- Two responders, of which the first is replaced and the second given up. -/
def toyResponders : List Event := [.set toyNodeEnv 0 5, .set toyNodeEnv 1 6, .set toyNodeEnv 0 7, .fire toyNodeEnv 1]

theorem responders_consistent_toy :
    ((Run.run (step toySuite toyNodeConfig) ⟨toyNode, [], [], 0⟩ toyResponders).node.peer 0).pendingResponderLink =
      ((Run.run (step toySuite toyNodeConfig) ⟨toyNode, [], [], 0⟩ toyResponders).pending.get 0).map PendingResponder.link :=
  (responders_consistent toySuite toyNodeConfig ⟨toyNode, [], [], 0⟩ toyResponders ⟨rfl, rfl, fun _ => rfl, rfl⟩
    ⟨trivial, trivial, trivial, trivial, trivial⟩).2.1 0

end PendingFmpResponders

end Fips
