import Fips.Lib.OptimisticWrites
import Fips.Lib.Run
import Fips.Node.RoutingStep
import Fips.Crypto.Toy

/-!
# The outbound filter of a peer

`BloomRouting.send` records a filter before it knows whether the announcement will arrive, and takes it back when it has
not. The filters of one peer are a cell of optimistic writes: whatever happens between its calls, a call of `send` is a
write or nothing, and the `catch` of a failed one puts back what it has found. The record is right as long as no `catch`
puts back a filter whose own announcement has failed.
-/

namespace Fips
open Exec LittleEndian OptimisticWrites

/-! ### The filter of a call -/

namespace BloomFilter

/-- The size and the hash count of this node's filters. -/
def Standard (f : BloomFilter) : Prop := f.bits.length = 1024 ∧ f.hashCount = DEFAULT_HASH_COUNT

variable {S : Suite} {f g : BloomFilter} {data : Bytes}

theorem standard_empty : empty.Standard := ⟨List.length_replicate, rfl⟩

theorem Standard.setBit (h : f.Standard) (index : Nat) : (f.setBit index).Standard :=
  ⟨by rw [BloomFilter.setBit, List.length_modify, h.1], h.2⟩

theorem Standard.insertBytes (h : f.Standard) (data : Bytes) : (f.insertBytes S data).Standard := by
  have hfold (ks : List Nat) (g : BloomFilter) (hg : g.Standard) :
      (ks.foldl (fun g k => g.setBit (f.hash S data k)) g).Standard := by
    induction ks generalizing g with
    | nil => exact hg
    | cons k ks ih => exact ih _ (hg.setBit _)
  exact hfold _ f h

theorem Standard.merge (h : f.Standard) {other : BloomFilter} (hg : f.merge other = .ok g) : g.Standard := by
  unfold BloomFilter.merge at hg
  split at hg
  · cases hg
  · rename_i hsize
    cases hg
    have hlen : f.bits.length = other.bits.length := by
      have := not_not.1 hsize
      unfold numBits at this
      omega
    exact ⟨by rw [List.length_zipWith, ← hlen, h.1, Nat.min_self], h.2⟩

end BloomFilter

namespace Routing

theorem outgoingFilterFor_standard {S : Suite} {cfg : RoutingConfig} {env : RoutingEnv} {p : PeerId} {r : Routing}
    {filter : BloomFilter} (h : outgoingFilterFor S cfg env p r = .ok filter) : filter.Standard := by
  have hfold {step : BloomFilter → PeerId → Except String BloomFilter}
      (hstep : ∀ f q g, f.Standard → step f q = .ok g → g.Standard) (qs : List PeerId) (f : BloomFilter) (hf : f.Standard)
      (hg : qs.foldlM step f = .ok filter) : filter.Standard := by
    induction qs generalizing f with
    | nil =>
      cases hg
      exact hf
    | cons q qs ih =>
      rw [List.foldlM_cons] at hg
      obtain ⟨g, hq, hg⟩ := except_bind_eq_ok.1 hg
      exact ih g (hstep f q g hf hq) hg
  have hself : (BloomFilter.empty.insertBytes S cfg.identity.nodeAddr).Standard :=
    BloomFilter.standard_empty.insertBytes _
  unfold outgoingFilterFor at h
  dsimp only at h
  split at h
  · cases h
    exact hself
  refine hfold (fun f q g hf hq => ?_) _ _ hself h
  split at hq
  · cases hq
    exact hf.insertBytes _
  split at hq
  · cases hq
    exact hf
  split at hq
  · exact hf.merge hq
  · cases hq
    exact hf

end Routing

/-! ### What has been announced -/

/-- The sequence and the filter that a message announces. -/
def LinkSend.announced (m : LinkSend) : Option (Nat × BloomFilter) :=
  if m.msgType = LinkMessageType.FilterAnnounce then
    ((decodeFilterAnnounce (UInt8.ofNat LinkMessageType.FilterAnnounce :: m.payload)).toOption).map fun announce =>
      (announce.sequence, announce.filter)
  else none

/-- An announcement to `p`, and whether its promise is fulfilled. -/
def RoutingEffect.filterSend (p : PeerId) : RoutingEffect → Option ((Nat × BloomFilter) × Bool)
  | .send m => if m.peer = p then m.announced.map fun announced => (announced, m.ok) else none
  | _ => none

/-- A failed announcement to `p` whose `catch` has not run yet. -/
def RoutingTask.filterFailing (p : PeerId) : RoutingTask → Option (Nat × Option (Nat × BloomFilter))
  | .filterFailed q sequence previous => if q = p then some (sequence, previous) else none
  | _ => none

namespace Routing

/-- The calls that have sent something to `p`, in their order. -/
def filterSends (p : PeerId) (r : Routing) : List ((Nat × BloomFilter) × Bool) := r.log.filterMap (RoutingEffect.filterSend p)

def filterFailing (p : PeerId) (r : Routing) : List (Nat × Option (Nat × BloomFilter)) :=
  r.tasks.filterMap (RoutingTask.filterFailing p)

def outboundFilter (p : PeerId) (r : Routing) : Option (Nat × BloomFilter) := (r.roles p).outboundFilter

/-- What the rest of the node may do between the calls: the record, the failing calls and the announcements are those of
`BloomRouting.send` alone. -/
structure Elsewhere (p : PeerId) (r r' : Routing) : Prop where
  outboundFilter : r'.outboundFilter p = r.outboundFilter p
  failing : r'.filterFailing p = r.filterFailing p
  sends : r'.filterSends p = r.filterSends p
  sequence : r.filterSequence ≤ r'.filterSequence

inductive FilterEvent
  | send (env : RoutingEnv)
  /-- The `catch` of a failed call. -/
  | failed (env : RoutingEnv) (task : Nat)
  | elsewhere (r' : Routing)

def filterStep (S : Suite) (G : Schnorr) (cfg : RoutingConfig) (p : PeerId) (r : Routing) : FilterEvent → Routing
  | .send env => settled (discard (sendFilter S cfg env p)) r
  | .failed env task => continueTask S G cfg env task r
  | .elsewhere r' => r'

/-- The events of calls for `p`; the 64-bit sequence lasts. -/
def Announcing (p : PeerId) (r : Routing) : FilterEvent → Prop
  | .send _ => r.filterSequence + 1 < 2 ^ 64
  | .failed _ task => (r.tasks[task]?).any (fun t => (t.filterFailing p).isSome) = true
  | .elsewhere r' => Elsewhere p r r'

/-- The announcement of `announced`, which comes after the first `n`, has failed. -/
def FilterFailed (p : PeerId) (n : Nat) (r : Routing) (announced : Nat × BloomFilter) : Prop :=
  (announced, false) ∈ (r.filterSends p).drop n ∧ announced.1 ∉ (r.filterFailing p).map Prod.fst

/-- A call that takes its filter back puts back one that was recorded before the others were made, or whose announcement
has not failed. -/
def RestoresSent (p : PeerId) (n : Nat) (r : Routing) : FilterEvent → Prop
  | .failed _ task => ∀ sequence previous announced, r.tasks[task]? = some (.filterFailed p sequence previous) →
      (r.outboundFilter p).map Prod.fst = some sequence → previous = some announced → ¬FilterFailed p n r announced
  | _ => True

/-- The last announcement to `p` that arrives, of those after the first `n`. -/
def lastAnnounced (p : PeerId) (n : Nat) (r : Routing) : Option (Nat × BloomFilter) :=
  ((((r.filterSends p).drop n).filter Prod.snd).map Prod.fst).getLast?

/-! ### The record as a cell -/

/-- The filters of `p` from a state on that has announced `n` times and recorded `initial`. -/
def filterCell (p : PeerId) (initial : Option (Nat × BloomFilter)) (n : Nat) (r : Routing) :
    Cell (Option (Nat × BloomFilter)) (Option Nat) where
  current := r.outboundFilter p
  writes := (initial, true) :: ((r.filterSends p).drop n).map fun e => (some e.1, e.2)
  failing := (r.filterFailing p).map fun e => (some e.1, e.2)

section
variable {S : Suite} {G : Schnorr} {cfg : RoutingConfig} {env : RoutingEnv} {p : PeerId} {r r' : Routing}
  {initial : Option (Nat × BloomFilter)} {n : Nat}

/-- A call has recorded `filter` and announced it under the next sequence. -/
structure Announced (p : PeerId) (r : Routing) (filter : BloomFilter) (ok : Bool) (r' : Routing) : Prop where
  outboundFilter : r'.outboundFilter p = some (r.filterSequence + 1, filter)
  sends : r'.filterSends p = r.filterSends p ++ [((r.filterSequence + 1, filter), ok)]
  failing : r'.filterFailing p =
    if ok then r.filterFailing p else r.filterFailing p ++ [(r.filterSequence + 1, r.outboundFilter p)]
  sequence : r'.filterSequence = r.filterSequence + 1

theorem announced_filterAnnounce {fa : FilterAnnounce} (h : fa.Wire) (cause : SendCause) (q : PeerId) (view : PeerView)
    (ok : Bool) : LinkSend.announced ⟨cause, q, view, LinkMessageType.FilterAnnounce, fa.bytes.tail, ok⟩ =
      some (fa.sequence, fa.filter) := by
  have hbytes : UInt8.ofNat LinkMessageType.FilterAnnounce :: fa.bytes.tail = fa.bytes := rfl
  rw [LinkSend.announced, if_pos rfl, hbytes, h.decode]
  rfl

/-- A call changes nothing, or it announces the filter it records. -/
theorem sendFilter_cases (hlast : r.filterSequence + 1 < 2 ^ 64) :
    settled (discard (sendFilter S cfg env p)) r = r ∨
      ∃ filter ok, outgoingFilterFor S cfg env p r = .ok filter ∧
        Announced p r filter ok (settled (discard (sendFilter S cfg env p)) r) := by
  generalize hQ : (fun r' : Routing => r' = r ∨
    ∃ filter ok, outgoingFilterFor S cfg env p r = .ok filter ∧ Announced p r filter ok r') = Q
  have hwp : wp (discard (sendFilter S cfg env p)) (fun _ => Q) (fun _ => Q) r := ?_
  · subst hQ
    exact wp_after.2 hwp
  subst hQ
  refine wp_bind.2 ?_
  unfold sendFilter
  refine wp_ite.2 ⟨fun _ => wp_pure.2 (.inl rfl), fun _ => ?_⟩
  rw [wp_bind, wp_get]
  refine wp_bind.2 (wp_lift.2 ⟨fun filter hfilter => ?_, fun _ _ => .inl rfl⟩)
  refine wp_ite.2 ⟨fun _ => wp_pure.2 (.inl rfl), fun _ => ?_⟩
  have hstandard := outgoingFilterFor_standard hfilter
  have hwire : FilterAnnounce.Wire ⟨filter, r.filterSequence + 1, filter.hashCount, V1_SIZE_CLASS⟩ := by
    refine ⟨hlast, rfl, ?_, ?_, rfl, hstandard.1⟩
    · show 0 < filter.hashCount
      rw [hstandard.2]
      decide
    · show filter.hashCount < 256
      rw [hstandard.2]
      decide
  have hbuild : buildFilterAnnounce filter (r.filterSequence + 1) =
      .ok ⟨filter, r.filterSequence + 1, filter.hashCount, V1_SIZE_CLASS⟩ := by
    rw [buildFilterAnnounce, show expectedFilterBytes V1_SIZE_CLASS = .ok 1024 from rfl, ok_bind,
      if_neg (not_not.2 hstandard.1)]
    rfl
  rw [wp_bind, wp_set, hbuild, ok_bind, hwire.encode]
  refine wp_bind.2 (wp_lift.2 ⟨fun encoded hencoded => ?_, fun _ he => by cases he⟩)
  cases hencoded
  have hannounced := fun ok => announced_filterAnnounce hwire .own p (env.peer p) ok
  rw [wp_bind, wp_modify]
  refine wp_ite.2 ⟨fun hok => ?_, fun hok => wp_pure.2 (.inr ⟨filter, true, hfilter, ?_⟩)⟩
  · rw [wp_bind, wp_modify]
    refine wp_pure.2 (.inr ⟨filter, false, hfilter, ?_⟩)
    simp only [Bool.not_eq_true'] at hok
    refine ⟨?_, ?_, ?_, rfl⟩
    · simp [outboundFilter, later, sendLinkMessage, transmit, modifyRole]
    · simp [filterSends, later, sendLinkMessage, transmit, modifyRole, RoutingEffect.filterSend, hok, hannounced]
    · simp [Routing.filterFailing, later, sendLinkMessage, transmit, modifyRole, RoutingTask.filterFailing, outboundFilter]
  · simp only [Bool.not_eq_true', Bool.not_eq_false] at hok
    refine ⟨?_, ?_, ?_, rfl⟩
    · simp [outboundFilter, sendLinkMessage, transmit, modifyRole]
    · simp [filterSends, sendLinkMessage, transmit, modifyRole, RoutingEffect.filterSend, hok, hannounced]
    · simp [Routing.filterFailing, sendLinkMessage, transmit, modifyRole]

theorem filterMap_eraseIdx {α β : Type} {f : α → Option β} {l : List α} {i : Nat} {a : α} {b : β} (ha : l[i]? = some a)
    (hb : f a = some b) :
    ∃ k, (l.filterMap f)[k]? = some b ∧ (l.eraseIdx i).filterMap f = (l.filterMap f).eraseIdx k := by
  obtain ⟨l₁, l₂, hl, herase⟩ := Cell.split_at ha
  refine ⟨(l₁.filterMap f).length, ?_, ?_⟩
  · rw [hl, List.filterMap_append, List.filterMap_cons_some hb, List.getElem?_append_right le_rfl, Nat.sub_self]
    rfl
  · rw [herase, hl, List.filterMap_append, List.filterMap_append, List.filterMap_cons_some hb,
      List.eraseIdx_append_of_length_le le_rfl, Nat.sub_self]
    rfl

/-- The `catch` of a call has run. -/
structure TakenBack (p : PeerId) (r : Routing) (sequence : Nat) (previous : Option (Nat × BloomFilter)) (k : Nat)
    (r' : Routing) : Prop where
  failing : (r.filterFailing p)[k]? = some (sequence, previous)
  erased : r'.filterFailing p = (r.filterFailing p).eraseIdx k
  outboundFilter : r'.outboundFilter p =
    if (r.outboundFilter p).map Prod.fst = some sequence then previous else r.outboundFilter p
  sends : r'.filterSends p = r.filterSends p
  sequence : r'.filterSequence = r.filterSequence

theorem continueTask_filterFailed {task sequence : Nat} {previous : Option (Nat × BloomFilter)}
    (h : r.tasks[task]? = some (.filterFailed p sequence previous)) :
    ∃ k, TakenBack p r sequence previous k (continueTask S G cfg env task r) := by
  have hfailing : RoutingTask.filterFailing p (.filterFailed p sequence previous) = some (sequence, previous) := if_pos rfl
  obtain ⟨k, hk, herase⟩ := filterMap_eraseIdx h hfailing
  have hrun : continueTask S G cfg env task r = modifyRole p (fun role =>
      if (role.outboundFilter.map Prod.fst) = some sequence then { role with outboundFilter := previous } else role)
      { r with tasks := r.tasks.eraseIdx task } := by
    simp only [continueTask, h]
    rfl
  rw [hrun]
  refine ⟨k, hk, herase, ?_, rfl, rfl⟩
  unfold outboundFilter
  by_cases hcurrent : (r.roles p).outboundFilter.map Prod.fst = some sequence
  · simp [modifyRole, hcurrent]
  · simp [modifyRole, hcurrent]

/-- What holds in a run: the calls are a cell of writes, under sequences that have been drawn. -/
structure Tracks (p : PeerId) (initial : Option (Nat × BloomFilter)) (n : Nat) (r : Routing) : Prop where
  cell : (filterCell p initial n r).Inv (Option.map Prod.fst)
  drawn : ∀ w ∈ (filterCell p initial n r).writes, ∀ a ∈ w.1, a.1 ≤ r.filterSequence
  sent : n ≤ (r.filterSends p).length

theorem Tracks.elsewhere (h : Tracks p initial n r) (he : Elsewhere p r r') : Tracks p initial n r' := by
  have hcell : filterCell p initial n r' = filterCell p initial n r := by
    rw [filterCell, filterCell, he.outboundFilter, he.failing, he.sends]
  refine ⟨hcell ▸ h.cell, fun w hw a ha => ?_, he.sends ▸ h.sent⟩
  rw [hcell] at hw
  exact (h.drawn w hw a ha).trans he.sequence

theorem Tracks.announced (h : Tracks p initial n r) {filter : BloomFilter} {ok : Bool} (ha : Announced p r filter ok r') :
    Tracks p initial n r' := by
  have hcell : filterCell p initial n r' =
      (filterCell p initial n r).write (Option.map Prod.fst) (some (r.filterSequence + 1, filter)) ok := by
    rw [filterCell, filterCell, Cell.write, ha.outboundFilter, ha.failing, ha.sends, List.drop_append_of_le_length h.sent]
    cases ok <;> simp
  have hfresh : Option.map Prod.fst (some (r.filterSequence + 1, filter)) ∉
      (filterCell p initial n r).writes.map fun w => Option.map Prod.fst w.1 := by
    intro hmem
    obtain ⟨w, hw, hid⟩ := List.mem_map.1 hmem
    obtain ⟨a, ha, hseq⟩ := Option.map_eq_some_iff.1 hid
    have := h.drawn w hw a ha
    omega
  refine ⟨hcell ▸ h.cell.write hfresh, fun w hw a haw => ?_, ?_⟩
  · rw [hcell] at hw
    rw [ha.sequence]
    rcases List.mem_append.1 hw with hold | hnew
    · exact (h.drawn w hold a haw).trans (Nat.le_succ _)
    · cases List.mem_singleton.1 hnew
      cases haw
      exact le_rfl
  · rw [ha.sends, List.length_append]
    exact h.sent.trans (Nat.le_add_right _ _)

theorem failed_of_cell {announced : Nat × BloomFilter}
    (h : (filterCell p initial n r).Failed (Option.map Prod.fst) (some announced)) : FilterFailed p n r announced := by
  obtain ⟨hwrite, hnot⟩ := h
  refine ⟨?_, fun hmem => hnot ?_⟩
  · rcases List.mem_cons.1 hwrite with heq | hmem
    · cases heq
    · obtain ⟨e, he, heq⟩ := List.mem_map.1 hmem
      have hsame : e = (announced, false) := by
        obtain ⟨h₁, h₂⟩ := Prod.mk.injEq .. ▸ heq
        exact Prod.ext (Option.some.inj h₁) h₂
      exact hsame ▸ he
  · obtain ⟨e, he, hseq⟩ := List.mem_map.1 hmem
    exact List.mem_map.2 ⟨(some e.1, e.2), List.mem_map.2 ⟨e, he, rfl⟩, congrArg some hseq⟩

theorem Tracks.takenBack (h : Tracks p initial n r) {sequence k : Nat} {previous : Option (Nat × BloomFilter)}
    (ht : TakenBack p r sequence previous k r')
    (hsent : (r.outboundFilter p).map Prod.fst = some sequence → ∀ announced, previous = some announced →
      ¬FilterFailed p n r announced) : Tracks p initial n r' := by
  have hget : (filterCell p initial n r).failing[k]? = some (some sequence, previous) := by
    rw [filterCell, List.getElem?_map, ht.failing]
    rfl
  have hcell : filterCell p initial n r' = (filterCell p initial n r).fail (Option.map Prod.fst) k := by
    rw [Cell.fail, hget, filterCell, ht.outboundFilter, ht.erased, ht.sends, ← List.eraseIdx_map]
    rfl
  have hrestores : (filterCell p initial n r).Restores (Option.map Prod.fst) k := by
    intro e he hcurrent hfailed
    rw [hget] at he
    cases he
    cases previous with
    | none =>
      rcases List.mem_cons.1 hfailed.1 with heq | hmem
      · cases heq
      · obtain ⟨e, -, heq⟩ := List.mem_map.1 hmem
        cases heq
    | some announced => exact hsent hcurrent announced rfl (failed_of_cell hfailed)
  refine ⟨hcell ▸ h.cell.fail hrestores, fun w hw a ha => ?_, ht.sends ▸ h.sent⟩
  rw [hcell, Cell.fail, hget] at hw
  rw [ht.sequence]
  exact h.drawn w hw a ha

theorem exists_of_failed {env : RoutingEnv} {task : Nat} (h : Announcing p r (.failed env task)) :
    ∃ sequence previous, r.tasks[task]? = some (.filterFailed p sequence previous) := by
  cases htask : r.tasks[task]? with
  | none =>
    rw [Announcing, htask] at h
    cases h
  | some t =>
    have hfailing : (t.filterFailing p).isSome = true := by
      rw [Announcing, htask] at h
      exact h
    cases t with
    | filterFailed q sequence previous =>
      by_cases hq : q = p
      · exact ⟨sequence, previous, by rw [hq]⟩
      · rw [RoutingTask.filterFailing, if_neg hq] at hfailing
        cases hfailing
    | _ => cases hfailing

theorem Tracks.step (h : Tracks p initial n r) (e : FilterEvent) (ha : Announcing p r e) (hr : RestoresSent p n r e) :
    Tracks p initial n (filterStep S G cfg p r e) := by
  cases e with
  | send env =>
    rcases @sendFilter_cases S cfg env p r ha with hsame | ⟨filter, ok, -, hannounced⟩
    · rw [show filterStep S G cfg p r (.send env) = r from hsame]
      exact h
    · exact h.announced hannounced
  | failed env task =>
    obtain ⟨sequence, previous, htask⟩ := exists_of_failed ha
    obtain ⟨k, hk⟩ := @continueTask_filterFailed S G cfg env _ _ _ _ _ htask
    exact h.takenBack hk fun hcurrent announced hprevious => hr sequence previous announced htask hcurrent hprevious
  | elsewhere r' => exact h.elsewhere ha

theorem Tracks.run {es : List FilterEvent} (h : Tracks p initial n r)
    (hrun : Run.Along (Announcing p) (filterStep S G cfg p) r es)
    (hsent : Run.Along (RestoresSent p n) (filterStep S G cfg p) r es) :
    Tracks p initial n (Run.run (filterStep S G cfg p) r es) := by
  induction es generalizing r with
  | nil => exact h
  | cons e es ih => exact ih (h.step e hrun.1 hsent.1) hrun.2 hsent.2

theorem Tracks.start (hidle : r.filterFailing p = []) (hdrawn : ∀ a ∈ r.outboundFilter p, a.1 ≤ r.filterSequence) :
    Tracks p (r.outboundFilter p) (r.filterSends p).length r := by
  have hcell : filterCell p (r.outboundFilter p) (r.filterSends p).length r = Cell.init (r.outboundFilter p) := by
    rw [filterCell, Cell.init, hidle, List.drop_length]
    rfl
  refine ⟨hcell ▸ Cell.Inv.init, fun w hw a ha => ?_, le_rfl⟩
  rw [hcell] at hw
  cases List.mem_singleton.1 hw
  exact hdrawn a ha

/-- When no call for `p` is left to fail, the last announcement that arrives is recorded. -/
theorem Tracks.recorded (h : Tracks p initial n r) (hidle : r.filterFailing p = []) :
    r.outboundFilter p = (r.lastAnnounced p n).or initial := by
  have hlatest := h.cell.latest (show (filterCell p initial n r).failing = [] by rw [filterCell, hidle]; rfl) none
  have hwrites : ((filterCell p initial n r).writes.filter Prod.snd).map Prod.fst =
      initial :: ((((r.filterSends p).drop n).filter Prod.snd).map Prod.fst).map some := by
    rw [filterCell, List.filter_cons, if_pos rfl, List.filter_map, List.map_cons, List.map_map, List.map_map]
    rfl
  rw [show r.outboundFilter p = _ from hlatest, latest, hwrites, lastAnnounced, List.getLastD_cons, List.getLastD_eq_getLast?,
    List.getLast?_map]
  cases ((((r.filterSends p).drop n).filter Prod.snd).map Prod.fst).getLast? <;> rfl

/-- In a run in which no `catch` puts back the filter of a failed announcement, what is recorded for a peer, whenever no call
for it is left to fail, is the last announcement that has arrived, or what was recorded before the first. -/
theorem outboundFilter_recorded {es : List FilterEvent} (hstart : r.filterFailing p = [])
    (hdrawn : ∀ a ∈ r.outboundFilter p, a.1 ≤ r.filterSequence)
    (hrun : Run.Along (Announcing p) (filterStep S G cfg p) r es)
    (hsent : Run.Along (RestoresSent p (r.filterSends p).length) (filterStep S G cfg p) r es)
    (hidle : (Run.run (filterStep S G cfg p) r es).filterFailing p = []) :
    (Run.run (filterStep S G cfg p) r es).outboundFilter p =
      ((Run.run (filterStep S G cfg p) r es).lastAnnounced p (r.filterSends p).length).or (r.outboundFilter p) :=
  ((Tracks.start hstart hdrawn).run hrun hsent).recorded hidle

end

/-! ### Two calls that fail in the order they were made -/

def toyForwarder : RoutingConfig := toyRouting .tree true

/-- Peers whose links are established, and no message arrives. -/
def toyLossy (peers : List PeerId) : RoutingEnv := toyNeighbours peers false

/-- Peer 1 is a client. -/
def toyWithClient : Routing := (Routing.new toyForwarder 0).modifyRole 1 fun role => { role with clientOnly := true }

def toyFilterStep : Routing → FilterEvent → Routing := filterStep toySuite toySchnorr toyForwarder 0

/-- An announcement, one with a new client in it, and their failures. -/
def toyFailures : List FilterEvent :=
  [.send (toyLossy [0]), .send (toyLossy [0, 1]), .failed (toyLossy [0]) 0, .failed (toyLossy [0]) 0]

/-- The first filter is recorded though it never arrived, so that the next call with it sends nothing. -/
theorem failed_filter_recorded : Run.Along (Announcing 0) toyFilterStep toyWithClient toyFailures ∧
    (Run.run toyFilterStep toyWithClient toyFailures).filterFailing 0 = [] ∧
    (Run.run toyFilterStep toyWithClient toyFailures).lastAnnounced 0 0 = none ∧
    ((Run.run toyFilterStep toyWithClient toyFailures).outboundFilter 0).isSome = true ∧
    toyWithClient.outboundFilter 0 = none ∧
    (toyFilterStep (Run.run toyFilterStep toyWithClient toyFailures) (.send (toyLossy [0]))).log =
      (Run.run toyFilterStep toyWithClient toyFailures).log := by
  refine ⟨⟨show _ < _ by decide +kernel, show _ < _ by decide +kernel, show Option.any _ _ = true by decide +kernel,
    show Option.any _ _ = true by decide +kernel, trivial⟩, ?_⟩
  decide +kernel

/-- The other client's path works. -/
def toyArriving : RoutingEnv := toyNeighbours [0, 1] true

/-- A lost announcement and one behind it that arrives. -/
def toyRecovery : List FilterEvent := [.send (toyLossy [0]), .send toyArriving, .failed (toyLossy [0]) 0]

theorem outboundFilter_recorded_toy : (Run.run toyFilterStep toyWithClient toyRecovery).outboundFilter 0 =
    ((Run.run toyFilterStep toyWithClient toyRecovery).lastAnnounced 0 0).or none := by
  have hrun : Run.Along (Announcing 0) toyFilterStep toyWithClient toyRecovery :=
    ⟨show _ < _ by decide +kernel, show _ < _ by decide +kernel, show Option.any _ _ = true by decide +kernel, trivial⟩
  have hsent : Run.Along (RestoresSent 0 0) toyFilterStep toyWithClient toyRecovery := by
    refine ⟨trivial, trivial, fun sequence previous announced htask _ hprevious => ?_, trivial⟩
    have hfirst : (toyFilterStep (toyFilterStep toyWithClient (.send (toyLossy [0]))) (.send toyArriving)).tasks[0]? =
        some (.filterFailed 0 1 none) := by decide +kernel
    rw [hfirst] at htask
    cases htask
    cases hprevious
  exact outboundFilter_recorded (by decide +kernel) (by decide +kernel) hrun hsent (by decide +kernel)

end Routing

end Fips
