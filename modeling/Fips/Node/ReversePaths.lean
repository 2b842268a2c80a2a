import Fips.Node.Transit

/-!
# Reverse paths

Every reverse path stems from a request that was received, every request sent on it is the one stored, and a next
hop is on record from the call of `sendLinkMessage` until that call has failed. `claims` are the pairs of a reverse
path and a next hop that are on record for a reason: the request has been sent, or it has failed and the task that
strikes the next hop from the record has not run yet. No pair is there twice, so none is sent twice.
-/

namespace Fips
open Exec LittleEndian

/-- The reverse path and the next hop of a request that has been sent. -/
def RoutingEffect.reached (S : Suite) : RoutingEffect → Option (ReverseId × NodeAddr)
  | .send m =>
    match m.cause with
    | .reverse rid => if m.ok ∧ m.msgType = LinkMessageType.LookupRequest then some (rid, nodeAddrOf S m.view.pubkey) else none
    | _ => none
  | _ => none

/-- The next hops that are struck from the record when the task runs. -/
def RoutingTask.unreached : RoutingTask → List (ReverseId × NodeAddr)
  | .forwarded _ rid results => (results.filter fun e => !e.2).map fun e => (rid, e.1)
  | .sent rid nextHop ok => if ok then [] else [(rid, nextHop)]
  | _ => []

/-- A response that goes back on a reverse path. -/
def RoutingEffect.answers (rid : ReverseId) : RoutingEffect → Bool
  | .send m => m.cause = .reverse rid ∧ m.msgType = LinkMessageType.LookupResponse
  | _ => false

def LookupReversePath.key (reverse : LookupReversePath) : ReverseKey :=
  lookupReverseKey reverse.request.requestId reverse.request.target

namespace Lookups

/-- The requests the reverse paths were made for. -/
def requests (l : Lookups) : Multiset LookupRequest := ↑(l.reverses.map LookupReversePath.request)

def responses (rid : ReverseId) (l : Lookups) : Nat := l.log.countP (RoutingEffect.answers rid)

def claims (S : Suite) (l : Lookups) : List (ReverseId × NodeAddr) :=
  l.log.filterMap (RoutingEffect.reached S) ++ l.tasks.flatMap RoutingTask.unreached

/-- A message of a reverse path. -/
def Sent (l : Lookups) (rid : ReverseId) (m : LinkSend) : Prop :=
  ∃ reverse, l.reverses[rid]? = some reverse ∧
    ((m.msgType = LinkMessageType.LookupRequest ∧ decodeLookupRequest m.payload = .ok reverse.request) ∨
      m.msgType = LinkMessageType.LookupResponse)

structure Inv (l : Lookups) : Prop where
  keyed : ∀ e ∈ l.paths, ∃ reverse, l.reverses[e.2]? = some reverse ∧ reverse.key = e.1
  keys : JsMap.Nodup l.paths
  few : l.paths.length ≤ MAX_LOOKUP_REVERSE_PATHS
  wire : ∀ reverse ∈ l.reverses, reverse.request.Wire
  sent : ∀ m, .send m ∈ l.log → ∀ rid, m.cause = .reverse rid → l.Sent rid m
  /-- A reverse path that has been answered is not in the table. -/
  answered : ∀ rid, l.responses rid + (l.paths.map Prod.snd).count rid ≤ 1

structure Claimed (S : Suite) (N : Set NodeAddr) (l : Lookups) : Prop where
  nodup : (l.claims S).Nodup
  recorded : ∀ e ∈ l.claims S, ∃ reverse, l.reverses[e.1]? = some reverse ∧ e.2 ∈ reverse.forwardedNextHops
  known : ∀ e ∈ l.claims S, e.2 ∈ N

/-! ### Operations -/

/-- The stored paths change, their requests do not. -/
def modify (rid : ReverseId) (f : LookupReversePath → LookupReversePath) (l : Lookups) : Lookups :=
  { l with reverses := l.reverses.modify rid f }

def withPaths (paths : JsMap ReverseKey ReverseId) (l : Lookups) : Lookups := { l with paths }

def withTasks (tasks : List RoutingTask) (l : Lookups) : Lookups := { l with tasks }

/-- Messages are sent, and a task knows which of them will fail. -/
def extend (sends : List RoutingEffect) (tasks : List RoutingTask) (l : Lookups) : Lookups :=
  { l with log := l.log ++ sends, tasks := l.tasks ++ tasks }

def add (key : ReverseKey) (reverse : LookupReversePath) (l : Lookups) : Lookups :=
  { l with paths := l.paths.set key l.reverses.length, reverses := l.reverses ++ [reverse] }

section
variable {S : Suite} {N : Set NodeAddr} {l : Lookups} {rid : ReverseId} {f : LookupReversePath → LookupReversePath}

theorem getElem?_modify_of (hf : ∀ v, (f v).request = v.request) {i : ReverseId} {v : LookupReversePath}
    (h : l.reverses[i]? = some v) : ∃ v', (l.modify rid f).reverses[i]? = some v' ∧ v'.request = v.request := by
  show ∃ v', (l.reverses.modify rid f)[i]? = some v' ∧ _
  rw [List.getElem?_modify, h]
  refine ⟨_, rfl, ?_⟩
  split
  · exact hf v
  · rfl

theorem requests_modify (hf : ∀ v, (f v).request = v.request) : (l.modify rid f).requests = l.requests := by
  unfold requests
  congr 1
  refine List.ext_getElem? fun i => ?_
  show ((l.reverses.modify rid f).map _)[i]? = _
  rw [List.getElem?_map, List.getElem?_map, List.getElem?_modify]
  cases l.reverses[i]? with
  | none => rfl
  | some v =>
    show some (if rid = i then f v else v).request = some v.request
    split
    · rw [hf]
    · rfl

theorem Sent.modify (hf : ∀ v, (f v).request = v.request) {i : ReverseId} {m : LinkSend} (h : l.Sent i m) :
    (l.modify rid f).Sent i m := by
  obtain ⟨v, hv, hm⟩ := h
  obtain ⟨v', hv', hreq⟩ := (@getElem?_modify_of _ rid) hf hv
  exact ⟨v', hv', by rwa [hreq]⟩

theorem Inv.modify (h : l.Inv) (hf : ∀ v, (f v).request = v.request) : (l.modify rid f).Inv where
  keyed e he := by
    obtain ⟨v, hv, hk⟩ := h.keyed e he
    obtain ⟨v', hv', hreq⟩ := (@getElem?_modify_of _ rid) hf hv
    exact ⟨v', hv', by rw [LookupReversePath.key, hreq]; exact hk⟩
  keys := h.keys
  few := h.few
  wire v hv := by
    obtain ⟨i, hi⟩ := List.mem_iff_getElem?.1 hv
    have hi' : (l.reverses.modify rid f)[i]? = some v := hi
    rw [List.getElem?_modify] at hi'
    obtain ⟨v₀, hv₀, rfl⟩ := Option.map_eq_some_iff.1 hi'
    have hw := h.wire v₀ (List.mem_of_getElem? hv₀)
    split
    · rw [hf]
      exact hw
    · exact hw
  sent m hm i hc := (h.sent m hm i hc).modify hf
  answered := h.answered

theorem Inv.of_sublist (h : l.Inv) {paths : JsMap ReverseKey ReverseId} (hs : paths.Sublist l.paths) :
    (l.withPaths paths).Inv where
  keyed e he := h.keyed e (hs.subset he)
  keys := h.keys.sublist (hs.map _)
  few := hs.length_le.trans h.few
  wire := h.wire
  sent := h.sent
  answered i := (add_le_add_right ((hs.map Prod.snd).count_le i) _).trans (h.answered i)

theorem Inv.withTasks (h : l.Inv) (tasks : List RoutingTask) : (l.withTasks tasks).Inv :=
  ⟨h.keyed, h.keys, h.few, h.wire, h.sent, h.answered⟩

/-- The handles in the table are distinct. -/
theorem Inv.handles (h : l.Inv) : (l.paths.map Prod.snd).Nodup :=
  List.nodup_iff_count_le_one.2 fun i => (Nat.le_add_left _ _).trans (h.answered i)

theorem Inv.lt_of_mem (h : l.Inv) {e : ReverseKey × ReverseId} (he : e ∈ l.paths) : e.2 < l.reverses.length := by
  obtain ⟨v, hv, -⟩ := h.keyed e he
  exact (List.getElem?_eq_some_iff.1 hv).1

theorem Inv.responses_eq_zero (h : l.Inv) {i : ReverseId} (hi : l.reverses.length ≤ i) : l.responses i = 0 := by
  refine List.countP_eq_zero.2 fun e he hanswers => ?_
  cases e with
  | send m =>
    simp only [RoutingEffect.answers, decide_eq_true_eq] at hanswers
    obtain ⟨v, hv, -⟩ := h.sent m he i hanswers.1
    exact absurd (List.getElem?_eq_some_iff.1 hv).1 (not_lt.2 hi)
  | handleLocalSession p src payload => exact absurd hanswers (by simp [RoutingEffect.answers])
  | resolveAndConnect dest promise => exact absurd hanswers (by simp [RoutingEffect.answers])

/-- Requests are sent on a reverse path. -/
theorem Inv.extend (h : l.Inv) {reverse : LookupReversePath} (hrid : l.reverses[rid]? = some reverse)
    {sends : List RoutingEffect} (tasks : List RoutingTask)
    (hsends : ∀ e ∈ sends, ∃ m, e = .send m ∧ m.cause = .reverse rid ∧ m.msgType = LinkMessageType.LookupRequest ∧
      decodeLookupRequest m.payload = .ok reverse.request) : (l.extend sends tasks).Inv where
  keyed := h.keyed
  keys := h.keys
  few := h.few
  wire := h.wire
  sent m hm i hc := by
    rcases List.mem_append.1 hm with hm | hm
    · exact h.sent m hm i hc
    · obtain ⟨m', hm', hc', hty, hdec⟩ := hsends _ hm
      cases hm'
      obtain rfl := SendCause.reverse.inj (hc'.symm.trans hc)
      exact ⟨reverse, hrid, .inl ⟨hty, hdec⟩⟩
  answered i := by
    have hzero : sends.countP (RoutingEffect.answers i) = 0 := by
      refine List.countP_eq_zero.2 fun e he hanswers => ?_
      obtain ⟨m, rfl, -, hty, -⟩ := hsends e he
      simp only [RoutingEffect.answers, decide_eq_true_eq, hty] at hanswers
      exact absurd hanswers.2 (by decide)
    show (l.log ++ sends).countP _ + _ ≤ 1
    rw [List.countP_append, hzero, Nat.add_zero]
    exact h.answered i

theorem set_of_absent {m : JsMap ReverseKey ReverseId} {key : ReverseKey} (h : m.get key = none) :
    m.set key rid = m ++ [(key, rid)] := by
  induction m with
  | nil => rfl
  | cons e m ih =>
    rw [JsMap.get_cons] at h
    split at h
    · cases h
    · rename_i hne
      unfold JsMap.set
      rw [if_neg hne, ih h]
      rfl

/-- A new reverse path. -/
theorem Inv.add (h : l.Inv) {reverse : LookupReversePath} (hwire : reverse.request.Wire)
    (habsent : l.paths.get reverse.key = none) (hfew : l.paths.length < MAX_LOOKUP_REVERSE_PATHS) :
    (l.add reverse.key reverse).Inv := by
  have hset := (@set_of_absent l.reverses.length) habsent
  have hold {i : ReverseId} {v : LookupReversePath} (hv : l.reverses[i]? = some v) :
      (l.reverses ++ [reverse])[i]? = some v :=
    (List.getElem?_append_left (List.getElem?_eq_some_iff.1 hv).1).trans hv
  refine ⟨fun e he => ?_, h.keys.set _ _, ?_, fun v hv => ?_, fun m hm i hc => ?_, fun i => ?_⟩
  · change e ∈ l.paths.set reverse.key l.reverses.length at he
    rw [hset] at he
    rcases List.mem_append.1 he with he | he
    · obtain ⟨v, hv, hk⟩ := h.keyed e he
      exact ⟨v, hold hv, hk⟩
    · obtain rfl := List.mem_singleton.1 he
      exact ⟨reverse, List.getElem?_concat_length, rfl⟩
  · show List.length (l.paths.set reverse.key l.reverses.length) ≤ _
    rw [hset, List.length_append]
    exact hfew
  · rcases List.mem_append.1 hv with hv | hv
    · exact h.wire v hv
    · obtain rfl := List.mem_singleton.1 hv
      exact hwire
  · obtain ⟨v, hv, hm⟩ := h.sent m hm i hc
    exact ⟨v, hold hv, hm⟩
  · show l.responses i + ((l.paths.set reverse.key l.reverses.length).map Prod.snd).count i ≤ 1
    rw [hset, List.map_append, List.count_append]
    by_cases hi : i = l.reverses.length
    · subst hi
      have hzero : (l.paths.map Prod.snd).count l.reverses.length = 0 := by
        refine List.count_eq_zero.2 fun hmem => ?_
        obtain ⟨e, he, hlen⟩ := List.mem_map.1 hmem
        exact (h.lt_of_mem he).ne hlen
      rw [h.responses_eq_zero le_rfl, hzero]
      simp
    · have hone : ([(reverse.key, l.reverses.length)].map Prod.snd).count i = 0 := by
        refine List.count_eq_zero.2 fun hmem => ?_
        exact hi (List.mem_singleton.1 hmem)
      rw [hone]
      exact h.answered i

theorem requests_add (key : ReverseKey) (reverse : LookupReversePath) :
    (l.add key reverse).requests = l.requests + {reverse.request} := by
  simp [add, requests, ← Multiset.coe_add]

/-- A response goes back, and its reverse path leaves the table. -/
theorem Inv.answer (h : l.Inv) {key : ReverseKey} (hget : l.paths.get key = some rid) {m : LinkSend}
    (hcause : m.cause = .reverse rid) (hty : m.msgType = LinkMessageType.LookupResponse) :
    ((l.withPaths (l.paths.delete key)).extend [.send m] []).Inv := by
  have hmem := JsMap.mem_of_get hget
  have hsub : (l.paths.delete key).Sublist l.paths := List.filter_sublist
  have hdel := h.of_sublist hsub
  refine ⟨hdel.keyed, hdel.keys, hdel.few, hdel.wire, fun m' hm' i hc => ?_, fun i => ?_⟩
  · rcases List.mem_append.1 hm' with hm' | hm'
    · exact h.sent m' hm' i hc
    · obtain rfl := RoutingEffect.send.inj (List.mem_singleton.1 hm')
      obtain rfl := SendCause.reverse.inj (hcause.symm.trans hc)
      obtain ⟨v, hv, -⟩ := h.keyed _ hmem
      exact ⟨v, hv, .inr hty⟩
  · show (l.log ++ [RoutingEffect.send m]).countP _ + ((l.paths.delete key).map Prod.snd).count i ≤ 1
    rw [List.countP_append]
    have hcount := (hsub.map Prod.snd).count_le i
    by_cases hi : i = rid
    · subst hi
      -- the answered path was in the table, and nowhere else
      have hgone : ((l.paths.delete key).map Prod.snd).count i = 0 := by
        refine List.count_eq_zero.2 fun hin => ?_
        obtain ⟨e, he, hei⟩ := List.mem_map.1 hin
        obtain ⟨hel, hek⟩ := JsMap.mem_delete.1 he
        obtain ⟨v, hv, hvk⟩ := h.keyed e hel
        obtain ⟨v', hv', hvk'⟩ := h.keyed _ hmem
        rw [hei] at hv
        obtain rfl := Option.some.inj (hv.symm.trans hv')
        exact hek (hvk.symm.trans hvk')
      have hpos : 0 < (l.paths.map Prod.snd).count i := List.count_pos_iff.2 (List.mem_map_of_mem (f := Prod.snd) hmem)
      have hle := h.answered i
      have hone : [RoutingEffect.send m].countP (RoutingEffect.answers i) ≤ 1 := List.countP_le_length
      unfold responses at hle
      omega
    · have hone : [RoutingEffect.send m].countP (RoutingEffect.answers i) = 0 := by
        refine List.countP_eq_zero.2 fun e he hanswers => ?_
        obtain rfl := List.mem_singleton.1 he
        simp only [RoutingEffect.answers, decide_eq_true_eq, hcause] at hanswers
        exact hi (SendCause.reverse.inj hanswers.1).symm
      have hle := h.answered i
      unfold responses at hle
      omega

/-! ### Claims -/

theorem Claimed.of_reverses (h : l.Claimed S N) {l' : Lookups} (hlog : l'.log = l.log) (htasks : l'.tasks = l.tasks)
    (hkept : ∀ (i : ReverseId) (v : LookupReversePath), l.reverses[i]? = some v →
      ∃ v' : LookupReversePath, l'.reverses[i]? = some v' ∧ v.forwardedNextHops ⊆ v'.forwardedNextHops) :
    l'.Claimed S N := by
  have hclaims : l'.claims S = l.claims S := by rw [claims, claims, hlog, htasks]
  refine ⟨hclaims ▸ h.nodup, fun e he => ?_, hclaims ▸ h.known⟩
  obtain ⟨v, hv, hmem⟩ := h.recorded e (hclaims ▸ he)
  obtain ⟨v', hv', hsub⟩ := hkept _ v hv
  exact ⟨v', hv', hsub hmem⟩

/-- Requests go to next hops that were not on record. -/
theorem Claimed.extend (h : l.Claimed S N) {reverse : LookupReversePath} (hrid : l.reverses[rid]? = some reverse)
    {keys : List NodeAddr} (hnodup : keys.Nodup) (hnew : ∀ a ∈ keys, a ∉ reverse.forwardedNextHops)
    (hknown : ∀ a ∈ keys, a ∈ N) {sends : List RoutingEffect} {tasks : List RoutingTask}
    (hperm : (sends.filterMap (RoutingEffect.reached S) ++ tasks.flatMap RoutingTask.unreached).Perm
      (keys.map fun a => (rid, a))) :
    ((l.modify rid fun v => { v with forwardedNextHops := v.forwardedNextHops ∪ keys.toFinset }).extend sends tasks).Claimed
      S N := by
  -- the claims are the earlier ones and the new pairs
  have hclaims : (((l.modify rid fun v => { v with forwardedNextHops := v.forwardedNextHops ∪ keys.toFinset }).extend
      sends tasks).claims S).Perm (l.claims S ++ keys.map fun a => (rid, a)) := by
    show ((l.log ++ sends).filterMap _ ++ (l.tasks ++ tasks).flatMap _).Perm _
    rw [List.filterMap_append, List.flatMap_append, List.append_assoc]
    refine List.Perm.trans ?_ (hperm.append_left (l.claims S))
    unfold claims
    rw [List.append_assoc]
    refine List.Perm.append_left _ ?_
    rw [← List.append_assoc, ← List.append_assoc]
    exact List.perm_append_comm.append_right _
  have hmem (e : ReverseId × NodeAddr) : e ∈ keys.map (fun a => (rid, a)) ↔ e.1 = rid ∧ e.2 ∈ keys := by
    constructor
    · intro he
      obtain ⟨a, ha, rfl⟩ := List.mem_map.1 he
      exact ⟨rfl, ha⟩
    · rintro ⟨rfl, ha⟩
      exact List.mem_map.2 ⟨e.2, ha, rfl⟩
  refine ⟨hclaims.nodup_iff.2 (List.nodup_append.2 ⟨h.nodup, hnodup.map fun a b hab => (Prod.ext_iff.1 hab).2,
    fun e he e' he' => ?_⟩), fun e he => ?_, fun e he => ?_⟩
  · rintro rfl
    obtain ⟨hi, ha⟩ := (hmem e).1 he'
    obtain ⟨v, hv, hv'⟩ := h.recorded e he
    rw [hi] at hv
    obtain rfl := Option.some.inj (hv.symm.trans hrid)
    exact hnew _ ha hv'
  · show ∃ v, (l.reverses.modify rid _)[e.1]? = some v ∧ _
    rw [List.getElem?_modify]
    rcases List.mem_append.1 (hclaims.mem_iff.1 he) with he | he
    · obtain ⟨v, hv, hv'⟩ := h.recorded e he
      rw [hv]
      refine ⟨_, rfl, ?_⟩
      split
      · exact Finset.mem_union_left _ hv'
      · exact hv'
    · obtain ⟨hi, ha⟩ := (hmem e).1 he
      rw [hi, hrid]
      refine ⟨_, rfl, ?_⟩
      dsimp only
      rw [if_pos rfl]
      exact Finset.mem_union_right _ (List.mem_toFinset.2 ha)
  · rcases List.mem_append.1 (hclaims.mem_iff.1 he) with he | he
    · exact h.known e he
    · exact hknown _ ((hmem e).1 he).2

/-- A next hop is struck from the record. -/
theorem Claimed.drop {i : ReverseId} {a : NodeAddr} (hnodup : (l.claims S).Nodup)
    (hrecorded : ∀ e ∈ l.claims S, e ≠ (i, a) ∧ ∃ reverse, l.reverses[e.1]? = some reverse ∧ e.2 ∈ reverse.forwardedNextHops)
    (hknown : ∀ e ∈ l.claims S, e.2 ∈ N) :
    (l.modify i fun v => { v with forwardedNextHops := v.forwardedNextHops.erase a }).Claimed S N := by
  refine ⟨hnodup, fun e he => ?_, hknown⟩
  obtain ⟨hne, v, hv, hmem⟩ := hrecorded e he
  show ∃ v, (l.reverses.modify i _)[e.1]? = some v ∧ _
  rw [List.getElem?_modify, hv]
  refine ⟨_, rfl, ?_⟩
  split
  · rename_i hi
    refine Finset.mem_erase.2 ⟨fun ha => ?_, hmem⟩
    exact hne (Prod.ext hi.symm ha)
  · exact hmem

end

end Lookups

end Fips
