import Fips.Lib.Run
import Fips.Node.OriginLookups

/-!
# Runs of the lookup registry

The registry with its retry loops: a loop is suspended in `send` or asleep, and anything may happen to its lookup in the
meantime. The history of a run says which lookup each request id was drawn for and which promises have been settled;
`byRequest` is a function of it, and so an id leads to the lookup that has drawn it last, until that lookup is removed.
-/

namespace Fips
open Exec LittleEndian

/-- A request id is drawn for a lookup, or a lookup is removed and its promise settled. -/
inductive RegistryEntry
  | issued (lookup : LookupId) (requestId : Nat)
  | settled (lookup : LookupId) (outcome : PromiseState)
deriving DecidableEq

/-- Where a retry loop is suspended. -/
inductive RetryPoint
  | sending
  | sleeping
  | ended
deriving DecidableEq

structure RetryLoop where
  lookup : LookupId
  point : RetryPoint
deriving DecidableEq

structure RegistryRun where
  registry : OriginLookupRegistry
  loops : List RetryLoop
  history : List RegistryEntry

namespace RegistryRun

def new (maximum : Nat) : RegistryRun := ⟨.new maximum, [], []⟩

/-- `remove`, and what its caller does to the promise if there was something to remove. -/
def settle (lid : LookupId) (nextHop : Option NodeAddr) (outcome : PromiseState) (s : RegistryRun) : RegistryRun :=
  { s with
    registry := s.registry.settle lid nextHop outcome
    history := if s.registry.isPending lid then s.history ++ [.settled lid outcome] else s.history }

def complete (lid : LookupId) (nextHop : Option NodeAddr) (s : RegistryRun) : RegistryRun := s.settle lid nextHop .resolved

def fail (lid : LookupId) (error : String) (s : RegistryRun) : RegistryRun := s.settle lid none (.rejected error)

def stop (s : RegistryRun) : RegistryRun :=
  (s.registry.byTarget.map Prod.snd).foldl (fun s lid => s.fail lid "FIPS node stopped") s

/-- The id that a lookup has just drawn. -/
def drawn (lid : LookupId) (registry : OriginLookupRegistry) : List RegistryEntry :=
  ((registry.objs[lid]?).map fun pending => RegistryEntry.issued lid pending.requestId).toList

/-- `create`, which is called only for a target without a lookup. -/
def create (targetHex : NodeAddr) (targetPubkey : Option Bytes) (minMtu : Nat) (random : List Bytes) (s : RegistryRun) :
    RegistryRun :=
  if (s.registry.get targetHex).isSome then s
  else
    match s.registry.create targetHex targetPubkey minMtu random with
    | .error _ => s
    | .ok (lid, registry) => { s with registry, history := s.history ++ drawn lid registry }

/-- The new id of a retry. -/
def renew (lid : LookupId) (random : List Bytes) (s : RegistryRun) : Except String RegistryRun := do
  let registry ← s.registry.renew lid random
  return { s with registry, history := s.history ++ drawn lid registry }

def suspend (index : Nat) (point : RetryPoint) (s : RegistryRun) : RegistryRun :=
  { s with loops := s.loops.modify index fun loop => { loop with point } }

/-- The head of a retry loop up to `await send()`; the first round sends under the id the lookup was created with. -/
def round (index : Nat) (lid : LookupId) (first : Bool) (random : List Bytes) (s : RegistryRun) : RegistryRun :=
  if s.registry.isPending lid then
    if first then s.suspend index .sending
    else
      match s.renew lid random with
      | .ok s => s.suspend index .sending
      | .error e => (s.fail lid e).suspend index .ended
  else s.suspend index .ended

/-- What follows `await send()`. -/
def sent (index : Nat) (lid : LookupId) (error : Option String) (s : RegistryRun) : RegistryRun :=
  match error with
  | some e => (s.fail lid e).suspend index .ended
  | none => s.suspend index (if s.registry.isPending lid then .sleeping else .ended)

inductive Event
  | create (targetHex : NodeAddr) (targetPubkey : Option Bytes) (minMtu : Nat) (random : List Bytes)
  | retry (lookup : LookupId)
  /-- `send()` has been fulfilled or rejected. -/
  | sent (loop : Nat) (error : Option String)
  /-- The sleep of a loop is over. -/
  | woken (loop : Nat) (random : List Bytes)
  | complete (lookup : LookupId) (nextHop : Option NodeAddr)
  | fail (lookup : LookupId) (error : String)
  /-- The timer of a lookup. -/
  | timeout (lookup : LookupId)
  | stop

def step (s : RegistryRun) : Event → RegistryRun
  | .create targetHex targetPubkey minMtu random => s.create targetHex targetPubkey minMtu random
  | .retry lid => round s.loops.length lid true [] { s with loops := s.loops ++ [⟨lid, .ended⟩] }
  | .sent index error =>
    match s.loops[index]? with
    | some ⟨lid, .sending⟩ => s.sent index lid error
    | _ => s
  | .woken index random =>
    match s.loops[index]? with
    | some ⟨lid, .sleeping⟩ => s.round index lid false random
    | _ => s
  | .complete lid nextHop => s.complete lid nextHop
  | .fail lid error => s.fail lid error
  | .timeout lid => s.fail lid s!"no route to {toHex (((s.registry.objs[lid]?).map (·.targetHex)).getD [])}"
  | .stop => s.stop

end RegistryRun

/-! ### The history -/

namespace RegistryEntry

/-- What an entry makes of the lookup an id leads to. -/
def note (requestId : Nat) (found : Option LookupId) : RegistryEntry → Option LookupId
  | .issued lid id => if id = requestId then some lid else found
  | .settled lid _ => if found = some lid then none else found

/-- The lookup that has drawn an id last, unless it has been removed since. -/
def holder (history : List RegistryEntry) (requestId : Nat) : Option LookupId := history.foldl (note requestId) none

/-- How the promise of a lookup was settled, as often as it was. -/
def settlements (lid : LookupId) (history : List RegistryEntry) : List PromiseState :=
  history.filterMap fun
    | .settled l outcome => if l = lid then some outcome else none
    | .issued _ _ => none

/-- An id is drawn when it leads to no lookup. -/
def Fresh (history : List RegistryEntry) : Prop :=
  ∀ before lid id, before ++ [.issued lid id] <+: history → holder before id = none

variable {history : List RegistryEntry} {e : RegistryEntry} {id : Nat} {lid : LookupId}

theorem holder_append : holder (history ++ [e]) id = note id (holder history id) e := by
  simp [holder]

theorem settlements_append (later : List RegistryEntry) :
    settlements lid (history ++ later) = settlements lid history ++ settlements lid later := List.filterMap_append

theorem Fresh.settled (h : Fresh history) (lid : LookupId) (outcome : PromiseState) :
    Fresh (history ++ [.settled lid outcome]) := by
  intro before l id hbefore
  rcases List.prefix_concat_iff.1 hbefore with heq | hold
  · cases List.append_inj_right' heq rfl
  · exact h before l id hold

theorem Fresh.issued (h : Fresh history) (lid : LookupId) (hid : holder history id = none) :
    Fresh (history ++ [.issued lid id]) := by
  intro before l id' hbefore
  rcases List.prefix_concat_iff.1 hbefore with heq | hold
  · cases List.append_inj_right' heq rfl
    rw [List.append_inj_left' heq rfl]
    exact hid
  · exact h before l id' hold

/-- An id leads to the lookup that has drawn it for as long as that is not removed. -/
theorem Fresh.holder_issued {before middle : List RegistryEntry} (h : Fresh (before ++ .issued lid id :: middle))
    (hmiddle : settlements lid middle = []) : holder (before ++ .issued lid id :: middle) id = some lid := by
  induction middle using List.reverseRecOn with
  | nil =>
    rw [holder_append, note, if_pos rfl]
  | append_singleton middle e ih =>
    rw [settlements_append, List.append_eq_nil_iff] at hmiddle
    rw [← List.cons_append, ← List.append_assoc] at h ⊢
    have hheld := ih (fun b l i hb => h b l i (hb.trans (List.prefix_append _ _))) hmiddle.1
    rw [holder_append, hheld]
    cases e with
    | issued l i =>
      refine if_neg fun heq => ?_
      have hnone := h _ l i List.prefix_rfl
      rw [heq, hheld] at hnone
      cases hnone
    | settled l outcome =>
      refine if_neg fun heq => ?_
      cases heq
      simp [settlements] at hmiddle

/-- Behind the removal of the lookup that has drawn it an id leads nowhere until it is drawn anew. -/
theorem Fresh.holder_settled {before later : List RegistryEntry} {outcome : PromiseState}
    (h : Fresh (before ++ .settled lid outcome :: later)) (hbefore : .issued lid id ∈ before)
    (honce : settlements lid before = []) (hlater : ∀ l, .issued l id ∉ later) :
    holder (before ++ .settled lid outcome :: later) id = none := by
  induction later using List.reverseRecOn with
  | nil =>
    obtain ⟨b₁, b₂, rfl⟩ := List.append_of_mem hbefore
    have hfresh : Fresh (b₁ ++ .issued lid id :: b₂) := fun b l i hb => h b l i (hb.trans (List.prefix_append _ _))
    have hb₂ : settlements lid b₂ = [] := by
      rw [settlements_append] at honce
      exact (List.append_eq_nil_iff.1 honce).2
    rw [holder_append, hfresh.holder_issued hb₂, note, if_pos rfl]
  | append_singleton later e ih =>
    rw [← List.cons_append, ← List.append_assoc] at h ⊢
    have hnone := ih (fun b l i hb => h b l i (hb.trans (List.prefix_append _ _))) fun l hl =>
      hlater l (List.mem_append_left _ hl)
    rw [holder_append, hnone]
    cases e with
    | issued l i =>
      refine if_neg fun heq => hlater l ?_
      rw [heq]
      simp
    | settled l outcome => rfl

end RegistryEntry

/-! ### One step -/

namespace OriginLookupRegistry
variable {g g' : OriginLookupRegistry} {lid l : LookupId} {id : Nat} {pending : PendingOriginLookup}

theorem isPending_iff : g.isPending lid = true ↔ ∃ pending, g.objs[lid]? = some pending ∧ g.get pending.targetHex = some lid := by
  unfold isPending
  rw [Option.any_eq_true]
  simp only [decide_eq_true_eq]

theorem nextRequestId_fresh {random : List Bytes} (h : g.nextRequestId random = .ok id) : g.findRequest id = none := by
  have hattempt (l : List Bytes) (h : nextRequestId.attempt g l = .ok id) : g.findRequest id = none := by
    induction l with
    | nil => cases h
    | cons bytes rest ih =>
      rw [nextRequestId.attempt] at h
      by_cases hlen : bytes.length ≠ 8
      · rw [if_pos hlen] at h
        cases h
      rw [if_neg hlen] at h
      by_cases hfree : (g.byRequest.get (leNat bytes)).isNone = true
      · rw [if_pos hfree] at h
        cases h
        exact Option.isNone_iff_eq_none.1 hfree
      · rw [if_neg hfree] at h
        exact ih h
  exact hattempt _ h

theorem settle_eq (hobj : g.objs[lid]? = some pending) (hget : g.get pending.targetHex = some lid) (nextHop : Option NodeAddr)
    (outcome : PromiseState) : g.settle lid nextHop outcome = { g with
      objs := g.objs.set lid { pending with nextHop, promise := outcome, requestIds := [] }
      byTarget := g.byTarget.delete pending.targetHex
      byRequest := pending.requestIds.foldl (fun m requestId => m.delete requestId) g.byRequest } := by
  rw [settle, hobj]
  exact if_pos hget

theorem settle_of_not_pending (h : ¬g.isPending lid = true) (nextHop : Option NodeAddr) (outcome : PromiseState) :
    g.settle lid nextHop outcome = g := by
  unfold settle
  split
  · rfl
  · rename_i pending hobj
    exact if_neg fun hget => h (isPending_iff.2 ⟨pending, hobj, hget⟩)

/-- Another lookup is pending or not as before. -/
theorem isPending_settle (hobj : g.objs[lid]? = some pending) (hget : g.get pending.targetHex = some lid)
    (nextHop : Option NodeAddr) (outcome : PromiseState) :
    (g.settle lid nextHop outcome).isPending l = true ↔ g.isPending l = true ∧ l ≠ lid := by
  rw [settle_eq hobj hget, isPending_iff, isPending_iff]
  obtain ⟨hlt, -⟩ := List.getElem?_eq_some_iff.1 hobj
  constructor
  · rintro ⟨other, hother, hfound⟩
    have hne : l ≠ lid := by
      rintro rfl
      rw [List.getElem?_set_self hlt] at hother
      cases hother
      rw [OriginLookupRegistry.get, JsMap.get_delete, if_pos rfl] at hfound
      cases hfound
    rw [List.getElem?_set_ne (Ne.symm hne)] at hother
    rw [OriginLookupRegistry.get, JsMap.get_delete] at hfound
    split at hfound
    · cases hfound
    · exact ⟨⟨other, hother, hfound⟩, hne⟩
  · rintro ⟨⟨other, hother, hfound⟩, hne⟩
    refine ⟨other, by rw [List.getElem?_set_ne (Ne.symm hne)]; exact hother, ?_⟩
    rw [OriginLookupRegistry.get, JsMap.get_delete, if_neg ?_]
    · exact hfound
    · intro htarget
      rw [← htarget, hget] at hfound
      exact hne (Option.some.inj hfound).symm

theorem create_eq_ok {targetHex : NodeAddr} {targetPubkey : Option Bytes} {minMtu : Nat} {random : List Bytes}
    (h : g.create targetHex targetPubkey minMtu random = .ok (lid, g')) :
    ∃ requestId, g.byTarget.length < g.maximum ∧ g.findRequest requestId = none ∧ lid = g.objs.length ∧ g' = { g with
      objs := g.objs ++ [⟨requestId, targetHex, targetPubkey, minMtu, none, .pending, [requestId]⟩]
      byTarget := g.byTarget.set targetHex g.objs.length
      byRequest := g.byRequest.set requestId g.objs.length } := by
  unfold create at h
  by_cases hfull : g.byTarget.length ≥ g.maximum
  · rw [if_pos hfull] at h
    cases h
  rw [if_neg hfull] at h
  obtain ⟨requestId, hid, h⟩ := except_bind_eq_ok.1 h
  cases h
  exact ⟨requestId, by omega, nextRequestId_fresh hid, rfl, rfl⟩

theorem renew_eq_ok {random : List Bytes} (h : g.renew lid random = .ok g') :
    ∃ requestId, g.findRequest requestId = none ∧ g' = { g with
      objs := g.objs.modify lid fun pending => { pending with requestId, requestIds := pending.requestIds ++ [requestId] }
      byRequest := g.byRequest.set requestId lid } := by
  obtain ⟨requestId, hid, h⟩ := except_bind_eq_ok.1 h
  cases h
  exact ⟨requestId, nextRequestId_fresh hid, rfl⟩

end OriginLookupRegistry

namespace RegistryRun
open RegistryEntry

/-- What holds of the registry and the history in every run. -/
structure Coherent (s : RegistryRun) : Prop where
  size : s.registry.byTarget.length ≤ s.registry.maximum
  /-- A lookup is stored under its own target. -/
  target : ∀ t lid, s.registry.get t = some lid → ∃ pending, s.registry.objs[lid]? = some pending ∧ pending.targetHex = t
  /-- The ids in use are those of the stored lookups. -/
  request : ∀ id lid, s.registry.findRequest id = some lid ↔
    s.registry.isPending lid = true ∧ ∃ pending, s.registry.objs[lid]? = some pending ∧ id ∈ pending.requestIds
  held : ∀ id, s.registry.findRequest id = holder s.history id
  settled : ∀ lid pending, s.registry.objs[lid]? = some pending →
    if s.registry.isPending lid then pending.promise = .pending ∧ settlements lid s.history = []
    else pending.promise ≠ .pending ∧ settlements lid s.history = [pending.promise]
  /-- A lookup that does not exist yet has no history. -/
  known : ∀ lid, s.registry.objs.length ≤ lid → ∀ e ∈ s.history, ∀ id outcome, e ≠ .issued lid id ∧ e ≠ .settled lid outcome
  fresh : Fresh s.history

section
variable {s : RegistryRun} {lid : LookupId}

theorem Coherent.new (maximum : Nat) : (new maximum).Coherent where
  size := Nat.zero_le _
  target := nofun
  request id lid := ⟨nofun, fun h => by cases h.1⟩
  held _ := rfl
  settled := nofun
  known := nofun
  fresh before lid id h := by
    have hnil := List.prefix_nil.1 h
    simp at hnil

/-- The loops are not part of what is coherent. -/
theorem Coherent.loops (h : s.Coherent) (loops : List RetryLoop) : Coherent { s with loops } :=
  ⟨h.size, h.target, h.request, h.held, h.settled, h.known, h.fresh⟩

/-- Settling: the lookup leaves both maps with all its ids, and its promise is settled for the first time. -/
theorem Coherent.settle (h : s.Coherent) (nextHop : Option NodeAddr) {outcome : PromiseState} (ho : outcome ≠ .pending) :
    (s.settle lid nextHop outcome).Coherent := by
  by_cases hpending : s.registry.isPending lid = true
  swap
  · rw [RegistryRun.settle, OriginLookupRegistry.settle_of_not_pending hpending, if_neg hpending]
    exact h
  obtain ⟨pending, hobj, hget⟩ := OriginLookupRegistry.isPending_iff.1 hpending
  obtain ⟨hlt, -⟩ := List.getElem?_eq_some_iff.1 hobj
  have heq := OriginLookupRegistry.settle_eq hobj hget nextHop outcome
  have hstill (l : LookupId) := @OriginLookupRegistry.isPending_settle _ _ l _ hobj hget nextHop outcome
  have hfind (id : Nat) : (s.registry.settle lid nextHop outcome).findRequest id =
      if id ∈ pending.requestIds then none else s.registry.findRequest id := by
    rw [heq]
    exact JsMap.get_foldl_delete _
  have hmine (id : Nat) : id ∈ pending.requestIds ↔ s.registry.findRequest id = some lid := by
    rw [h.request]
    constructor
    · intro hid
      exact ⟨hpending, pending, hobj, hid⟩
    · rintro ⟨-, pending', hobj', hid⟩
      rw [hobj] at hobj'
      cases hobj'
      exact hid
  have hobjs {l : LookupId} (hne : l ≠ lid) : (s.registry.settle lid nextHop outcome).objs[l]? = s.registry.objs[l]? := by
    rw [heq]
    exact List.getElem?_set_ne (Ne.symm hne)
  have hself : (s.registry.settle lid nextHop outcome).objs[lid]? =
      some { pending with nextHop, promise := outcome, requestIds := [] } := by
    rw [heq]
    exact List.getElem?_set_self hlt
  rw [RegistryRun.settle, if_pos hpending]
  refine ⟨?_, fun t l hl => ?_, fun id l => ?_, fun id => ?_, fun l other hl => ?_, fun l hl e he => ?_,
    h.fresh.settled lid outcome⟩
  · rw [heq]
    exact JsMap.length_delete_le.trans h.size
  · rw [heq, OriginLookupRegistry.get, JsMap.get_delete] at hl
    split at hl
    · cases hl
    rename_i hne
    obtain ⟨other, hother, htarget⟩ := h.target t l hl
    refine ⟨other, ?_, htarget⟩
    rw [hobjs ?_]
    · exact hother
    · rintro rfl
      rw [hobj] at hother
      cases hother
      exact hne htarget
  · rw [hfind, hstill]
    by_cases hid : id ∈ pending.requestIds
    · rw [if_pos hid]
      constructor
      · rintro ⟨⟩
      rintro ⟨⟨hl, hne⟩, other, hother, hin⟩
      rw [hobjs hne] at hother
      have hfound := (h.request id l).2 ⟨hl, other, hother, hin⟩
      rw [(hmine id).1 hid] at hfound
      exact absurd (Option.some.inj hfound).symm hne
    · rw [if_neg hid, h.request]
      constructor
      · rintro ⟨hl, other, hother, hin⟩
        have hne : l ≠ lid := by
          rintro rfl
          rw [hobj] at hother
          cases hother
          exact hid hin
        exact ⟨⟨hl, hne⟩, other, (hobjs hne).trans hother, hin⟩
      · rintro ⟨⟨hl, hne⟩, other, hother, hin⟩
        exact ⟨hl, other, (hobjs hne).symm.trans hother, hin⟩
  · rw [hfind, holder_append, note, ← h.held]
    by_cases hid : id ∈ pending.requestIds
    · rw [if_pos hid, if_pos ((hmine id).1 hid)]
    · rw [if_neg hid, if_neg fun hfound => hid ((hmine id).2 hfound)]
  · rw [settlements_append]
    by_cases hl' : l = lid
    · subst hl'
      rw [hself] at hl
      cases hl
      have hbefore := h.settled l pending hobj
      rw [if_pos hpending] at hbefore
      rw [if_neg fun hp => ((hstill l).1 hp).2 rfl, hbefore.2]
      exact ⟨ho, by simp [settlements]⟩
    · rw [hobjs hl'] at hl
      have hbefore := h.settled l other hl
      have hnone : settlements l [.settled lid outcome] = [] := by simp [settlements, Ne.symm hl']
      rw [hnone, List.append_nil]
      by_cases hp : s.registry.isPending l = true
      · rw [if_pos ((hstill l).2 ⟨hp, hl'⟩)]
        rw [if_pos hp] at hbefore
        exact hbefore
      · rw [if_neg fun hp' => hp ((hstill l).1 hp').1]
        rw [if_neg hp] at hbefore
        exact hbefore
  · rw [heq, List.length_set] at hl
    intro id o
    rcases List.mem_append.1 he with hold | hnew
    · exact h.known l hl e hold id o
    · rw [List.mem_singleton.1 hnew]
      constructor
      · rintro ⟨⟩
      intro hsame
      cases hsame
      omega

theorem note_issued {id : Nat} {requestId : Nat} {l : LookupId} {found : Option LookupId} :
    note id found (.issued l requestId) = if requestId = id then some l else found := rfl

/-- A new lookup is stored under its target and its id; one that cannot be made changes nothing. -/
theorem Coherent.create (h : s.Coherent) (targetHex : NodeAddr) (targetPubkey : Option Bytes) (minMtu : Nat)
    (random : List Bytes) : (s.create targetHex targetPubkey minMtu random).Coherent := by
  unfold RegistryRun.create
  by_cases hstored : (s.registry.get targetHex).isSome = true
  · rw [if_pos hstored]
    exact h
  rw [if_neg hstored]
  have hnone : s.registry.get targetHex = none := Option.not_isSome_iff_eq_none.1 hstored
  cases hcreate : s.registry.create targetHex targetPubkey minMtu random with
  | error e => exact h
  | ok made =>
    obtain ⟨lid, g⟩ := made
    obtain ⟨requestId, hroom, hfree, rfl, rfl⟩ := OriginLookupRegistry.create_eq_ok hcreate
    have hhistory : drawn s.registry.objs.length { s.registry with
        objs := s.registry.objs ++ [⟨requestId, targetHex, targetPubkey, minMtu, none, .pending, [requestId]⟩]
        byTarget := s.registry.byTarget.set targetHex s.registry.objs.length
        byRequest := s.registry.byRequest.set requestId s.registry.objs.length } =
          [.issued s.registry.objs.length requestId] := by
      simp [drawn]
    have hobjs (l : Nat) (other : PendingOriginLookup) :
        (s.registry.objs ++ [⟨requestId, targetHex, targetPubkey, minMtu, none, .pending, [requestId]⟩])[l]? = some other ↔
          s.registry.objs[l]? = some other ∨ (l = s.registry.objs.length ∧
            other = ⟨requestId, targetHex, targetPubkey, minMtu, none, .pending, [requestId]⟩) := by
      rw [List.getElem?_append]
      split
      · rename_i hlt
        exact ⟨.inl, fun hor => hor.resolve_right fun heq => by omega⟩
      · rename_i hge
        rw [List.getElem?_eq_none (Nat.not_lt.1 hge), List.getElem?_singleton]
        split
        · rename_i hzero
          simp only [Option.some.injEq, reduceCtorEq, false_or]
          exact ⟨fun heq => ⟨by omega, heq.symm⟩, fun heq => heq.2.symm⟩
        · simp only [reduceCtorEq, false_or, false_iff]
          rintro ⟨heq, -⟩
          omega
    have hget (t : NodeAddr) : JsMap.get (s.registry.byTarget.set targetHex s.registry.objs.length) t =
        if targetHex = t then some s.registry.objs.length else s.registry.get t := JsMap.get_set
    have hold {l : Nat} {other : PendingOriginLookup} (hl : s.registry.objs[l]? = some other) :
        l ≠ s.registry.objs.length := fun heq => by
      obtain ⟨hlt, -⟩ := List.getElem?_eq_some_iff.1 hl
      omega
    have hpending (l : LookupId) : OriginLookupRegistry.isPending l { s.registry with
        objs := s.registry.objs ++ [⟨requestId, targetHex, targetPubkey, minMtu, none, .pending, [requestId]⟩]
        byTarget := s.registry.byTarget.set targetHex s.registry.objs.length
        byRequest := s.registry.byRequest.set requestId s.registry.objs.length } = true ↔
          s.registry.isPending l = true ∨ l = s.registry.objs.length := by
      rw [OriginLookupRegistry.isPending_iff, OriginLookupRegistry.isPending_iff]
      constructor
      · rintro ⟨other, hother, hfound⟩
        rcases (hobjs l other).1 hother with hother | ⟨heq, -⟩
        · left
          refine ⟨other, hother, ?_⟩
          rw [OriginLookupRegistry.get, hget] at hfound
          split at hfound
          · exact absurd (Option.some.inj hfound).symm (hold hother)
          · exact hfound
        · exact .inr heq
      · rintro (⟨other, hother, hfound⟩ | rfl)
        · refine ⟨other, (hobjs l other).2 (.inl hother), ?_⟩
          rw [OriginLookupRegistry.get, hget, if_neg ?_]
          · exact hfound
          · intro heq
            rw [← heq, hnone] at hfound
            cases hfound
        · exact ⟨_, (hobjs _ _).2 (.inr ⟨rfl, rfl⟩), by rw [OriginLookupRegistry.get, hget, if_pos rfl]⟩
    dsimp only
    rw [hhistory]
    refine ⟨?_, fun t l hl => ?_, fun id l => ?_, fun id => ?_, fun l other hl => ?_, fun l hl e he => ?_,
      h.fresh.issued _ ((h.held requestId).symm.trans hfree)⟩
    · exact JsMap.length_set_le.trans hroom
    · rw [OriginLookupRegistry.get, hget] at hl
      split at hl
      · rename_i heq
        cases hl
        exact ⟨_, (hobjs _ _).2 (.inr ⟨rfl, rfl⟩), heq⟩
      · obtain ⟨other, hother, htarget⟩ := h.target t l hl
        exact ⟨other, (hobjs _ _).2 (.inl hother), htarget⟩
    · rw [hpending, OriginLookupRegistry.findRequest, JsMap.get_set]
      by_cases hid : requestId = id
      · rw [if_pos hid]
        constructor
        · rintro ⟨⟩
          exact ⟨.inr rfl, _, (hobjs _ _).2 (.inr ⟨rfl, rfl⟩), by simp [hid]⟩
        · rintro ⟨hl, other, hother, hin⟩
          rcases (hobjs l other).1 hother with hother | ⟨rfl, -⟩
          · have hfound := (h.request id l).2 ⟨hl.resolve_right (hold hother), other, hother, hin⟩
            rw [← hid, hfree] at hfound
            cases hfound
          · rfl
      · rw [if_neg hid]
        constructor
        · intro hfound
          obtain ⟨hl, other, hother, hin⟩ := (h.request id l).1 hfound
          exact ⟨.inl hl, other, (hobjs _ _).2 (.inl hother), hin⟩
        · rintro ⟨hl, other, hother, hin⟩
          rcases (hobjs l other).1 hother with hother | ⟨-, rfl⟩
          · exact (h.request id l).2 ⟨hl.resolve_right (hold hother), other, hother, hin⟩
          · exact absurd (List.mem_singleton.1 hin).symm hid
    · rw [holder_append, note_issued, ← h.held, OriginLookupRegistry.findRequest, JsMap.get_set]
      rfl
    · rw [settlements_append, show settlements l [.issued s.registry.objs.length requestId] = [] from rfl, List.append_nil]
      rcases (hobjs l other).1 hl with hother | ⟨rfl, rfl⟩
      · have hbefore := h.settled l other hother
        by_cases hp : s.registry.isPending l = true
        · rw [if_pos ((hpending l).2 (.inl hp))]
          rw [if_pos hp] at hbefore
          exact hbefore
        · rw [if_neg fun hp' => ((hpending l).1 hp').elim hp (hold hother)]
          rw [if_neg hp] at hbefore
          exact hbefore
      · rw [if_pos ((hpending _).2 (.inr rfl))]
        refine ⟨rfl, List.filterMap_eq_nil_iff.2 fun e he => ?_⟩
        cases e with
        | issued l id => rfl
        | settled l outcome =>
          refine if_neg fun heq => ?_
          exact (h.known _ le_rfl _ he 0 outcome).2 (by rw [heq])
    · rw [List.length_append, List.length_singleton] at hl
      intro id o
      rcases List.mem_append.1 he with hold | hnew
      · exact h.known l (by omega) e hold id o
      · rw [List.mem_singleton.1 hnew]
        refine ⟨fun hsame => ?_, nofun⟩
        cases hsame
        omega

/-- A retry adds an id to a lookup that is still stored. -/
theorem Coherent.renew (h : s.Coherent) (hpending : s.registry.isPending lid = true) {random : List Bytes} {s' : RegistryRun}
    (hs : s.renew lid random = .ok s') : s'.Coherent := by
  obtain ⟨g, hrenew, hs⟩ := except_bind_eq_ok.1 hs
  cases hs
  obtain ⟨requestId, hfree, rfl⟩ := OriginLookupRegistry.renew_eq_ok hrenew
  obtain ⟨pending, hobj, hget⟩ := OriginLookupRegistry.isPending_iff.1 hpending
  have hobjs (l : LookupId) : (s.registry.objs.modify lid fun pending =>
      { pending with requestId, requestIds := pending.requestIds ++ [requestId] })[l]? =
        if l = lid then some { pending with requestId, requestIds := pending.requestIds ++ [requestId] }
        else s.registry.objs[l]? := by
    rw [List.getElem?_modify]
    by_cases hl : l = lid
    · rw [if_pos hl, hl, hobj]
      simp
    · rw [if_neg hl]
      simp [Ne.symm hl]
  have hhistory : drawn lid { s.registry with
      objs := s.registry.objs.modify lid fun pending =>
        { pending with requestId, requestIds := pending.requestIds ++ [requestId] }
      byRequest := s.registry.byRequest.set requestId lid } = [.issued lid requestId] := by
    rw [drawn, hobjs, if_pos rfl]
    rfl
  have hsame (l : LookupId) : OriginLookupRegistry.isPending l { s.registry with
      objs := s.registry.objs.modify lid fun pending =>
        { pending with requestId, requestIds := pending.requestIds ++ [requestId] }
      byRequest := s.registry.byRequest.set requestId lid } = s.registry.isPending l := by
    unfold OriginLookupRegistry.isPending
    rw [hobjs]
    by_cases hl : l = lid
    · rw [if_pos hl, hl, hobj]
      rfl
    · rw [if_neg hl]
      rfl
  rw [hhistory]
  refine ⟨h.size, fun t l hl => ?_, fun id l => ?_, fun id => ?_, fun l other hl => ?_, fun l hl e he => ?_,
    h.fresh.issued _ ((h.held requestId).symm.trans hfree)⟩
  · obtain ⟨other, hother, htarget⟩ := h.target t l hl
    by_cases heq : l = lid
    · subst heq
      rw [hobj] at hother
      cases hother
      exact ⟨_, (hobjs l).trans (if_pos rfl), htarget⟩
    · exact ⟨other, by rw [hobjs, if_neg heq]; exact hother, htarget⟩
  · rw [hsame, OriginLookupRegistry.findRequest, JsMap.get_set, hobjs]
    by_cases hid : requestId = id
    · rw [if_pos hid]
      constructor
      · rintro ⟨⟩
        exact ⟨hpending, _, if_pos rfl, by simp [hid]⟩
      · rintro ⟨hl, other, hother, hin⟩
        by_cases heq : l = lid
        · rw [heq]
        · rw [if_neg heq] at hother
          have hfound := (h.request id l).2 ⟨hl, other, hother, hin⟩
          rw [← hid, hfree] at hfound
          cases hfound
    · rw [if_neg hid, ← OriginLookupRegistry.findRequest, h.request]
      by_cases heq : l = lid
      · rw [heq, if_pos rfl, hobj]
        simp [Ne.symm hid]
      · rw [if_neg heq]
  · rw [holder_append, note_issued, ← h.held, OriginLookupRegistry.findRequest, JsMap.get_set]
    rfl
  · rw [settlements_append, show settlements l [.issued lid requestId] = [] from rfl, List.append_nil, hsame]
    rw [hobjs] at hl
    by_cases heq : l = lid
    · rw [if_pos heq] at hl
      cases hl
      subst heq
      exact h.settled l pending hobj
    · rw [if_neg heq] at hl
      exact h.settled l other hl
  · rw [List.length_modify] at hl
    intro id o
    rcases List.mem_append.1 he with hold | hnew
    · exact h.known l hl e hold id o
    · rw [List.mem_singleton.1 hnew]
      refine ⟨fun hissued => ?_, nofun⟩
      cases hissued
      obtain ⟨hlt, -⟩ := List.getElem?_eq_some_iff.1 hobj
      exact absurd hl (Nat.not_le.2 hlt)

theorem Coherent.fail (h : s.Coherent) (error : String) : (s.fail lid error).Coherent := h.settle none nofun

theorem Coherent.suspend (h : s.Coherent) (index : Nat) (point : RetryPoint) : (s.suspend index point).Coherent := h.loops _

theorem Coherent.round (h : s.Coherent) (index : Nat) (first : Bool) (random : List Bytes) :
    (s.round index lid first random).Coherent := by
  unfold RegistryRun.round
  by_cases hpending : s.registry.isPending lid = true
  swap
  · rw [if_neg hpending]
    exact h.suspend index .ended
  rw [if_pos hpending]
  cases first with
  | true => exact h.suspend index .sending
  | false =>
    rw [if_neg Bool.false_ne_true]
    cases hrenew : s.renew lid random with
    | error e => exact (h.fail e).suspend index .ended
    | ok s' => exact (h.renew hpending hrenew).suspend index .sending

theorem Coherent.sent (h : s.Coherent) (index : Nat) (error : Option String) : (s.sent index lid error).Coherent := by
  cases error with
  | none => exact h.suspend index _
  | some e => exact (h.fail e).suspend index .ended

theorem Coherent.stop (h : s.Coherent) : s.stop.Coherent := by
  unfold RegistryRun.stop
  generalize s.registry.byTarget.map Prod.snd = lids
  induction lids generalizing s with
  | nil => exact h
  | cons l lids ih => exact ih (h.fail _)

theorem Coherent.step (h : s.Coherent) (e : Event) : (s.step e).Coherent := by
  cases e with
  | create targetHex targetPubkey minMtu random => exact h.create targetHex targetPubkey minMtu random
  | retry lid => exact (h.loops _).round _ true []
  | sent index error =>
    show Coherent (match s.loops[index]? with
      | some ⟨lid, .sending⟩ => s.sent index lid error
      | _ => s)
    split
    · exact h.sent index error
    · exact h
  | woken index random =>
    show Coherent (match s.loops[index]? with
      | some ⟨lid, .sleeping⟩ => s.round index lid false random
      | _ => s)
    split
    · exact h.round index false random
    · exact h
  | complete lid nextHop => exact h.settle nextHop nofun
  | fail lid error => exact h.fail error
  | timeout lid => exact h.fail _
  | stop => exact h.stop

theorem Coherent.run (h : s.Coherent) (es : List Event) : (Run.run RegistryRun.step s es).Coherent := by
  induction es generalizing s with
  | nil => exact h
  | cons e es ih => exact ih (h.step e)

/-! ### What a step leaves alone -/

/-- The maximum stays, and the history only grows. -/
def Extends (s s' : RegistryRun) : Prop := s'.registry.maximum = s.registry.maximum ∧ s.history <+: s'.history

theorem Extends.refl (s : RegistryRun) : s.Extends s := ⟨rfl, List.prefix_rfl⟩

theorem Extends.trans {s' s'' : RegistryRun} (h : s.Extends s') (h' : s'.Extends s'') : s.Extends s'' :=
  ⟨h'.1.trans h.1, h.2.trans h'.2⟩

theorem frame_settle (nextHop : Option NodeAddr) (outcome : PromiseState) :
    s.Extends (s.settle lid nextHop outcome) := by
  constructor
  · show (s.registry.settle lid nextHop outcome).maximum = _
    unfold OriginLookupRegistry.settle
    split
    · rfl
    · split <;> rfl
  · unfold RegistryRun.settle
    dsimp only
    split
    · exact List.prefix_append _ _
    · exact List.prefix_rfl

theorem frame_round (index : Nat) (first : Bool) (random : List Bytes) :
    s.Extends (s.round index lid first random) := by
  unfold RegistryRun.round
  split
  swap
  · exact Extends.refl s
  cases first with
  | true => exact Extends.refl s
  | false =>
    rw [if_neg Bool.false_ne_true]
    cases hrenew : s.renew lid random with
    | error e => exact frame_settle none _
    | ok s' =>
      obtain ⟨g, hg, hs⟩ := except_bind_eq_ok.1 hrenew
      cases hs
      obtain ⟨requestId, -, rfl⟩ := OriginLookupRegistry.renew_eq_ok hg
      exact ⟨rfl, List.prefix_append _ _⟩

theorem frame_stop : s.Extends s.stop := by
  unfold RegistryRun.stop
  generalize s.registry.byTarget.map Prod.snd = lids
  induction lids generalizing s with
  | nil => exact Extends.refl s
  | cons l lids ih => exact (frame_settle none _).trans ih

theorem frame_step (e : Event) : s.Extends (s.step e) := by
  cases e with
  | create targetHex targetPubkey minMtu random =>
    show s.Extends (s.create targetHex targetPubkey minMtu random)
    unfold RegistryRun.create
    split
    · exact Extends.refl s
    split
    · exact Extends.refl s
    · obtain ⟨requestId, -, -, -, rfl⟩ := OriginLookupRegistry.create_eq_ok ‹_›
      exact ⟨rfl, List.prefix_append _ _⟩
  | retry lid => exact frame_round _ true []
  | sent index error =>
    show s.Extends (match s.loops[index]? with
      | some ⟨lid, .sending⟩ => s.sent index lid error
      | _ => s)
    split
    · cases error with
      | none => exact Extends.refl s
      | some e => exact frame_settle none _
    · exact Extends.refl s
  | woken index random =>
    show s.Extends (match s.loops[index]? with
      | some ⟨lid, .sleeping⟩ => s.round index lid false random
      | _ => s)
    split
    · exact frame_round index false random
    · exact Extends.refl s
  | complete lid nextHop => exact frame_settle nextHop _
  | fail lid error => exact frame_settle none _
  | timeout lid => exact frame_settle none _
  | stop => exact frame_stop

theorem frame_run (es : List Event) : s.Extends (Run.run RegistryRun.step s es) := by
  induction es generalizing s with
  | nil => exact Extends.refl s
  | cons e es ih => exact (frame_step e).trans ih

/-! ### Coherence -/

theorem Coherent.stored (h : s.Coherent) {id : Nat} : s.registry.findRequest id = some lid ↔
    ∃ t pending, s.registry.get t = some lid ∧ s.registry.objs[lid]? = some pending ∧ id ∈ pending.requestIds := by
  rw [h.request, OriginLookupRegistry.isPending_iff]
  constructor
  · rintro ⟨⟨other, hother, hget⟩, pending, hpending, hid⟩
    exact ⟨other.targetHex, pending, hget, hpending, hid⟩
  · rintro ⟨t, pending, hget, hpending, hid⟩
    obtain ⟨other, hother, htarget⟩ := h.target t lid hget
    exact ⟨⟨other, hother, htarget ▸ hget⟩, pending, hpending, hid⟩

theorem Coherent.object_of_settled (h : s.Coherent) {outcome : PromiseState} (hin : .settled lid outcome ∈ s.history) :
    ∃ pending, s.registry.objs[lid]? = some pending := by
  by_contra hnone
  have hlen : s.registry.objs.length ≤ lid := by
    by_contra hlt
    exact hnone ⟨_, List.getElem?_eq_getElem (Nat.not_le.1 hlt)⟩
  exact (h.known lid hlen _ hin 0 outcome).2 rfl

/-- A lookup that has been removed is found under no id. -/
theorem Coherent.removed (h : s.Coherent) {outcome : PromiseState} (hin : .settled lid outcome ∈ s.history) (id : Nat) :
    s.registry.findRequest id ≠ some lid := by
  intro hfound
  obtain ⟨hpending, -⟩ := (h.request id lid).1 hfound
  obtain ⟨pending, hobj⟩ := h.object_of_settled hin
  have hsettled := h.settled lid pending hobj
  rw [if_pos hpending] at hsettled
  have hmem : outcome ∈ settlements lid s.history := List.mem_filterMap.2 ⟨_, hin, if_pos rfl⟩
  rw [hsettled.2] at hmem
  cases hmem

/-- None of its ids is found before it is drawn anew, which it is not for this lookup. -/
theorem Coherent.ids_removed (h : s.Coherent) {before later : List RegistryEntry} {outcome : PromiseState} {id : Nat}
    (hhistory : s.history = before ++ .settled lid outcome :: later) (hid : .issued lid id ∈ before)
    (hlater : ∀ l, .issued l id ∉ later) : s.registry.findRequest id = none := by
  have hin : .settled lid outcome ∈ s.history := by
    rw [hhistory]
    simp
  obtain ⟨pending, hobj⟩ := h.object_of_settled hin
  have honce : settlements lid before = [] := by
    have hsettled := h.settled lid pending hobj
    have hall : settlements lid s.history = settlements lid before ++ outcome :: settlements lid later := by
      rw [hhistory, settlements_append]
      simp [settlements]
    have hlen : (settlements lid s.history).length ≤ 1 := by
      split at hsettled
      · rw [hsettled.2]
        exact Nat.zero_le _
      · rw [hsettled.2]
        exact le_rfl
    rw [hall, List.length_append, List.length_cons] at hlen
    exact List.length_eq_zero_iff.1 (by omega)
  rw [h.held, hhistory]
  exact (hhistory ▸ h.fresh).holder_settled hid honce hlater

end

/-- The registry and its history in every run. -/
theorem registry_coherent (maximum : Nat) (es : List Event) : let s := Run.run RegistryRun.step (new maximum) es
    -- `byRequest` is the disjoint union of the ids of the lookups in `byTarget`, each under the lookup that has drawn it
    (∀ id lid, s.registry.findRequest id = some lid ↔
      ∃ t pending, s.registry.get t = some lid ∧ s.registry.objs[lid]? = some pending ∧ id ∈ pending.requestIds) ∧
    (∀ id, s.registry.findRequest id = holder s.history id) ∧
    s.registry.byTarget.length ≤ maximum ∧
    -- a promise is settled when its lookup is removed, and only then; the timer removes what is left
    (∀ lid pending, s.registry.objs[lid]? = some pending →
      ((s.registry.isPending lid = true ∧ pending.promise = .pending ∧ settlements lid s.history = []) ∨
        (s.registry.isPending lid = false ∧ pending.promise ≠ .pending ∧ settlements lid s.history = [pending.promise])) ∧
      (settlements lid (s.step (.timeout lid)).history).length = 1) ∧
    (∀ targetHex targetPubkey minMtu random e, s.registry.create targetHex targetPubkey minMtu random = .error e →
      s.step (.create targetHex targetPubkey minMtu random) = s) ∧
    -- a removed lookup is never found again, and none of its ids before another lookup draws it
    ∀ lid outcome, .settled lid outcome ∈ s.history → ∀ es', let s' := Run.run RegistryRun.step s es'
      (∀ id, s'.registry.findRequest id ≠ some lid) ∧
      ∀ before later id, s'.history = before ++ .settled lid outcome :: later → .issued lid id ∈ before →
        (∀ l, .issued l id ∉ later) → s'.registry.findRequest id = none := by
  intro s
  have h : s.Coherent := (Coherent.new maximum).run es
  refine ⟨fun id lid => h.stored, h.held, ?_, fun lid pending hobj => ⟨?_, ?_⟩, ?_, fun lid outcome hin es' => ⟨?_, ?_⟩⟩
  · exact h.size.trans (frame_run es).1.le
  · have hsettled := h.settled lid pending hobj
    split at hsettled
    · exact .inl ⟨‹_›, hsettled⟩
    · exact .inr ⟨Bool.eq_false_iff.2 ‹_›, hsettled⟩
  · have hsettled := h.settled lid pending hobj
    show (settlements lid (if s.registry.isPending lid then _ else s.history)).length = 1
    split at hsettled
    · rw [if_pos ‹_›, settlements_append, hsettled.2]
      simp [settlements]
    · rw [if_neg ‹_›, hsettled.2]
      rfl
  · intro targetHex targetPubkey minMtu random e he
    show s.create targetHex targetPubkey minMtu random = s
    unfold RegistryRun.create
    rw [he]
    split <;> rfl
  · exact (h.run es').removed ((frame_run es').2.subset hin)
  · intro before later id hhistory hid hlater
    exact (h.run es').ids_removed hhistory hid hlater

/-- The random source repeats itself: the id of the first lookup, removed by then, leads to the second. -/
theorem removed_id_drawn_again :
    let s := Run.run RegistryRun.step (new 1) [.create [1] none 0 [List.replicate 8 0], .complete 0 none]
    s.history = [.issued 0 0, .settled 0 .resolved] ∧
      (s.step (.create [2] none 0 [List.replicate 8 0])).registry.findRequest 0 = some 1 := by
  decide +kernel

end RegistryRun

end Fips
