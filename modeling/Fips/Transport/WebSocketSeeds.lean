import Fips.Transport.WebSocketTransport

/-!
# The promises and the queue of a WebSocket seed

Whatever ends a connection settles everyone who waits for it. A record is written in the order of the
calls of `send`, and exactly the calls whose record was written are resolved.
-/

namespace Fips

namespace SeedState

variable {limits : WebSocketLimits} {v : TransportView} {w : SeedSurroundings} {s s' : SeedState}

/-! ### The records of a socket -/

def SocketEvent.asRecord : SocketEvent → Option (PromiseRef × Bytes)
  | .record send wire => some (send, wire)
  | _ => none

/-- The records that have been written to the socket, with the calls of `send` they come from. -/
def records (s : SeedState) (k : SocketRef) : List (PromiseRef × Bytes) :=
  (s.sockets.get k).history.filterMap SocketEvent.asRecord

/-- The promises that the seed holds. -/
def pending (s : SeedState) : List PromiseRef := s.readyWaiters ++ s.queue.map PendingSend.promise

/-! ### The invariant -/

structure Sound (limits : WebSocketLimits) (v : TransportView) (s : SeedState) : Prop where
  current : ∀ k, s.socket = some k → k < s.sockets.next ∧ (s.sockets.get k).generation = s.generation
  generations : ∀ k < s.sockets.next, (s.sockets.get k).generation ≤ s.generation
  distinct : ∀ k < s.sockets.next, ∀ k' < s.sockets.next,
    (s.sockets.get k).generation = (s.sockets.get k').generation → k = k'
  idle : s.socket = none → s.nonce = none ∧ s.remoteXOnly = none
  unhinted : s.remoteXOnly = none → s.queue = []
  stopped : v.stopping = true → s.socket = none ∧ s.readyWaiters = [] ∧ s.reconnectTimer = none
  bounded : s.queue.length ≤ limits.maxSendQueue
  accounted : Promises.Accounted s.promises s.pending
  waiting : ∀ p ∈ s.readyWaiters, (s.promises.get p).payload = none
  queued : ∀ e ∈ s.queue, (s.promises.get e.promise).payload = some e.data
  increasing : s.queue.Pairwise fun e e' => e.promise < e'.promise
  ordered : ∀ k < s.sockets.next, (s.records k).Pairwise fun r r' => r.1 < r'.1
  ahead : ∀ k, s.socket = some k → ∀ r ∈ s.records k, ∀ e ∈ s.queue, r.1 < e.promise
  written : ∀ k < s.sockets.next, ∀ r ∈ s.records k, r.1 < s.promises.next ∧
    s.promises.get r.1 = ⟨some r.2, [.resolved]⟩
  resolved : ∀ p < s.promises.next, ∀ wire, s.promises.get p = ⟨some wire, [.resolved]⟩ →
    ∃ k < s.sockets.next, (p, wire) ∈ s.records k
  once : ∀ k < s.sockets.next, ∀ k' < s.sockets.next, ∀ r ∈ s.records k, ∀ r' ∈ s.records k', r.1 = r'.1 → k = k'

/-- Whoever waits for the seed has a connection or a timer to wait for. -/
def Awaited (s : SeedState) : Prop := s.readyWaiters ≠ [] → s.socket.isSome = true ∨ s.reconnectTimer.isSome = true

theorem sound_new : Sound limits v (new limits) where
  current := by rintro k ⟨⟩
  generations k hk := absurd hk (Nat.not_lt_zero k)
  distinct k hk := absurd hk (Nat.not_lt_zero k)
  idle _ := ⟨rfl, rfl⟩
  unhinted _ := rfl
  stopped _ := ⟨rfl, rfl, rfl⟩
  bounded := Nat.zero_le _
  accounted := Promises.accounted_empty
  waiting := by rintro p ⟨⟩
  queued := by rintro e ⟨⟩
  increasing := List.Pairwise.nil
  ordered k hk := absurd hk (Nat.not_lt_zero k)
  ahead := by rintro k ⟨⟩
  written k hk := absurd hk (Nat.not_lt_zero k)
  resolved p hp := absurd hp (Nat.not_lt_zero p)
  once k hk := absurd hk (Nat.not_lt_zero k)

/-- What the invariant is about is the same. -/
structure Same (s s' : SeedState) : Prop where
  socket : s'.socket = s.socket
  generation : s'.generation = s.generation
  nonce : s'.nonce = s.nonce
  remoteXOnly : s'.remoteXOnly = s.remoteXOnly
  readyWaiters : s'.readyWaiters = s.readyWaiters
  queue : s'.queue = s.queue
  reconnectTimer : s'.reconnectTimer = s.reconnectTimer
  promises : s'.promises = s.promises
  sockets : s'.sockets = s.sockets

theorem Sound.same (h : Sound limits v s) (hsame : Same s s') : Sound limits v s' := by
  obtain ⟨hsocket, hgeneration, hnonce, hremote, hwaiters, hqueue, hreconnect, hpromises, hsockets⟩ := hsame
  have hrecords : ∀ k, s'.records k = s.records k := by
    intro k
    unfold records
    rw [hsockets]
  have hpending : s'.pending = s.pending := by
    unfold pending
    rw [hwaiters, hqueue]
  refine ⟨?_, ?_, ?_, ?_, ?_, ?_, ?_, ?_, ?_, ?_, ?_, ?_, ?_, ?_, ?_, ?_⟩
  · rw [hsocket, hsockets, hgeneration]
    exact h.current
  · rw [hsockets, hgeneration]
    exact h.generations
  · rw [hsockets]
    exact h.distinct
  · rw [hsocket, hnonce, hremote]
    exact h.idle
  · rw [hremote, hqueue]
    exact h.unhinted
  · rw [hsocket, hwaiters, hreconnect]
    exact h.stopped
  · rw [hqueue]
    exact h.bounded
  · rw [hpromises, hpending]
    exact h.accounted
  · rw [hwaiters, hpromises]
    exact h.waiting
  · rw [hqueue, hpromises]
    exact h.queued
  · rw [hqueue]
    exact h.increasing
  · intro k hk
    rw [hsockets] at hk
    rw [hrecords]
    exact h.ordered k hk
  · intro k hk r hr e he
    rw [hsocket] at hk
    rw [hrecords] at hr
    rw [hqueue] at he
    exact h.ahead k hk r hr e he
  · intro k hk r hr
    rw [hsockets] at hk
    rw [hrecords] at hr
    rw [hpromises]
    exact h.written k hk r hr
  · intro p hp wire hwire
    rw [hpromises] at hp hwire
    obtain ⟨k, hk, hmem⟩ := h.resolved p hp wire hwire
    refine ⟨k, ?_, ?_⟩
    · rw [hsockets]
      exact hk
    · rw [hrecords]
      exact hmem
  · intro k hk k' hk' r hr r' hr'
    rw [hsockets] at hk hk'
    rw [hrecords] at hr hr'
    exact h.once k hk k' hk' r hr r' hr'

/-! ### Rejections -/

/-- Some of the pending promises are rejected. -/
theorem Sound.rejected (h : Sound limits v s) (ps : List PromiseRef) {error : String}
    (hgeneration : s'.generation = s.generation) (hnext : s'.sockets.next = s.sockets.next)
    (hsockets : ∀ k, (s'.sockets.get k).generation = (s.sockets.get k).generation ∧
      (s'.sockets.get k).history = (s.sockets.get k).history)
    (hpromises : s'.promises = Promises.settleAll (.rejected error) ps s.promises)
    (hperm : s.pending.Perm (ps ++ s'.pending)) (hwaiters : s'.readyWaiters.Sublist s.readyWaiters)
    (hqueue : s'.queue.Sublist s.queue) (hsocket : ∀ k, s'.socket = some k → s.socket = some k)
    (hidle : s'.socket = none → s'.nonce = none ∧ s'.remoteXOnly = none) (hunhinted : s'.remoteXOnly = none → s'.queue = [])
    (hstopped : v.stopping = true → s'.socket = none ∧ s'.readyWaiters = [] ∧ s'.reconnectTimer = none) :
    Sound limits v s' := by
  have hrecords : ∀ k, s'.records k = s.records k := by
    intro k
    unfold records
    rw [(hsockets k).2]
  have hacc : Promises.Accounted s.promises (ps ++ s'.pending) := h.accounted.perm hperm
  have hpayload : ∀ p, (s'.promises.get p).payload = (s.promises.get p).payload := by
    intro p
    rw [hpromises, Promises.payload_settleAll]
  have hlength : s'.promises.next = s.promises.next := by rw [hpromises, Promises.next_settleAll]
  refine ⟨?_, ?_, ?_, hidle, hunhinted, hstopped, ?_, ?_, ?_, ?_, ?_, ?_, ?_, ?_, ?_, ?_⟩
  · intro k hk
    rw [hnext, (hsockets k).1, hgeneration]
    exact h.current k (hsocket k hk)
  · intro k hk
    rw [hnext] at hk
    rw [(hsockets k).1, hgeneration]
    exact h.generations k hk
  · intro k hk k' hk' heq
    rw [hnext] at hk hk'
    rw [(hsockets k).1, (hsockets k').1] at heq
    exact h.distinct k hk k' hk' heq
  · exact hqueue.length_le.trans h.bounded
  · rw [hpromises]
    exact hacc.settleAll
  · intro p hp
    rw [hpayload]
    exact h.waiting p (hwaiters.subset hp)
  · intro e he
    rw [hpayload]
    exact h.queued e (hqueue.subset he)
  · exact h.increasing.sublist hqueue
  · intro k hk
    rw [hnext] at hk
    rw [hrecords]
    exact h.ordered k hk
  · intro k hk r hr e he
    rw [hrecords] at hr
    exact h.ahead k (hsocket k hk) r hr e (hqueue.subset he)
  · intro k hk r hr
    rw [hnext] at hk
    rw [hrecords] at hr
    obtain ⟨hlt, hget⟩ := h.written k hk r hr
    have hnot : r.1 ∉ ps := by
      intro hmem
      have hnone := (hacc.unsettled r.1 (List.mem_append_left _ hmem)).2
      rw [hget] at hnone
      cases hnone
    rw [hlength, hpromises, Promises.get_settleAll_of_notMem hnot]
    exact ⟨hlt, hget⟩
  · intro p hp wire hwire
    rw [hlength] at hp
    have hnot : p ∉ ps := by
      intro hmem
      have hrejected := hacc.settlements_settleAll (x := .rejected error) hmem
      rw [hpromises] at hwire
      rw [hwire] at hrejected
      cases hrejected
    rw [hpromises, Promises.get_settleAll_of_notMem hnot] at hwire
    obtain ⟨k, hk, hmem⟩ := h.resolved p hp wire hwire
    refine ⟨k, ?_, ?_⟩
    · rw [hnext]
      exact hk
    · rw [hrecords]
      exact hmem
  · intro k hk k' hk' r hr r' hr'
    rw [hnext] at hk hk'
    rw [hrecords] at hr hr'
    exact h.once k hk k' hk' r hr r' hr'

/-- The connection has ended, and everyone who waited for it is rejected. -/
structure Ended (v : TransportView) (s s' : SeedState) : Prop where
  socket : s'.socket = none
  nonce : s'.nonce = none
  remoteXOnly : s'.remoteXOnly = none
  readyWaiters : s'.readyWaiters = []
  queue : s'.queue = []
  generation : s'.generation = s.generation
  promises : ∃ error, s'.promises = Promises.settleAll (.rejected error) s.pending s.promises
  next : s'.sockets.next = s.sockets.next
  sockets : ∀ k, (s'.sockets.get k).generation = (s.sockets.get k).generation ∧
    (s'.sockets.get k).history = (s.sockets.get k).history
  stopping : v.stopping = true → s'.reconnectTimer = s.reconnectTimer
  redials : v.stopping = false → s'.reconnectTimer.isSome = true

theorem clearTimeout_eq (timer : Option TimerRef) : ∃ timers, s.clearTimeout timer = { s with timers := timers } := by
  cases timer with
  | none => exact ⟨s.timers, rfl⟩
  | some t => exact ⟨_, rfl⟩

theorem clearConnectionTimers_eq : ∃ timers, s.clearConnectionTimers =
    { s with timers := timers, connectTimer := none, keyHintTimer := none, sendTimer := none } := by
  unfold clearConnectionTimers
  obtain ⟨timers, h⟩ := @clearTimeout_eq s s.connectTimer
  rw [h]
  obtain ⟨timers', h'⟩ := @clearTimeout_eq { s with timers := timers } s.keyHintTimer
  rw [h']
  obtain ⟨timers'', h''⟩ := @clearTimeout_eq { s with timers := timers' } s.sendTimer
  rw [h'']
  exact ⟨timers'', rfl⟩

theorem report_eq (r : SeedReport) : ∃ reports, s.report v r = { s with reports := reports } := by
  unfold report
  split
  · exact ⟨_, rfl⟩
  · exact ⟨s.reports, rfl⟩

theorem ended_connectionEnded (error : String) : Ended v s (s.connectionEnded limits v s.generation error) := by
  obtain ⟨timers, htimers⟩ := @clearConnectionTimers_eq s
  have hcounted : ∀ (b : Bool) (s : SeedState) f, ∃ counters,
      (if b = true then s.count f else s) = { s with counters := counters } := by
    intro b s f
    split
    · exact ⟨_, rfl⟩
    · exact ⟨s.counters, rfl⟩
  have hreported : ∀ (s : SeedState) r, ∃ reports, s.report v r = { s with reports := reports } := fun s r => report_eq r
  have hsettled : Promises.settleAll (.rejected error) (s.queue.map PendingSend.promise)
      (Promises.settleAll (.rejected error) s.readyWaiters s.promises) =
      Promises.settleAll (.rejected error) s.pending s.promises := (Promises.settleAll_append _ _).symm
  unfold connectionEnded
  rw [if_neg (not_not.2 rfl)]
  dsimp only
  rw [htimers]
  obtain ⟨counters, hcounters⟩ := hcounted s.socket.isSome _ _
  rw [hcounters]
  obtain ⟨reports, hreports⟩ := hreported _ _
  rw [hreports]
  split
  · rename_i hstays
    refine ⟨rfl, rfl, rfl, rfl, rfl, rfl, ⟨error, hsettled⟩, rfl, fun _ => ⟨rfl, rfl⟩, fun _ => rfl, fun hgoing => ?_⟩
    rw [hgoing] at hstays
    exact hstays
  · rename_i hredials
    refine ⟨rfl, rfl, rfl, rfl, rfl, rfl, ⟨error, hsettled⟩, rfl, fun _ => ⟨rfl, rfl⟩, fun hstops => ?_, fun _ => rfl⟩
    rw [hstops] at hredials
    exact absurd rfl hredials

theorem Ended.of_sockets {s₁ : SeedState} (h : Ended v s₁ s') (hsockets : ∃ sockets, s₁ = { s with sockets := sockets } ∧
    sockets.next = s.sockets.next ∧ ∀ k, (sockets.get k).generation = (s.sockets.get k).generation ∧
      (sockets.get k).history = (s.sockets.get k).history) : Ended v s s' := by
  obtain ⟨sockets, rfl, hnext, hget⟩ := hsockets
  refine ⟨h.socket, h.nonce, h.remoteXOnly, h.readyWaiters, h.queue, h.generation, h.promises, h.next.trans hnext, ?_,
    h.stopping, h.redials⟩
  intro k
  exact ⟨(h.sockets k).1.trans (hget k).1, (h.sockets k).2.trans (hget k).2⟩

theorem closeSocket_eq (socket : Option SocketRef) : ∃ sockets, s.closeSocket socket = { s with sockets := sockets } ∧
    sockets.next = s.sockets.next ∧ ∀ k, (sockets.get k).generation = (s.sockets.get k).generation ∧
      (sockets.get k).history = (s.sockets.get k).history := by
  cases socket with
  | none => exact ⟨s.sockets, rfl, rfl, fun _ => ⟨rfl, rfl⟩⟩
  | some k =>
    refine ⟨_, rfl, rfl, fun k' => ?_⟩
    rw [Heap.get_modify]
    split
    · exact ⟨rfl, rfl⟩
    · exact ⟨rfl, rfl⟩

theorem ended_failSocket (error : String) : Ended v s (s.failSocket limits v s.generation error) := by
  unfold failSocket
  rw [if_neg (not_not.2 rfl)]
  have hclosed := @closeSocket_eq s s.socket
  have hgeneration : (s.closeSocket s.socket).generation = s.generation := by
    obtain ⟨sockets, heq, -⟩ := hclosed
    rw [heq]
  rw [← hgeneration]
  exact (ended_connectionEnded error).of_sockets hclosed

theorem Sound.ended (h : Sound limits v s) (hended : Ended v s s') : Sound limits v s' := by
  obtain ⟨error, hpromises⟩ := hended.promises
  have hpending : s'.pending = [] := by
    unfold pending
    rw [hended.readyWaiters, hended.queue]
    rfl
  refine h.rejected s.pending hended.generation hended.next hended.sockets hpromises ?_ ?_ ?_ ?_ ?_ ?_ ?_
  · rw [hpending, List.append_nil]
  · rw [hended.readyWaiters]
    exact List.nil_sublist _
  · rw [hended.queue]
    exact List.nil_sublist _
  · intro k hk
    rw [hended.socket] at hk
    cases hk
  · intro _
    exact ⟨hended.nonce, hended.remoteXOnly⟩
  · intro _
    exact hended.queue
  · intro hstopping
    exact ⟨hended.socket, hended.readyWaiters, (hended.stopping hstopping).trans (h.stopped hstopping).2.2⟩

theorem Ended.awaited (h : Ended v s s') : Awaited s' := fun hne => absurd h.readyWaiters hne

theorem Sound.connectionEnded (h : Sound limits v s) {generation : Nat} {error : String} :
    Sound limits v (s.connectionEnded limits v generation error) := by
  by_cases hgeneration : generation = s.generation
  · rw [hgeneration]
    exact h.ended (ended_connectionEnded error)
  · unfold SeedState.connectionEnded
    rw [if_pos hgeneration]
    exact h

theorem Sound.failSocket (h : Sound limits v s) {generation : Nat} {error : String} :
    Sound limits v (s.failSocket limits v generation error) := by
  by_cases hgeneration : generation = s.generation
  · rw [hgeneration]
    exact h.ended (ended_failSocket error)
  · unfold SeedState.failSocket
    rw [if_pos hgeneration]
    exact h

theorem Awaited.connectionEnded (h : Awaited s) {generation : Nat} {error : String} :
    Awaited (s.connectionEnded limits v generation error) := by
  by_cases hgeneration : generation = s.generation
  · rw [hgeneration]
    exact (@ended_connectionEnded limits v s error).awaited
  · unfold SeedState.connectionEnded
    rw [if_pos hgeneration]
    exact h

theorem Awaited.failSocket (h : Awaited s) {generation : Nat} {error : String} :
    Awaited (s.failSocket limits v generation error) := by
  by_cases hgeneration : generation = s.generation
  · rw [hgeneration]
    exact (@ended_failSocket limits v s error).awaited
  · unfold SeedState.failSocket
    rw [if_pos hgeneration]
    exact h

/-! ### Dials -/

/-- A socket of the next generation. -/
theorem Sound.newSocket (h : Sound limits v s) (hgoing : v.stopping = false) (hidle : s.socket = none)
    (hgeneration : s'.generation = s.generation + 1) (hsocket : s'.socket = some s.sockets.next)
    (hsockets : s'.sockets = s.sockets.alloc ⟨s.generation + 1, false, false, []⟩)
    (hwaiters : s'.readyWaiters = s.readyWaiters) (hqueue : s'.queue = s.queue) (hpromises : s'.promises = s.promises) :
    Sound limits v s' := by
  have hold : ∀ k < s.sockets.next, s'.sockets.get k = s.sockets.get k := by
    intro k hk
    rw [hsockets]
    exact Heap.get_alloc_of_lt hk
  have hnew : s'.sockets.get s.sockets.next = ⟨s.generation + 1, false, false, []⟩ := by
    rw [hsockets]
    exact Heap.get_alloc_self
  have hrecords : ∀ k < s.sockets.next, s'.records k = s.records k := by
    intro k hk
    unfold records
    rw [hold k hk]
  have hnone : s'.records s.sockets.next = [] := by
    unfold records
    rw [hnew]
    rfl
  have hcases : ∀ k < s'.sockets.next, k < s.sockets.next ∨ k = s.sockets.next := by
    intro k hk
    rw [hsockets] at hk
    exact Nat.lt_succ_iff_lt_or_eq.1 hk
  have hqueue' : s.queue = [] := h.unhinted (h.idle hidle).2
  refine ⟨?_, ?_, ?_, ?_, ?_, ?_, ?_, ?_, ?_, ?_, ?_, ?_, ?_, ?_, ?_, ?_⟩
  · intro k hk
    rw [hsocket] at hk
    cases hk
    rw [hnew, hgeneration, hsockets]
    exact ⟨Nat.lt_succ_self _, rfl⟩
  · intro k hk
    rw [hgeneration]
    rcases hcases k hk with hlt | rfl
    · rw [hold k hlt]
      exact (h.generations k hlt).trans (Nat.le_succ _)
    · rw [hnew]
  · intro k hk k' hk' heq
    rcases hcases k hk with hlt | rfl
    · rcases hcases k' hk' with hlt' | rfl
      · rw [hold k hlt, hold k' hlt'] at heq
        exact h.distinct k hlt k' hlt' heq
      · rw [hold k hlt, hnew] at heq
        have hle := h.generations k hlt
        rw [heq] at hle
        exact absurd hle (Nat.not_succ_le_self _)
    · rcases hcases k' hk' with hlt' | rfl
      · rw [hold k' hlt', hnew] at heq
        have hle := h.generations k' hlt'
        rw [← heq] at hle
        exact absurd hle (Nat.not_succ_le_self _)
      · rfl
  · intro hnone
    rw [hsocket] at hnone
    cases hnone
  · intro _
    rw [hqueue, hqueue']
  · intro hstopping
    rw [hgoing] at hstopping
    cases hstopping
  · rw [hqueue]
    exact h.bounded
  · unfold pending
    rw [hpromises, hwaiters, hqueue]
    exact h.accounted
  · rw [hwaiters, hpromises]
    exact h.waiting
  · rw [hqueue, hpromises]
    exact h.queued
  · rw [hqueue]
    exact h.increasing
  · intro k hk
    rcases hcases k hk with hlt | rfl
    · rw [hrecords k hlt]
      exact h.ordered k hlt
    · rw [hnone]
      exact List.Pairwise.nil
  · intro k hk r hr
    rw [hsocket] at hk
    cases hk
    rw [hnone] at hr
    cases hr
  · intro k hk r hr
    rcases hcases k hk with hlt | rfl
    · rw [hrecords k hlt] at hr
      rw [hpromises]
      exact h.written k hlt r hr
    · rw [hnone] at hr
      cases hr
  · intro p hp wire hwire
    rw [hpromises] at hp hwire
    obtain ⟨k, hk, hmem⟩ := h.resolved p hp wire hwire
    refine ⟨k, ?_, ?_⟩
    · rw [hsockets]
      exact hk.trans (Nat.lt_succ_self _)
    · rw [hrecords k hk]
      exact hmem
  · intro k hk k' hk' r hr r' hr'
    rcases hcases k hk with hlt | rfl
    · rcases hcases k' hk' with hlt' | rfl
      · rw [hrecords k hlt] at hr
        rw [hrecords k' hlt'] at hr'
        exact h.once k hlt k' hlt' r hr r' hr'
      · rw [hnone] at hr'
        cases hr'
    · rw [hnone] at hr
      cases hr

/-- The next generation, without a socket. -/
theorem Sound.nextGeneration (h : Sound limits v s) (hidle : s.socket = none) :
    Sound limits v { s with generation := s.generation + 1 } where
  current k hk := by
    have hk' : s.socket = some k := hk
    rw [hidle] at hk'
    cases hk'
  generations k hk := (h.generations k hk).trans (Nat.le_succ _)
  distinct := h.distinct
  idle := h.idle
  unhinted := h.unhinted
  stopped := h.stopped
  bounded := h.bounded
  accounted := h.accounted
  waiting := h.waiting
  queued := h.queued
  increasing := h.increasing
  ordered := h.ordered
  ahead := h.ahead
  written := h.written
  resolved := h.resolved
  once := h.once

theorem dial_sound (h : Sound limits v s) :
    Sound limits v (s.dial limits v w) ∧ (v.stopping = false → Awaited (s.dial limits v w)) := by
  unfold dial
  split
  · rename_i hstays
    refine ⟨h, fun hgoing _ => ?_⟩
    rw [hgoing, Bool.false_or, Bool.or_eq_true] at hstays
    exact hstays
  rename_i hdials
  rw [Bool.or_eq_true, Bool.or_eq_true, not_or, not_or, Bool.not_eq_true, Bool.not_eq_true,
    Option.isSome_eq_false_iff, Option.isNone_iff_eq_none] at hdials
  obtain ⟨⟨hgoing, hidle⟩, -⟩ := hdials
  obtain ⟨reports, hreports⟩ := @report_eq v ({ s with generation := s.generation + 1 }.count fun c =>
    { c with connectionAttempts := c.connectionAttempts + 1 }) .connecting
  dsimp only
  rw [hreports]
  split
  · rename_i error _
    have hnext : Sound limits v { ({ s with generation := s.generation + 1 }.count fun c =>
        { c with connectionAttempts := c.connectionAttempts + 1 }) with reports := reports } :=
      (h.nextGeneration hidle).same ⟨rfl, rfl, rfl, rfl, rfl, rfl, rfl, rfl, rfl⟩
    have hended := @ended_connectionEnded limits v { ({ s with generation := s.generation + 1 }.count fun c =>
      { c with connectionAttempts := c.connectionAttempts + 1 }) with reports := reports } error
    exact ⟨hnext.ended hended, fun _ => hended.awaited⟩
  · exact ⟨h.newSocket hgoing hidle rfl rfl rfl rfl rfl rfl, fun _ _ => .inl rfl⟩

/-! ### Records out -/

theorem Sound.rejectQueue (h : Sound limits v s) {error : String} : Sound limits v (s.rejectQueue error) := by
  refine h.rejected (s.queue.map PendingSend.promise) rfl rfl (fun _ => ⟨rfl, rfl⟩) rfl ?_ (List.Sublist.refl _)
    (List.nil_sublist _) (fun _ hk => hk) h.idle (fun _ => rfl) h.stopped
  show List.Perm (s.readyWaiters ++ s.queue.map PendingSend.promise) (s.queue.map PendingSend.promise ++ (s.readyWaiters ++ []))
  rw [List.append_nil]
  exact List.perm_append_comm

/-- The first of the queue is rejected. -/
theorem Sound.dropped (h : Sound limits v s) {next : PendingSend} {queue : List PendingSend} {error : String}
    (hqueue : s.queue = next :: queue) : Sound limits v ({ s with queue := queue }.settle (.rejected error) next.promise) := by
  refine h.rejected [next.promise] rfl rfl (fun _ => ⟨rfl, rfl⟩) rfl ?_ (List.Sublist.refl _) ?_
    (fun _ hk => hk) h.idle (fun hremote => ?_) h.stopped
  · show List.Perm (s.readyWaiters ++ s.queue.map PendingSend.promise)
      (next.promise :: (s.readyWaiters ++ queue.map PendingSend.promise))
    rw [hqueue]
    exact List.perm_middle
  · rw [hqueue]
    exact List.sublist_cons_self _ _
  · have hnil := h.unhinted hremote
    rw [hqueue] at hnil
    cases hnil

/-- The first of the queue is written. -/
theorem Sound.sent (h : Sound limits v s) {k : SocketRef} {next : PendingSend} {queue : List PendingSend}
    (hk : s.socket = some k) (hqueue : s.queue = next :: queue) (hsocket : s'.socket = s.socket)
    (hgeneration : s'.generation = s.generation) (hnonce : s'.nonce = s.nonce) (hremote : s'.remoteXOnly = s.remoteXOnly)
    (hwaiters : s'.readyWaiters = s.readyWaiters) (hqueue' : s'.queue = queue)
    (hreconnect : s'.reconnectTimer = s.reconnectTimer)
    (hpromises : s'.promises = Promises.settle .resolved next.promise s.promises)
    (hsockets : s'.sockets = s.sockets.modify k fun socket =>
      { socket with history := socket.history ++ [.record next.promise next.data] }) : Sound limits v s' := by
  have hgenerations : ∀ k', (s'.sockets.get k').generation = (s.sockets.get k').generation := by
    intro k'
    rw [hsockets, Heap.get_modify]
    split
    · rfl
    · rfl
  have hothers : ∀ k', k' ≠ k → s'.records k' = s.records k' := by
    intro k' hne
    unfold records
    rw [hsockets, Heap.get_modify_of_ne hne]
  have hself : s'.records k = s.records k ++ [(next.promise, next.data)] := by
    unfold records
    rw [hsockets, Heap.get_modify_self, List.filterMap_append]
    rfl
  have hperm : s.pending.Perm (next.promise :: s'.pending) := by
    unfold pending
    rw [hwaiters, hqueue, hqueue']
    exact List.perm_middle
  have hacc : Promises.Accounted s.promises (next.promise :: s'.pending) := h.accounted.perm hperm
  have hmem : next ∈ s.queue := by
    rw [hqueue]
    exact List.mem_cons_self
  have hpayload : ∀ p, (s'.promises.get p).payload = (s.promises.get p).payload := by
    intro p
    rw [hpromises, Promises.payload_settle]
  have hnext : s'.promises.next = s.promises.next := by rw [hpromises, Promises.next_settle]
  have hsent : s'.promises.get next.promise = ⟨some next.data, [.resolved]⟩ := by
    have hsettlements := hacc.settlements_settle (x := .resolved)
    rw [← hpromises] at hsettlements
    have hdata := (hpayload next.promise).trans (h.queued next hmem)
    rw [← hsettlements, ← hdata]
  have hlast : ∀ r ∈ s.records k, r.1 < next.promise := fun r hr => h.ahead k hk r hr next hmem
  have hcons := h.increasing
  rw [hqueue, List.pairwise_cons] at hcons
  refine ⟨?_, ?_, ?_, ?_, ?_, ?_, ?_, ?_, ?_, ?_, ?_, ?_, ?_, ?_, ?_, ?_⟩
  · intro k' hk'
    rw [hsocket] at hk'
    rw [hgenerations, hgeneration, hsockets]
    exact h.current k' hk'
  · intro k' hk'
    rw [hsockets] at hk'
    rw [hgenerations, hgeneration]
    exact h.generations k' hk'
  · intro k' hk' k'' hk'' heq
    rw [hsockets] at hk' hk''
    rw [hgenerations, hgenerations] at heq
    exact h.distinct k' hk' k'' hk'' heq
  · rw [hsocket, hnonce, hremote]
    exact h.idle
  · intro hnone
    rw [hremote] at hnone
    have hnil := h.unhinted hnone
    rw [hqueue] at hnil
    cases hnil
  · rw [hsocket, hwaiters, hreconnect]
    exact h.stopped
  · rw [hqueue']
    have hlen := h.bounded
    rw [hqueue] at hlen
    exact (Nat.le_succ _).trans hlen
  · rw [hpromises]
    exact hacc.settle
  · intro p hp
    rw [hwaiters] at hp
    rw [hpayload]
    exact h.waiting p hp
  · intro e he
    rw [hqueue'] at he
    rw [hpayload]
    refine h.queued e ?_
    rw [hqueue]
    exact List.mem_cons_of_mem _ he
  · rw [hqueue']
    exact hcons.2
  · intro k' hk'
    rw [hsockets] at hk'
    by_cases hne : k' = k
    · rw [hne, hself]
      refine List.pairwise_append.2 ⟨h.ordered k (h.current k hk).1, List.pairwise_singleton _ _, fun r hr r' hr' => ?_⟩
      rw [List.mem_singleton.1 hr']
      exact hlast r hr
    · rw [hothers k' hne]
      exact h.ordered k' hk'
  · intro k' hk' r hr e he
    rw [hsocket, hk] at hk'
    cases hk'
    rw [hself] at hr
    rw [hqueue'] at he
    rcases List.mem_append.1 hr with hr | hr
    · refine h.ahead k hk r hr e ?_
      rw [hqueue]
      exact List.mem_cons_of_mem _ he
    · rw [List.mem_singleton.1 hr]
      exact hcons.1 e he
  · intro k' hk' r hr
    rw [hsockets] at hk'
    have hold : r ∈ s.records k' → r.1 < s'.promises.next ∧ s'.promises.get r.1 = ⟨some r.2, [.resolved]⟩ := by
      intro hr
      obtain ⟨hlt, hget⟩ := h.written k' hk' r hr
      have hne : r.1 ≠ next.promise := by
        intro heq
        have hnone := (hacc.unsettled next.promise List.mem_cons_self).2
        rw [← heq, hget] at hnone
        cases hnone
      rw [hnext, hpromises, Promises.get_settle_of_ne hne]
      exact ⟨hlt, hget⟩
    by_cases hne : k' = k
    · rw [hne, hself] at hr
      rcases List.mem_append.1 hr with hr | hr
      · exact hold (by rw [hne]; exact hr)
      · rw [List.mem_singleton.1 hr, hnext]
        exact ⟨(hacc.unsettled next.promise List.mem_cons_self).1, hsent⟩
    · rw [hothers k' hne] at hr
      exact hold hr
  · intro p hp wire hwire
    rw [hnext] at hp
    by_cases hne : p = next.promise
    · rw [hne, hsent] at hwire
      injection hwire with hdata
      injection hdata with hdata
      refine ⟨k, ?_, ?_⟩
      · rw [hsockets]
        exact (h.current k hk).1
      · rw [hself, hne, hdata]
        exact List.mem_append_right _ List.mem_cons_self
    · rw [hpromises, Promises.get_settle_of_ne hne] at hwire
      obtain ⟨k', hk', hmem'⟩ := h.resolved p hp wire hwire
      refine ⟨k', ?_, ?_⟩
      · rw [hsockets]
        exact hk'
      · by_cases hsame : k' = k
        · rw [hsame] at hmem' ⊢
          rw [hself]
          exact List.mem_append_left _ hmem'
        · rw [hothers k' hsame]
          exact hmem'
  · have hfresh : ∀ k' < s.sockets.next, ∀ r ∈ s.records k', r.1 ≠ next.promise := by
      intro k' hk' r hr heq
      have hnone := (hacc.unsettled next.promise List.mem_cons_self).2
      rw [← heq, (h.written k' hk' r hr).2] at hnone
      cases hnone
    have hcases : ∀ k', ∀ r ∈ s'.records k', r ∈ s.records k' ∨ k' = k ∧ r.1 = next.promise := by
      intro k' r hr
      by_cases hne : k' = k
      · rw [hne, hself] at hr
        rcases List.mem_append.1 hr with hr | hr
        · rw [hne]
          exact .inl hr
        · rw [List.mem_singleton.1 hr]
          exact .inr ⟨hne, rfl⟩
      · rw [hothers k' hne] at hr
        exact .inl hr
    intro k' hk' k'' hk'' r hr r' hr' heq
    rw [hsockets] at hk' hk''
    rcases hcases k' r hr with hr | ⟨rfl, hnew⟩
    · rcases hcases k'' r' hr' with hr' | ⟨rfl, hnew'⟩
      · exact h.once k' hk' k'' hk'' r hr r' hr' heq
      · exact absurd (heq.trans hnew') (hfresh k' hk' r hr)
    · rcases hcases k'' r' hr' with hr' | ⟨rfl, -⟩
      · exact absurd (heq.symm.trans hnew) (hfresh k'' hk'' r' hr')
      · rfl

theorem pumpLoop_sound {k : SocketRef} (queue : List PendingSend) (buffered calls : Nat) (h : Sound limits v s)
    (hk : s.socket = some k) (hqueue : s.queue = queue) : Sound limits v (pumpLoop limits v w k queue buffered calls s) := by
  induction queue generalizing s buffered calls with
  | nil => exact h
  | cons next queue ih =>
    unfold pumpLoop
    split
    · exact h.rejectQueue
    split
    · exact h.same ⟨rfl, rfl, rfl, rfl, rfl, rfl, rfl, rfl, rfl⟩
    dsimp only
    split
    · refine ih _ _ ?_ hk rfl
      exact h.sent hk hqueue rfl rfl rfl rfl rfl rfl rfl rfl rfl
    · exact (h.dropped hqueue).failSocket

theorem Sound.pump (h : Sound limits v s) : Sound limits v (s.pump limits v w) := by
  unfold SeedState.pump
  split
  · exact h
  · rename_i k hk
    split
    · exact h
    · exact pumpLoop_sound s.queue _ _ h hk rfl

theorem pumpLoop_awaited {k : SocketRef} (queue : List PendingSend) (buffered calls : Nat) (h : Awaited s) :
    Awaited (pumpLoop limits v w k queue buffered calls s) := by
  induction queue generalizing s buffered calls with
  | nil => exact h
  | cons next queue ih =>
    unfold pumpLoop
    split
    · exact h
    split
    · exact h
    dsimp only
    split
    · exact ih _ _ h
    · refine Awaited.failSocket ?_
      exact h

theorem Awaited.pump (h : Awaited s) : Awaited (s.pump limits v w) := by
  unfold SeedState.pump
  split
  · exact h
  split
  · exact h
  · exact pumpLoop_awaited s.queue _ _ h

/-! ### Callers -/

/-- A promise is made; one for a packet is not resolved at once. -/
theorem Sound.alloc (h : Sound limits v s) {promise : CallerPromise}
    (hpromise : promise.payload.isSome = true → promise.settlements ≠ [.resolved])
    (hsocket : s'.socket = s.socket) (hgeneration : s'.generation = s.generation) (hnonce : s'.nonce = s.nonce)
    (hremote : s'.remoteXOnly = s.remoteXOnly) (hreconnect : s'.reconnectTimer = s.reconnectTimer)
    (hsockets : s'.sockets = s.sockets) (hpromises : s'.promises = s.promises.alloc promise)
    (hunhinted : s'.remoteXOnly = none → s'.queue = [])
    (hstopped : v.stopping = true → s'.readyWaiters = [])
    (hbounded : s'.queue.length ≤ limits.maxSendQueue) (hacc : Promises.Accounted s'.promises s'.pending)
    (hwaiting : ∀ p ∈ s'.readyWaiters, p ∈ s.readyWaiters ∨ p = s.promises.next ∧ promise.payload = none)
    (hqueued : ∀ e ∈ s'.queue, e ∈ s.queue ∨ e.promise = s.promises.next ∧ promise.payload = some e.data)
    (hincreasing : s'.queue.Pairwise fun e e' => e.promise < e'.promise) : Sound limits v s' := by
  have hold : ∀ p < s.promises.next, s'.promises.get p = s.promises.get p := by
    intro p hp
    rw [hpromises]
    exact Heap.get_alloc_of_lt hp
  have hnew : s'.promises.get s.promises.next = promise := by
    rw [hpromises]
    exact Heap.get_alloc_self
  have hrecords : ∀ k, s'.records k = s.records k := by
    intro k
    unfold records
    rw [hsockets]
  have hwaiter : ∀ p ∈ s.readyWaiters, p < s.promises.next := fun p hp =>
    (h.accounted.unsettled p (List.mem_append_left _ hp)).1
  have hsend : ∀ e ∈ s.queue, e.promise < s.promises.next := fun e he =>
    (h.accounted.unsettled e.promise (List.mem_append_right _ (List.mem_map.2 ⟨e, he, rfl⟩))).1
  refine ⟨?_, ?_, ?_, ?_, hunhinted, ?_, hbounded, hacc, ?_, ?_, hincreasing, ?_, ?_, ?_, ?_, ?_⟩
  · rw [hsocket, hsockets, hgeneration]
    exact h.current
  · rw [hsockets, hgeneration]
    exact h.generations
  · rw [hsockets]
    exact h.distinct
  · rw [hsocket, hnonce, hremote]
    exact h.idle
  · intro hstopping
    rw [hsocket, hreconnect]
    exact ⟨(h.stopped hstopping).1, hstopped hstopping, (h.stopped hstopping).2.2⟩
  · intro p hp
    rcases hwaiting p hp with hp | ⟨rfl, hnone⟩
    · rw [hold p (hwaiter p hp)]
      exact h.waiting p hp
    · rw [hnew]
      exact hnone
  · intro e he
    rcases hqueued e he with he | ⟨heq, hdata⟩
    · rw [hold _ (hsend e he)]
      exact h.queued e he
    · rw [heq, hnew]
      exact hdata
  · intro k hk
    rw [hsockets] at hk
    rw [hrecords]
    exact h.ordered k hk
  · intro k hk r hr e he
    rw [hsocket] at hk
    rw [hrecords] at hr
    rcases hqueued e he with he | ⟨heq, -⟩
    · exact h.ahead k hk r hr e he
    · rw [heq]
      exact (h.written k (h.current k hk).1 r hr).1
  · intro k hk r hr
    rw [hsockets] at hk
    rw [hrecords] at hr
    obtain ⟨hlt, hget⟩ := h.written k hk r hr
    rw [hold _ hlt, hpromises]
    exact ⟨hlt.trans (Nat.lt_succ_self _), hget⟩
  · intro p hp wire hwire
    rw [hpromises] at hp
    have hlt : p < s.promises.next := by
      rcases Nat.lt_succ_iff_lt_or_eq.1 hp with hlt | rfl
      · exact hlt
      · rw [hnew] at hwire
        refine absurd ?_ (hpromise ?_)
        · rw [hwire]
        · rw [hwire]
          rfl
    rw [hold p hlt] at hwire
    obtain ⟨k, hk, hmem⟩ := h.resolved p hlt wire hwire
    refine ⟨k, ?_, ?_⟩
    · rw [hsockets]
      exact hk
    · rw [hrecords]
      exact hmem
  · intro k hk k' hk' r hr r' hr'
    rw [hsockets] at hk hk'
    rw [hrecords] at hr hr'
    exact h.once k hk k' hk' r hr r' hr'

theorem Sound.settledPromise (h : Sound limits v s) {packet : Option Bytes} {settlement : Settlement}
    (hpacket : packet.isSome = true → settlement ≠ .resolved) : Sound limits v (s.settledPromise packet settlement) := by
  refine @Sound.alloc limits v s _ h ⟨packet, [settlement]⟩ ?_ rfl rfl rfl rfl rfl rfl rfl h.unhinted (fun hs => (h.stopped hs).2.1)
    h.bounded h.accounted.allocSettled (fun p hp => .inl hp) (fun e he => .inl he) h.increasing
  intro hsome heq
  injection heq with heq
  exact hpacket hsome heq

theorem Sound.connect (h : Sound limits v s) (ha : Awaited s) :
    Sound limits v (s.connect limits v w) ∧ Awaited (s.connect limits v w) := by
  unfold SeedState.connect
  split
  · exact ⟨h.settledPromise (by rintro ⟨⟩), ha⟩
  rename_i hgoing
  rw [Bool.not_eq_true] at hgoing
  split
  · exact ⟨h.settledPromise (by rintro ⟨⟩), ha⟩
  dsimp only
  have hperm : (s.pending ++ [s.promises.next]).Perm
      ((s.readyWaiters ++ [s.promises.next]) ++ s.queue.map PendingSend.promise) := by
    unfold pending
    rw [List.append_assoc, List.append_assoc]
    exact (List.Perm.refl _).append List.perm_append_comm
  have hwaits : Sound limits v { s with
      readyWaiters := s.readyWaiters ++ [s.promises.next], promises := s.promises.alloc ⟨none, []⟩ } := by
    refine @Sound.alloc limits v s _ h ⟨none, []⟩ (by rintro ⟨⟩) rfl rfl rfl rfl rfl rfl rfl h.unhinted ?_ h.bounded
      (h.accounted.alloc.perm hperm) ?_ (fun e he => .inl he) h.increasing
    · intro hstopping
      rw [hgoing] at hstopping
      cases hstopping
    · intro p hp
      rcases List.mem_append.1 hp with hp | hp
      · exact .inl hp
      · exact .inr ⟨List.mem_singleton.1 hp, rfl⟩
  split
  · exact ⟨(dial_sound hwaits).1, (dial_sound hwaits).2 hgoing⟩
  · rename_i hheld
    refine ⟨hwaits, fun _ => ?_⟩
    rw [Bool.and_eq_true, not_and_or, Bool.not_eq_true, Option.isNone_eq_false_iff, Bool.not_eq_true,
      Option.isNone_eq_false_iff] at hheld
    exact hheld

theorem Sound.send (h : Sound limits v s) {packet : Bytes} : Sound limits v (s.send limits v w packet) := by
  have hrejected : ∀ (s : SeedState) error, Sound limits v s →
      Sound limits v (s.settledPromise (some packet) (.rejected error)) := fun s error h =>
    h.settledPromise (by rintro - ⟨⟩)
  unfold SeedState.send
  split
  · exact hrejected _ _ h
  split
  · exact hrejected _ _ h
  split
  · exact hrejected _ _ h
  rename_i hready
  split
  · exact hrejected _ _ (h.same ⟨rfl, rfl, rfl, rfl, rfl, rfl, rfl, rfl, rfl⟩)
  rename_i hroom
  dsimp only
  refine Sound.pump ?_
  have hremote : s.remoteXOnly ≠ none := by
    intro hnone
    unfold isReady at hready
    rw [hnone, Option.isSome_none, Bool.and_false] at hready
    exact hready rfl
  refine @Sound.alloc limits v s _ h ⟨some packet, []⟩ (by rintro - ⟨⟩) rfl rfl rfl rfl rfl rfl rfl
    (fun hnone => absurd hnone hremote) (fun hs => (h.stopped hs).2.1) ?_ ?_ (fun p hp => .inl hp) ?_ ?_
  · rw [List.length_append, List.length_singleton]
    exact Nat.not_le.1 hroom
  · have hacc := h.accounted.alloc (a := some packet)
    unfold pending at hacc ⊢
    rw [List.append_assoc] at hacc
    dsimp only
    rw [List.map_append]
    exact hacc
  · intro e he
    rcases List.mem_append.1 he with he | he
    · exact .inl he
    · rw [List.mem_singleton.1 he]
      exact .inr ⟨rfl, rfl⟩
  · refine List.pairwise_append.2 ⟨h.increasing, List.pairwise_singleton _ _, fun e he e' he' => ?_⟩
    rw [List.mem_singleton.1 he']
    exact (h.accounted.unsettled e.promise (List.mem_append_right _ (List.mem_map.2 ⟨e, he, rfl⟩))).1

theorem Awaited.send (h : Awaited s) {packet : Bytes} : Awaited (s.send limits v w packet) := by
  unfold SeedState.send
  split
  · exact h
  split
  · exact h
  split
  · exact h
  split
  · exact h
  · refine Awaited.pump ?_
    exact h

/-! ### Events of a socket -/

/-- A socket's history gets no record. -/
theorem Sound.noted (h : Sound limits v s) {k : SocketRef} {f : Socket → Socket}
    (hf : ∀ socket, (f socket).generation = socket.generation ∧
      (f socket).history.filterMap SocketEvent.asRecord = socket.history.filterMap SocketEvent.asRecord) :
    Sound limits v { s with sockets := s.sockets.modify k f } := by
  have hgeneration : ∀ k', ((s.sockets.modify k f).get k').generation = (s.sockets.get k').generation := by
    intro k'
    rw [Heap.get_modify]
    split
    · exact (hf _).1
    · rfl
  have hrecords : ∀ k', { s with sockets := s.sockets.modify k f }.records k' = s.records k' := by
    intro k'
    unfold records
    dsimp only
    rw [Heap.get_modify]
    split
    · exact (hf _).2
    · rfl
  refine ⟨?_, ?_, ?_, h.idle, h.unhinted, h.stopped, h.bounded, h.accounted, h.waiting, h.queued, h.increasing, ?_, ?_, ?_, ?_, ?_⟩
  · intro k' hk'
    dsimp only
    rw [hgeneration]
    exact h.current k' hk'
  · intro k' hk'
    dsimp only
    rw [hgeneration]
    exact h.generations k' hk'
  · intro k' hk' k'' hk'' heq
    dsimp only at heq
    rw [hgeneration, hgeneration] at heq
    exact h.distinct k' hk' k'' hk'' heq
  · intro k' hk'
    rw [hrecords]
    exact h.ordered k' hk'
  · intro k' hk' r hr
    rw [hrecords] at hr
    exact h.ahead k' hk' r hr
  · intro k' hk' r hr
    rw [hrecords] at hr
    exact h.written k' hk' r hr
  · intro p hp wire hwire
    obtain ⟨k', hk', hmem⟩ := h.resolved p hp wire hwire
    refine ⟨k', hk', ?_⟩
    rw [hrecords]
    exact hmem
  · intro k' hk' k'' hk'' r hr r' hr'
    rw [hrecords] at hr hr'
    exact h.once k' hk' k'' hk'' r hr r' hr'

theorem Sound.note (h : Sound limits v s) {k : SocketRef} {e : SocketEvent} (he : SocketEvent.asRecord e = none) :
    Sound limits v (s.note k e) := by
  refine h.noted fun socket => ⟨rfl, ?_⟩
  dsimp only
  rw [List.filterMap_append, List.filterMap_cons_none he, List.filterMap_nil, List.append_nil]

theorem Sound.clearTimeout (h : Sound limits v s) (timer : Option TimerRef) : Sound limits v (s.clearTimeout timer) := by
  obtain ⟨timers, heq⟩ := @clearTimeout_eq s timer
  rw [heq]
  exact h.same ⟨rfl, rfl, rfl, rfl, rfl, rfl, rfl, rfl, rfl⟩

/-- A nonce of a connection. -/
theorem Sound.setNonce (h : Sound limits v s) {nonce : Option Nat} (hsocket : s.socket.isSome = true) :
    Sound limits v { s with nonce := nonce } := by
  refine ⟨h.current, h.generations, h.distinct, fun hnone => ?_, h.unhinted, h.stopped, h.bounded, h.accounted, h.waiting,
    h.queued, h.increasing, h.ordered, h.ahead, h.written, h.resolved, h.once⟩
  have hnone' : s.socket = none := hnone
  rw [hnone'] at hsocket
  cases hsocket

theorem isCurrent_eq_true {k : SocketRef} {generation : Nat} :
    s.isCurrent k generation = true ↔ s.socket = some k ∧ s.generation = generation := by
  unfold isCurrent
  rw [Bool.and_eq_true, decide_eq_true_eq, decide_eq_true_eq]

theorem Sound.socketOpen (h : Sound limits v s) {k : SocketRef} : Sound limits v (s.socketOpen limits v w k) := by
  have hopened : Sound limits v { s with sockets := s.sockets.modify k fun socket => { socket with opened := true } } :=
    h.noted fun _ => ⟨rfl, rfl⟩
  unfold SeedState.socketOpen
  dsimp only
  split
  · exact h
  split
  · exact hopened
  rename_i hcurrent
  rw [Bool.not_eq_false, isCurrent_eq_true] at hcurrent
  have hsocket : s.socket = some k := hcurrent.1
  obtain ⟨timers, htimers⟩ := @clearTimeout_eq
    { s with sockets := s.sockets.modify k fun socket => { socket with opened := true } } s.connectTimer
  rw [htimers]
  have hcounted : ∀ timers connectTimer counters, Sound limits v { s with
      sockets := s.sockets.modify k fun socket => { socket with opened := true }
      timers := timers, connectTimer := connectTimer, counters := counters } := fun _ _ _ =>
    hopened.same ⟨rfl, rfl, rfl, rfl, rfl, rfl, rfl, rfl, rfl⟩
  have hnonce : ∀ timers connectTimer counters nonce, Sound limits v { s with
      sockets := s.sockets.modify k fun socket => { socket with opened := true }
      timers := timers, connectTimer := connectTimer, counters := counters, nonce := nonce } :=
    fun timers connectTimer counters nonce => (hcounted timers connectTimer counters).setNonce (by rw [hsocket]; rfl)
  split
  · exact hcounted _ _ _
  split
  · exact ((hnonce _ _ _ _).note rfl).same ⟨rfl, rfl, rfl, rfl, rfl, rfl, rfl, rfl, rfl⟩
  · exact (hnonce _ _ _ _).failSocket
  · exact (hnonce _ _ _ _).failSocket

theorem Awaited.of_eq (h : Awaited s) (hwaiters : s'.readyWaiters = s.readyWaiters) (hsocket : s'.socket = s.socket)
    (hreconnect : s'.reconnectTimer = s.reconnectTimer) : Awaited s' := by
  unfold Awaited
  rw [hwaiters, hsocket, hreconnect]
  exact h

theorem Awaited.socketOpen (h : Awaited s) {k : SocketRef} : Awaited (s.socketOpen limits v w k) := by
  unfold SeedState.socketOpen
  dsimp only
  split
  · exact h
  split
  · exact h
  obtain ⟨timers, htimers⟩ := @clearTimeout_eq
    { s with sockets := s.sockets.modify k fun socket => { socket with opened := true } } s.connectTimer
  rw [htimers]
  have hcounted : ∀ sockets timers connectTimer counters, Awaited { s with
      sockets := sockets, timers := timers, connectTimer := connectTimer, counters := counters } := fun _ _ _ _ => h
  have hnonce : ∀ sockets timers connectTimer counters nonce, Awaited { s with
      sockets := sockets, timers := timers, connectTimer := connectTimer, counters := counters, nonce := nonce } :=
    fun _ _ _ _ _ => h
  split
  · exact hcounted _ _ _ _
  split
  · exact h.of_eq rfl rfl rfl
  · exact (hnonce _ _ _ _ _).failSocket
  · exact (hnonce _ _ _ _ _).failSocket

theorem Sound.socketMessage (h : Sound limits v s) {k : SocketRef} {data : MessageData} :
    Sound limits v (s.socketMessage k data) := by
  unfold SeedState.socketMessage
  dsimp only
  split
  · exact h.same ⟨rfl, rfl, rfl, rfl, rfl, rfl, rfl, rfl, rfl⟩
  · exact h

theorem Awaited.socketMessage (h : Awaited s) {k : SocketRef} {data : MessageData} :
    Awaited (s.socketMessage k data) := by
  unfold SeedState.socketMessage
  dsimp only
  split
  · exact h
  · exact h

/-! ### Records in -/

theorem Sound.receiveBegin (h : Sound limits v s) : Sound limits v s.receiveBegin := by
  have hchain : ∀ chain, Sound limits v { s with receiveChain := chain } := fun _ =>
    h.same ⟨rfl, rfl, rfl, rfl, rfl, rfl, rfl, rfl, rfl⟩
  unfold SeedState.receiveBegin
  split
  · exact h
  split
  · exact h
  split
  · exact hchain _
  · exact hchain _

theorem Awaited.receiveBegin (h : Awaited s) : Awaited s.receiveBegin := by
  unfold SeedState.receiveBegin
  split
  · exact h
  split
  · exact h
  split
  · exact h
  · exact h

/-- The seed's identity is known, and those who waited for it are resolved. -/
theorem Sound.hinted (h : Sound limits v s) {pubkey : Bytes} (hsocket : s.socket.isSome = true)
    (hsocket' : s'.socket = s.socket) (hgeneration : s'.generation = s.generation)
    (hremote : s'.remoteXOnly = some pubkey) (hwaiters : s'.readyWaiters = []) (hqueue : s'.queue = s.queue)
    (hpromises : s'.promises = Promises.settleAll .resolved s.readyWaiters s.promises)
    (hsockets : s'.sockets = s.sockets) : Sound limits v s' := by
  have hrecords : ∀ k, s'.records k = s.records k := by
    intro k
    unfold records
    rw [hsockets]
  have hacc : Promises.Accounted s.promises (s.readyWaiters ++ s'.pending) := by
    unfold pending
    rw [hwaiters, hqueue]
    exact h.accounted
  have hpayload : ∀ p, (s'.promises.get p).payload = (s.promises.get p).payload := by
    intro p
    rw [hpromises, Promises.payload_settleAll]
  have hnext : s'.promises.next = s.promises.next := by rw [hpromises, Promises.next_settleAll]
  have hsend : ∀ p wire, (s.promises.get p).payload = some wire → s'.promises.get p = s.promises.get p := by
    intro p wire hp
    rw [hpromises]
    refine Promises.get_settleAll_of_notMem fun hmem => ?_
    rw [h.waiting p hmem] at hp
    cases hp
  refine ⟨?_, ?_, ?_, ?_, ?_, ?_, ?_, ?_, ?_, ?_, ?_, ?_, ?_, ?_, ?_, ?_⟩
  · rw [hsocket', hsockets, hgeneration]
    exact h.current
  · rw [hsockets, hgeneration]
    exact h.generations
  · rw [hsockets]
    exact h.distinct
  · intro hnone
    rw [hsocket'] at hnone
    rw [hnone] at hsocket
    cases hsocket
  · intro hnone
    rw [hremote] at hnone
    cases hnone
  · intro hstopping
    rw [(h.stopped hstopping).1] at hsocket
    cases hsocket
  · rw [hqueue]
    exact h.bounded
  · rw [hpromises]
    exact hacc.settleAll
  · rw [hwaiters]
    rintro p ⟨⟩
  · rw [hqueue]
    intro e he
    rw [hpayload]
    exact h.queued e he
  · rw [hqueue]
    exact h.increasing
  · intro k hk
    rw [hsockets] at hk
    rw [hrecords]
    exact h.ordered k hk
  · intro k hk r hr e he
    rw [hsocket'] at hk
    rw [hrecords] at hr
    rw [hqueue] at he
    exact h.ahead k hk r hr e he
  · intro k hk r hr
    rw [hsockets] at hk
    rw [hrecords] at hr
    obtain ⟨hlt, hget⟩ := h.written k hk r hr
    rw [hnext, hsend r.1 r.2 (by rw [hget])]
    exact ⟨hlt, hget⟩
  · intro p hp wire hwire
    rw [hnext] at hp
    have hdata : (s.promises.get p).payload = some wire := by
      rw [← hpayload, hwire]
    rw [hsend p wire hdata] at hwire
    obtain ⟨k, hk, hmem⟩ := h.resolved p hp wire hwire
    refine ⟨k, ?_, ?_⟩
    · rw [hsockets]
      exact hk
    · rw [hrecords]
      exact hmem
  · intro k hk k' hk' r hr r' hr'
    rw [hsockets] at hk hk'
    rw [hrecords] at hr hr'
    exact h.once k hk k' hk' r hr r' hr'

theorem Sound.receiveWire (h : Sound limits v s) {k : SocketRef} {wire : Bytes} (hk : s.socket = some k) :
    Sound limits v (s.receiveWire limits v w k wire).1 := by
  have hsome : s.socket.isSome = true := by
    rw [hk]
    rfl
  unfold SeedState.receiveWire
  split
  · split
    · exact h
    split
    · exact h.note rfl
    · exact h
    · exact h
  · split
    · exact h
    split
    · exact h
    split
    · exact h
    · obtain ⟨timers, htimers⟩ := @clearTimeout_eq s s.keyHintTimer
      have hreported : ∀ (s : SeedState) r, ∃ reports, s.report v r = { s with reports := reports } := fun s r => report_eq r
      dsimp only
      rw [htimers]
      obtain ⟨reports, hreports⟩ := hreported _ _
      rw [hreports]
      obtain ⟨reports', hreports'⟩ := hreported _ _
      rw [hreports']
      refine Sound.pump ?_
      exact h.hinted hsome rfl rfl rfl rfl rfl rfl rfl
  · split
    · exact h
    split
    · exact h.same ⟨rfl, rfl, rfl, rfl, rfl, rfl, rfl, rfl, rfl⟩
    · obtain ⟨reports, hreports⟩ := @report_eq v ((s.count fun c =>
        { c with framesReceived := c.framesReceived + 1, bytesReceived := c.bytesReceived + wire.length }).note k
          (.delivered wire)) (.packet wire)
      dsimp only
      rw [hreports]
      have hnoted : Sound limits v (s.note k (.delivered wire)) := h.note rfl
      exact hnoted.same ⟨rfl, rfl, rfl, rfl, rfl, rfl, rfl, rfl, rfl⟩

theorem Awaited.receiveWire (h : Awaited s) {k : SocketRef} {wire : Bytes} :
    Awaited (s.receiveWire limits v w k wire).1 := by
  unfold SeedState.receiveWire
  split
  · split
    · exact h
    split
    · exact h
    · exact h
    · exact h
  · split
    · exact h
    split
    · exact h
    split
    · exact h
    · refine Awaited.pump ?_
      intro hne
      have hreported : ∀ (s : SeedState) r, (s.report v r).readyWaiters = s.readyWaiters := by
        intro s r
        obtain ⟨reports, hreports⟩ := @report_eq v s r
        rw [hreports]
      rw [hreported, hreported] at hne
      exact absurd rfl hne
  · split
    · exact h
    split
    · exact h
    · obtain ⟨reports, hreports⟩ := @report_eq v ((s.count fun c =>
        { c with framesReceived := c.framesReceived + 1, bytesReceived := c.bytesReceived + wire.length }).note k
          (.delivered wire)) (.packet wire)
      dsimp only
      rw [hreports]
      exact h

/-- The first turn of the receive chain gives way to `chain`. -/
theorem Sound.setChain (h : Sound limits v s) {chain : List ReceiveTurn} : Sound limits v { s with receiveChain := chain } :=
  h.same ⟨rfl, rfl, rfl, rfl, rfl, rfl, rfl, rfl, rfl⟩

theorem Sound.receiveDecoded (h : Sound limits v s) {readable : Bool} :
    Sound limits v (s.receiveDecoded limits v w readable) := by
  unfold SeedState.receiveDecoded
  split
  · exact h
  split
  · exact h
  split
  · exact h.setChain
  split
  · exact h.setChain
  rename_i _ turn turns _ _ _ wire _ hcurrent
  rw [Bool.not_eq_false, isCurrent_eq_true] at hcurrent
  have hnoted : Sound limits v (s.note turn.socket (.received wire)) := h.note rfl
  have hwire : Sound limits v ((s.note turn.socket (.received wire)).receiveWire limits v w turn.socket wire).1 :=
    hnoted.receiveWire hcurrent.1
  split
  · rename_i s₁ heq
    rw [heq] at hwire
    exact hwire.setChain
  · rename_i s₁ error heq
    rw [heq] at hwire
    exact hwire.setChain

theorem Awaited.receiveDecoded (h : Awaited s) {readable : Bool} : Awaited (s.receiveDecoded limits v w readable) := by
  unfold SeedState.receiveDecoded
  split
  · exact h
  split
  · exact h
  split
  · exact h
  split
  · exact h
  rename_i _ turn turns _ _ _ wire _ _
  have hnoted : Awaited (s.note turn.socket (.received wire)) := h
  have hwire : Awaited ((s.note turn.socket (.received wire)).receiveWire limits v w turn.socket wire).1 :=
    hnoted.receiveWire
  split
  · rename_i s₁ heq
    rw [heq] at hwire
    exact hwire
  · rename_i s₁ error heq
    rw [heq] at hwire
    exact hwire

theorem Sound.receiveCaught (h : Sound limits v s) : Sound limits v (s.receiveCaught limits v) := by
  unfold SeedState.receiveCaught
  split
  · exact h.setChain.failSocket
  · exact h

theorem Awaited.receiveCaught (h : Awaited s) : Awaited (s.receiveCaught limits v) := by
  unfold SeedState.receiveCaught
  split
  · refine Awaited.failSocket ?_
    exact h
  · exact h

/-! ### Timers -/

theorem Sound.timeout (h : Sound limits v s) (ha : Awaited s) {t : TimerRef} :
    Sound limits v (s.timeout limits v w t) ∧ Awaited (s.timeout limits v w t) := by
  have htimers : ∀ timers, Sound limits v { s with timers := timers } := fun _ =>
    h.same ⟨rfl, rfl, rfl, rfl, rfl, rfl, rfl, rfl, rfl⟩
  have hawaited : ∀ timers, Awaited { s with timers := timers } := fun _ => ha
  unfold SeedState.timeout
  split
  · exact ⟨h, ha⟩
  rename_i timer _
  cases timer with
  | connect generation => exact ⟨(htimers _).failSocket, (hawaited _).failSocket⟩
  | keyHint generation => exact ⟨(htimers _).failSocket, (hawaited _).failSocket⟩
  | send =>
    have hsent : ∀ timers, Sound limits v { s with timers := timers, sendTimer := none } := fun _ =>
      h.same ⟨rfl, rfl, rfl, rfl, rfl, rfl, rfl, rfl, rfl⟩
    have hsent' : ∀ timers, Awaited { s with timers := timers, sendTimer := none } := fun _ => ha
    exact ⟨(hsent _).pump, (hsent' _).pump⟩
  | reconnect =>
    have hfired : ∀ timers, Sound limits v { s with timers := timers, reconnectTimer := none } := fun _ =>
      ⟨h.current, h.generations, h.distinct, h.idle, h.unhinted,
        fun hstopping => ⟨(h.stopped hstopping).1, (h.stopped hstopping).2.1, rfl⟩, h.bounded, h.accounted, h.waiting,
        h.queued, h.increasing, h.ordered, h.ahead, h.written, h.resolved, h.once⟩
    have hdial := @dial_sound limits v w _ (hfired (s.timers.delete t))
    refine ⟨hdial.1, ?_⟩
    cases hstopping : v.stopping with
    | false => exact hdial.2 hstopping
    | true => exact fun hne => absurd (hdial.1.stopped hstopping).2.1 hne

theorem Sound.act (h : Sound limits v s) (ha : Awaited s) (a : Action) :
    Sound limits v (s.act limits v w a) ∧ Awaited (s.act limits v w a) := by
  cases a with
  | connect => exact h.connect ha
  | send packet => exact ⟨h.send, ha.send⟩
  | socketOpen k => exact ⟨h.socketOpen, ha.socketOpen⟩
  | socketMessage k data => exact ⟨h.socketMessage, ha.socketMessage⟩
  | socketError k =>
    show Sound limits v (s.socketError limits v k) ∧ Awaited (s.socketError limits v k)
    unfold SeedState.socketError
    dsimp only
    split
    · exact ⟨h.failSocket, ha.failSocket⟩
    · exact ⟨h, ha⟩
  | socketClose k reason =>
    show Sound limits v (s.socketClose limits v k reason) ∧ Awaited (s.socketClose limits v k reason)
    unfold SeedState.socketClose
    dsimp only
    split
    · exact ⟨h.connectionEnded, ha.connectionEnded⟩
    · exact ⟨h, ha⟩
  | receiveBegin => exact ⟨h.receiveBegin, ha.receiveBegin⟩
  | receiveDecoded readable => exact ⟨h.receiveDecoded, ha.receiveDecoded⟩
  | receiveCaught => exact ⟨h.receiveCaught, ha.receiveCaught⟩
  | timeout t => exact h.timeout ha

/-- The invariant while the transport's own state changes. -/
theorem Sound.review {v' : TransportView} (h : Sound limits v s) (hstopped : v'.stopping = true →
    s.socket = none ∧ s.readyWaiters = [] ∧ s.reconnectTimer = none) : Sound limits v' s :=
  ⟨h.current, h.generations, h.distinct, h.idle, h.unhinted, hstopped, h.bounded, h.accounted, h.waiting, h.queued,
    h.increasing, h.ordered, h.ahead, h.written, h.resolved, h.once⟩

theorem Sound.stop (h : Sound limits v s) {v' : TransportView} : Sound limits v' s.stop := by
  obtain ⟨timers, htimers⟩ := @clearConnectionTimers_eq s
  obtain ⟨timers', htimers'⟩ := @clearTimeout_eq
    { s with timers := timers, connectTimer := none, keyHintTimer := none, sendTimer := none } s.reconnectTimer
  have hsettled : Promises.settleAll (.rejected "WebSocket transport stopped") (s.queue.map PendingSend.promise)
      (Promises.settleAll (.rejected "WebSocket transport stopped") s.readyWaiters s.promises) =
      Promises.settleAll (.rejected "WebSocket transport stopped") s.pending s.promises :=
    (Promises.settleAll_append _ _).symm
  have hclosed : ∀ s : SeedState, ∃ sockets, s.closeSocket s.socket = { s with sockets := sockets } ∧
      sockets.next = s.sockets.next ∧ ∀ k, (sockets.get k).generation = (s.sockets.get k).generation ∧
        (sockets.get k).history = (s.sockets.get k).history := fun s => closeSocket_eq s.socket
  have hstops : s.stop.socket = none ∧ s.stop.readyWaiters = [] ∧ s.stop.reconnectTimer = none := by
    unfold SeedState.stop clearTimers
    dsimp only
    rw [htimers]
    rw [htimers']
    obtain ⟨sockets, heq, -⟩ := hclosed _
    rw [heq]
    exact ⟨rfl, rfl, rfl⟩
  refine Sound.review (v := v) ?_ fun _ => hstops
  revert hstops
  unfold SeedState.stop clearTimers
  dsimp only
  rw [htimers]
  rw [htimers']
  obtain ⟨sockets, heq, hnext, hsockets⟩ := hclosed _
  rw [heq]
  intro hstops
  refine h.rejected s.pending rfl hnext hsockets hsettled ?_ (List.nil_sublist _) (List.nil_sublist _) ?_
    (fun _ => ⟨rfl, rfl⟩) (fun _ => rfl) (fun _ => hstops)
  · show List.Perm s.pending (s.pending ++ [])
    rw [List.append_nil]
  · rintro k ⟨⟩

theorem awaited_stop : Awaited s.stop := by
  have hclosed : ∀ s : SeedState, (s.closeSocket s.socket).readyWaiters = s.readyWaiters := by
    intro s
    obtain ⟨sockets, heq, -⟩ := @closeSocket_eq s s.socket
    rw [heq]
  intro hne
  refine absurd ?_ hne
  exact hclosed _

end SeedState

/-! ## Runs -/

namespace WebSocketTransport
open SeedState

variable {limits : WebSocketLimits} {urls : List SeedUrl} {s : WebSocketTransport}

/-- Every seed is sound, and one that is not configured is never touched. -/
structure SeedsSound (limits : WebSocketLimits) (urls : List SeedUrl) (s : WebSocketTransport) : Prop where
  sound : ∀ url, Sound limits s.view (s.seeds url)
  awaited : ∀ url, Awaited (s.seeds url)
  unconfigured : ∀ url ∉ urls, s.seeds url = .new limits

theorem awaited_new : Awaited (.new limits) := fun hne => absurd rfl hne

theorem SeedsSound.step {e : (SeedUrl → SeedSurroundings) × Action} (h : SeedsSound limits urls s) :
    SeedsSound limits urls (s.step limits urls e) := by
  obtain ⟨w, action⟩ := e
  cases action with
  | start localXOnly =>
    show SeedsSound limits urls (s.start limits urls w localXOnly)
    unfold start
    split
    · exact h
    have hreview : ∀ url, Sound limits ⟨some localXOnly, false⟩ (s.seeds url) := fun url =>
      (h.sound url).review (by rintro ⟨⟩)
    refine ⟨fun url => ?_, fun url => ?_, fun url hurl => ?_⟩
    · dsimp only
      split
      · exact (dial_sound (hreview url)).1
      · exact hreview url
    · dsimp only
      split
      · exact (dial_sound (hreview url)).2 rfl
      · exact h.awaited url
    · dsimp only
      rw [if_neg hurl]
      exact h.unconfigured url hurl
  | stop =>
    show SeedsSound limits urls (s.stop urls)
    unfold WebSocketTransport.stop
    split
    · exact h
    refine ⟨fun url => ?_, fun url => ?_, fun url hurl => ?_⟩
    · dsimp only
      split
      · exact (h.sound url).stop
      · rename_i hurl
        rw [h.unconfigured url hurl]
        exact sound_new
    · dsimp only
      split
      · exact awaited_stop
      · exact h.awaited url
    · dsimp only
      rw [if_neg hurl]
      exact h.unconfigured url hurl
  | seed url a =>
    show SeedsSound limits urls (if url ∈ urls then { s with
      seeds := fun url' => if url' = url then SeedState.act limits s.view (w url) (s.seeds url) a else s.seeds url' } else s)
    split
    · rename_i hurl
      refine ⟨fun url' => ?_, fun url' => ?_, fun url' hurl' => ?_⟩
      · dsimp only
        split
        · exact ((h.sound url).act (h.awaited url) a).1
        · exact h.sound url'
      · dsimp only
        split
        · exact ((h.sound url).act (h.awaited url) a).2
        · exact h.awaited url'
      · dsimp only
        split
        · rename_i heq
          rw [heq] at hurl'
          exact absurd hurl hurl'
        · exact h.unconfigured url' hurl'
    · exact h

theorem seedsSound_run (es : List ((SeedUrl → SeedSurroundings) × Action)) :
    SeedsSound limits urls (Run.run (step limits urls) (new limits) es) := by
  have hkeeps : ∀ (es : List ((SeedUrl → SeedSurroundings) × Action)) s, SeedsSound limits urls s →
      SeedsSound limits urls (Run.run (WebSocketTransport.step limits urls) s es) := by
    intro es
    induction es with
    | nil => exact fun s h => h
    | cons e es ih => exact fun s h => ih _ h.step
  exact hkeeps es _ ⟨fun _ => sound_new, fun _ => awaited_new, fun _ _ => rfl⟩

/-- The callers of a seed in every run. A promise is settled once or pending, and one that is pending belongs to a
connection, or waits for the next. -/
theorem callers_settled_once (limits : WebSocketLimits) (urls : List SeedUrl)
    (es : List ((SeedUrl → SeedSurroundings) × Action)) (url : SeedUrl) :
    let t := Run.run (step limits urls) (new limits) es
    let s := t.seeds url
    s.pending.Nodup ∧
    (∀ p < s.promises.next, p ∈ s.pending ∧ (s.promises.get p).settlements = [] ∨
      p ∉ s.pending ∧ ∃ settlement, (s.promises.get p).settlements = [settlement]) ∧
    (t.view.stopping = true → s.pending = []) ∧
    (s.readyWaiters ≠ [] → s.socket.isSome = true ∨ s.reconnectTimer.isSome = true) ∧
    (s.queue ≠ [] → s.socket.isSome = true ∧ s.remoteXOnly.isSome = true) := by
  intro t s
  have hrun : SeedsSound limits urls t := seedsSound_run es
  have h : Sound limits t.view s := hrun.sound url
  have hidle : s.socket = none → s.queue = [] := fun hnone => h.unhinted (h.idle hnone).2
  refine ⟨h.accounted.nodup, fun p hp => ?_, fun hstopping => ?_, hrun.awaited url, fun hne => ⟨?_, ?_⟩⟩
  · by_cases hmem : p ∈ s.pending
    · exact .inl ⟨hmem, (h.accounted.unsettled p hmem).2⟩
    · exact .inr ⟨hmem, List.length_eq_one_iff.1 (h.accounted.settled p hp hmem)⟩
  · unfold pending
    rw [(h.stopped hstopping).2.1, hidle (h.stopped hstopping).1]
    rfl
  · cases hsocket : s.socket with
    | none => exact absurd (hidle hsocket) hne
    | some k => rfl
  · cases hremote : s.remoteXOnly with
    | none => exact absurd (h.unhinted hremote) hne
    | some pubkey => rfl

/-- The records of a seed in every run. A send is resolved exactly when its record was written, to one socket and
once, and on each socket the records come in the order of the calls, before those that still wait. -/
theorem sends_written_in_order (limits : WebSocketLimits) (urls : List SeedUrl)
    (es : List ((SeedUrl → SeedSurroundings) × Action)) (url : SeedUrl) :
    let s := (Run.run (step limits urls) (new limits) es).seeds url
    s.queue.length ≤ limits.maxSendQueue ∧
    (∀ p < s.promises.next, ∀ packet, s.promises.get p = ⟨some packet, [.resolved]⟩ ↔
      ∃ k < s.sockets.next, (p, packet) ∈ s.records k) ∧
    (∀ k < s.sockets.next, ∀ k' < s.sockets.next, ∀ r ∈ s.records k, ∀ r' ∈ s.records k', r.1 = r'.1 → k = k' ∧ r = r') ∧
    (∀ k < s.sockets.next, (s.records k).Pairwise fun r r' => r.1 < r'.1) ∧
    (∀ k, s.socket = some k →
      (s.records k ++ s.queue.map fun e => (e.promise, e.data)).Pairwise fun r r' => r.1 < r'.1) := by
  intro s
  have h : Sound limits _ s := (seedsSound_run es).sound url
  refine ⟨h.bounded, fun p hp packet => ⟨h.resolved p hp packet, ?_⟩, ?_, h.ordered, ?_⟩
  · rintro ⟨k, hk, hmem⟩
    exact (h.written k hk _ hmem).2
  · intro k hk k' hk' r hr r' hr' heq
    refine ⟨h.once k hk k' hk' r hr r' hr' heq, ?_⟩
    have hget := (h.written k hk r hr).2
    rw [heq, (h.written k' hk' r' hr').2] at hget
    injection hget with hdata
    injection hdata with hdata
    exact Prod.ext heq hdata.symm
  · intro k hk
    refine List.pairwise_append.2 ⟨h.ordered k (h.current k hk).1, ?_, ?_⟩
    · rw [List.pairwise_map]
      exact h.increasing
    · intro r hr r' hr'
      obtain ⟨e, he, rfl⟩ := List.mem_map.1 hr'
      exact h.ahead k hk r hr e he

end WebSocketTransport

end Fips
