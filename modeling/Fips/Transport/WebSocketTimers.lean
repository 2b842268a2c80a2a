import Fips.Transport.WebSocketSeeds

/-!
# The timers of a WebSocket seed

The timers that run are those that the seed's fields hold. A connection that has not shown its key runs
against one of them, so that whoever waits for it is settled.
-/

namespace Fips

namespace SeedState

variable {limits : WebSocketLimits} {v : TransportView} {w : SeedSurroundings} {s s' : SeedState}

/-! ### The invariant -/

/-- The field that holds a timer. -/
def held (s : SeedState) : SeedTimer → Option TimerRef
  | .connect generation => if generation = s.generation then s.connectTimer else none
  | .keyHint generation => if generation = s.generation then s.keyHintTimer else none
  | .send => s.sendTimer
  | .reconnect => s.reconnectTimer

@[simp] theorem held_connect {generation : Nat} {t : TimerRef} : s.held (.connect generation) = some t ↔
    generation = s.generation ∧ s.connectTimer = some t := by
  show (if generation = s.generation then s.connectTimer else none) = some t ↔ _
  split
  · rename_i heq
    exact ⟨fun h => ⟨heq, h⟩, fun h => h.2⟩
  · rename_i hne
    exact ⟨by rintro ⟨⟩, fun h => absurd h.1 hne⟩

@[simp] theorem held_keyHint {generation : Nat} {t : TimerRef} : s.held (.keyHint generation) = some t ↔
    generation = s.generation ∧ s.keyHintTimer = some t := by
  show (if generation = s.generation then s.keyHintTimer else none) = some t ↔ _
  split
  · rename_i heq
    exact ⟨fun h => ⟨heq, h⟩, fun h => h.2⟩
  · rename_i hne
    exact ⟨by rintro ⟨⟩, fun h => absurd h.1 hne⟩

@[simp] theorem held_send : s.held .send = s.sendTimer := rfl

@[simp] theorem held_reconnect : s.held .reconnect = s.reconnectTimer := rfl

/-- What holds while a connection is being ended, when a field may hold a timer that has fired. -/
structure Loose (s : SeedState) : Prop where
  running : ∀ t timer, s.timers.get t = some timer → s.held timer = some t
  reconnects : ∀ t, s.reconnectTimer = some t → s.timers.get t = some .reconnect
  fresh : ∀ t timer, s.timers.get t = some timer → t < s.nextTimer
  single : s.socket.isSome = true → s.reconnectTimer = none
  idle : s.socket = none → s.connectTimer = none ∧ s.keyHintTimer = none ∧ s.sendTimer = none ∧ s.nonce = none

structure Clocked (s : SeedState) : Prop extends Loose s where
  held : ∀ t timer, s.held timer = some t → s.timers.get t = some timer
  unopened : ∀ k, s.socket = some k → (s.sockets.get k).opened = false →
    s.connectTimer.isSome = true ∧ s.keyHintTimer = none ∧ s.nonce = none
  opened : ∀ k, s.socket = some k → (s.sockets.get k).opened = true →
    s.connectTimer = none ∧ (s.keyHintTimer.isSome = true ∨ s.nonce = none ∨ s.remoteXOnly.isSome = true)

/-- What the invariant is about is the same. -/
structure SameClock (s s' : SeedState) : Prop where
  socket : s'.socket = s.socket
  generation : s'.generation = s.generation
  nonce : s'.nonce = s.nonce
  remoteXOnly : s'.remoteXOnly = s.remoteXOnly
  reconnectTimer : s'.reconnectTimer = s.reconnectTimer
  connectTimer : s'.connectTimer = s.connectTimer
  keyHintTimer : s'.keyHintTimer = s.keyHintTimer
  sendTimer : s'.sendTimer = s.sendTimer
  timers : s'.timers = s.timers
  nextTimer : s'.nextTimer = s.nextTimer
  opened : ∀ k, (s'.sockets.get k).opened = (s.sockets.get k).opened

theorem SameClock.held (hsame : SameClock s s') (timer : SeedTimer) : s'.held timer = s.held timer := by
  cases timer with
  | connect generation =>
    show (if generation = s'.generation then s'.connectTimer else none) = _
    rw [hsame.generation, hsame.connectTimer]
    rfl
  | keyHint generation =>
    show (if generation = s'.generation then s'.keyHintTimer else none) = _
    rw [hsame.generation, hsame.keyHintTimer]
    rfl
  | send => exact hsame.sendTimer
  | reconnect => exact hsame.reconnectTimer

theorem Loose.same (h : Loose s) (hsame : SameClock s s') : Loose s' where
  running := by
    rw [hsame.timers]
    intro t timer ht
    rw [hsame.held]
    exact h.running t timer ht
  reconnects := by
    rw [hsame.reconnectTimer, hsame.timers]
    exact h.reconnects
  fresh := by
    rw [hsame.timers, hsame.nextTimer]
    exact h.fresh
  single := by
    rw [hsame.socket, hsame.reconnectTimer]
    exact h.single
  idle := by
    rw [hsame.socket, hsame.connectTimer, hsame.keyHintTimer, hsame.sendTimer, hsame.nonce]
    exact h.idle

theorem Clocked.same (h : Clocked s) (hsame : SameClock s s') : Clocked s' where
  toLoose := h.toLoose.same hsame
  held := by
    rw [hsame.timers]
    intro t timer ht
    rw [hsame.held] at ht
    exact h.held t timer ht
  unopened := by
    rw [hsame.socket, hsame.connectTimer, hsame.keyHintTimer, hsame.nonce]
    intro k hk hopened
    rw [hsame.opened] at hopened
    exact h.unopened k hk hopened
  opened := by
    rw [hsame.socket, hsame.connectTimer, hsame.keyHintTimer, hsame.nonce, hsame.remoteXOnly]
    intro k hk hopened
    rw [hsame.opened] at hopened
    exact h.opened k hk hopened

/-! ### Clearing -/

theorem clearTimeout_timers (timer : Option TimerRef) : ∃ timers, s.clearTimeout timer = { s with timers := timers } ∧
    ∀ t, timers.get t = if timer = some t then none else s.timers.get t := by
  cases timer with
  | none => exact ⟨s.timers, rfl, fun _ => rfl⟩
  | some t =>
    refine ⟨s.timers.delete t, rfl, fun t' => ?_⟩
    rw [JsMap.get_delete]
    by_cases heq : t = t'
    · rw [if_pos heq, if_pos (congrArg some heq)]
    · rw [if_neg heq, if_neg fun hsome => heq (Option.some.inj hsome)]

theorem clearConnectionTimers_timers : ∃ timers, s.clearConnectionTimers =
      { s with timers := timers, connectTimer := none, keyHintTimer := none, sendTimer := none } ∧
    ∀ t timer, timers.get t = some timer → s.timers.get t = some timer ∧
      s.connectTimer ≠ some t ∧ s.keyHintTimer ≠ some t ∧ s.sendTimer ≠ some t := by
  unfold clearConnectionTimers
  obtain ⟨timers, h, hget⟩ := @clearTimeout_timers s s.connectTimer
  rw [h]
  obtain ⟨timers', h', hget'⟩ := @clearTimeout_timers { s with timers := timers } s.keyHintTimer
  rw [h']
  obtain ⟨timers'', h'', hget''⟩ := @clearTimeout_timers { s with timers := timers' } s.sendTimer
  rw [h'']
  refine ⟨timers'', rfl, fun t timer ht => ?_⟩
  rw [hget''] at ht
  split at ht
  · cases ht
  rename_i hsend
  dsimp only at ht
  rw [hget'] at ht
  split at ht
  · cases ht
  rename_i hhint
  dsimp only at ht
  rw [hget] at ht
  split at ht
  · cases ht
  · rename_i hconnect
    exact ⟨ht, hconnect, hhint, hsend⟩

/-- A timer that runs and is none of the connection's is the one that reconnects. -/
theorem Loose.of_connection (h : Loose s) {t : TimerRef} {timer : SeedTimer} (ht : s.timers.get t = some timer)
    (hconnect : s.connectTimer ≠ some t) (hhint : s.keyHintTimer ≠ some t) (hsend : s.sendTimer ≠ some t) :
    timer = .reconnect ∧ s.reconnectTimer = some t := by
  have hheld := h.running t timer ht
  cases timer with
  | connect generation => exact absurd (held_connect.1 hheld).2 hconnect
  | keyHint generation => exact absurd (held_keyHint.1 hheld).2 hhint
  | send => exact absurd hheld hsend
  | reconnect => exact ⟨rfl, hheld⟩

/-- No timer but perhaps the one that reconnects. -/
theorem clocked_disconnected (hsocket : s.socket = none) (hconnect : s.connectTimer = none) (hhint : s.keyHintTimer = none)
    (hsend : s.sendTimer = none) (hnonce : s.nonce = none)
    (hrunning : ∀ t timer, s.timers.get t = some timer ↔ timer = .reconnect ∧ s.reconnectTimer = some t)
    (hfresh : ∀ t, s.reconnectTimer = some t → t < s.nextTimer) : Clocked s where
  running t timer ht := by
    obtain ⟨rfl, hheld⟩ := (hrunning t timer).1 ht
    exact hheld
  reconnects t ht := (hrunning t .reconnect).2 ⟨rfl, ht⟩
  fresh t timer ht := hfresh t ((hrunning t timer).1 ht).2
  single hsome := by
    rw [hsocket] at hsome
    cases hsome
  idle _ := ⟨hconnect, hhint, hsend, hnonce⟩
  held t timer ht := by
    cases timer with
    | connect generation =>
      rw [held_connect, hconnect] at ht
      cases ht.2
    | keyHint generation =>
      rw [held_keyHint, hhint] at ht
      cases ht.2
    | send =>
      rw [held_send, hsend] at ht
      cases ht
    | reconnect => exact (hrunning t .reconnect).2 ⟨rfl, ht⟩
  unopened k hk := by
    rw [hsocket] at hk
    cases hk
  opened k hk := by
    rw [hsocket] at hk
    cases hk

theorem clocked_new : Clocked (new limits) := by
  refine clocked_disconnected rfl rfl rfl rfl rfl (fun t timer => ⟨?_, ?_⟩) ?_
  · intro ht
    cases ht
  · rintro ⟨-, ht⟩
    cases ht
  · intro t ht
    cases ht

/-! ### The end of a connection -/

theorem clocked_connectionEnded (h : Loose s) (error : String) :
    Clocked (s.connectionEnded limits v s.generation error) := by
  have hcounted : ∀ (b : Bool) (s : SeedState) f, ∃ counters,
      (if b = true then s.count f else s) = { s with counters := counters } := by
    intro b s f
    split
    · exact ⟨_, rfl⟩
    · exact ⟨s.counters, rfl⟩
  have hreported : ∀ (s : SeedState) r, ∃ reports, s.report v r = { s with reports := reports } := fun s r => report_eq r
  obtain ⟨timers, htimers, hget⟩ := @clearConnectionTimers_timers s
  -- without a socket no timer is cleared, and with one none reconnects
  have hreconnect : ∀ t, s.reconnectTimer = some t → timers.get t = some .reconnect := by
    intro t ht
    cases hsocket : s.socket with
    | some k =>
      rw [h.single (by rw [hsocket]; rfl)] at ht
      cases ht
    | none =>
      obtain ⟨hconnect, hhint, hsend, -⟩ := h.idle hsocket
      unfold clearConnectionTimers at htimers
      rw [hconnect, hhint, hsend] at htimers
      have heq : s.timers = timers := congrArg SeedState.timers htimers
      rw [← heq]
      exact h.reconnects t ht
  have hrunning : ∀ t timer, timers.get t = some timer ↔ timer = .reconnect ∧ s.reconnectTimer = some t := by
    intro t timer
    constructor
    · intro ht
      obtain ⟨hold, hconnect, hhint, hsend⟩ := hget t timer ht
      exact h.of_connection hold hconnect hhint hsend
    · rintro ⟨rfl, ht⟩
      exact hreconnect t ht
  have hfresh : ∀ t, s.reconnectTimer = some t → t < s.nextTimer := fun t ht =>
    h.fresh t .reconnect (h.reconnects t ht)
  unfold connectionEnded
  rw [if_neg (not_not.2 rfl)]
  dsimp only
  rw [htimers]
  obtain ⟨counters, hcounters⟩ := hcounted s.socket.isSome _ _
  rw [hcounters]
  obtain ⟨reports, hreports⟩ := hreported _ _
  rw [hreports]
  split
  · exact clocked_disconnected rfl rfl rfl rfl rfl hrunning hfresh
  · rename_i hredials
    rw [Bool.or_eq_true, not_or, Bool.not_eq_true, Bool.not_eq_true, Option.isSome_eq_false_iff,
      Option.isNone_iff_eq_none] at hredials
    have hnone : s.reconnectTimer = none := hredials.2
    refine clocked_disconnected rfl rfl rfl rfl rfl (fun t timer => ?_) ?_
    · show (timers.set s.nextTimer .reconnect).get t = some timer ↔ timer = .reconnect ∧ some s.nextTimer = some t
      rw [JsMap.get_set]
      split
      · rename_i heq
        rw [heq]
        exact ⟨fun htimer => ⟨(Option.some.inj htimer).symm, rfl⟩, fun htimer => congrArg some htimer.1.symm⟩
      · rename_i hne
        rw [hrunning, hnone]
        exact ⟨fun htimer => absurd htimer.2 (by rintro ⟨⟩), fun htimer => absurd (Option.some.inj htimer.2) hne⟩
    · intro t ht
      cases ht
      exact Nat.lt_succ_self _

theorem Loose.closeSocket (h : Loose s) (socket : Option SocketRef) : Loose (s.closeSocket socket) := by
  cases socket with
  | none => exact h
  | some k =>
    refine h.same ⟨rfl, rfl, rfl, rfl, rfl, rfl, rfl, rfl, rfl, rfl, fun k' => ?_⟩
    show ((s.sockets.modify k fun socket => { socket with closed := true }).get k').opened = (s.sockets.get k').opened
    rw [Heap.get_modify]
    split
    · rfl
    · rfl

theorem generation_closeSocket (socket : Option SocketRef) : (s.closeSocket socket).generation = s.generation := by
  obtain ⟨sockets, heq, -⟩ := @closeSocket_eq s socket
  rw [heq]

theorem clocked_failSocket (h : Loose s) (error : String) : Clocked (s.failSocket limits v s.generation error) := by
  unfold failSocket
  rw [if_neg (not_not.2 rfl)]
  have hended := @clocked_connectionEnded limits v _ (h.closeSocket s.socket) error
  rw [generation_closeSocket] at hended
  exact hended

theorem Clocked.connectionEnded (h : Clocked s) {generation : Nat} {error : String} :
    Clocked (s.connectionEnded limits v generation error) := by
  by_cases hgeneration : generation = s.generation
  · rw [hgeneration]
    exact clocked_connectionEnded h.toLoose error
  · unfold SeedState.connectionEnded
    rw [if_pos hgeneration]
    exact h

theorem Clocked.failSocket (h : Clocked s) {generation : Nat} {error : String} :
    Clocked (s.failSocket limits v generation error) := by
  by_cases hgeneration : generation = s.generation
  · rw [hgeneration]
    exact clocked_failSocket h.toLoose error
  · unfold SeedState.failSocket
    rw [if_pos hgeneration]
    exact h

/-! ### A field and its timer -/

theorem Clocked.exact (h : Clocked s) (t : TimerRef) (timer : SeedTimer) :
    s.timers.get t = some timer ↔ s.held timer = some t := ⟨h.running t timer, h.held t timer⟩

theorem Clocked.of_exact (hexact : ∀ t timer, s.timers.get t = some timer ↔ s.held timer = some t)
    (hfresh : ∀ t timer, s.timers.get t = some timer → t < s.nextTimer)
    (hsingle : s.socket.isSome = true → s.reconnectTimer = none)
    (hidle : s.socket = none → s.connectTimer = none ∧ s.keyHintTimer = none ∧ s.sendTimer = none ∧ s.nonce = none)
    (hunopened : ∀ k, s.socket = some k → (s.sockets.get k).opened = false →
      s.connectTimer.isSome = true ∧ s.keyHintTimer = none ∧ s.nonce = none)
    (hopened : ∀ k, s.socket = some k → (s.sockets.get k).opened = true →
      s.connectTimer = none ∧ (s.keyHintTimer.isSome = true ∨ s.nonce = none ∨ s.remoteXOnly.isSome = true)) : Clocked s where
  running t timer ht := (hexact t timer).1 ht
  reconnects t ht := (hexact t .reconnect).2 ht
  fresh := hfresh
  single := hsingle
  idle := hidle
  held t timer ht := (hexact t timer).2 ht
  unopened := hunopened
  opened := hopened

/-- The timer of a field is cleared, and the field too. -/
theorem exact_cleared {x : SeedTimer} (hexact : ∀ t timer, s.timers.get t = some timer ↔ s.held timer = some t)
    (hget : ∀ t, s'.timers.get t = if s.held x = some t then none else s.timers.get t)
    (hheld : ∀ timer, s'.held timer = if timer = x then none else s.held timer) (t : TimerRef) (timer : SeedTimer) :
    s'.timers.get t = some timer ↔ s'.held timer = some t := by
  rw [hget, hheld]
  by_cases htimer : timer = x
  · rw [if_pos htimer, htimer]
    split
    · exact ⟨by rintro ⟨⟩, by rintro ⟨⟩⟩
    · rename_i hnot
      rw [hexact]
      exact ⟨fun ht => absurd ht hnot, by rintro ⟨⟩⟩
  · rw [if_neg htimer]
    split
    · rename_i hx
      refine ⟨by rintro ⟨⟩, fun ht => absurd ?_ htimer⟩
      have hboth := ((hexact t timer).2 ht).symm.trans ((hexact t x).2 hx)
      exact Option.some.inj hboth
    · exact hexact t timer

/-- A timer is set, and a field that held none holds it. -/
theorem exact_set {x : SeedTimer} (hexact : ∀ t timer, s.timers.get t = some timer ↔ s.held timer = some t)
    (hfresh : ∀ t timer, s.timers.get t = some timer → t < s.nextTimer) (hnone : s.held x = none)
    (hget : ∀ t, s'.timers.get t = if s.nextTimer = t then some x else s.timers.get t)
    (hheld : ∀ timer, s'.held timer = if timer = x then some s.nextTimer else s.held timer) (t : TimerRef)
    (timer : SeedTimer) : s'.timers.get t = some timer ↔ s'.held timer = some t := by
  rw [hget, hheld]
  by_cases htimer : timer = x
  · rw [if_pos htimer, htimer]
    split
    · rename_i heq
      rw [heq]
      exact ⟨fun _ => rfl, fun _ => rfl⟩
    · rename_i hne
      rw [hexact, hnone]
      exact ⟨by rintro ⟨⟩, fun ht => absurd (Option.some.inj ht) hne⟩
  · rw [if_neg htimer]
    split
    · rename_i heq
      refine ⟨fun ht => absurd (Option.some.inj ht).symm htimer, fun ht => ?_⟩
      have hlt := hfresh t timer ((hexact t timer).2 ht)
      rw [heq] at hlt
      exact absurd hlt (Nat.lt_irrefl t)
    · exact hexact t timer

theorem fresh_set {x : SeedTimer} (hfresh : ∀ t timer, s.timers.get t = some timer → t < s.nextTimer) (t : TimerRef)
    (timer : SeedTimer) (ht : (s.timers.set s.nextTimer x).get t = some timer) : t < s.nextTimer + 1 := by
  rw [JsMap.get_set] at ht
  split at ht
  · rename_i heq
    rw [heq]
    exact Nat.lt_succ_self t
  · exact (hfresh t timer ht).trans (Nat.lt_succ_self _)

/-- Without a connection and a timer that reconnects no timer runs. -/
theorem Loose.no_timers (h : Loose s) (hsocket : s.socket = none) (hreconnect : s.reconnectTimer = none) (t : TimerRef) :
    s.timers.get t = none := by
  obtain ⟨hconnect, hhint, hsend, -⟩ := h.idle hsocket
  rw [Option.eq_none_iff_forall_ne_some]
  intro timer ht
  have hheld := h.of_connection ht (by rw [hconnect]; rintro ⟨⟩) (by rw [hhint]; rintro ⟨⟩) (by rw [hsend]; rintro ⟨⟩)
  rw [hreconnect] at hheld
  cases hheld.2

/-! ### Dials -/

theorem Clocked.dial (h : Clocked s) : Clocked (s.dial limits v w) := by
  unfold SeedState.dial
  split
  · exact h
  rename_i hdials
  rw [Bool.or_eq_true, Bool.or_eq_true, not_or, not_or, Bool.not_eq_true, Bool.not_eq_true,
    Option.isSome_eq_false_iff, Option.isNone_iff_eq_none, Bool.not_eq_true, Option.isSome_eq_false_iff,
    Option.isNone_iff_eq_none] at hdials
  obtain ⟨⟨-, hidle⟩, hreconnect⟩ := hdials
  have hnone := h.no_timers hidle hreconnect
  obtain ⟨hconnect, hhint, hsend, hnonce⟩ := h.idle hidle
  obtain ⟨reports, hreports⟩ := @report_eq v ({ s with generation := s.generation + 1 }.count fun c =>
    { c with connectionAttempts := c.connectionAttempts + 1 }) .connecting
  dsimp only
  rw [hreports]
  split
  · have hnext : Clocked { ({ s with generation := s.generation + 1 }.count fun c =>
        { c with connectionAttempts := c.connectionAttempts + 1 }) with reports := reports } := by
      refine clocked_disconnected hidle hconnect hhint hsend hnonce (fun t timer => ⟨?_, ?_⟩) ?_
      · intro ht
        have ht' : s.timers.get t = some timer := ht
        rw [hnone] at ht'
        cases ht'
      · rintro ⟨-, ht⟩
        have ht' : s.reconnectTimer = some t := ht
        rw [hreconnect] at ht'
        cases ht'
      · intro t ht
        have ht' : s.reconnectTimer = some t := ht
        rw [hreconnect] at ht'
        cases ht'
    exact hnext.connectionEnded
  · have hopened : ((s.sockets.alloc ⟨s.generation + 1, false, false, []⟩).get s.sockets.next).opened = false := by
      rw [Heap.get_alloc_self]
    refine Clocked.of_exact ?_ (fresh_set h.fresh) (fun _ => hreconnect) (by rintro ⟨⟩) ?_ ?_
    · intro t timer
      show (s.timers.set s.nextTimer (.connect (s.generation + 1))).get t = some timer ↔ _
      rw [JsMap.get_set, hnone]
      constructor
      · intro ht
        split at ht
        · rename_i heq
          cases ht
          exact held_connect.2 ⟨rfl, congrArg some heq⟩
        · cases ht
      · intro ht
        cases timer with
        | connect generation =>
          obtain ⟨hgeneration, ht⟩ := held_connect.1 ht
          have heq : s.nextTimer = t := Option.some.inj ht
          rw [if_pos heq, hgeneration]
          rfl
        | keyHint generation => exact absurd (hhint.symm.trans (held_keyHint.1 ht).2) (by rintro ⟨⟩)
        | send => exact absurd (hsend.symm.trans ht) (by rintro ⟨⟩)
        | reconnect => exact absurd (hreconnect.symm.trans ht) (by rintro ⟨⟩)
    · intro k hk _
      exact ⟨rfl, hhint, hnonce⟩
    · intro k hk hopen
      cases hk
      exact absurd (hopened.symm.trans hopen) (by rintro ⟨⟩)

/-! ### Records out -/

theorem Clocked.setSendTimer (h : Clocked s) (hsocket : s.socket.isSome = true) (hnone : s.sendTimer = none) :
    Clocked { s.setTimeout .send with sendTimer := some s.nextTimer } := by
  refine Clocked.of_exact ?_ (fresh_set h.fresh) h.single (fun hidle => ?_) h.unopened h.opened
  · refine @exact_set s _ .send h.exact h.fresh hnone (fun t => JsMap.get_set) fun timer => ?_
    cases timer with
    | connect generation => rfl
    | keyHint generation => rfl
    | send => rfl
    | reconnect => rfl
  · have hidle' : s.socket = none := hidle
    rw [hidle'] at hsocket
    cases hsocket

theorem opened_note (k : SocketRef) (e : SocketEvent) (k' : SocketRef) :
    ((s.note k e).sockets.get k').opened = (s.sockets.get k').opened := by
  show ((s.sockets.modify k fun socket => { socket with history := socket.history ++ [e] }).get k').opened = _
  rw [Heap.get_modify]
  split
  · rfl
  · rfl

theorem Clocked.note (h : Clocked s) (k : SocketRef) (e : SocketEvent) : Clocked (s.note k e) :=
  h.same ⟨rfl, rfl, rfl, rfl, rfl, rfl, rfl, rfl, rfl, rfl, opened_note k e⟩

theorem pumpLoop_clocked {k : SocketRef} (queue : List PendingSend) (buffered calls : Nat) (h : Clocked s)
    (hk : s.socket = some k) (hnone : s.sendTimer = none) : Clocked (pumpLoop limits v w k queue buffered calls s) := by
  induction queue generalizing s buffered calls with
  | nil => exact h
  | cons next queue ih =>
    unfold pumpLoop
    split
    · exact h.same ⟨rfl, rfl, rfl, rfl, rfl, rfl, rfl, rfl, rfl, rfl, fun _ => rfl⟩
    split
    · exact h.setSendTimer (by rw [hk]; rfl) hnone
    dsimp only
    split
    · refine ih _ _ ?_ hk hnone
      exact h.same ⟨rfl, rfl, rfl, rfl, rfl, rfl, rfl, rfl, rfl, rfl, @opened_note s k (.record next.promise next.data)⟩
    · refine Clocked.failSocket ?_
      exact h.same ⟨rfl, rfl, rfl, rfl, rfl, rfl, rfl, rfl, rfl, rfl, fun _ => rfl⟩

theorem Clocked.pump (h : Clocked s) : Clocked (s.pump limits v w) := by
  unfold SeedState.pump
  split
  · exact h
  · rename_i k hk
    split
    · exact h
    · rename_i hpumps
      rw [Bool.or_eq_true, not_or, Bool.not_eq_true, Option.isSome_eq_false_iff, Option.isNone_iff_eq_none] at hpumps
      exact pumpLoop_clocked s.queue _ _ h hk hpumps.1

/-! ### Callers -/

/-- What the invariant is about is the same, the sockets too. -/
theorem Clocked.frame (h : Clocked s) (hsocket : s'.socket = s.socket) (hgeneration : s'.generation = s.generation)
    (hnonce : s'.nonce = s.nonce) (hremote : s'.remoteXOnly = s.remoteXOnly)
    (hreconnect : s'.reconnectTimer = s.reconnectTimer) (hconnect : s'.connectTimer = s.connectTimer)
    (hhint : s'.keyHintTimer = s.keyHintTimer) (hsend : s'.sendTimer = s.sendTimer) (htimers : s'.timers = s.timers)
    (hnext : s'.nextTimer = s.nextTimer) (hsockets : s'.sockets = s.sockets) : Clocked s' :=
  h.same ⟨hsocket, hgeneration, hnonce, hremote, hreconnect, hconnect, hhint, hsend, htimers, hnext,
    fun k => by rw [hsockets]⟩

theorem Clocked.connect (h : Clocked s) : Clocked (s.connect limits v w) := by
  unfold SeedState.connect
  split
  · exact h.frame rfl rfl rfl rfl rfl rfl rfl rfl rfl rfl rfl
  split
  · exact h.frame rfl rfl rfl rfl rfl rfl rfl rfl rfl rfl rfl
  dsimp only
  have hwaits : Clocked { s with
      readyWaiters := s.readyWaiters ++ [s.promises.next], promises := s.promises.alloc ⟨none, []⟩ } :=
    h.frame rfl rfl rfl rfl rfl rfl rfl rfl rfl rfl rfl
  split
  · exact hwaits.dial
  · exact hwaits

theorem Clocked.send (h : Clocked s) {packet : Bytes} : Clocked (s.send limits v w packet) := by
  unfold SeedState.send
  split
  · exact h.frame rfl rfl rfl rfl rfl rfl rfl rfl rfl rfl rfl
  split
  · exact h.frame rfl rfl rfl rfl rfl rfl rfl rfl rfl rfl rfl
  split
  · exact h.frame rfl rfl rfl rfl rfl rfl rfl rfl rfl rfl rfl
  split
  · exact h.frame rfl rfl rfl rfl rfl rfl rfl rfl rfl rfl rfl
  · refine Clocked.pump ?_
    exact h.frame rfl rfl rfl rfl rfl rfl rfl rfl rfl rfl rfl

/-! ### Events of a socket -/

/-- The timer of the connection is cleared when its socket opens. -/
theorem Clocked.connected (h : Clocked s) {k : SocketRef} {timers : JsMap TimerRef SeedTimer}
    {counters : WebSocketTransportStats} (hk : s.socket = some k) (hunopened : (s.sockets.get k).opened = false)
    (hget : ∀ t, timers.get t = if s.connectTimer = some t then none else s.timers.get t) :
    Clocked { s with
      sockets := s.sockets.modify k fun socket => { socket with opened := true }
      timers := timers, connectTimer := none, counters := counters } := by
  obtain ⟨-, hhint, hnonce⟩ := h.unopened k hk hunopened
  have hopened : ((s.sockets.modify k fun socket => { socket with opened := true }).get k).opened = true := by
    rw [Heap.get_modify_self]
  refine Clocked.of_exact ?_ ?_ h.single ?_ ?_ ?_
  · refine @exact_cleared s _ (.connect s.generation) h.exact (fun t => ?_) fun timer => ?_
    · show timers.get t = if (if s.generation = s.generation then s.connectTimer else none) = some t then none else s.timers.get t
      rw [if_pos rfl]
      exact hget t
    · cases timer with
      | connect generation =>
        show (if generation = s.generation then none else none) = _
        rw [ite_self]
        split
        · rfl
        · rename_i hne
          symm
          exact if_neg fun heq => hne (by rw [heq])
      | keyHint generation => rfl
      | send => rfl
      | reconnect => rfl
  · intro t timer ht
    have ht' : timers.get t = some timer := ht
    rw [hget] at ht'
    split at ht'
    · cases ht'
    · exact h.fresh t timer ht'
  · intro hidle
    have hidle' : s.socket = none := hidle
    rw [hk] at hidle'
    cases hidle'
  · intro k' hk' hclosed
    have hk'' : s.socket = some k' := hk'
    rw [hk] at hk''
    cases hk''
    exact absurd (hopened.symm.trans hclosed) (by rintro ⟨⟩)
  · intro k' _ _
    exact ⟨rfl, .inr (.inl hnonce)⟩

theorem Clocked.socketOpen (h : Clocked s) (hsound : Sound limits v s) {k : SocketRef} :
    Clocked (s.socketOpen limits v w k) := by
  unfold SeedState.socketOpen
  dsimp only
  split
  · exact h
  rename_i hopens
  rw [not_or, Bool.not_eq_true] at hopens
  split
  · rename_i hcurrent
    -- the socket is not the current one
    have hopened : ∀ k', s.socket = some k' → ((s.sockets.modify k fun socket => { socket with opened := true }).get k').opened =
        (s.sockets.get k').opened := by
      intro k' hk'
      have hne : k' ≠ k := by
        rintro rfl
        have htrue : SeedState.isCurrent { s with
            sockets := s.sockets.modify k' fun socket => { socket with opened := true } } k'
            (s.sockets.get k').generation = true := isCurrent_eq_true.2 ⟨hk', (hsound.current k' hk').2.symm⟩
        rw [htrue] at hcurrent
        cases hcurrent
      rw [Heap.get_modify_of_ne hne]
    refine Clocked.of_exact h.exact h.fresh h.single h.idle (fun k' hk' hclosed => ?_) (fun k' hk' hopen => ?_)
    · exact h.unopened k' hk' ((hopened k' hk').symm.trans hclosed)
    · exact h.opened k' hk' ((hopened k' hk').symm.trans hopen)
  rename_i hcurrent
  rw [Bool.not_eq_false, isCurrent_eq_true] at hcurrent
  have hk : s.socket = some k := hcurrent.1
  obtain ⟨timers, htimers, hget⟩ := @clearTimeout_timers
    { s with sockets := s.sockets.modify k fun socket => { socket with opened := true } } s.connectTimer
  rw [htimers]
  have hconnected : ∀ counters, Clocked { s with
      sockets := s.sockets.modify k fun socket => { socket with opened := true }
      timers := timers, connectTimer := none, counters := counters } := fun _ => h.connected hk hopens.2 hget
  split
  · exact hconnected _
  have hopened : ((s.sockets.modify k fun socket => { socket with opened := true }).get k).opened = true := by
    rw [Heap.get_modify_self]
  have hnonced : ∀ counters nonce, Loose { s with
      sockets := s.sockets.modify k fun socket => { socket with opened := true }
      timers := timers, connectTimer := none, counters := counters, nonce := nonce } := by
    intro counters nonce
    obtain ⟨hrunning, hreconnects, hfresh, hsingle, -⟩ := (hconnected counters).toLoose
    refine ⟨hrunning, hreconnects, hfresh, hsingle, fun hidle => ?_⟩
    have hidle' : s.socket = none := hidle
    rw [hk] at hidle'
    cases hidle'
  have hhint : s.keyHintTimer = none := (h.unopened k hk hopens.2).2.1
  have hgeneration : (s.sockets.get k).generation = s.generation := hcurrent.2.symm
  rw [hgeneration]
  split
  · rename_i wire _ _
    refine Clocked.of_exact ?_ (fresh_set (hconnected s.counters).fresh) h.single ?_ ?_ ?_
    · refine @exact_set _ _ (.keyHint s.generation) (hconnected s.counters).exact
        (hconnected s.counters).fresh ?_ (fun t => JsMap.get_set) fun timer => ?_
      · show (if s.generation = s.generation then s.keyHintTimer else none) = none
        rw [if_pos rfl]
        exact hhint
      · cases timer with
        | keyHint generation =>
          show (if generation = s.generation then some s.nextTimer else none) =
            if SeedTimer.keyHint generation = .keyHint s.generation then some s.nextTimer else
              (if generation = s.generation then s.keyHintTimer else none)
          by_cases heq : generation = s.generation
          · rw [if_pos heq, if_pos (congrArg SeedTimer.keyHint heq)]
          · rw [if_neg heq, if_neg (fun h => heq (SeedTimer.keyHint.inj h)), if_neg heq]
        | connect generation => rfl
        | send => rfl
        | reconnect => rfl
    · intro hidle
      have hidle' : s.socket = none := hidle
      rw [hk] at hidle'
      cases hidle'
    · intro k' hk' hclosed
      have hk'' : s.socket = some k' := hk'
      rw [hk] at hk''
      cases hk''
      have hnoted := @opened_note { s with
        sockets := s.sockets.modify k fun socket => { socket with opened := true } } k (.hint wire) k
      exact absurd (hopened.symm.trans (hnoted.symm.trans hclosed)) (by rintro ⟨⟩)
    · intro k' _ _
      exact ⟨rfl, .inl rfl⟩
  · exact clocked_failSocket (hnonced _ _) _
  · exact clocked_failSocket (hnonced _ _) _

theorem Clocked.socketMessage (h : Clocked s) {k : SocketRef} {data : MessageData} : Clocked (s.socketMessage k data) := by
  unfold SeedState.socketMessage
  dsimp only
  split
  · exact h.frame rfl rfl rfl rfl rfl rfl rfl rfl rfl rfl rfl
  · exact h

/-! ### Records in -/

theorem Clocked.setChain (h : Clocked s) {chain : List ReceiveTurn} : Clocked { s with receiveChain := chain } :=
  h.frame rfl rfl rfl rfl rfl rfl rfl rfl rfl rfl rfl

theorem Clocked.receiveBegin (h : Clocked s) : Clocked s.receiveBegin := by
  unfold SeedState.receiveBegin
  split
  · exact h
  split
  · exact h
  split
  · exact h.setChain
  · exact h.setChain

/-- The identity of the seed is known, and the timer of its key hint is cleared. -/
theorem Clocked.hinted (h : Clocked s) {pubkey : Bytes} {timers : JsMap TimerRef SeedTimer} {delay : Nat}
    {waiters : List PromiseRef} {promises : Heap CallerPromise} {reports : List SeedReport}
    (hget : ∀ t, timers.get t = if s.keyHintTimer = some t then none else s.timers.get t) :
    Clocked { s with
      timers := timers, keyHintTimer := none, remoteXOnly := some pubkey, reconnectDelayMs := delay
      readyWaiters := waiters, promises := promises, reports := reports } := by
  refine Clocked.of_exact ?_ ?_ h.single ?_ ?_ ?_
  · refine @exact_cleared s _ (.keyHint s.generation) h.exact (fun t => ?_) fun timer => ?_
    · show timers.get t = if (if s.generation = s.generation then s.keyHintTimer else none) = some t then none else s.timers.get t
      rw [if_pos rfl]
      exact hget t
    · cases timer with
      | keyHint generation =>
        show (if generation = s.generation then none else none) = _
        rw [ite_self]
        split
        · rfl
        · rename_i hne
          symm
          exact if_neg fun heq => hne (by rw [heq])
      | connect generation => rfl
      | send => rfl
      | reconnect => rfl
  · intro t timer ht
    have ht' : timers.get t = some timer := ht
    rw [hget] at ht'
    split at ht'
    · cases ht'
    · exact h.fresh t timer ht'
  · intro hidle
    obtain ⟨hconnect, -, hsend, hnonce⟩ := h.idle hidle
    exact ⟨hconnect, rfl, hsend, hnonce⟩
  · intro k hk hclosed
    obtain ⟨hconnect, -, hnonce⟩ := h.unopened k hk hclosed
    exact ⟨hconnect, rfl, hnonce⟩
  · intro k hk hopen
    exact ⟨(h.opened k hk hopen).1, .inr (.inr rfl)⟩

theorem Clocked.receiveWire (h : Clocked s) {k : SocketRef} {wire : Bytes} :
    Clocked (s.receiveWire limits v w k wire).1 := by
  have hreported : ∀ (s : SeedState) r, ∃ reports, s.report v r = { s with reports := reports } := fun s r => report_eq r
  unfold SeedState.receiveWire
  split
  · split
    · exact h
    split
    · exact h.note k _
    · exact h
    · exact h
  · split
    · exact h
    split
    · exact h
    split
    · exact h
    · obtain ⟨timers, htimers, hget⟩ := @clearTimeout_timers s s.keyHintTimer
      dsimp only
      rw [htimers]
      obtain ⟨reports, hreports⟩ := hreported _ _
      rw [hreports]
      obtain ⟨reports', hreports'⟩ := hreported _ _
      rw [hreports']
      refine Clocked.pump ?_
      exact h.hinted hget
  · split
    · exact h
    split
    · exact h.frame rfl rfl rfl rfl rfl rfl rfl rfl rfl rfl rfl
    · obtain ⟨reports, hreports⟩ := hreported ((s.count fun c =>
        { c with framesReceived := c.framesReceived + 1, bytesReceived := c.bytesReceived + wire.length }).note k
          (.delivered wire)) (.packet wire)
      dsimp only
      rw [hreports]
      have hnoted : Clocked (s.note k (.delivered wire)) := h.note k _
      exact hnoted.frame rfl rfl rfl rfl rfl rfl rfl rfl rfl rfl rfl

theorem Clocked.receiveDecoded (h : Clocked s) {readable : Bool} : Clocked (s.receiveDecoded limits v w readable) := by
  unfold SeedState.receiveDecoded
  split
  · exact h
  split
  · exact h
  split
  · exact h.setChain
  split
  · exact h.setChain
  rename_i _ turn turns _ _ _ wire _ _
  have hnoted : Clocked (s.note turn.socket (.received wire)) := h.note _ _
  have hwire : Clocked ((s.note turn.socket (.received wire)).receiveWire limits v w turn.socket wire).1 :=
    hnoted.receiveWire
  split
  · rename_i s₁ heq
    rw [heq] at hwire
    exact hwire.setChain
  · rename_i s₁ error heq
    rw [heq] at hwire
    exact hwire.setChain

theorem Clocked.receiveCaught (h : Clocked s) : Clocked (s.receiveCaught limits v) := by
  unfold SeedState.receiveCaught
  split
  · exact h.setChain.failSocket
  · exact h

/-! ### Timers -/

/-- A timer of the connection has fired. -/
theorem Clocked.fired (h : Clocked s) {t : TimerRef} {timer : SeedTimer} (ht : s.timers.get t = some timer)
    (hne : timer ≠ .reconnect) : Loose { s with timers := s.timers.delete t } where
  running t' timer' ht' := by
    have hold : (s.timers.delete t).get t' = some timer' := ht'
    rw [JsMap.get_delete] at hold
    split at hold
    · cases hold
    · exact h.running t' timer' hold
  reconnects t' ht' := by
    have hold : s.timers.get t' = some .reconnect := h.reconnects t' ht'
    show (s.timers.delete t).get t' = some .reconnect
    rw [JsMap.get_delete]
    split
    · rename_i heq
      rw [← heq, ht] at hold
      exact absurd (Option.some.inj hold) hne
    · exact hold
  fresh t' timer' ht' := by
    have hold : (s.timers.delete t).get t' = some timer' := ht'
    rw [JsMap.get_delete] at hold
    split at hold
    · cases hold
    · exact h.fresh t' timer' hold
  single := h.single
  idle := h.idle

theorem Clocked.timeout (h : Clocked s) {t : TimerRef} : Clocked (s.timeout limits v w t) := by
  unfold SeedState.timeout
  split
  · exact h
  rename_i timer ht
  cases timer with
  | connect generation =>
    rw [(held_connect.1 (h.running t _ ht)).1]
    exact clocked_failSocket (h.fired ht (by rintro ⟨⟩)) _
  | keyHint generation =>
    rw [(held_keyHint.1 (h.running t _ ht)).1]
    exact clocked_failSocket (h.fired ht (by rintro ⟨⟩)) _
  | send =>
    have hloose := h.fired ht (by rintro ⟨⟩)
    have hsend : s.sendTimer = some t := h.running t _ ht
    refine Clocked.pump ?_
    refine Clocked.of_exact ?_ hloose.fresh h.single ?_ h.unopened h.opened
    · refine @exact_cleared s _ .send h.exact (fun t' => ?_) fun timer => ?_
      · show (s.timers.delete t).get t' = if s.sendTimer = some t' then none else s.timers.get t'
        rw [JsMap.get_delete, hsend]
        by_cases heq : t = t'
        · rw [if_pos heq, if_pos (congrArg some heq)]
        · rw [if_neg heq, if_neg fun h => heq (Option.some.inj h)]
      · cases timer with
        | connect generation => rfl
        | keyHint generation => rfl
        | send => rfl
        | reconnect => rfl
    · intro hidle
      obtain ⟨hconnect, hhint, -, hnonce⟩ := h.idle hidle
      exact ⟨hconnect, hhint, rfl, hnonce⟩
  | reconnect =>
    have hreconnect : s.reconnectTimer = some t := h.running t _ ht
    refine Clocked.dial ?_
    refine Clocked.of_exact ?_ ?_ (fun _ => rfl) h.idle h.unopened h.opened
    · refine @exact_cleared s _ .reconnect h.exact (fun t' => ?_) fun timer => ?_
      · show (s.timers.delete t).get t' = if s.reconnectTimer = some t' then none else s.timers.get t'
        rw [JsMap.get_delete, hreconnect]
        by_cases heq : t = t'
        · rw [if_pos heq, if_pos (congrArg some heq)]
        · rw [if_neg heq, if_neg fun h => heq (Option.some.inj h)]
      · cases timer with
        | connect generation => rfl
        | keyHint generation => rfl
        | send => rfl
        | reconnect => rfl
    · intro t' timer' ht'
      have hold : (s.timers.delete t).get t' = some timer' := ht'
      rw [JsMap.get_delete] at hold
      split at hold
      · cases hold
      · exact h.fresh t' timer' hold

theorem Clocked.act (h : Clocked s) (hsound : Sound limits v s) (a : Action) : Clocked (s.act limits v w a) := by
  cases a with
  | connect => exact h.connect
  | send packet => exact h.send
  | socketOpen k => exact h.socketOpen hsound
  | socketMessage k data => exact h.socketMessage
  | socketError k =>
    show Clocked (s.socketError limits v k)
    unfold SeedState.socketError
    dsimp only
    split
    · exact h.failSocket
    · exact h
  | socketClose k reason =>
    show Clocked (s.socketClose limits v k reason)
    unfold SeedState.socketClose
    dsimp only
    split
    · exact h.connectionEnded
    · exact h
  | receiveBegin => exact h.receiveBegin
  | receiveDecoded readable => exact h.receiveDecoded
  | receiveCaught => exact h.receiveCaught
  | timeout t => exact h.timeout

theorem Clocked.stop (h : Clocked s) : Clocked s.stop := by
  obtain ⟨timers, htimers, hget⟩ := @clearConnectionTimers_timers s
  obtain ⟨timers', htimers', hget'⟩ := @clearTimeout_timers
    { s with timers := timers, connectTimer := none, keyHintTimer := none, sendTimer := none } s.reconnectTimer
  have hnone : ∀ t timer, timers'.get t = some timer → False := by
    intro t timer ht
    rw [hget'] at ht
    split at ht
    · cases ht
    · rename_i hreconnect
      obtain ⟨hold, hconnect, hhint, hsend⟩ := hget t timer ht
      exact hreconnect (h.of_connection hold hconnect hhint hsend).2
  unfold SeedState.stop clearTimers
  dsimp only
  rw [htimers]
  rw [htimers']
  obtain ⟨sockets, heq, -⟩ := closeSocket_eq (s := SeedState.rejectQueue _ _) _
  rw [heq]
  refine clocked_disconnected rfl rfl rfl rfl rfl (fun t timer => ⟨fun ht => (hnone t timer ht).elim, ?_⟩) ?_
  · rintro ⟨-, ht⟩
    cases ht
  · intro t ht
    cases ht

end SeedState

/-! ## Runs -/

namespace WebSocketTransport
open SeedState

variable {limits : WebSocketLimits} {urls : List SeedUrl} {s : WebSocketTransport}

theorem clocked_step {e : (SeedUrl → SeedSurroundings) × Action} (hsound : SeedsSound limits urls s)
    (h : ∀ url, Clocked (s.seeds url)) (url : SeedUrl) : Clocked ((s.step limits urls e).seeds url) := by
  obtain ⟨w, action⟩ := e
  cases action with
  | start localXOnly =>
    show Clocked ((s.start limits urls w localXOnly).seeds url)
    unfold start
    split
    · exact h url
    dsimp only
    split
    · exact (h url).dial
    · exact h url
  | stop =>
    show Clocked ((s.stop urls).seeds url)
    unfold WebSocketTransport.stop
    split
    · exact h url
    dsimp only
    split
    · exact (h url).stop
    · exact h url
  | seed url' a =>
    show Clocked ((if url' ∈ urls then { s with
      seeds := fun url => if url = url' then SeedState.act limits s.view (w url') (s.seeds url') a else s.seeds url }
      else s).seeds url)
    split
    · dsimp only
      split
      · exact (h url').act (hsound.sound url') a
      · exact h url
    · exact h url

theorem clocked_run (es : List ((SeedUrl → SeedSurroundings) × Action)) (url : SeedUrl) :
    Clocked ((Run.run (step limits urls) (new limits) es).seeds url) := by
  have hkeeps : ∀ (es : List ((SeedUrl → SeedSurroundings) × Action)) s, SeedsSound limits urls s →
      (∀ url, Clocked (s.seeds url)) → ∀ url, Clocked ((Run.run (WebSocketTransport.step limits urls) s es).seeds url) := by
    intro es
    induction es with
    | nil => exact fun s _ h => h
    | cons e es ih => exact fun s hsound h => ih _ hsound.step (clocked_step hsound h)
  exact hkeeps es _ (seedsSound_run []) (fun _ => clocked_new) url

/-- The timers of a seed in every run are those its fields hold, and none once the transport is stopped. Whoever
waits for the seed waits for a timer that dials it, or for its connection: one that has shown its key, that runs
against a timer, or whose nonce could not be made. The timers of a connection end every wait when they fire. -/
theorem waits_are_watched (limits : WebSocketLimits) (urls : List SeedUrl)
    (es : List ((SeedUrl → SeedSurroundings) × Action)) (url : SeedUrl) (w : SeedSurroundings) :
    let t := Run.run (step limits urls) (new limits) es
    let s := t.seeds url
    (∀ r timer, s.timers.get r = some timer ↔ s.held timer = some r) ∧
    (t.view.stopping = true → ∀ r, s.timers.get r = none) ∧
    (s.readyWaiters ≠ [] →
      (s.socket = none ∧ ∃ r, s.timers.get r = some .reconnect) ∨
      ∃ k, s.socket = some k ∧ (s.remoteXOnly.isSome = true ∨ (∃ r, s.timers.get r = some (.connect s.generation)) ∨
        (∃ r, s.timers.get r = some (.keyHint s.generation)) ∨ (s.sockets.get k).opened = true ∧ s.nonce = none)) ∧
    (∀ r, s.timers.get r = some (.connect s.generation) ∨ s.timers.get r = some (.keyHint s.generation) →
      (s.act limits t.view w (.timeout r)).pending = []) := by
  intro t s
  have hrun : SeedsSound limits urls t := seedsSound_run es
  have hsound : Sound limits t.view s := hrun.sound url
  have h : Clocked s := clocked_run es url
  refine ⟨h.exact, fun hstopping r => ?_, fun hne => ?_, fun r hr => ?_⟩
  · obtain ⟨hsocket, -, hreconnect⟩ := hsound.stopped hstopping
    exact h.no_timers hsocket hreconnect r
  · cases hsocket : s.socket with
    | none =>
      rcases hrun.awaited url hne with hsome | hsome
      · have hsome' : s.socket.isSome = true := hsome
        rw [hsocket] at hsome'
        cases hsome'
      · obtain ⟨r, hr⟩ := Option.isSome_iff_exists.1 hsome
        exact .inl ⟨rfl, r, h.reconnects r hr⟩
    | some k =>
      refine .inr ⟨k, rfl, ?_⟩
      cases hopened : (s.sockets.get k).opened with
      | false =>
        obtain ⟨r, hr⟩ := Option.isSome_iff_exists.1 (h.unopened k hsocket hopened).1
        exact .inr (.inl ⟨r, (h.exact r _).2 (held_connect.2 ⟨rfl, hr⟩)⟩)
      | true =>
        rcases (h.opened k hsocket hopened).2 with hhint | hnonce | hremote
        · obtain ⟨r, hr⟩ := Option.isSome_iff_exists.1 hhint
          exact .inr (.inr (.inl ⟨r, (h.exact r _).2 (held_keyHint.2 ⟨rfl, hr⟩)⟩))
        · exact .inr (.inr (.inr ⟨rfl, hnonce⟩))
        · exact .inl hremote
  · have hended : ∀ error, (SeedState.failSocket limits t.view { s with timers := s.timers.delete r } s.generation
        error).pending = [] := by
      intro error
      have hends := @ended_failSocket limits t.view { s with timers := s.timers.delete r } error
      unfold pending
      rw [hends.readyWaiters, hends.queue]
      rfl
    show (s.timeout limits t.view w r).pending = []
    unfold SeedState.timeout
    rcases hr with hr | hr
    · rw [hr]
      exact hended _
    · rw [hr]
      exact hended _

end WebSocketTransport

end Fips
