import Fips.Transport.WebSocketTimers

/-!
# The key hints of a WebSocket connection

A connection carries a FIPS record, in either direction, only after the seed has answered the nonce that was
sent on it, and only records of the key that it answered with.
-/

namespace Fips

namespace SeedState

/-! ### Histories -/

/-- The record that an event carries. -/
def SocketEvent.carried : SocketEvent → Option Bytes
  | .record _ wire => some wire
  | .delivered wire => some wire
  | _ => none

/-- The nonce has been sent, and answered with the key after it. -/
def Hinted (nonce : Nat) (pubkey : Bytes) (history : List SocketEvent) : Prop :=
  ∃ request response, encodeLocalKeyHintRequest nonce = .ok request ∧
    decodeLocalKeyHint response = some (.response nonce pubkey) ∧
    [SocketEvent.hint request, SocketEvent.received response].Sublist history

/-- Every record comes after the answer with the key, and is valid; one that is delivered is what has just been read. -/
def Gated (limits : WebSocketLimits) (nonce : Nat) (pubkey : Bytes) (history : List SocketEvent) : Prop :=
  ∀ before e after wire, history = before ++ e :: after → SocketEvent.carried e = some wire →
    Hinted nonce pubkey before ∧ validateFipsRecord wire limits.maxFrameBytes = .ok () ∧
    (e = .delivered wire → ∃ earlier, before = earlier ++ [.received wire])

variable {limits : WebSocketLimits} {v : TransportView} {w : SeedSurroundings} {s s' : SeedState} {nonce : Nat}
  {pubkey : Bytes} {history : List SocketEvent} {e : SocketEvent} {heldUnder : SocketRef → Option Bytes → Prop}

theorem Hinted.append (h : Hinted nonce pubkey history) (more : List SocketEvent) :
    Hinted nonce pubkey (history ++ more) := by
  obtain ⟨request, response, hrequest, hresponse, hsub⟩ := h
  exact ⟨request, response, hrequest, hresponse, hsub.trans (List.sublist_append_left _ _)⟩

theorem gated_of_silent (h : ∀ e ∈ history, SocketEvent.carried e = none) : Gated limits nonce pubkey history := by
  rintro before e after wire rfl hwire
  rw [h e (List.mem_append_right _ List.mem_cons_self)] at hwire
  cases hwire

/-- An event is appended. -/
theorem Gated.append (h : Gated limits nonce pubkey history)
    (he : ∀ wire, SocketEvent.carried e = some wire → Hinted nonce pubkey history ∧
      validateFipsRecord wire limits.maxFrameBytes = .ok () ∧
      (e = .delivered wire → ∃ earlier, history = earlier ++ [.received wire])) :
    Gated limits nonce pubkey (history ++ [e]) := by
  intro before x after wire heq hwire
  rcases List.eq_nil_or_concat after with rfl | ⟨after', y, rfl⟩
  · obtain ⟨rfl, hlast⟩ := List.append_inj' heq rfl
    injection hlast with hlast
    rw [← hlast] at hwire ⊢
    exact he wire hwire
  · rw [List.concat_eq_append, ← List.cons_append, ← List.append_assoc] at heq
    exact h before x after' wire (List.append_inj' heq rfl).1 hwire

/-! ### The invariant -/

/-- A connection has carried no record, or the records of one key, which was not the local identity's. -/
def Past (limits : WebSocketLimits) (heldUnder : SocketRef → Option Bytes → Prop) (k : SocketRef)
    (history : List SocketEvent) : Prop :=
  (∀ e ∈ history, SocketEvent.carried e = none) ∨
    ∃ nonce pubkey localXOnly, heldUnder k localXOnly ∧ localXOnly ≠ some pubkey ∧ Gated limits nonce pubkey history

/-- An event that carries no record. -/
theorem Past.append {k : SocketRef} (h : Past limits heldUnder k history) (he : SocketEvent.carried e = none) :
    Past limits heldUnder k (history ++ [e]) := by
  rcases h with hsilent | ⟨nonce, pubkey, localXOnly, hheld, hlocal, hgated⟩
  · refine .inl fun x hx => ?_
    rcases List.mem_append.1 hx with hx | hx
    · exact hsilent x hx
    · rw [List.mem_singleton.1 hx]
      exact he
  · refine .inr ⟨nonce, pubkey, localXOnly, hheld, hlocal, hgated.append fun wire hwire => ?_⟩
    rw [he] at hwire
    cases hwire

/-- `heldUnder k localXOnly` says that the connection was held while that was the local identity. -/
structure Hints (limits : WebSocketLimits) (heldUnder : SocketRef → Option Bytes → Prop) (v : TransportView)
    (s : SeedState) : Prop where
  valid : ∀ e ∈ s.queue, validateFipsRecord e.data limits.maxFrameBytes = .ok ()
  asked : ∀ k nonce, s.socket = some k → s.nonce = some nonce →
    ∃ request, encodeLocalKeyHintRequest nonce = .ok request ∧ SocketEvent.hint request ∈ (s.sockets.get k).history
  silent : ∀ k, s.socket = some k → s.remoteXOnly = none →
    ∀ e ∈ (s.sockets.get k).history, SocketEvent.carried e = none
  hinted : ∀ k pubkey, s.socket = some k → s.remoteXOnly = some pubkey → v.localXOnly ≠ some pubkey ∧
    ∃ nonce, s.nonce = some nonce ∧ Hinted nonce pubkey (s.sockets.get k).history ∧
      Gated limits nonce pubkey (s.sockets.get k).history
  past : ∀ k < s.sockets.next, Past limits heldUnder k (s.sockets.get k).history

theorem hints_new : Hints limits heldUnder v (new limits) where
  valid := by rintro e ⟨⟩
  asked := by rintro k nonce ⟨⟩
  silent := by rintro k ⟨⟩
  hinted := by rintro k pubkey ⟨⟩
  past k hk := absurd hk (Nat.not_lt_zero k)

/-- What the invariant is about is the same. -/
structure SameHints (s s' : SeedState) : Prop where
  socket : s'.socket = s.socket
  nonce : s'.nonce = s.nonce
  remoteXOnly : s'.remoteXOnly = s.remoteXOnly
  queue : s'.queue.Sublist s.queue
  next : s'.sockets.next = s.sockets.next
  history : ∀ k, (s'.sockets.get k).history = (s.sockets.get k).history

theorem Hints.same (h : Hints limits heldUnder v s) (hsame : SameHints s s') : Hints limits heldUnder v s' where
  valid e he := h.valid e (hsame.queue.subset he)
  asked := by
    intro k nonce hk hnonce
    rw [hsame.socket] at hk
    rw [hsame.nonce] at hnonce
    rw [hsame.history]
    exact h.asked k nonce hk hnonce
  silent := by
    intro k hk hremote
    rw [hsame.socket] at hk
    rw [hsame.remoteXOnly] at hremote
    rw [hsame.history]
    exact h.silent k hk hremote
  hinted := by
    intro k pubkey hk hremote
    rw [hsame.socket] at hk
    rw [hsame.remoteXOnly] at hremote
    rw [hsame.history, hsame.nonce]
    exact h.hinted k pubkey hk hremote
  past := by
    intro k hk
    rw [hsame.next] at hk
    rw [hsame.history]
    exact h.past k hk

/-- What the invariant is about is the same, the sockets too. -/
theorem Hints.frame (h : Hints limits heldUnder v s) (hsocket : s'.socket = s.socket) (hnonce : s'.nonce = s.nonce)
    (hremote : s'.remoteXOnly = s.remoteXOnly) (hqueue : s'.queue = s.queue) (hsockets : s'.sockets = s.sockets) :
    Hints limits heldUnder v s' :=
  h.same ⟨hsocket, hnonce, hremote, by rw [hqueue], by rw [hsockets], fun k => by rw [hsockets]⟩

/-- There is no connection. -/
theorem Hints.disconnected (h : Hints limits heldUnder v s) {v' : TransportView} (hsocket : s'.socket = none)
    (hqueue : s'.queue.Sublist s.queue) (hnext : s'.sockets.next = s.sockets.next)
    (hhistory : ∀ k, (s'.sockets.get k).history = (s.sockets.get k).history) : Hints limits heldUnder v' s' where
  valid e he := h.valid e (hqueue.subset he)
  asked := by
    intro k nonce hk
    rw [hsocket] at hk
    cases hk
  silent := by
    intro k hk
    rw [hsocket] at hk
    cases hk
  hinted := by
    intro k pubkey hk
    rw [hsocket] at hk
    cases hk
  past := by
    intro k hk
    rw [hnext] at hk
    rw [hhistory]
    exact h.past k hk

theorem Hints.ended (h : Hints limits heldUnder v s) (hended : Ended v s s') : Hints limits heldUnder v s' := by
  refine h.disconnected hended.socket ?_ hended.next fun k => (hended.sockets k).2
  rw [hended.queue]
  exact List.nil_sublist _

theorem Hints.connectionEnded (h : Hints limits heldUnder v s) {generation : Nat} {error : String} :
    Hints limits heldUnder v (s.connectionEnded limits v generation error) := by
  by_cases hgeneration : generation = s.generation
  · rw [hgeneration]
    exact h.ended (ended_connectionEnded error)
  · unfold SeedState.connectionEnded
    rw [if_pos hgeneration]
    exact h

theorem Hints.failSocket (h : Hints limits heldUnder v s) {generation : Nat} {error : String} :
    Hints limits heldUnder v (s.failSocket limits v generation error) := by
  by_cases hgeneration : generation = s.generation
  · rw [hgeneration]
    exact h.ended (ended_failSocket error)
  · unfold SeedState.failSocket
    rw [if_pos hgeneration]
    exact h

theorem Hints.mono (h : Hints limits heldUnder v s) {heldUnder' : SocketRef → Option Bytes → Prop}
    (hheld : ∀ k localXOnly, heldUnder k localXOnly → heldUnder' k localXOnly) : Hints limits heldUnder' v s where
  valid := h.valid
  asked := h.asked
  silent := h.silent
  hinted := h.hinted
  past := by
    intro k hk
    rcases h.past k hk with hsilent | ⟨nonce, pubkey, localXOnly, hat, hlocal, hgated⟩
    · exact .inl hsilent
    · exact .inr ⟨nonce, pubkey, localXOnly, hheld k localXOnly hat, hlocal, hgated⟩

/-! ### Dials -/

/-- A socket whose history is empty. -/
theorem Hints.newSocket (h : Hints limits heldUnder v s) {generation : Nat} (hsocket : s'.socket = some s.sockets.next)
    (hsockets : s'.sockets = s.sockets.alloc ⟨generation, false, false, []⟩) (hnonce : s'.nonce = none)
    (hremote : s'.remoteXOnly = none) (hqueue : s'.queue = s.queue) : Hints limits heldUnder v s' where
  valid := by
    rw [hqueue]
    exact h.valid
  asked := by
    intro k nonce _ hsome
    rw [hnonce] at hsome
    cases hsome
  silent := by
    intro k hk _ e he
    rw [hsocket] at hk
    cases hk
    rw [hsockets, Heap.get_alloc_self] at he
    cases he
  hinted := by
    intro k pubkey _ hsome
    rw [hremote] at hsome
    cases hsome
  past := by
    intro k hk
    rw [hsockets] at hk ⊢
    rcases Nat.lt_succ_iff_lt_or_eq.1 hk with hlt | rfl
    · rw [Heap.get_alloc_of_lt hlt]
      exact h.past k hlt
    · rw [Heap.get_alloc_self]
      exact .inl (by rintro e ⟨⟩)

theorem Hints.dial (h : Hints limits heldUnder v s) (hnew : s.socket = none → s.nonce = none ∧ s.remoteXOnly = none) :
    Hints limits heldUnder v (s.dial limits v w) := by
  unfold SeedState.dial
  split
  · exact h
  rename_i hdials
  rw [Bool.or_eq_true, Bool.or_eq_true, not_or, not_or, Bool.not_eq_true, Bool.not_eq_true,
    Option.isSome_eq_false_iff, Option.isNone_iff_eq_none] at hdials
  obtain ⟨⟨-, hidle⟩, -⟩ := hdials
  obtain ⟨hnonce, hremote⟩ := hnew hidle
  obtain ⟨reports, hreports⟩ := @report_eq v ({ s with generation := s.generation + 1 }.count fun c =>
    { c with connectionAttempts := c.connectionAttempts + 1 }) .connecting
  dsimp only
  rw [hreports]
  split
  · refine Hints.connectionEnded ?_
    exact h.frame rfl rfl rfl rfl rfl
  · exact h.newSocket rfl rfl hnonce hremote rfl

/-! ### Records out -/

theorem history_note (k : SocketRef) (e : SocketEvent) (k' : SocketRef) :
    ((s.note k e).sockets.get k').history = (s.sockets.get k').history ++ if k' = k then [e] else [] := by
  show ((s.sockets.modify k fun socket => { socket with history := socket.history ++ [e] }).get k').history = _
  rw [Heap.get_modify]
  split
  · rfl
  · rw [List.append_nil]

/-- An event of a connection that carries no record. -/
theorem Hints.note (h : Hints limits heldUnder v s) {k : SocketRef} (he : SocketEvent.carried e = none) :
    Hints limits heldUnder v (s.note k e) where
  valid := h.valid
  asked := by
    intro k' nonce hk' hnonce
    obtain ⟨request, hrequest, hmem⟩ := h.asked k' nonce hk' hnonce
    refine ⟨request, hrequest, ?_⟩
    rw [history_note]
    exact List.mem_append_left _ hmem
  silent := by
    intro k' hk' hremote x hx
    rw [history_note] at hx
    rcases List.mem_append.1 hx with hx | hx
    · exact h.silent k' hk' hremote x hx
    · split at hx
      · rw [List.mem_singleton.1 hx]
        exact he
      · cases hx
  hinted := by
    intro k' pubkey hk' hremote
    obtain ⟨hlocal, nonce, hnonce, hhinted, hgated⟩ := h.hinted k' pubkey hk' hremote
    refine ⟨hlocal, nonce, hnonce, ?_, ?_⟩
    · rw [history_note]
      exact hhinted.append _
    · rw [history_note]
      split
      · refine hgated.append fun wire hwire => ?_
        rw [he] at hwire
        cases hwire
      · rw [List.append_nil]
        exact hgated
  past := by
    intro k' hk'
    rw [history_note]
    split
    · exact (h.past k' hk').append he
    · rw [List.append_nil]
      exact h.past k' hk'

/-- A record of a connection whose key is known. -/
theorem Hints.carry (h : Hints limits heldUnder v s) {k : SocketRef} {wire : Bytes} (hk : s.socket = some k)
    (hheld : heldUnder k v.localXOnly) (hremote : s.remoteXOnly.isSome = true) (he : SocketEvent.carried e = some wire)
    (hvalid : validateFipsRecord wire limits.maxFrameBytes = .ok ())
    (hread : e = .delivered wire → ∃ earlier, (s.sockets.get k).history = earlier ++ [.received wire]) :
    Hints limits heldUnder v (s.note k e) := by
  obtain ⟨pubkey, hpubkey⟩ := Option.isSome_iff_exists.1 hremote
  obtain ⟨hlocal, nonce, hnonce, hhinted, hgated⟩ := h.hinted k pubkey hk hpubkey
  have hself : Gated limits nonce pubkey ((s.sockets.get k).history ++ [e]) := by
    refine hgated.append fun wire' hwire' => ?_
    rw [he] at hwire'
    cases hwire'
    exact ⟨hhinted, hvalid, hread⟩
  refine ⟨h.valid, ?_, ?_, ?_, ?_⟩
  · intro k' nonce' hk' hnonce'
    obtain ⟨request, hrequest, hmem⟩ := h.asked k' nonce' hk' hnonce'
    refine ⟨request, hrequest, ?_⟩
    rw [history_note]
    exact List.mem_append_left _ hmem
  · intro k' _ hnone
    have hnone' : s.remoteXOnly = none := hnone
    rw [hpubkey] at hnone'
    cases hnone'
  · intro k' pubkey' hk' hremote'
    have hk'' : s.socket = some k' := hk'
    rw [hk] at hk''
    cases hk''
    have hpubkey' : s.remoteXOnly = some pubkey' := hremote'
    rw [hpubkey] at hpubkey'
    cases hpubkey'
    refine ⟨hlocal, nonce, hnonce, ?_, ?_⟩
    · rw [history_note]
      exact hhinted.append _
    · rw [history_note, if_pos rfl]
      exact hself
  · intro k' hk'
    rw [history_note]
    split
    · rename_i heq
      rw [heq]
      exact .inr ⟨nonce, pubkey, v.localXOnly, hheld, hlocal, hself⟩
    · rw [List.append_nil]
      exact h.past k' hk'

theorem pumpLoop_hints {k : SocketRef} (queue : List PendingSend) (buffered calls : Nat) (h : Hints limits heldUnder v s)
    (hk : s.socket = some k) (hheld : heldUnder k v.localXOnly) (hremote : s.remoteXOnly.isSome = true)
    (hqueue : s.queue = queue) :
    Hints limits heldUnder v (pumpLoop limits v w k queue buffered calls s) := by
  induction queue generalizing s buffered calls with
  | nil => exact h
  | cons next queue ih =>
    have hdropped : Hints limits heldUnder v { s with queue := queue } := by
      refine h.same ⟨rfl, rfl, rfl, ?_, rfl, fun _ => rfl⟩
      rw [hqueue]
      exact List.sublist_cons_self _ _
    unfold pumpLoop
    split
    · exact h.same ⟨rfl, rfl, rfl, List.nil_sublist _, rfl, fun _ => rfl⟩
    split
    · exact h.frame rfl rfl rfl rfl rfl
    dsimp only
    split
    · have hvalid : validateFipsRecord next.data limits.maxFrameBytes = .ok () := by
        refine h.valid next ?_
        rw [hqueue]
        exact List.mem_cons_self
      have hsent : Hints limits heldUnder v (SeedState.note { s with queue := queue } k (.record next.promise next.data)) :=
        hdropped.carry hk hheld hremote rfl hvalid (by rintro ⟨⟩)
      refine ih _ _ ?_ hk hremote rfl
      exact hsent.frame rfl rfl rfl rfl rfl
    · refine Hints.failSocket ?_
      exact hdropped.frame rfl rfl rfl rfl rfl

theorem remoteXOnly_of_isReady (h : s.isReady w = true) : s.remoteXOnly.isSome = true := by
  unfold isReady at h
  exact (Bool.and_eq_true_iff.1 h).2

theorem Hints.pump (h : Hints limits heldUnder v s) (hheld : ∀ k, s.socket = some k → heldUnder k v.localXOnly) :
    Hints limits heldUnder v (s.pump limits v w) := by
  unfold SeedState.pump
  split
  · exact h
  · rename_i k hk
    split
    · exact h
    · rename_i hpumps
      rw [Bool.or_eq_true, not_or, decide_eq_true_eq, Bool.not_eq_false] at hpumps
      exact pumpLoop_hints s.queue _ _ h hk (hheld k hk) (remoteXOnly_of_isReady hpumps.2) rfl

/-! ### Callers -/

theorem Hints.connect (h : Hints limits heldUnder v s) (hsound : Sound limits v s) :
    Hints limits heldUnder v (s.connect limits v w) := by
  unfold SeedState.connect
  split
  · exact h.frame rfl rfl rfl rfl rfl
  split
  · exact h.frame rfl rfl rfl rfl rfl
  dsimp only
  have hwaits : Hints limits heldUnder v { s with
      readyWaiters := s.readyWaiters ++ [s.promises.next], promises := s.promises.alloc ⟨none, []⟩ } :=
    h.frame rfl rfl rfl rfl rfl
  split
  · exact hwaits.dial hsound.idle
  · exact hwaits

theorem Hints.send (h : Hints limits heldUnder v s) (hheld : ∀ k, s.socket = some k → heldUnder k v.localXOnly)
    {packet : Bytes} : Hints limits heldUnder v (s.send limits v w packet) := by
  unfold SeedState.send
  split
  · exact h.frame rfl rfl rfl rfl rfl
  rename_i hvalid
  split
  · exact h.frame rfl rfl rfl rfl rfl
  split
  · exact h.frame rfl rfl rfl rfl rfl
  split
  · exact h.frame rfl rfl rfl rfl rfl
  dsimp only
  refine Hints.pump ?_ hheld
  refine ⟨fun e he => ?_, h.asked, h.silent, h.hinted, h.past⟩
  rcases List.mem_append.1 he with he | he
  · exact h.valid e he
  · rw [List.mem_singleton.1 he]
    exact hvalid

/-! ### Events of a socket -/

theorem history_setOpened (k k' : SocketRef) :
    ((s.sockets.modify k fun socket => { socket with opened := true }).get k').history = (s.sockets.get k').history := by
  rw [Heap.get_modify]
  split
  · rfl
  · rfl

/-- The nonce of a connection whose key is not known is sent. -/
theorem Hints.request (h : Hints limits heldUnder v s) {k : SocketRef} {request : Bytes} (hk : s.socket = some k)
    (hremote : s.remoteXOnly = none) (hrequest : encodeLocalKeyHintRequest nonce = .ok request) :
    Hints limits heldUnder v ({ s with nonce := some nonce }.note k (.hint request)) := by
  have hnoted : Hints limits heldUnder v (s.note k (.hint request)) := h.note rfl
  refine ⟨hnoted.valid, ?_, hnoted.silent, ?_, hnoted.past⟩
  · intro k' nonce' hk' hnonce
    have hk'' : s.socket = some k' := hk'
    rw [hk] at hk''
    cases hk''
    cases hnonce
    refine ⟨request, hrequest, ?_⟩
    rw [history_note, if_pos rfl]
    exact List.mem_append_right _ List.mem_cons_self
  · intro k' pubkey' _ hsome
    have hsome' : s.remoteXOnly = some pubkey' := hsome
    rw [hremote] at hsome'
    cases hsome'

/-- A socket that has not opened has not been sent a nonce. -/
theorem Hints.socketOpen (h : Hints limits heldUnder v s) {k : SocketRef}
    (hunasked : ∀ k, s.socket = some k → (s.sockets.get k).opened = false → s.remoteXOnly = none) :
    Hints limits heldUnder v (s.socketOpen limits v w k) := by
  unfold SeedState.socketOpen
  dsimp only
  split
  · exact h
  rename_i hopens
  rw [not_or, Bool.not_eq_true] at hopens
  have hopened : ∀ timers connectTimer counters, Hints limits heldUnder v { s with
      sockets := s.sockets.modify k fun socket => { socket with opened := true }
      timers := timers, connectTimer := connectTimer, counters := counters } := fun _ _ _ =>
    h.same ⟨rfl, rfl, rfl, List.Sublist.refl _, rfl, history_setOpened k⟩
  split
  · exact hopened s.timers s.connectTimer s.counters
  rename_i hcurrent
  rw [Bool.not_eq_false, isCurrent_eq_true] at hcurrent
  have hk : s.socket = some k := hcurrent.1
  have hgeneration : (s.sockets.get k).generation = s.generation := hcurrent.2.symm
  obtain ⟨timers, htimers⟩ := @clearTimeout_eq
    { s with sockets := s.sockets.modify k fun socket => { socket with opened := true } } s.connectTimer
  rw [htimers, hgeneration]
  have hended : ∀ timers connectTimer counters nonce error,
      Hints limits heldUnder v (SeedState.failSocket limits v { s with
      sockets := s.sockets.modify k fun socket => { socket with opened := true }
      timers := timers, connectTimer := connectTimer, counters := counters, nonce := nonce } s.generation error) := by
    intro timers connectTimer counters nonce error
    have hends := @ended_failSocket limits v { s with
      sockets := s.sockets.modify k fun socket => { socket with opened := true }
      timers := timers, connectTimer := connectTimer, counters := counters, nonce := nonce } error
    refine h.disconnected hends.socket ?_ hends.next fun k' => ?_
    · rw [hends.queue]
      exact List.nil_sublist _
    · exact (hends.sockets k').2.trans (history_setOpened k k')
  split
  · exact hopened _ _ _
  split
  · rename_i nonce' _ wire _ hwire
    have hasked := (hopened timers none { s.counters with connectionsOpened := s.counters.connectionsOpened + 1 }).request
      hk (hunasked k hk hopens.2) hwire
    exact hasked.frame rfl rfl rfl rfl rfl
  · exact hended _ _ _ _ _
  · exact hended _ _ _ _ _

theorem Hints.socketMessage (h : Hints limits heldUnder v s) {k : SocketRef} {data : MessageData} :
    Hints limits heldUnder v (s.socketMessage k data) := by
  unfold SeedState.socketMessage
  dsimp only
  split
  · exact h.frame rfl rfl rfl rfl rfl
  · exact h

/-! ### Records in -/

theorem Hints.setChain (h : Hints limits heldUnder v s) {chain : List ReceiveTurn} :
    Hints limits heldUnder v { s with receiveChain := chain } :=
  h.frame rfl rfl rfl rfl rfl

theorem Hints.receiveBegin (h : Hints limits heldUnder v s) : Hints limits heldUnder v s.receiveBegin := by
  unfold SeedState.receiveBegin
  split
  · exact h
  split
  · exact h
  split
  · exact h.setChain
  · exact h.setChain

/-- The answer to the nonce has been read. -/
theorem Hints.answered (h : Hints limits heldUnder v s) {k : SocketRef} {wire : Bytes} {earlier : List SocketEvent}
    (hk : s.socket = some k) (hnonce : s.nonce = some nonce) (hremote : s.remoteXOnly = none)
    (hwire : decodeLocalKeyHint wire = some (.response nonce pubkey)) (hlocal : v.localXOnly ≠ some pubkey)
    (hhistory : (s.sockets.get k).history = earlier ++ [.received wire]) (hsocket' : s'.socket = s.socket)
    (hnonce' : s'.nonce = s.nonce) (hremote' : s'.remoteXOnly = some pubkey) (hqueue' : s'.queue = s.queue)
    (hsockets' : s'.sockets = s.sockets) : Hints limits heldUnder v s' := by
  obtain ⟨request, hrequest, hmem⟩ := h.asked k nonce hk hnonce
  have hearlier : SocketEvent.hint request ∈ earlier := by
    rw [hhistory] at hmem
    rcases List.mem_append.1 hmem with hmem | hmem
    · exact hmem
    · cases List.mem_singleton.1 hmem
  have hhinted : Hinted nonce pubkey (s.sockets.get k).history := by
    refine ⟨request, wire, hrequest, hwire, ?_⟩
    rw [hhistory]
    exact (List.singleton_sublist.2 hearlier).append (List.Sublist.refl [SocketEvent.received wire])
  refine ⟨?_, ?_, ?_, ?_, ?_⟩
  · rw [hqueue']
    exact h.valid
  · rw [hsocket', hnonce', hsockets']
    exact h.asked
  · intro k' _ hnone
    rw [hremote'] at hnone
    cases hnone
  · intro k' pubkey' hk' hsome
    rw [hsocket', hk] at hk'
    cases hk'
    rw [hremote'] at hsome
    cases hsome
    rw [hnonce', hsockets']
    exact ⟨hlocal, nonce, hnonce, hhinted, gated_of_silent (h.silent k hk hremote)⟩
  · rw [hsockets']
    exact h.past

theorem Hints.receiveWire (h : Hints limits heldUnder v s) {k : SocketRef} {wire : Bytes} {earlier : List SocketEvent}
    (hk : s.socket = some k) (hheld : heldUnder k v.localXOnly)
    (hhistory : (s.sockets.get k).history = earlier ++ [.received wire]) :
    Hints limits heldUnder v (s.receiveWire limits v w k wire).1 := by
  have hreported : ∀ (s : SeedState) r, ∃ reports, s.report v r = { s with reports := reports } := fun s r => report_eq r
  unfold SeedState.receiveWire
  split
  · split
    · exact h
    split
    · exact h.note rfl
    · exact h
    · exact h
  · rename_i nonce' pubkey' hwire
    split
    · exact h
    rename_i hanswers
    rw [not_or, not_not, Bool.not_eq_true, Option.isSome_eq_false_iff, Option.isNone_iff_eq_none] at hanswers
    split
    · exact h
    rename_i hlocal
    split
    · exact h
    · obtain ⟨timers, htimers⟩ := @clearTimeout_eq s s.keyHintTimer
      dsimp only
      rw [htimers]
      obtain ⟨reports, hreports⟩ := hreported _ _
      rw [hreports]
      obtain ⟨reports', hreports'⟩ := hreported _ _
      rw [hreports']
      refine Hints.pump ?_ fun k' hk' => ?_
      · exact h.answered hk hanswers.1.symm hanswers.2 hwire hlocal hhistory rfl rfl rfl rfl rfl
      · have hsame : s.socket = some k' := hk'
        rw [hk] at hsame
        cases hsame
        exact hheld
  · split
    · exact h
    rename_i hremote
    rw [Bool.not_eq_true, Option.isNone_eq_false_iff] at hremote
    split
    · exact h.frame rfl rfl rfl rfl rfl
    · rename_i hvalid
      obtain ⟨reports, hreports⟩ := hreported ((s.count fun c =>
        { c with framesReceived := c.framesReceived + 1, bytesReceived := c.bytesReceived + wire.length }).note k
          (.delivered wire)) (.packet wire)
      dsimp only
      rw [hreports]
      have hdelivered : Hints limits heldUnder v (s.note k (.delivered wire)) :=
        h.carry hk hheld hremote rfl hvalid fun _ => ⟨earlier, hhistory⟩
      exact hdelivered.frame rfl rfl rfl rfl rfl

theorem Hints.receiveDecoded (h : Hints limits heldUnder v s) (hheld : ∀ k, s.socket = some k → heldUnder k v.localXOnly)
    {readable : Bool} :
    Hints limits heldUnder v (s.receiveDecoded limits v w readable) := by
  unfold SeedState.receiveDecoded
  split
  · exact h
  split
  · exact h
  split
  · exact h.setChain
  split
  · exact h.setChain
  rename_i _ turn turns _ _ _ wire _ hcurrent
  rw [Bool.not_eq_false, isCurrent_eq_true] at hcurrent
  have hnoted : Hints limits heldUnder v (s.note turn.socket (.received wire)) := h.note rfl
  have hhistory : ((s.note turn.socket (.received wire)).sockets.get turn.socket).history =
      (s.sockets.get turn.socket).history ++ [.received wire] := by
    rw [history_note, if_pos rfl]
  have hwire : Hints limits heldUnder v ((s.note turn.socket (.received wire)).receiveWire limits v w turn.socket wire).1 :=
    hnoted.receiveWire hcurrent.1 (hheld _ hcurrent.1) hhistory
  split
  · rename_i s₁ heq
    rw [heq] at hwire
    exact hwire.setChain
  · rename_i s₁ error heq
    rw [heq] at hwire
    exact hwire.setChain

theorem Hints.receiveCaught (h : Hints limits heldUnder v s) : Hints limits heldUnder v (s.receiveCaught limits v) := by
  unfold SeedState.receiveCaught
  split
  · exact h.setChain.failSocket
  · exact h

/-! ### Timers -/

theorem Hints.timeout (h : Hints limits heldUnder v s) (hheld : ∀ k, s.socket = some k → heldUnder k v.localXOnly)
    (hsound : Sound limits v s) {t : TimerRef} :
    Hints limits heldUnder v (s.timeout limits v w t) := by
  have htimers : ∀ timers, Hints limits heldUnder v { s with timers := timers } := fun _ => h.frame rfl rfl rfl rfl rfl
  unfold SeedState.timeout
  split
  · exact h
  rename_i timer _
  cases timer with
  | connect generation => exact (htimers _).failSocket
  | keyHint generation => exact (htimers _).failSocket
  | send =>
    refine Hints.pump ?_ hheld
    exact h.frame rfl rfl rfl rfl rfl
  | reconnect =>
    refine Hints.dial ?_ hsound.idle
    exact h.frame rfl rfl rfl rfl rfl

theorem Hints.act (h : Hints limits heldUnder v s) (hheld : ∀ k, s.socket = some k → heldUnder k v.localXOnly)
    (hsound : Sound limits v s) (hclocked : Clocked s) (a : Action) :
    Hints limits heldUnder v (s.act limits v w a) := by
  cases a with
  | connect => exact h.connect hsound
  | send packet => exact h.send hheld
  | socketOpen k =>
    refine h.socketOpen fun k' hk' hunopened => ?_
    rw [Option.eq_none_iff_forall_ne_some]
    intro pubkey hpubkey
    obtain ⟨-, nonce, hnonce, -⟩ := h.hinted k' pubkey hk' hpubkey
    rw [(hclocked.unopened k' hk' hunopened).2.2] at hnonce
    cases hnonce
  | socketMessage k data => exact h.socketMessage
  | socketError k =>
    show Hints limits heldUnder v (s.socketError limits v k)
    unfold SeedState.socketError
    dsimp only
    split
    · exact h.failSocket
    · exact h
  | socketClose k reason =>
    show Hints limits heldUnder v (s.socketClose limits v k reason)
    unfold SeedState.socketClose
    dsimp only
    split
    · exact h.connectionEnded
    · exact h
  | receiveBegin => exact h.receiveBegin
  | receiveDecoded readable => exact h.receiveDecoded hheld
  | receiveCaught => exact h.receiveCaught
  | timeout t => exact h.timeout hheld hsound

theorem Hints.stop (h : Hints limits heldUnder v s) {v' : TransportView} : Hints limits heldUnder v' s.stop := by
  obtain ⟨timers, htimers⟩ := @clearConnectionTimers_eq s
  obtain ⟨timers', htimers'⟩ := @clearTimeout_eq
    { s with timers := timers, connectTimer := none, keyHintTimer := none, sendTimer := none } s.reconnectTimer
  unfold SeedState.stop clearTimers
  dsimp only
  rw [htimers]
  rw [htimers']
  obtain ⟨sockets, heq, hnext, hsockets⟩ := closeSocket_eq (s := SeedState.rejectQueue _ _) _
  rw [heq]
  exact h.disconnected rfl (List.nil_sublist _) hnext fun k => (hsockets k).2

end SeedState

/-! ## Runs -/

namespace WebSocketTransport
open SeedState

variable {limits : WebSocketLimits} {urls : List SeedUrl} {s : WebSocketTransport}

/-- While the transport is stopped its identity may change. -/
theorem hints_stopped {heldUnder : SocketRef → Option Bytes → Prop} {v v' : TransportView} {s : SeedState}
    (h : Hints limits heldUnder v s) (hsocket : s.socket = none) :
    Hints limits heldUnder v' s := h.disconnected hsocket (List.Sublist.refl _) rfl fun _ => rfl

theorem hints_step {e : (SeedUrl → SeedSurroundings) × Action} {heldUnder : SeedUrl → SocketRef → Option Bytes → Prop}
    (hheld : ∀ url k, (s.seeds url).socket = some k → heldUnder url k s.view.localXOnly)
    (hsound : SeedsSound limits urls s) (hclocked : ∀ url, Clocked (s.seeds url))
    (h : ∀ url, Hints limits (heldUnder url) s.view (s.seeds url)) (url : SeedUrl) :
    Hints limits (heldUnder url) (s.step limits urls e).view ((s.step limits urls e).seeds url) := by
  obtain ⟨w, action⟩ := e
  cases action with
  | start localXOnly =>
    show Hints limits (heldUnder url) (s.start limits urls w localXOnly).view ((s.start limits urls w localXOnly).seeds url)
    unfold start
    split
    · exact h url
    rename_i hstopping
    rw [Bool.not_eq_false] at hstopping
    have hstarts : Hints limits (heldUnder url) ⟨some localXOnly, false⟩ (s.seeds url) :=
      hints_stopped (h url) ((hsound.sound url).stopped hstopping).1
    dsimp only
    split
    · exact hstarts.dial (hsound.sound url).idle
    · exact hstarts
  | stop =>
    show Hints limits (heldUnder url) (s.stop urls).view ((s.stop urls).seeds url)
    unfold WebSocketTransport.stop
    split
    · exact h url
    dsimp only
    split
    · exact (h url).stop
    · rename_i hurl
      rw [hsound.unconfigured url hurl]
      exact hints_new
  | seed url' a =>
    have hact := (h url').act (hheld url') (hsound.sound url') (hclocked url') (w := w url') a
    have hstays : ∀ s' : WebSocketTransport, s'.view = s.view →
        s'.seeds url = (if url = url' then SeedState.act limits s.view (w url') (s.seeds url') a else s.seeds url) →
        Hints limits (heldUnder url) s'.view (s'.seeds url) := by
      intro s' hview hseeds
      rw [hview, hseeds]
      split
      · rename_i heq
        rw [heq]
        exact hact
      · exact h url
    show Hints limits (heldUnder url) (if url' ∈ urls then { s with
      seeds := fun url => if url = url' then SeedState.act limits s.view (w url') (s.seeds url') a else s.seeds url }
      else s).view ((if url' ∈ urls then { s with
      seeds := fun url => if url = url' then SeedState.act limits s.view (w url') (s.seeds url') a else s.seeds url }
      else s).seeds url)
    split
    · exact hstays _ rfl rfl
    · exact h url

/-- At some moment of the run the connection is held, and `localXOnly` is the local identity. -/
def HeldIn (limits : WebSocketLimits) (urls : List SeedUrl) (es : List ((SeedUrl → SeedSurroundings) × Action))
    (url : SeedUrl) (k : SocketRef) (localXOnly : Option Bytes) : Prop :=
  ∃ es₁ es₂, es = es₁ ++ es₂ ∧ ((Run.run (step limits urls) (new limits) es₁).seeds url).socket = some k ∧
    (Run.run (step limits urls) (new limits) es₁).view.localXOnly = localXOnly

theorem HeldIn.append {es : List ((SeedUrl → SeedSurroundings) × Action)} {url : SeedUrl} {k : SocketRef}
    {localXOnly : Option Bytes} (h : HeldIn limits urls es url k localXOnly)
    (more : List ((SeedUrl → SeedSurroundings) × Action)) : HeldIn limits urls (es ++ more) url k localXOnly := by
  obtain ⟨es₁, es₂, rfl, hheld⟩ := h
  exact ⟨es₁, es₂ ++ more, List.append_assoc _ _ _, hheld⟩

theorem hints_run (es : List ((SeedUrl → SeedSurroundings) × Action)) (url : SeedUrl) :
    Hints limits (HeldIn limits urls es url) (Run.run (step limits urls) (new limits) es).view
      ((Run.run (step limits urls) (new limits) es).seeds url) := by
  induction es using List.reverseRecOn generalizing url with
  | nil => exact hints_new
  | append_singleton es e ih =>
    have hheld (url : SeedUrl) (k : SocketRef)
        (hk : ((Run.run (step limits urls) (new limits) es).seeds url).socket = some k) :
        HeldIn limits urls (es ++ [e]) url k (Run.run (step limits urls) (new limits) es).view.localXOnly :=
      ⟨es, [e], rfl, hk, rfl⟩
    rw [Run.run_append]
    exact hints_step hheld (seedsSound_run es) (clocked_run es)
      (fun url => (ih url).mono fun k localXOnly h => h.append [e]) url

/-- The history of every connection in every run. Each record that is sent or delivered comes after the answer that the
seed gave to the nonce sent on this connection, which names the one key of the connection and not the local identity at a
time when it was held; while it has none no record is carried. -/
theorem records_gated (limits : WebSocketLimits) (urls : List SeedUrl)
    (es : List ((SeedUrl → SeedSurroundings) × Action)) (url : SeedUrl) :
    let t := Run.run (step limits urls) (new limits) es
    let s := t.seeds url
    (∀ k < s.sockets.next, (∀ e ∈ (s.sockets.get k).history, SocketEvent.carried e = none) ∨
      ∃ nonce pubkey localXOnly, HeldIn limits urls es url k localXOnly ∧ localXOnly ≠ some pubkey ∧
        Gated limits nonce pubkey (s.sockets.get k).history) ∧
    (∀ k pubkey, s.socket = some k → s.remoteXOnly = some pubkey → t.view.localXOnly ≠ some pubkey ∧
      ∃ nonce, s.nonce = some nonce ∧ Hinted nonce pubkey (s.sockets.get k).history ∧
        Gated limits nonce pubkey (s.sockets.get k).history) ∧
    (∀ k, s.socket = some k → s.remoteXOnly = none →
      ∀ e ∈ (s.sockets.get k).history, SocketEvent.carried e = none) := by
  intro t s
  have h : Hints limits (HeldIn limits urls es url) t.view s := hints_run es url
  exact ⟨h.past, h.hinted, h.silent⟩

end WebSocketTransport

end Fips
