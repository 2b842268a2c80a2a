import Fips.Lib.Run
import Fips.Node.LearnedRoutes

/-!
# Runs of the learned route table

Every call changes the routes of one destination, and each route it leaves was there before, reinforced or failed or only
weighed, or is the one that has just been heard of. Hence the lists stay short, the next hops distinct and the scores within
their bounds. Sorting goes by score, then by age, then by the next hop; whether a route has expired does not matter to it.
-/

namespace Fips
namespace LearnedRouteTable

/-! ### The order of the routes -/

/-- `a` is sorted before `b`. -/
def Outranks (a b : LearnedRoute) : Prop :=
  b.score < a.score ∨ a.score = b.score ∧
    (b.lastSeenMs < a.lastSeenMs ∨ a.lastSeenMs = b.lastSeenMs ∧ a.nextHop < b.nextHop)

instance (a b : LearnedRoute) : Decidable (Outranks a b) := by unfold Outranks; infer_instance

theorem compareOfLessAndEq_lt {α : Type} [LT α] [DecidableLT α] [DecidableEq α] {a b : α} :
    compareOfLessAndEq a b = .lt ↔ a < b := by
  unfold compareOfLessAndEq
  by_cases hlt : a < b
  · simp [hlt]
  · rw [if_neg hlt]
    split <;> simp [hlt]

theorem compareRoutes_lt {a b : LearnedRoute} : compareRoutes a b = .lt ↔ Outranks a b := by
  unfold compareRoutes Outranks
  by_cases hscore : a.score = b.score
  · rw [if_neg (not_not.2 hscore)]
    by_cases hseen : a.lastSeenMs = b.lastSeenMs
    · rw [if_neg (not_not.2 hseen), compareOfLessAndEq_lt]
      simp [hscore, hseen]
    · rw [if_pos hseen, compareOfLessAndEq_lt]
      simp [hscore, hseen]
  · rw [if_pos hscore, compareOfLessAndEq_lt]
    simp [hscore]

theorem compareOfLessAndEq_swap {α : Type} [LT α] [DecidableLT α] [DecidableEq α] {a b : α}
    (hasymm : a < b → ¬b < a) (htotal : a ≠ b → ¬a < b → b < a) (hirrefl : ¬a < a) :
    compareOfLessAndEq a b = .gt ↔ b < a := by
  unfold compareOfLessAndEq
  split
  · rename_i h
    simp [hasymm h]
  · rename_i h
    split
    · rename_i heq
      subst heq
      simp [hirrefl]
    · rename_i hne
      simp [htotal hne h]

namespace Outranks
variable {a b c : LearnedRoute}

theorem irrefl : ¬Outranks a a := by
  rintro (h | ⟨-, h | ⟨-, h⟩⟩)
  · exact lt_irrefl _ h
  · exact lt_irrefl _ h
  · exact List.lt_irrefl _ h

theorem trans (hab : Outranks a b) (hbc : Outranks b c) : Outranks a c := by
  rcases hab with hab | ⟨hab, hab'⟩
  · rcases hbc with hbc | ⟨hbc, -⟩
    · exact .inl (hbc.trans hab)
    · exact .inl (hbc ▸ hab)
  · rcases hbc with hbc | ⟨hbc, hbc'⟩
    · exact .inl (hab ▸ hbc)
    · refine .inr ⟨hab.trans hbc, ?_⟩
      rcases hab' with hab' | ⟨hab', hk⟩
      · rcases hbc' with hbc' | ⟨hbc', -⟩
        · exact .inl (hbc'.trans hab')
        · exact .inl (hbc' ▸ hab')
      · rcases hbc' with hbc' | ⟨hbc', hk'⟩
        · exact .inl (hab' ▸ hbc')
        · exact .inr ⟨hab'.trans hbc', List.lt_trans hk hk'⟩

theorem trichotomy (a b : LearnedRoute) : Outranks a b ∨
    (a.score = b.score ∧ a.lastSeenMs = b.lastSeenMs ∧ a.nextHop = b.nextHop) ∨ Outranks b a := by
  rcases lt_trichotomy a.score b.score with h | h | h
  · exact .inr (.inr (.inl h))
  · rcases lt_trichotomy a.lastSeenMs b.lastSeenMs with hl | hl | hl
    · exact .inr (.inr (.inr ⟨h.symm, .inl hl⟩))
    · rcases Std.lt_trichotomy a.nextHop b.nextHop with hk | hk | hk
      · exact .inl (.inr ⟨h, .inr ⟨hl, hk⟩⟩)
      · exact .inr (.inl ⟨h, hl, hk⟩)
      · exact .inr (.inr (.inr ⟨h.symm, .inr ⟨hl.symm, hk⟩⟩))
    · exact .inl (.inr ⟨h, .inl hl⟩)
  · exact .inl (.inl h)

theorem not_trans (hba : ¬Outranks b a) (hcb : ¬Outranks c b) : ¬Outranks c a := by
  intro hca
  rcases trichotomy a b with hab | ⟨hscore, hseen, hhop⟩ | h
  · exact hcb (hca.trans hab)
  · unfold Outranks at hca hcb
    rw [hscore, hseen, hhop] at hca
    exact hcb hca
  · exact hba h

end Outranks

theorem compareRoutes_gt {a b : LearnedRoute} : compareRoutes a b = .gt ↔ Outranks b a := by
  unfold compareRoutes Outranks
  by_cases hscore : a.score = b.score
  · rw [if_neg (not_not.2 hscore)]
    by_cases hseen : a.lastSeenMs = b.lastSeenMs
    · rw [if_neg (not_not.2 hseen), compareOfLessAndEq_swap List.lt_asymm (fun hne h => ?_) (List.lt_irrefl _)]
      · simp [hscore, hseen]
      · rcases Std.lt_trichotomy a.nextHop b.nextHop with hk | hk | hk
        · exact absurd hk h
        · exact absurd hk hne
        · exact hk
    · rw [if_pos hseen, compareOfLessAndEq_swap lt_asymm (fun hne h => lt_of_le_of_ne (not_lt.1 h) hne.symm) (lt_irrefl _)]
      simp [hscore, hseen, eq_comm]
  · rw [if_pos hscore, compareOfLessAndEq_swap lt_asymm (fun hne h => lt_of_le_of_ne (not_lt.1 h) hne.symm) (lt_irrefl _)]
    simp [hscore, eq_comm]

section
variable {routes : List LearnedRoute} {route : LearnedRoute} {maximum : Nat}

/-- The routes in their order. -/
def sorted (routes : List LearnedRoute) : List LearnedRoute := routes.mergeSort fun a b => compareRoutes a b ≠ .gt

theorem perm_sorted : (sorted routes).Perm routes := List.mergeSort_perm _ _

theorem sorted_pairwise : (sorted routes).Pairwise fun a b => ¬Outranks b a := by
  have hpairwise : (sorted routes).Pairwise fun a b => decide (compareRoutes a b ≠ .gt) = true := by
    apply List.pairwise_mergeSort
    · intro a b c hab hbc
      simp only [decide_eq_true_eq, ne_eq, compareRoutes_gt] at hab hbc ⊢
      exact Outranks.not_trans hab hbc
    · intro a b
      simp only [Bool.or_eq_true, decide_eq_true_eq, ne_eq, compareRoutes_gt]
      by_contra hcontra
      obtain ⟨hba, hab⟩ := not_or.1 hcontra
      exact Outranks.irrefl ((not_not.1 hba).trans (not_not.1 hab))
  refine hpairwise.imp fun hab => ?_
  simpa only [decide_eq_true_eq, ne_eq, compareRoutes_gt] using hab

/-- The routes before a route are those that outrank it. -/
theorem sorted_split (hnodup : (routes.map LearnedRoute.nextHop).Nodup) (hroute : route ∈ routes) :
    ∃ before after, sorted routes = before ++ route :: after ∧ (∀ a ∈ before, Outranks a route) ∧
      before.length = (routes.filter fun a => decide (Outranks a route)).length ∧ route ∉ before := by
  obtain ⟨before, after, hsplit⟩ := List.append_of_mem (perm_sorted.mem_iff.2 hroute)
  have hpairwise := @sorted_pairwise routes
  have hhops : ((sorted routes).map LearnedRoute.nextHop).Nodup := ((perm_sorted.map _).nodup_iff).2 hnodup
  rw [hsplit] at hpairwise hhops
  obtain ⟨-, hright, hcross⟩ := List.pairwise_append.1 hpairwise
  rw [List.map_append, List.map_cons] at hhops
  obtain ⟨-, -, hdisjoint⟩ := List.nodup_append.1 hhops
  have hbefore : ∀ a ∈ before, Outranks a route := by
    intro a ha
    have hne := hdisjoint a.nextHop (List.mem_map_of_mem ha) route.nextHop List.mem_cons_self
    rcases Outranks.trichotomy a route with h | ⟨-, -, h⟩ | h
    · exact h
    · exact absurd h hne
    · exact absurd h (hcross a ha route List.mem_cons_self)
  refine ⟨before, after, hsplit, hbefore, ?_, fun hmem => ?_⟩
  · have hleft : before.filter (fun a => decide (Outranks a route)) = before :=
      List.filter_eq_self.2 fun a ha => decide_eq_true (hbefore a ha)
    have hafter : after.filter (fun a => decide (Outranks a route)) = [] :=
      List.filter_eq_nil_iff.2 fun a ha => by simpa using (List.pairwise_cons.1 hright).1 a ha
    rw [← (perm_sorted.filter _).length_eq, hsplit, List.filter_append, hleft,
      List.filter_cons_of_neg (by simpa using Outranks.irrefl), hafter, List.append_nil]
  · exact hdisjoint _ (List.mem_map_of_mem hmem) _ List.mem_cons_self rfl

/-- A route is kept if fewer than `maximum` others outrank it. -/
theorem mem_sortAndTruncate (hnodup : (routes.map LearnedRoute.nextHop).Nodup) (hroute : route ∈ routes) :
    route ∈ sortAndTruncate routes maximum ↔ (routes.filter fun a => decide (Outranks a route)).length < maximum := by
  obtain ⟨before, after, hsplit, -, hcount, hnot⟩ := sorted_split hnodup hroute
  rw [← hcount, show sortAndTruncate routes maximum = (sorted routes).take maximum from rfl, hsplit]
  constructor
  · intro hmem
    by_contra hlong
    rw [List.take_append_of_le_length (not_lt.1 hlong)] at hmem
    exact hnot (List.mem_of_mem_take hmem)
  · intro hshort
    rw [List.take_append, List.take_of_length_le hshort.le]
    obtain ⟨n, hn⟩ : ∃ n, maximum - before.length = n + 1 := ⟨maximum - before.length - 1, by omega⟩
    rw [hn, List.take_succ_cons]
    exact List.mem_append_right _ List.mem_cons_self

/-- What is kept instead of a route outranks it. -/
theorem outranks_of_truncated {other : LearnedRoute} (hnodup : (routes.map LearnedRoute.nextHop).Nodup)
    (hroute : route ∈ routes) (hnot : route ∉ sortAndTruncate routes maximum) (hother : other ∈ sortAndTruncate routes maximum) :
    Outranks other route := by
  obtain ⟨before, after, hsplit, hbefore, hcount, -⟩ := sorted_split hnodup hroute
  have hlong : maximum ≤ before.length := by
    rw [hcount]
    exact not_lt.1 fun h => hnot ((mem_sortAndTruncate hnodup hroute).2 h)
  rw [show sortAndTruncate routes maximum = (sorted routes).take maximum from rfl, hsplit,
    List.take_append_of_le_length hlong] at hother
  exact hbefore other (List.mem_of_mem_take hother)

theorem mem_of_mem_sortAndTruncate (h : route ∈ sortAndTruncate routes maximum) : route ∈ routes :=
  perm_sorted.mem_iff.1 (List.mem_of_mem_take h)

theorem sortAndTruncate_length : sortAndTruncate routes routes.length = sorted routes := by
  refine List.take_of_length_le (le_of_eq ?_)
  exact (@perm_sorted routes).length_eq

end

/-! ### A selection -/

/-- What a selection changes about a route. -/
def Weighed (old new : LearnedRoute) : Prop := ∃ w s, new = { old with currentWeight := w, selected := s }

/-- A route that can be sent on has its weight added. -/
def charge (pow15 : ℚ → ℚ) (canSend : NodeAddr → Bool) (route : LearnedRoute) : LearnedRoute :=
  if canSend route.nextHop then { route with currentWeight := route.currentWeight + routeWeight pow15 route } else route

/-- The round robin does not prefer `b` to `a`. -/
def Ahead (a b : LearnedRoute) : Prop :=
  b.currentWeight < a.currentWeight ∨ a.currentWeight = b.currentWeight ∧ ¬Outranks b a

/-- The route at `sel` is ahead of all that can be sent on. -/
def Best (canSend : NodeAddr → Bool) (routes : List LearnedRoute) (sel : Nat) : Prop :=
  ∃ r, routes[sel]? = some r ∧ canSend r.nextHop = true ∧ ∀ q ∈ routes, canSend q.nextHop = true → Ahead r q

/-- The weights of the routes that can be sent on. -/
def totalWeight (pow15 : ℚ → ℚ) (canSend : NodeAddr → Bool) (routes : List LearnedRoute) : ℚ :=
  ((routes.filter fun route => canSend route.nextHop).map (routeWeight pow15)).sum

/-- The candidates among the routes at `n` and behind it. -/
def sendableFrom (pow15 : ℚ → ℚ) (canSend : NodeAddr → Bool) (n : Nat) (routes : List LearnedRoute) : List (Nat × ℚ) :=
  ((routes.zipIdx n).filter fun e => canSend e.1.nextHop).map fun e => (e.2, routeWeight pow15 e.1)

section
variable {pow15 : ℚ → ℚ} {canSend : NodeAddr → Bool} {routes todo : List LearnedRoute} {a b c route : LearnedRoute}
  {n sel : Nat}

theorem Ahead.refl : Ahead a a := .inr ⟨rfl, Outranks.irrefl⟩

theorem Ahead.trans (hab : Ahead a b) (hbc : Ahead b c) : Ahead a c := by
  rcases hab with hab | ⟨hab, hab'⟩
  · rcases hbc with hbc | ⟨hbc, -⟩
    · exact .inl (hbc.trans hab)
    · exact .inl (hbc ▸ hab)
  · rcases hbc with hbc | ⟨hbc, hbc'⟩
    · exact .inl (hab ▸ hbc)
    · exact .inr ⟨hab.trans hbc, Outranks.not_trans hab' hbc'⟩

/-- The comparison of `selectNextHop`. -/
theorem ahead_of_switch (h : a.currentWeight > b.currentWeight ∨ (a.currentWeight = b.currentWeight ∧ compareRoutes a b = .lt)) :
    Ahead a b := by
  rcases h with h | ⟨h, hlt⟩
  · exact .inl h
  · exact .inr ⟨h, fun hba => Outranks.irrefl ((compareRoutes_lt.1 hlt).trans hba)⟩

theorem ahead_of_not_switch
    (h : ¬(a.currentWeight > b.currentWeight ∨ (a.currentWeight = b.currentWeight ∧ compareRoutes a b = .lt))) :
    Ahead b a := by
  rcases lt_trichotomy a.currentWeight b.currentWeight with hlt | heq | hgt
  · exact .inl hlt
  · exact .inr ⟨heq.symm, fun hab => h (.inr ⟨heq, compareRoutes_lt.2 hab⟩)⟩
  · exact absurd (.inl hgt) h

theorem Best.append (h : Best canSend routes sel) (hb : canSend b.nextHop = true → ∀ r, routes[sel]? = some r → Ahead r b) :
    Best canSend (routes ++ [b]) sel := by
  obtain ⟨r, hr, hsend, hall⟩ := h
  have hlt : sel < routes.length := (List.getElem?_eq_some_iff.1 hr).1
  refine ⟨r, by rw [List.getElem?_append_left hlt, hr], hsend, fun q hq hqsend => ?_⟩
  rcases List.mem_append.1 hq with hq | hq
  · exact hall q hq hqsend
  · rw [List.mem_singleton.1 hq] at hqsend ⊢
    exact hb hqsend r hr

theorem sendableFrom_cons : sendableFrom pow15 canSend n (a :: todo) =
    if canSend a.nextHop then (n, routeWeight pow15 a) :: sendableFrom pow15 canSend (n + 1) todo
    else sendableFrom pow15 canSend (n + 1) todo := by
  unfold sendableFrom
  rw [List.zipIdx_cons, List.filter_cons]
  split <;> rfl

/-- One candidate: it is charged, and selected if it is now ahead. -/
theorem candidateRound_eq {r : LearnedRoute} (h : ((routes ++ [charge pow15 canSend a]) ++ todo)[sel]? = some r)
    (hsend : canSend a.nextHop = true) :
    candidateRound (routes ++ a :: todo, sel) (routes.length, routeWeight pow15 a) =
      ((routes ++ [charge pow15 canSend a]) ++ todo,
        if (charge pow15 canSend a).currentWeight > r.currentWeight ∨
          ((charge pow15 canSend a).currentWeight = r.currentWeight ∧ compareRoutes (charge pow15 canSend a) r = .lt) then
          routes.length else sel) := by
  have hmodify : (routes ++ a :: todo).modify routes.length
      (fun route => { route with currentWeight := route.currentWeight + routeWeight pow15 a }) =
        (routes ++ [charge pow15 canSend a]) ++ todo := by
    rw [List.modify_eq_take_cons_drop (by simp)]
    simp [charge, hsend]
  have hget : ((routes ++ [charge pow15 canSend a]) ++ todo)[routes.length]? = some (charge pow15 canSend a) := by
    rw [List.append_assoc, List.getElem?_append_right le_rfl, Nat.sub_self]
    rfl
  unfold candidateRound
  dsimp only
  rw [hmodify, h, hget]
  dsimp only
  split <;> rfl

/-- The loop of `selectNextHop` over the routes behind those that it has charged: in the end the selected route is ahead. -/
theorem rounds_spec (h : Best canSend routes sel ∨
    ((∀ q ∈ routes, canSend q.nextHop = false) ∧ ((sendableFrom pow15 canSend routes.length todo).head?.map Prod.fst) = some sel)) :
    ∃ sel', (sendableFrom pow15 canSend routes.length todo).foldl candidateRound (routes ++ todo, sel) =
        (routes ++ todo.map (charge pow15 canSend), sel') ∧
      Best canSend (routes ++ todo.map (charge pow15 canSend)) sel' := by
  induction todo generalizing routes sel with
  | nil =>
    rcases h with h | ⟨-, h⟩
    · rw [List.map_nil, List.append_nil]
      exact ⟨sel, rfl, h⟩
    · cases h
  | cons a todo ih =>
    have hlength : (routes ++ [charge pow15 canSend a]).length = routes.length + 1 := by simp
    have hassoc : routes ++ (a :: todo).map (charge pow15 canSend) =
        (routes ++ [charge pow15 canSend a]) ++ todo.map (charge pow15 canSend) := by simp
    rw [hassoc]
    by_cases hsend : canSend a.nextHop = true
    · have hcharged : canSend (charge pow15 canSend a).nextHop = true := by
        rw [charge, if_pos hsend]
        exact hsend
      rw [sendableFrom_cons, if_pos hsend] at h ⊢
      rw [List.foldl_cons]
      rcases h with h | ⟨hnone, hsel⟩
      · -- a route has been selected already
        obtain ⟨r, hr, hrsend, hall⟩ := h
        have hlt : sel < routes.length := (List.getElem?_eq_some_iff.1 hr).1
        have hr' : ((routes ++ [charge pow15 canSend a]) ++ todo)[sel]? = some r := by
          rw [List.append_assoc, List.getElem?_append_left hlt, hr]
        rw [candidateRound_eq hr' hsend, ← hlength]
        refine ih (.inl ?_)
        split
        · rename_i hswitch
          have hahead := ahead_of_switch hswitch
          refine ⟨_, List.getElem?_concat_length, hcharged, fun q hq hqsend => ?_⟩
          rcases List.mem_append.1 hq with hq | hq
          · exact hahead.trans (hall q hq hqsend)
          · rw [List.mem_singleton.1 hq]
            exact .refl
        · rename_i hswitch
          refine Best.append ⟨r, hr, hrsend, hall⟩ fun _ r' hr'' => ?_
          cases hr.symm.trans hr''
          exact ahead_of_not_switch hswitch
      · -- the first candidate is compared with itself
        have hsel : routes.length = sel := Option.some.inj hsel
        have hr' : ((routes ++ [charge pow15 canSend a]) ++ todo)[sel]? = some (charge pow15 canSend a) := by
          rw [← hsel, List.append_assoc, List.getElem?_append_right le_rfl, Nat.sub_self]
          rfl
        rw [candidateRound_eq hr' hsend, ← hlength]
        refine ih (.inl ?_)
        rw [hsel, ite_self, ← hsel]
        refine ⟨_, List.getElem?_concat_length, hcharged, fun q hq hqsend => ?_⟩
        rcases List.mem_append.1 hq with hq | hq
        · rw [hnone q hq] at hqsend
          cases hqsend
        · rw [List.mem_singleton.1 hq]
          exact .refl
    · have huncharged : charge pow15 canSend a = a := if_neg hsend
      rw [sendableFrom_cons, if_neg hsend] at h ⊢
      rw [huncharged] at hlength ⊢
      have hcons : routes ++ a :: todo = (routes ++ [a]) ++ todo := by simp
      rw [← hlength] at h ⊢
      rw [hcons]
      refine ih ?_
      rcases h with h | ⟨hnone, hsel⟩
      · exact .inl (h.append fun hasend => absurd hasend hsend)
      · refine .inr ⟨fun q hq => ?_, hsel⟩
        rcases List.mem_append.1 hq with hq | hq
        · exact hnone q hq
        · rw [List.mem_singleton.1 hq]
          exact Bool.not_eq_true _ ▸ hsend

theorem charge_nextHop : (charge pow15 canSend route).nextHop = route.nextHop := by
  unfold charge
  split <;> rfl

theorem charge_weighed : Weighed route (charge pow15 canSend route) := by
  unfold charge
  split
  · exact ⟨_, _, rfl⟩
  · exact ⟨_, _, rfl⟩

theorem map_snd_sendableFrom : (sendableFrom pow15 canSend n routes).map Prod.snd =
    (routes.filter fun route => canSend route.nextHop).map (routeWeight pow15) := by
  induction routes generalizing n with
  | nil => rfl
  | cons a routes ih =>
    rw [sendableFrom_cons, List.filter_cons]
    split
    · rw [List.map_cons, List.map_cons, ih]
    · exact ih

theorem sendable_eq_nil : sendable pow15 canSend routes = [] ↔ ∀ route ∈ routes, canSend route.nextHop = false := by
  have hmap : (sendable pow15 canSend routes).map Prod.snd =
      (routes.filter fun route => canSend route.nextHop).map (routeWeight pow15) := @map_snd_sendableFrom pow15 canSend routes 0
  rw [← List.map_eq_nil_iff (f := Prod.snd), hmap, List.map_eq_nil_iff, List.filter_eq_nil_iff]
  simp only [Bool.not_eq_true]

end

/-- The stored routes of a destination. -/
def list (d : NodeAddr) (t : LearnedRouteTable) : List LearnedRoute := (t.routes.get d).getD []

/-- The routes that have not expired, with the weights of those that can be sent on added. -/
def charged (pow15 : ℚ → ℚ) (d : NodeAddr) (nowMs : ℚ) (canSend : NodeAddr → Bool) (t : LearnedRouteTable) :
    List LearnedRoute :=
  (retainLive (t.list d) nowMs).map (charge pow15 canSend)

/-- `r` is selected: of the charged routes that can be sent on it is ahead, and it pays. -/
structure Selects (pow15 : ℚ → ℚ) (d : NodeAddr) (nowMs : ℚ) (canSend : NodeAddr → Bool) (t : LearnedRouteTable) (sel : Nat)
    (r : LearnedRoute) : Prop where
  selected : (t.charged pow15 d nowMs canSend)[sel]? = some r
  sends : canSend r.nextHop = true
  ahead : ∀ q ∈ t.charged pow15 d nowMs canSend, canSend q.nextHop = true → Ahead r q
  result : t.selectNextHop pow15 d nowMs canSend = (some r.nextHop, ⟨t.routes.set d (sorted
    ((t.charged pow15 d nowMs canSend).modify sel (pay (totalWeight pow15 canSend (retainLive (t.list d) nowMs)))))⟩)

section
variable {pow15 : ℚ → ℚ} {canSend : NodeAddr → Bool} {t : LearnedRouteTable} {d nextHop : NodeAddr} {nowMs : ℚ}
  {route : LearnedRoute}

theorem exists_selects (hroute : route ∈ t.list d) (hlive : nowMs < route.expiresAtMs) (hsend : canSend route.nextHop = true) :
    ∃ sel r, Selects pow15 d nowMs canSend t sel r := by
  cases hget : t.routes.get d with
  | none =>
    rw [list, hget] at hroute
    cases hroute
  | some routes =>
    have hlist : t.list d = routes := by rw [list, hget]; rfl
    have hmem : route ∈ retainLive routes nowMs := by
      rw [hlist] at hroute
      exact List.mem_filter.2 ⟨hroute, decide_eq_true hlive⟩
    have hsome : sendable pow15 canSend (retainLive routes nowMs) ≠ [] := fun hnil => by
      rw [sendable_eq_nil.1 hnil route hmem] at hsend
      cases hsend
    obtain ⟨first, rest, hfirst⟩ := List.exists_cons_of_ne_nil hsome
    obtain ⟨sel, hfold, r, hr, hrsend, hahead⟩ := @rounds_spec pow15 canSend [] (retainLive routes nowMs) first.1
      (.inr ⟨nofun, by
        rw [show sendableFrom pow15 canSend ([] : List LearnedRoute).length (retainLive routes nowMs) = first :: rest from hfirst]
        rfl⟩)
    rw [show sendableFrom pow15 canSend ([] : List LearnedRoute).length (retainLive routes nowMs) = first :: rest from hfirst,
      List.nil_append, List.nil_append] at hfold
    rw [List.nil_append] at hr hahead
    have hcharged : t.charged pow15 d nowMs canSend = (retainLive routes nowMs).map (charge pow15 canSend) := by
      rw [charged, hlist]
    refine ⟨sel, r, hcharged ▸ hr, hrsend, hcharged ▸ hahead, ?_⟩
    have htotal : ((first :: rest).map Prod.snd).sum = totalWeight pow15 canSend (retainLive routes nowMs) := by
      rw [← hfirst]
      exact congrArg List.sum (@map_snd_sendableFrom pow15 canSend _ 0)
    unfold selectNextHop
    rw [hget]
    dsimp only
    rw [if_neg (List.ne_nil_of_mem hmem), hfirst]
    dsimp only
    rw [hfold, htotal, hcharged, hlist]
    dsimp only
    rw [sortAndTruncate_length, List.getElem?_modify_eq, hr]
    rfl

theorem selectNextHop_none (h : ∀ route ∈ t.list d, nowMs < route.expiresAtMs → canSend route.nextHop = false) :
    t.selectNextHop pow15 d nowMs canSend = (none, (t.has d nowMs).2) := by
  unfold selectNextHop has
  cases hget : t.routes.get d with
  | none => rfl
  | some routes =>
    have hlist : t.list d = routes := by rw [list, hget]; rfl
    have hnil : sendable pow15 canSend (retainLive routes nowMs) = [] := by
      refine sendable_eq_nil.2 fun route hroute => ?_
      obtain ⟨hmem, hlive⟩ := List.mem_filter.1 hroute
      exact h route (hlist ▸ hmem) (of_decide_eq_true hlive)
    dsimp only
    split
    · rfl
    · rw [hnil]

/-- A selection returns a route that has not expired and can be sent on, if there is one. -/
theorem selectNextHop_isSome : (t.selectNextHop pow15 d nowMs canSend).1.isSome = true ↔
    ∃ route ∈ t.list d, nowMs < route.expiresAtMs ∧ canSend route.nextHop = true := by
  constructor
  · intro hsome
    by_contra hnone
    rw [selectNextHop_none fun route hroute hlive => ?_] at hsome
    · cases hsome
    · by_contra hsend
      exact hnone ⟨route, hroute, hlive, Bool.not_eq_false _ ▸ hsend⟩
  · rintro ⟨route, hroute, hlive, hsend⟩
    obtain ⟨sel, r, hr⟩ := @exists_selects pow15 _ _ _ _ _ hroute hlive hsend
    rw [hr.result]
    rfl

theorem mem_charged (h : route ∈ t.charged pow15 d nowMs canSend) :
    ∃ old ∈ t.list d, nowMs < old.expiresAtMs ∧ Weighed old route := by
  obtain ⟨old, hold, rfl⟩ := List.mem_map.1 h
  obtain ⟨hmem, hlive⟩ := List.mem_filter.1 hold
  exact ⟨old, hmem, of_decide_eq_true hlive, charge_weighed⟩

theorem selectNextHop_some (h : (t.selectNextHop pow15 d nowMs canSend).1 = some nextHop) :
    ∃ route ∈ t.list d, route.nextHop = nextHop ∧ nowMs < route.expiresAtMs ∧ canSend nextHop = true := by
  obtain ⟨route, hroute, hlive, hsend⟩ := selectNextHop_isSome.1 (Option.isSome_iff_exists.2 ⟨nextHop, h⟩)
  obtain ⟨sel, r, hr⟩ := @exists_selects pow15 _ _ _ _ _ hroute hlive hsend
  rw [hr.result] at h
  cases h
  obtain ⟨old, hold, hlive', w, s, hweighed⟩ := mem_charged (List.mem_of_getElem? hr.selected)
  have hhop : r.nextHop = old.nextHop := by rw [hweighed]
  exact ⟨old, hold, hhop.symm, hlive', hr.sends⟩

end

/-! ### Calls -/

inductive RouteCall
  | learn (destination nextHop : NodeAddr) (nowMs ttlSeconds : ℚ) (maxRoutesPerDestination : Nat) (pathMtu : Option Nat)
  | recordFailure (destination nextHop : NodeAddr)
  | selectNextHop (destination : NodeAddr) (nowMs : ℚ) (canSend : NodeAddr → Bool)
  | has (destination : NodeAddr) (nowMs : ℚ)
  | clear

def clear (_ : LearnedRouteTable) : LearnedRouteTable := empty

def call (pow15 : ℚ → ℚ) (t : LearnedRouteTable) : RouteCall → LearnedRouteTable
  | .learn destination nextHop nowMs ttlSeconds maxRoutesPerDestination pathMtu =>
    t.learn destination nextHop nowMs ttlSeconds maxRoutesPerDestination pathMtu
  | .recordFailure destination nextHop => t.recordFailure destination nextHop
  | .selectNextHop destination nowMs canSend => (t.selectNextHop pow15 destination nowMs canSend).2
  | .has destination nowMs => (t.has destination nowMs).2
  | .clear => t.clear

/-- What `recordFailure` does to a route. -/
def fail (route : LearnedRoute) : LearnedRoute :=
  { route with
    failures := route.failures + 1
    score := max (route.score * (1 / 2)) MIN_ROUTE_SCORE
    currentWeight := min route.currentWeight 0 }

namespace RouteCall

/-- A call of `learn` that changes the routes of `d` through `hop`, with its time, its expiry and its path MTU. -/
def hears (d hop : NodeAddr) : RouteCall → Option (ℚ × ℚ × Option Nat)
  | learn destination nextHop nowMs ttlSeconds maxRoutesPerDestination pathMtu =>
    if destination = d ∧ nextHop = hop ∧ d ≠ hop ∧ maxRoutesPerDestination ≠ 0 then
      some (nowMs, nowMs + ttlSeconds * 1000, pathMtu)
    else none
  | _ => none

/-- The path MTU that a call supplies for `d` through `hop`, with its expiry. -/
def supplies (d hop : NodeAddr) (c : RouteCall) : Option (Nat × ℚ) :=
  (c.hears d hop).bind fun heard => heard.2.2.map fun mtu => (mtu, heard.2.1)

/-- All calls of `learn` name one bound. -/
def Fixed (maximum : Nat) : RouteCall → Prop
  | learn _ _ _ _ maxRoutesPerDestination _ => maxRoutesPerDestination = maximum
  | _ => True

end RouteCall

/-- Where a route of `d` comes from that is there after a call. -/
inductive Stems (d : NodeAddr) (t : LearnedRouteTable) (c : RouteCall) (route : LearnedRoute) : Prop
  | weighed (old : LearnedRoute) (hold : old ∈ t.list d) (hweighed : Weighed old route)
    (hunheard : c.hears d route.nextHop = none)
  | failed (old : LearnedRoute) (hold : old ∈ t.list d) (hfail : route = fail old) (hunheard : c.hears d route.nextHop = none)
  | reinforced (old : LearnedRoute) (hold : old ∈ t.list d) (nowMs expiresAtMs : ℚ) (pathMtu : Option Nat)
    (hheard : c.hears d route.nextHop = some (nowMs, expiresAtMs, pathMtu))
    (hreinforce : route = reinforce nowMs expiresAtMs pathMtu old)
  | fresh (nowMs expiresAtMs : ℚ) (pathMtu : Option Nat)
    (hheard : c.hears d route.nextHop = some (nowMs, expiresAtMs, pathMtu))
    (hfresh : route = fresh route.nextHop nowMs expiresAtMs pathMtu)

section
variable {pow15 : ℚ → ℚ} {t : LearnedRouteTable} {d hop : NodeAddr} {c : RouteCall} {route : LearnedRoute}
  {calls : List RouteCall} {maximum : Nat} {nowMs : ℚ} {f : LearnedRoute → LearnedRoute} {routes : List LearnedRoute}

theorem list_set : list d ⟨t.routes.set hop routes⟩ = if hop = d then routes else t.list d := by
  unfold list
  rw [JsMap.get_set]
  split <;> rfl

theorem list_delete : list d ⟨t.routes.delete hop⟩ = if hop = d then [] else t.list d := by
  unfold list
  rw [JsMap.get_delete]
  split <;> rfl

theorem Distinct.list (h : t.Distinct) : ((t.list d).map LearnedRoute.nextHop).Nodup := h.getD

theorem Weighed.refl : Weighed route route := ⟨_, _, rfl⟩

theorem Weighed.pay {old : LearnedRoute} (h : Weighed old route) (total : ℚ) : Weighed old (pay total route) := by
  obtain ⟨_, _, rfl⟩ := h
  exact ⟨_, _, rfl⟩

theorem mem_modifyRoute_cases (hnodup : (routes.map LearnedRoute.nextHop).Nodup) (hroute : route ∈ modifyRoute hop f routes) :
    (∃ old ∈ routes, old.nextHop = hop ∧ route = f old) ∨ route ∈ routes ∧ route.nextHop ≠ hop := by
  induction routes with
  | nil => cases hroute
  | cons r routes ih =>
    obtain ⟨hnot, hnodup⟩ := List.nodup_cons.1 hnodup
    unfold modifyRoute at hroute
    split at hroute
    · rename_i hr
      rcases List.mem_cons.1 hroute with rfl | hroute
      · exact .inl ⟨r, List.mem_cons_self, hr, rfl⟩
      · refine .inr ⟨List.mem_cons_of_mem _ hroute, fun hsame => hnot ?_⟩
        exact hr.trans hsame.symm ▸ List.mem_map_of_mem hroute
    · rename_i hr
      rcases List.mem_cons.1 hroute with rfl | hroute
      · exact .inr ⟨List.mem_cons_self, hr⟩
      · rcases ih hnodup hroute with ⟨old, hold, hhop, heq⟩ | ⟨hmem, hne⟩
        · exact .inl ⟨old, List.mem_cons_of_mem _ hold, hhop, heq⟩
        · exact .inr ⟨List.mem_cons_of_mem _ hmem, hne⟩

theorem mem_heard_cases {expiresAtMs : ℚ} {mtu : Option Nat} (hnodup : (routes.map LearnedRoute.nextHop).Nodup)
    (hroute : route ∈ heard hop nowMs expiresAtMs mtu routes) :
    (∃ old ∈ routes, old.nextHop = hop ∧ route = reinforce nowMs expiresAtMs mtu old) ∨
      route = LearnedRouteTable.fresh hop nowMs expiresAtMs mtu ∨ route ∈ routes ∧ route.nextHop ≠ hop := by
  unfold heard at hroute
  split at hroute
  · rcases mem_modifyRoute_cases hnodup hroute with h | h
    · exact .inl h
    · exact .inr (.inr h)
  · rename_i hany
    rcases List.mem_append.1 hroute with hmem | hmem
    · refine .inr (.inr ⟨hmem, fun hsame => hany ?_⟩)
      exact List.any_eq_true.2 ⟨route, hmem, decide_eq_true hsame⟩
    · exact .inr (.inl (List.mem_singleton.1 hmem))

theorem learn_list (hne : d ≠ hop) (hmax : maximum ≠ 0) {ttlSeconds : ℚ} {mtu : Option Nat} (d' : NodeAddr) :
    (t.learn d hop nowMs ttlSeconds maximum mtu).list d' =
      if d = d' then sortAndTruncate (heard hop nowMs (nowMs + ttlSeconds * 1000) mtu (t.list d)) maximum else t.list d' := by
  unfold learn
  rw [if_neg (by simp [hne, hmax])]
  exact list_set

theorem recordFailure_list (d' : NodeAddr) :
    (t.recordFailure d hop).list d' = if d = d' then modifyRoute hop fail (t.list d) else t.list d' := by
  unfold recordFailure
  split
  · rename_i routes hget
    rw [list_set]
    split
    · rw [list, hget]
      rfl
    · rfl
  · rename_i hget
    split
    · rename_i hd
      subst hd
      rw [list, hget]
      rfl
    · rfl

theorem has_list (d' : NodeAddr) :
    (t.has d nowMs).2.list d' = if d = d' then retainLive (t.list d) nowMs else t.list d' := by
  unfold LearnedRouteTable.has
  split
  · rename_i hget
    split
    · rename_i hd
      subst hd
      rw [list, hget]
      rfl
    · rfl
  · rename_i routes hget
    have hlist : t.list d = routes := by rw [list, hget]; rfl
    dsimp only
    split
    · rename_i hnil
      rw [list_delete, hlist, hnil]
    · rw [list_set, hlist]

theorem selectNextHop_list (canSend : NodeAddr → Bool) (d' : NodeAddr) :
    (t.selectNextHop pow15 d nowMs canSend).2.list d' =
        (if d = d' then retainLive (t.list d) nowMs else t.list d') ∨
      ∃ sel r, Selects pow15 d nowMs canSend t sel r ∧ (t.selectNextHop pow15 d nowMs canSend).2.list d' =
        if d = d' then sorted ((t.charged pow15 d nowMs canSend).modify sel
          (pay (totalWeight pow15 canSend (retainLive (t.list d) nowMs)))) else t.list d' := by
  by_cases hsome : ∃ route ∈ t.list d, nowMs < route.expiresAtMs ∧ canSend route.nextHop = true
  · obtain ⟨route, hroute, hlive, hsend⟩ := hsome
    obtain ⟨sel, r, hr⟩ := @exists_selects pow15 _ _ _ _ _ hroute hlive hsend
    refine .inr ⟨sel, r, hr, ?_⟩
    rw [hr.result]
    exact list_set
  · rw [selectNextHop_none fun route hroute hlive => ?_]
    · exact .inl (has_list d')
    · by_contra hsend
      exact hsome ⟨route, hroute, hlive, Bool.not_eq_false _ ▸ hsend⟩

theorem mem_modify {α : Type} {l : List α} {g : α → α} {i : Nat} {a : α} (h : a ∈ l.modify i g) :
    a ∈ l ∨ ∃ b, l[i]? = some b ∧ a = g b := by
  obtain ⟨j, hj⟩ := List.getElem?_of_mem h
  rw [List.getElem?_modify] at hj
  obtain ⟨b, hb, hab⟩ := Option.map_eq_some_iff.1 hj
  by_cases hij : i = j
  · rw [if_pos hij] at hab
    exact .inr ⟨b, hij ▸ hb, hab.symm⟩
  · rw [if_neg hij] at hab
    exact .inl (hab ▸ List.mem_of_getElem? hb)

/-- A route that a call leaves was there before or has just been heard of. -/
theorem call_stems (hdistinct : t.Distinct) (hroute : route ∈ (call pow15 t c).list d) : Stems d t c route := by
  cases c with
  | learn d' hop' nowMs ttlSeconds maximum mtu =>
    rw [call] at hroute
    by_cases hskip : d' = hop' ∨ maximum = 0
    · rw [learn, if_pos hskip] at hroute
      refine .weighed route hroute .refl (if_neg ?_)
      rintro ⟨rfl, rfl, hne, hmax⟩
      exact hskip.elim hne hmax
    · obtain ⟨hne, hmax⟩ := not_or.1 hskip
      rw [learn_list hne hmax] at hroute
      split at hroute
      · rename_i hd
        subst hd
        have hmem := mem_of_mem_sortAndTruncate hroute
        rcases mem_heard_cases hdistinct.list hmem with ⟨old, hold, hhop, heq⟩ | heq | ⟨hmem, hother⟩
        · have hroutehop : route.nextHop = hop' := by rw [heq]; exact hhop
          exact .reinforced old hold nowMs _ mtu (if_pos ⟨rfl, hroutehop.symm, hroutehop ▸ hne, hmax⟩) heq
        · have hroutehop : route.nextHop = hop' := by rw [heq]; rfl
          refine .fresh nowMs (nowMs + ttlSeconds * 1000) mtu (if_pos ⟨rfl, hroutehop.symm, hroutehop ▸ hne, hmax⟩) ?_
          rw [hroutehop]
          exact heq
        · exact .weighed route hmem .refl (if_neg fun h => hother h.2.1.symm)
      · rename_i hd
        exact .weighed route hroute .refl (if_neg fun h => hd h.1)
  | recordFailure d' hop' =>
    rw [call, recordFailure_list] at hroute
    split at hroute
    · rename_i hd
      subst hd
      rcases mem_modifyRoute_cases hdistinct.list hroute with ⟨old, hold, -, heq⟩ | ⟨hmem, -⟩
      · exact .failed old hold heq rfl
      · exact .weighed route hmem .refl rfl
    · exact .weighed route hroute .refl rfl
  | selectNextHop d' nowMs canSend =>
    rw [call] at hroute
    rcases @selectNextHop_list pow15 t d' nowMs canSend d with heq | ⟨sel, r, hr, heq⟩
    · rw [heq] at hroute
      split at hroute
      · rename_i hd
        exact .weighed route (hd ▸ List.mem_of_mem_filter hroute) .refl rfl
      · exact .weighed route hroute .refl rfl
    · rw [heq] at hroute
      split at hroute
      · rename_i hd
        subst hd
        rcases mem_modify (perm_sorted.mem_iff.1 hroute) with hmem | ⟨b, hb, heq⟩
        · obtain ⟨old, hold, -, hweighed⟩ := mem_charged hmem
          exact .weighed old hold hweighed rfl
        · obtain ⟨old, hold, -, hweighed⟩ := mem_charged (List.mem_of_getElem? hb)
          exact .weighed old hold (heq ▸ hweighed.pay _) rfl
      · exact .weighed route hroute .refl rfl
  | has d' nowMs =>
    rw [call, has_list] at hroute
    split at hroute
    · rename_i hd
      exact .weighed route (hd ▸ List.mem_of_mem_filter hroute) .refl rfl
    · exact .weighed route hroute .refl rfl
  | clear => cases hroute

theorem modifyRoute_hops (hf : ∀ route, (f route).nextHop = route.nextHop) :
    (modifyRoute hop f routes).length = routes.length := by
  have hmap := @map_nextHop_modifyRoute routes hop f hf
  have hlength := congrArg List.length hmap
  rwa [List.length_map, List.length_map] at hlength

theorem Distinct.call (h : t.Distinct) : (call pow15 t c).Distinct := by
  cases c with
  | learn => exact h.learn _ _ _
  | recordFailure d hop =>
    show (t.recordFailure d hop).Distinct
    unfold recordFailure
    split
    · rename_i routes hget
      refine h.set ?_
      show ((modifyRoute hop fail routes).map LearnedRoute.nextHop).Nodup
      rw [map_nextHop_modifyRoute (f := fail) fun _ => rfl]
      exact h d routes hget
    · exact h
  | selectNextHop => exact h.selectNextHop _ _
  | has d nowMs =>
    show (t.has d nowMs).2.Distinct
    unfold LearnedRouteTable.has
    split
    · exact h
    · rename_i routes hget
      dsimp only
      split
      · exact h.delete
      · exact h.set ((h d routes hget).sublist ((List.filter_sublist).map _))
  | clear => exact distinct_empty

theorem call_length (hfixed : c.Fixed maximum) (hlength : ∀ d, (t.list d).length ≤ maximum) (d : NodeAddr) :
    ((call pow15 t c).list d).length ≤ maximum := by
  have hlive (nowMs : ℚ) (d' : NodeAddr) : (retainLive (t.list d') nowMs).length ≤ maximum :=
    (List.length_filter_le _ _).trans (hlength d')
  cases c with
  | learn d' hop' nowMs ttlSeconds maximum' mtu =>
    have hmaximum : maximum' = maximum := hfixed
    subst hmaximum
    rw [call]
    by_cases hskip : d' = hop' ∨ maximum' = 0
    · rw [learn, if_pos hskip]
      exact hlength d
    · obtain ⟨hne, hmax⟩ := not_or.1 hskip
      rw [learn_list hne hmax]
      split
      · exact List.length_take_le _ _
      · exact hlength d
  | recordFailure d' hop' =>
    rw [call, recordFailure_list]
    split
    · rw [modifyRoute_hops (f := fail) fun _ => rfl]
      exact hlength d'
    · exact hlength d
  | selectNextHop d' nowMs canSend =>
    rw [call]
    rcases @selectNextHop_list pow15 t d' nowMs canSend d with heq | ⟨sel, r, -, heq⟩
    · rw [heq]
      split
      · exact hlive nowMs d'
      · exact hlength d
    · rw [heq]
      split
      · rw [perm_sorted.length_eq, List.length_modify, charged, List.length_map]
        exact hlive nowMs d'
      · exact hlength d
  | has d' nowMs =>
    rw [call, has_list]
    split
    · exact hlive nowMs d'
    · exact hlength d
  | clear => exact Nat.zero_le _

/-- The expiry and the path MTU that the latest learn to give one has supplied. -/
def supplied (calls : List RouteCall) (d hop : NodeAddr) : Option (Nat × ℚ) :=
  (calls.filterMap (RouteCall.supplies d hop)).getLast?

/-- What holds of a route of `d` after some calls. -/
structure RouteInv (calls : List RouteCall) (d : NodeAddr) (route : LearnedRoute) : Prop where
  elsewhere : route.nextHop ≠ d
  score_min : MIN_ROUTE_SCORE ≤ route.score
  score_max : route.score ≤ MAX_ROUTE_SCORE
  mtu : ∀ mtu, route.pathMtu = some mtu →
    ∃ expires, route.pathMtuExpiresAtMs = some expires ∧ supplied calls d route.nextHop = some (mtu, expires)

theorem supplied_concat : supplied (calls ++ [c]) d hop = (c.supplies d hop).or (supplied calls d hop) := by
  unfold supplied
  rw [List.filterMap_append]
  cases h : c.supplies d hop with
  | none => simp [h]
  | some s => simp [h]

theorem clamp_bounds {value minimum maximum : ℚ} (h : minimum ≤ maximum) :
    minimum ≤ clamp value minimum maximum ∧ clamp value minimum maximum ≤ maximum :=
  ⟨le_min h (le_max_left _ _), min_le_left _ _⟩

theorem RouteInv.stems (hinv : ∀ old ∈ t.list d, RouteInv calls d old) (h : Stems d t c route) :
    RouteInv (calls ++ [c]) d route := by
  have hhears {hop : NodeAddr} {nowMs expiresAtMs : ℚ} {mtu : Option Nat}
      (hheard : c.hears d hop = some (nowMs, expiresAtMs, mtu)) : hop ≠ d := by
    cases c with
    | learn =>
      simp only [RouteCall.hears] at hheard
      split at hheard
      · rename_i hcond
        exact hcond.2.2.1.symm
      · cases hheard
    | _ => cases hheard
  cases h with
  | weighed old hold hweighed hunheard =>
    obtain ⟨w, s, rfl⟩ := hweighed
    have hold := hinv old hold
    refine ⟨hold.elsewhere, hold.score_min, hold.score_max, fun mtu hmtu => ?_⟩
    obtain ⟨expires, hexpires, hsupplied⟩ := hold.mtu mtu hmtu
    refine ⟨expires, hexpires, ?_⟩
    rw [supplied_concat, RouteCall.supplies, hunheard]
    exact hsupplied
  | failed old hold hfail hunheard =>
    subst hfail
    have hold := hinv old hold
    refine ⟨hold.elsewhere, le_max_right _ _, ?_, fun mtu hmtu => ?_⟩
    · have hmin := hold.score_min
      have hmax := hold.score_max
      refine max_le ?_ (by unfold MIN_ROUTE_SCORE MAX_ROUTE_SCORE; norm_num)
      unfold MIN_ROUTE_SCORE at hmin
      linarith
    · obtain ⟨expires, hexpires, hsupplied⟩ := hold.mtu mtu hmtu
      refine ⟨expires, hexpires, ?_⟩
      rw [supplied_concat, RouteCall.supplies, hunheard]
      exact hsupplied
  | reinforced old hold nowMs expiresAtMs pathMtu hheard hreinforce =>
    subst hreinforce
    have hold := hinv old hold
    have hbounds := @clamp_bounds (old.score + 1) MIN_ROUTE_SCORE MAX_ROUTE_SCORE (by
      unfold MIN_ROUTE_SCORE MAX_ROUTE_SCORE; norm_num)
    refine ⟨hold.elsewhere, hbounds.1, hbounds.2, fun mtu hmtu => ?_⟩
    rw [supplied_concat, RouteCall.supplies, hheard]
    cases pathMtu with
    | none =>
      obtain ⟨expires, hexpires, hsupplied⟩ := hold.mtu mtu hmtu
      exact ⟨expires, hexpires, hsupplied⟩
    | some mtu' =>
      cases hmtu
      exact ⟨expiresAtMs, rfl, rfl⟩
  | fresh nowMs expiresAtMs pathMtu hheard hfresh =>
    rw [hfresh]
    refine ⟨hhears hheard, ?_, ?_, fun mtu hmtu => ?_⟩
    · show MIN_ROUTE_SCORE ≤ 1
      unfold MIN_ROUTE_SCORE
      norm_num
    · show 1 ≤ MAX_ROUTE_SCORE
      unfold MAX_ROUTE_SCORE
      norm_num
    · have hpath : pathMtu = some mtu := hmtu
      subst hpath
      refine ⟨expiresAtMs, rfl, ?_⟩
      show supplied (calls ++ [c]) d route.nextHop = _
      rw [supplied_concat, RouteCall.supplies, hheard]
      rfl

/-- What holds after any calls from an empty table on. -/
theorem run_inv (pow15 : ℚ → ℚ) (calls : List RouteCall) : (Run.run (call pow15) empty calls).Distinct ∧
    ∀ d, ∀ route ∈ (Run.run (call pow15) empty calls).list d, RouteInv calls d route := by
  induction calls using List.reverseRecOn with
  | nil => exact ⟨distinct_empty, fun d route hroute => by cases hroute⟩
  | append_singleton calls c ih =>
    obtain ⟨hdistinct, hinv⟩ := ih
    rw [Run.run_append, Run.run_cons, Run.run_nil]
    exact ⟨hdistinct.call, fun d route hroute => RouteInv.stems (hinv d) (call_stems hdistinct hroute)⟩

theorem run_length (hfixed : ∀ c ∈ calls, c.Fixed maximum) (hlength : ∀ d, (t.list d).length ≤ maximum) (d : NodeAddr) :
    ((Run.run (call pow15) t calls).list d).length ≤ maximum := by
  induction calls generalizing t with
  | nil => exact hlength d
  | cons c calls ih =>
    have hc := hfixed c List.mem_cons_self
    exact ih (fun c' hc' => hfixed c' (List.mem_cons_of_mem c hc')) (call_length hc hlength)

/-- The table after any calls with one bound: short lists of distinct next hops with bounded scores, selections that find a
usable route whenever there is one, and path MTUs only as long as the learn that has supplied them lasts. -/
theorem table_correct (pow15 : ℚ → ℚ) (maximum : Nat) (calls : List RouteCall) (hfixed : ∀ c ∈ calls, c.Fixed maximum) :
    (∀ d, ((Run.run (call pow15) empty calls).list d).length ≤ maximum ∧
      (((Run.run (call pow15) empty calls).list d).map LearnedRoute.nextHop).Nodup ∧
      ∀ route ∈ (Run.run (call pow15) empty calls).list d,
        route.nextHop ≠ d ∧ 1 / 20 ≤ route.score ∧ route.score ≤ 64) ∧
    (∀ d nowMs canSend,
      (((Run.run (call pow15) empty calls).selectNextHop pow15 d nowMs canSend).1.isSome = true ↔
        ∃ route ∈ (Run.run (call pow15) empty calls).list d,
          nowMs < route.expiresAtMs ∧ canSend route.nextHop = true) ∧
      ∀ hop, ((Run.run (call pow15) empty calls).selectNextHop pow15 d nowMs canSend).1 = some hop →
        ∃ route ∈ (Run.run (call pow15) empty calls).list d,
          route.nextHop = hop ∧ nowMs < route.expiresAtMs ∧ canSend hop = true) ∧
    ∀ d hop nowMs mtu, (Run.run (call pow15) empty calls).pathMtu d hop nowMs = some mtu →
      (∃ route ∈ (Run.run (call pow15) empty calls).list d, route.nextHop = hop) ∧
      ∃ expires, supplied calls d hop = some (mtu, expires) ∧ nowMs < expires := by
  obtain ⟨hdistinct, hinv⟩ := run_inv pow15 calls
  refine ⟨fun d => ⟨run_length hfixed (fun _ => Nat.zero_le _) d, hdistinct.list, fun route hroute => ?_⟩,
    fun d nowMs canSend => ⟨selectNextHop_isSome, fun hop hsome => selectNextHop_some hsome⟩,
    fun d hop nowMs mtu hmtu => ?_⟩
  · have hroute := hinv d route hroute
    exact ⟨hroute.elsewhere, hroute.score_min, hroute.score_max⟩
  · unfold pathMtu at hmtu
    split at hmtu
    · rename_i route hfind
      have hroute := List.mem_of_find?_eq_some hfind
      have hhop : route.nextHop = hop := by simpa using List.find?_some hfind
      split at hmtu
      · rename_i hexpiry
        obtain ⟨expires, hexpires, hsupplied⟩ := (hinv d route hroute).mtu mtu hmtu
        rw [hexpires] at hexpiry
        exact ⟨⟨route, hroute, hhop⟩, expires, hhop ▸ hsupplied, hexpiry⟩
      · cases hmtu
    · cases hmtu

/-- Two neighbours answer for a node, one of them fails, and in between the other one is selected. -/
def toyRouteCalls : List RouteCall :=
  [.learn [9] [1] 0 300 4 (some 1280), .selectNextHop [9] 5 fun _ => true, .learn [9] [2] 0 300 4 none,
    .recordFailure [9] [2]]

theorem toyRouteCalls_list : ((Run.run (call id) empty toyRouteCalls).list [9]) =
    [{ LearnedRouteTable.fresh [1] 0 (0 + 300 * 1000) (some 1280) with selected := 1 },
      fail (LearnedRouteTable.fresh [2] 0 (0 + 300 * 1000) none)] := by
  have hfirst : (empty.learn [9] [1] 0 300 4 (some 1280)).list [9] =
      [LearnedRouteTable.fresh [1] 0 (0 + 300 * 1000) (some 1280)] := by
    rw [learn_list (by decide) (by decide), if_pos rfl]
    simp [empty, list, JsMap.get, heard, sortAndTruncate]
  have hselected : ((empty.learn [9] [1] 0 300 4 (some 1280)).selectNextHop id [9] 5 fun _ => true).2.list [9] =
      [{ LearnedRouteTable.fresh [1] 0 (0 + 300 * 1000) (some 1280) with selected := 1 }] := by
    generalize empty.learn [9] [1] 0 300 4 (some 1280) = t at hfirst
    unfold selectNextHop
    cases hget : t.routes.get [9] with
    | none => rw [list, hget] at hfirst; cases hfirst
    | some routes =>
      rw [list, hget] at hfirst
      cases hfirst
      norm_num [list_set, retainLive, sendable, LearnedRouteTable.fresh, routeWeight, clamp, candidateRound, pay,
        sortAndTruncate, List.modify, MIN_ROUTE_SCORE, MAX_ROUTE_SCORE, MAX_ROUTE_WEIGHT]
  show ((((empty.learn [9] [1] 0 300 4 (some 1280)).selectNextHop id [9] 5 fun _ => true).2.learn [9] [2] 0 300 4
    none).recordFailure [9] [2]).list [9] = _
  have hsorted : [{ LearnedRouteTable.fresh [1] 0 (0 + 300 * 1000) (some 1280) with selected := 1 },
      LearnedRouteTable.fresh [2] 0 (0 + 300 * 1000) none].Pairwise fun a b => compareRoutes a b ≠ .gt := by
    have hlt : ([1] : NodeAddr) < [2] := by decide
    simp [compareRoutes, LearnedRouteTable.fresh, compareOfLessAndEq, hlt]
  rw [recordFailure_list, if_pos rfl, learn_list (by decide) (by decide), if_pos rfl, hselected]
  simp only [heard, sortAndTruncate]
  rw [if_neg (by simp [LearnedRouteTable.fresh]), List.singleton_append,
    List.mergeSort_of_pairwise (hsorted.imp fun hab => decide_eq_true hab)]
  simp [modifyRoute, LearnedRouteTable.fresh]

/-- There are two routes with scores in bounds; the one that has not failed can be selected, under the path MTU it was
heard of with. -/
theorem table_correct_toy :
    let t := Run.run (call id) empty toyRouteCalls
    (t.list [9]).length = 2 ∧ (∀ route ∈ t.list [9], route.nextHop ≠ [9] ∧ 1 / 20 ≤ route.score ∧ route.score ≤ 64) ∧
      (t.selectNextHop id [9] 10 fun hop => hop = [2]).1 = some [2] ∧
      ∃ expires, supplied toyRouteCalls [9] [1] = some (1280, expires) ∧ (10 : ℚ) < expires := by
  intro t
  obtain ⟨htable, hselects, hmtu⟩ := table_correct id 4 toyRouteCalls (by simp [toyRouteCalls, RouteCall.Fixed])
  have hlist : t.list [9] = _ := toyRouteCalls_list
  refine ⟨by rw [hlist]; rfl, (htable [9]).2.2, ?_, (hmtu [9] [1] 10 1280 ?_).2⟩
  · obtain ⟨hop, hhop⟩ := Option.isSome_iff_exists.1 ((hselects [9] 10 fun hop => hop = [2]).1.2
      ⟨fail (LearnedRouteTable.fresh [2] 0 (0 + 300 * 1000) none), by rw [hlist]; simp, by
        norm_num [fail, LearnedRouteTable.fresh], rfl⟩)
    obtain ⟨-, -, -, -, hsend⟩ := (hselects [9] 10 fun hop => hop = [2]).2 hop hhop
    rw [hhop, of_decide_eq_true hsend]
  · show t.pathMtu [9] [1] 10 = _
    unfold pathMtu
    rw [show (t.routes.get [9]).getD [] = _ from hlist]
    norm_num [LearnedRouteTable.fresh, fail]
/-! ### A route that has just been heard of -/

/-- The route of `d` through `hop` as `learn` makes it. -/
def learned (d hop : NodeAddr) (nowMs expiresAtMs : ℚ) (mtu : Option Nat) (t : LearnedRouteTable) : LearnedRoute :=
  match (t.list d).find? (·.nextHop = hop) with
  | some existing => reinforce nowMs expiresAtMs mtu existing
  | none => LearnedRouteTable.fresh hop nowMs expiresAtMs mtu

/-- The routes of `d` through other next hops that outrank it. -/
def rivals (d hop : NodeAddr) (nowMs expiresAtMs : ℚ) (mtu : Option Nat) (t : LearnedRouteTable) : List LearnedRoute :=
  (t.list d).filter fun route => route.nextHop ≠ hop ∧ Outranks route (t.learned d hop nowMs expiresAtMs mtu)

theorem filter_modifyRoute (hf : ∀ route, (f route).nextHop = route.nextHop) :
    (modifyRoute hop f routes).filter (fun route => route.nextHop ≠ hop) = routes.filter fun route => route.nextHop ≠ hop := by
  induction routes with
  | nil => rfl
  | cons r routes ih =>
    unfold modifyRoute
    split
    · rename_i hr
      rw [List.filter_cons_of_neg (by simp [hf, hr]), List.filter_cons_of_neg (by simp [hr])]
    · rename_i hr
      rw [List.filter_cons_of_pos (by simp [hr]), List.filter_cons_of_pos (by simp [hr]), ih]

theorem filter_heard {expiresAtMs : ℚ} {mtu : Option Nat} :
    (heard hop nowMs expiresAtMs mtu routes).filter (fun route => route.nextHop ≠ hop) =
      routes.filter fun route => route.nextHop ≠ hop := by
  unfold heard
  split
  · exact filter_modifyRoute fun _ => rfl
  · rw [List.filter_append, List.filter_cons_of_neg (by simp [LearnedRouteTable.fresh]), List.filter_nil, List.append_nil]

theorem mem_modifyRoute_of_find (h : routes.find? (·.nextHop = hop) = some route) : f route ∈ modifyRoute hop f routes := by
  induction routes with
  | nil => cases h
  | cons r routes ih =>
    unfold modifyRoute
    by_cases hr : r.nextHop = hop
    · rw [List.find?_cons_of_pos (by simpa using hr)] at h
      cases h
      rw [if_pos hr]
      exact List.mem_cons_self
    · rw [List.find?_cons_of_neg (by simpa using hr)] at h
      rw [if_neg hr]
      exact List.mem_cons_of_mem _ (ih h)

theorem learned_spec {expiresAtMs : ℚ} {mtu : Option Nat} :
    t.learned d hop nowMs expiresAtMs mtu ∈ heard hop nowMs expiresAtMs mtu (t.list d) ∧
      (t.learned d hop nowMs expiresAtMs mtu).nextHop = hop ∧ (t.learned d hop nowMs expiresAtMs mtu).expiresAtMs = expiresAtMs := by
  unfold learned heard
  cases hfind : (t.list d).find? (·.nextHop = hop) with
  | some existing =>
    have hhop : existing.nextHop = hop := by simpa using List.find?_some hfind
    rw [if_pos (List.any_eq_true.2 ⟨existing, List.mem_of_find?_eq_some hfind, decide_eq_true hhop⟩)]
    exact ⟨mem_modifyRoute_of_find hfind, hhop, rfl⟩
  | none =>
    have hany : ¬(t.list d).any (fun route => decide (route.nextHop = hop)) = true := by
      intro hany
      obtain ⟨route, hroute, hhop⟩ := List.any_eq_true.1 hany
      exact List.find?_eq_none.1 hfind route hroute hhop
    rw [if_neg hany]
    exact ⟨List.mem_append_right _ List.mem_cons_self, rfl, rfl⟩

theorem eq_of_hop {other : LearnedRoute} (hnodup : (routes.map LearnedRoute.nextHop).Nodup) (hroute : route ∈ routes)
    (hother : other ∈ routes) (hhop : route.nextHop = other.nextHop) : route = other := by
  have h₁ := find_of_mem hnodup hroute
  have h₂ := find_of_mem hnodup hother
  rw [hhop, h₂] at h₁
  exact (Option.some.inj h₁).symm

/-- The rivals are the routes that outrank the learned one in what is sorted. -/
theorem rivals_eq (hdistinct : t.Distinct) {expiresAtMs : ℚ} {mtu : Option Nat} :
    (heard hop nowMs expiresAtMs mtu (t.list d)).filter
      (fun route => decide (Outranks route (t.learned d hop nowMs expiresAtMs mtu))) = t.rivals d hop nowMs expiresAtMs mtu := by
  obtain ⟨hmem, hhop, -⟩ := @learned_spec t d hop nowMs expiresAtMs mtu
  have hnodup := @nodup_heard _ hop (@Distinct.list t d hdistinct) nowMs expiresAtMs mtu
  have hrivals : t.rivals d hop nowMs expiresAtMs mtu = ((t.list d).filter fun route => route.nextHop ≠ hop).filter
      fun route => Outranks route (t.learned d hop nowMs expiresAtMs mtu) := by
    rw [List.filter_filter, rivals]
    refine List.filter_congr fun route _ => ?_
    rw [Bool.and_comm, ← Bool.decide_and]
  rw [hrivals, ← @filter_heard hop nowMs (t.list d) expiresAtMs mtu, List.filter_filter]
  refine List.filter_congr fun route hroute => ?_
  by_cases hother : route.nextHop = hop
  · have hsame := eq_of_hop hnodup hroute hmem (hother.trans hhop.symm)
    rw [hsame, decide_eq_false Outranks.irrefl, Bool.false_and]
  · rw [decide_eq_true hother, Bool.and_true]

/-- `learn` keeps the route it has heard of if fewer than `maximum` others outrank it. -/
theorem learn_kept_iff (hdistinct : t.Distinct) (hne : d ≠ hop) (hmax : maximum ≠ 0) {ttlSeconds : ℚ} {mtu : Option Nat} :
    (∃ route ∈ (t.learn d hop nowMs ttlSeconds maximum mtu).list d, route.nextHop = hop) ↔
      (t.rivals d hop nowMs (nowMs + ttlSeconds * 1000) mtu).length < maximum := by
  obtain ⟨hmem, hhop, -⟩ := @learned_spec t d hop nowMs (nowMs + ttlSeconds * 1000) mtu
  have hnodup := @nodup_heard _ hop (@Distinct.list t d hdistinct) nowMs (nowMs + ttlSeconds * 1000) mtu
  rw [← rivals_eq hdistinct, ← mem_sortAndTruncate hnodup hmem, learn_list hne hmax, if_pos rfl]
  constructor
  · rintro ⟨route, hroute, hroutehop⟩
    exact eq_of_hop hnodup (mem_of_mem_sortAndTruncate hroute) hmem (hroutehop.trans hhop.symm) ▸ hroute
  · intro hkept
    exact ⟨_, hkept, hhop⟩

theorem learn_expires (hdistinct : t.Distinct) (hne : d ≠ hop) (hmax : maximum ≠ 0) {ttlSeconds : ℚ} {mtu : Option Nat}
    (hroute : route ∈ (t.learn d hop nowMs ttlSeconds maximum mtu).list d) (hhop : route.nextHop = hop) :
    route.expiresAtMs = nowMs + ttlSeconds * 1000 := by
  obtain ⟨hmem, hhop', hexpires⟩ := @learned_spec t d hop nowMs (nowMs + ttlSeconds * 1000) mtu
  have hnodup := @nodup_heard _ hop (@Distinct.list t d hdistinct) nowMs (nowMs + ttlSeconds * 1000) mtu
  rw [learn_list hne hmax, if_pos rfl] at hroute
  rw [eq_of_hop hnodup (mem_of_mem_sortAndTruncate hroute) hmem (hhop.trans hhop'.symm), hexpires]

/-- A stored route that `learn` drops is outranked by all that it keeps. -/
theorem outranks_of_dropped (hdistinct : t.Distinct) {ttlSeconds : ℚ} {mtu : Option Nat} {other : LearnedRoute}
    (hroute : route ∈ t.list d) (hhop : route.nextHop ≠ hop)
    (hnot : route ∉ (t.learn d hop nowMs ttlSeconds maximum mtu).list d)
    (hother : other ∈ (t.learn d hop nowMs ttlSeconds maximum mtu).list d) : Outranks other route := by
  by_cases hskip : d = hop ∨ maximum = 0
  · rw [learn, if_pos hskip] at hnot
    exact absurd hroute hnot
  · obtain ⟨hne, hmax⟩ := not_or.1 hskip
    rw [learn_list hne hmax, if_pos rfl] at hnot hother
    have hnodup := @nodup_heard _ hop (@Distinct.list t d hdistinct) nowMs (nowMs + ttlSeconds * 1000) mtu
    have hheard : route ∈ heard hop nowMs (nowMs + ttlSeconds * 1000) mtu (t.list d) := by
      have hfilter : route ∈ (t.list d).filter fun route => route.nextHop ≠ hop :=
        List.mem_filter.2 ⟨hroute, decide_eq_true hhop⟩
      rw [← @filter_heard hop nowMs (t.list d) (nowMs + ttlSeconds * 1000) mtu] at hfilter
      exact List.mem_of_mem_filter hfilter
    exact outranks_of_truncated hnodup hheard hnot hother

end

/-- After any calls, a route that is heard of is live and found by a selection that can send on nothing else if fewer than
`maximum` other stored routes outrank it, whether or not they have expired; a stored route is only dropped for routes that
outrank it. -/
theorem learned_usable (pow15 : ℚ → ℚ) (calls : List RouteCall) (d hop : NodeAddr) (nowMs ttlSeconds : ℚ) (maximum : Nat)
    (mtu : Option Nat) (hne : hop ≠ d) (httl : 0 < ttlSeconds) (hmax : 1 ≤ maximum) :
    (((Run.run (call pow15) empty calls).rivals d hop nowMs (nowMs + ttlSeconds * 1000) mtu).length < maximum ↔
      (∃ route ∈ ((Run.run (call pow15) empty calls).learn d hop nowMs ttlSeconds maximum mtu).list d,
        route.nextHop = hop ∧ nowMs < route.expiresAtMs) ∧
      (((Run.run (call pow15) empty calls).learn d hop nowMs ttlSeconds maximum mtu).selectNextHop pow15 d nowMs
        fun nextHop => nextHop = hop).1 = some hop) ∧
    ∀ route ∈ (Run.run (call pow15) empty calls).list d, route.nextHop ≠ hop →
      route ∉ ((Run.run (call pow15) empty calls).learn d hop nowMs ttlSeconds maximum mtu).list d →
      ∀ other ∈ ((Run.run (call pow15) empty calls).learn d hop nowMs ttlSeconds maximum mtu).list d, Outranks other route := by
  obtain ⟨hdistinct, -⟩ := run_inv pow15 calls
  generalize Run.run (call pow15) empty calls = t at hdistinct ⊢
  have hlater : nowMs < nowMs + ttlSeconds * 1000 := by linarith
  refine ⟨?_, fun route hroute hhop hnot other hother => outranks_of_dropped hdistinct hroute hhop hnot hother⟩
  rw [← learn_kept_iff hdistinct hne.symm (by omega)]
  constructor
  · rintro ⟨route, hroute, hhop⟩
    have hlive : nowMs < route.expiresAtMs := by
      rw [learn_expires hdistinct hne.symm (by omega) hroute hhop]
      exact hlater
    refine ⟨⟨route, hroute, hhop, hlive⟩, ?_⟩
    obtain ⟨sel, r, hr⟩ := @exists_selects pow15 (fun nextHop => nextHop = hop) _ _ _ _ hroute hlive
      (decide_eq_true hhop)
    rw [hr.result]
    exact congrArg some (of_decide_eq_true hr.sends)
  · rintro ⟨⟨route, hroute, hhop, -⟩, -⟩
    exact ⟨route, hroute, hhop⟩

/-- A route that has been heard of twice. -/
def toyStale : List RouteCall := [.learn [9] [1] 0 1 1 none, .learn [9] [1] 0 1 1 none]

theorem toyStale_list : (Run.run (call id) empty toyStale).list [9] =
    [reinforce 0 (0 + 1 * 1000) none (LearnedRouteTable.fresh [1] 0 (0 + 1 * 1000) none)] := by
  have hfirst : (empty.learn [9] [1] 0 1 1 none).list [9] = [LearnedRouteTable.fresh [1] 0 (0 + 1 * 1000) none] := by
    rw [learn_list (by decide) (by decide), if_pos rfl]
    simp [empty, list, JsMap.get, heard, sortAndTruncate]
  show ((empty.learn [9] [1] 0 1 1 none).learn [9] [1] 0 1 1 none).list [9] = _
  rw [learn_list (by decide) (by decide), if_pos rfl, hfirst]
  simp [heard, sortAndTruncate, modifyRoute, LearnedRouteTable.fresh]

theorem learned_usable_toy : ((((Run.run (call id) empty toyStale).learn [9] [2] 5000 1 2 none).selectNextHop id [9] 5000
    fun nextHop => nextHop = [2]).1) = some [2] := by
  refine (((learned_usable id toyStale [9] [2] 5000 1 2 none (by decide) (by norm_num) (by decide)).1).1 ?_).2
  rw [rivals, toyStale_list]
  exact (List.length_filter_le _ _).trans_lt (by decide)

/-- The route has long expired when another one is heard of, which does not get into the table. -/
theorem stale_route_stays :
    (∀ route ∈ (Run.run (call id) empty toyStale).list [9], route.expiresAtMs ≤ 5000) ∧
    ∀ route ∈ ((Run.run (call id) empty toyStale).learn [9] [2] 5000 1 1 none).list [9], route.nextHop ≠ [2] := by
  constructor
  · rw [toyStale_list]
    intro route hroute
    rw [List.mem_singleton.1 hroute]
    norm_num [reinforce]
  · intro route hroute hhop
    have hkept := (learn_kept_iff (run_inv id toyStale).1 (by decide) (by decide)).1 ⟨route, hroute, hhop⟩
    have hlearned : (Run.run (call id) empty toyStale).learned [9] [2] 5000 (5000 + 1 * 1000) none =
        LearnedRouteTable.fresh [2] 5000 (5000 + 1 * 1000) none := by
      rw [learned, toyStale_list, List.find?_cons_of_neg (by decide)]
      rfl
    have houtranks : Outranks (reinforce 0 (0 + 1 * 1000) none (LearnedRouteTable.fresh [1] 0 (0 + 1 * 1000) none))
        (LearnedRouteTable.fresh [2] 5000 (5000 + 1 * 1000) none) := by
      refine .inl ?_
      norm_num [reinforce, LearnedRouteTable.fresh, clamp, MIN_ROUTE_SCORE, MAX_ROUTE_SCORE]
    rw [rivals, hlearned, toyStale_list] at hkept
    refine absurd hkept (not_lt.2 (List.length_pos_of_mem (List.mem_filter.2 ⟨List.mem_cons_self, decide_eq_true ?_⟩)))
    exact ⟨by decide, houtranks⟩

end LearnedRouteTable
end Fips
