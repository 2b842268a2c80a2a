import Fips.Lib.SmoothRoundRobin
import Fips.Node.RouteTable

/-!
# The shares of the routes of a destination

A selection among routes that are all live and can all be sent on is a round of the smooth round robin over their next
hops. Sorting the routes again afterwards does not matter: weights and counters go with the next hop, and of routes whose
counters are tied any may be selected.
-/

namespace Fips
namespace LearnedRouteTable
open SmoothRoundRobin

theorem routeWeight_pos (pow15 : ℚ → ℚ) (route : LearnedRoute) : 0 < routeWeight pow15 route := by
  have hbounds := @clamp_bounds (pow15 (clamp route.score MIN_ROUTE_SCORE MAX_ROUTE_SCORE)) MIN_ROUTE_SCORE MAX_ROUTE_WEIGHT (by
    unfold MIN_ROUTE_SCORE MAX_ROUTE_WEIGHT; norm_num)
  refine lt_of_lt_of_le ?_ hbounds.1
  unfold MIN_ROUTE_SCORE
  norm_num

/-- The routes of a destination by next hop: what they weigh, what their counters are and when they expire. -/
structure Fleet (pow15 : ℚ → ℚ) (s : Finset NodeAddr) (w expires c : NodeAddr → ℚ) (routes : List LearnedRoute) : Prop where
  nodup : (routes.map LearnedRoute.nextHop).Nodup
  hops : (routes.map LearnedRoute.nextHop).toFinset = s
  weight : ∀ route ∈ routes, routeWeight pow15 route = w route.nextHop
  expires : ∀ route ∈ routes, route.expiresAtMs = expires route.nextHop
  current : ∀ route ∈ routes, route.currentWeight = c route.nextHop

section
variable {pow15 : ℚ → ℚ} {s : Finset NodeAddr} {w expires c : NodeAddr → ℚ} {routes : List LearnedRoute}
  {route r : LearnedRoute} {t : LearnedRouteTable} {d : NodeAddr} {nowMs : ℚ} {canSend : NodeAddr → Bool}

/-- A property of the next hops, as one of the routes. -/
theorem exists_hop {f : LearnedRoute → ℚ} (hnodup : (routes.map LearnedRoute.nextHop).Nodup) :
    ∃ g : NodeAddr → ℚ, ∀ route ∈ routes, f route = g route.nextHop := by
  refine ⟨fun hop => ((routes.find? (·.nextHop = hop)).map f).getD 0, fun route hroute => ?_⟩
  show f route = ((routes.find? (·.nextHop = route.nextHop)).map f).getD 0
  rw [find_of_mem hnodup hroute]
  rfl

theorem exists_fleet (hnodup : (routes.map LearnedRoute.nextHop).Nodup) :
    ∃ w expires c, Fleet pow15 (routes.map LearnedRoute.nextHop).toFinset w expires c routes := by
  obtain ⟨w, hw⟩ := @exists_hop routes (routeWeight pow15) hnodup
  obtain ⟨expires, hexpires⟩ := @exists_hop routes LearnedRoute.expiresAtMs hnodup
  obtain ⟨c, hc⟩ := @exists_hop routes LearnedRoute.currentWeight hnodup
  exact ⟨w, expires, c, hnodup, rfl, hw, hexpires, hc⟩

theorem Fleet.mem (h : Fleet pow15 s w expires c routes) {hop : NodeAddr} :
    hop ∈ s ↔ ∃ route ∈ routes, route.nextHop = hop := by
  rw [← h.hops, List.mem_toFinset, List.mem_map]

theorem Fleet.pos (h : Fleet pow15 s w expires c routes) : ∀ hop ∈ s, 0 < w hop := by
  intro hop hhop
  obtain ⟨route, hroute, rfl⟩ := h.mem.1 hhop
  rw [← h.weight route hroute]
  exact routeWeight_pos pow15 route

/-- A sum over the routes is one over their next hops. -/
theorem Fleet.sum_eq (h : Fleet pow15 s w expires c routes) {f : LearnedRoute → ℚ} {g : NodeAddr → ℚ}
    (hfg : ∀ route ∈ routes, f route = g route.nextHop) : (routes.map f).sum = ∑ hop ∈ s, g hop := by
  rw [← h.hops, List.sum_toFinset g h.nodup, List.map_map]
  exact congrArg List.sum (List.map_congr_left hfg)

/-- A route is changed where its next hop is. -/
theorem modify_eq_map {g : LearnedRoute → LearnedRoute} {i : Nat} (hnodup : (routes.map LearnedRoute.nextHop).Nodup)
    (h : routes[i]? = some r) : routes.modify i g = routes.map fun q => if q.nextHop = r.nextHop then g q else q := by
  induction routes generalizing i with
  | nil => simp at h
  | cons q routes ih =>
    obtain ⟨hnot, hnodup⟩ := List.nodup_cons.1 hnodup
    cases i with
    | zero =>
      have hqr : q = r := Option.some.inj h
      subst hqr
      rw [List.modify_zero_cons, List.map_cons, if_pos rfl]
      have hrest : routes.map (fun q' => if q'.nextHop = q.nextHop then g q' else q') = routes := by
        refine (List.map_congr_left fun q' hq' => if_neg fun hsame => hnot ?_).trans (List.map_id' routes)
        exact hsame ▸ List.mem_map_of_mem hq'
      rw [hrest]
    | succ i =>
      rw [List.getElem?_cons_succ] at h
      have hne : q.nextHop ≠ r.nextHop := fun hsame => hnot (hsame ▸ List.mem_map_of_mem (List.mem_of_getElem? h))
      rw [List.modify_succ_cons, List.map_cons, if_neg hne, ih hnodup h]

/-- All routes are live and can be sent on. -/
def Open (expires : NodeAddr → ℚ) (s : Finset NodeAddr) (nowMs : ℚ) (canSend : NodeAddr → Bool) : Prop :=
  ∀ hop ∈ s, nowMs < expires hop ∧ canSend hop = true

/-- A selection among routes that can all be sent on is a round. -/
theorem Fleet.select (h : Fleet pow15 s w expires c (t.list d)) (hopen : Open expires s nowMs canSend) (hne : t.list d ≠ []) :
    ∃ hop c', Round s w c hop c' ∧ (t.selectNextHop pow15 d nowMs canSend).1 = some hop ∧
      Fleet pow15 s w expires c' ((t.selectNextHop pow15 d nowMs canSend).2.list d) := by
  have hall : ∀ route ∈ t.list d, nowMs < route.expiresAtMs ∧ canSend route.nextHop = true := by
    intro route hroute
    rw [h.expires route hroute]
    exact hopen _ (h.mem.2 ⟨route, hroute, rfl⟩)
  have hlive : retainLive (t.list d) nowMs = t.list d :=
    List.filter_eq_self.2 fun route hroute => decide_eq_true (hall route hroute).1
  obtain ⟨first, hfirst⟩ := List.exists_mem_of_ne_nil _ hne
  obtain ⟨sel, r, hr⟩ := @exists_selects pow15 _ _ _ _ _ hfirst (hall first hfirst).1 (hall first hfirst).2
  have hcharged : t.charged pow15 d nowMs canSend =
      (t.list d).map fun route => { route with currentWeight := route.currentWeight + routeWeight pow15 route } := by
    rw [charged, hlive]
    exact List.map_congr_left fun route hroute => if_pos (hall route hroute).2
  have htotal : totalWeight pow15 canSend (retainLive (t.list d) nowMs) = ∑ hop ∈ s, w hop := by
    rw [totalWeight, hlive, List.filter_eq_self.2 fun route hroute => (hall route hroute).2]
    exact h.sum_eq h.weight
  have hcounter : ∀ q ∈ t.charged pow15 d nowMs canSend, q.currentWeight = c q.nextHop + w q.nextHop := by
    intro q hq
    rw [hcharged] at hq
    obtain ⟨route, hroute, rfl⟩ := List.mem_map.1 hq
    rw [h.current route hroute, h.weight route hroute]
  have hmem : r ∈ t.charged pow15 d nowMs canSend := List.mem_of_getElem? hr.selected
  have hhops : (t.charged pow15 d nowMs canSend).map LearnedRoute.nextHop = (t.list d).map LearnedRoute.nextHop := by
    rw [hcharged, List.map_map]
    rfl
  have hrmem : r.nextHop ∈ s := by
    rw [← h.hops, List.mem_toFinset, ← hhops]
    exact List.mem_map_of_mem hmem
  refine ⟨r.nextHop, fun hop => c hop + w hop - if hop = r.nextHop then ∑ hop ∈ s, w hop else 0,
    ⟨hrmem, fun hop hhop => ?_, ?_, fun hop _ hother => ?_⟩, ?_, ?_⟩
  · obtain ⟨route, hroute, rfl⟩ := h.mem.1 hhop
    obtain ⟨q, hq, hqhop⟩ : ∃ q ∈ t.charged pow15 d nowMs canSend, q.nextHop = route.nextHop := by
      rw [hcharged]
      exact ⟨_, List.mem_map_of_mem hroute, rfl⟩
    have hahead := hr.ahead q hq (by rw [hqhop]; exact (hall route hroute).2)
    rw [← hqhop, ← hcounter q hq, ← hcounter r hmem]
    rcases hahead with hlt | ⟨heq, -⟩
    · exact hlt.le
    · exact heq.ge
  · rw [if_pos rfl]
  · rw [if_neg hother, sub_zero]
  · rw [hr.result]
  · have hperm : ((t.selectNextHop pow15 d nowMs canSend).2.list d).Perm
        ((t.charged pow15 d nowMs canSend).map fun q => if q.nextHop = r.nextHop then pay (∑ hop ∈ s, w hop) q else q) := by
      rw [hr.result, list_set, if_pos rfl, htotal, ← modify_eq_map (hhops ▸ h.nodup) hr.selected]
      exact perm_sorted
    have hmapped : ((t.charged pow15 d nowMs canSend).map fun q => if q.nextHop = r.nextHop then pay (∑ hop ∈ s, w hop) q else q) =
        (t.list d).map fun route => { route with
          currentWeight := c route.nextHop + w route.nextHop - if route.nextHop = r.nextHop then ∑ hop ∈ s, w hop else 0
          selected := if route.nextHop = r.nextHop then route.selected + 1 else route.selected } := by
      rw [hcharged, List.map_map]
      refine List.map_congr_left fun route hroute => ?_
      simp only [Function.comp_apply, h.current route hroute, h.weight route hroute]
      by_cases hhop : route.nextHop = r.nextHop
      · simp [hhop, pay]
      · simp [hhop]
    rw [hmapped] at hperm
    have hhops' : (((t.selectNextHop pow15 d nowMs canSend).2.list d).map LearnedRoute.nextHop).Perm
        ((t.list d).map LearnedRoute.nextHop) := by
      refine (hperm.map _).trans (List.Perm.of_eq ?_)
      rw [List.map_map]
      rfl
    refine ⟨hhops'.nodup_iff.2 h.nodup, (List.toFinset_eq_of_perm _ _ hhops').trans h.hops, fun q hq => ?_, fun q hq => ?_,
      fun q hq => ?_⟩
    · obtain ⟨route, hroute, rfl⟩ := List.mem_map.1 (hperm.mem_iff.1 hq)
      exact h.weight route hroute
    · obtain ⟨route, hroute, rfl⟩ := List.mem_map.1 (hperm.mem_iff.1 hq)
      exact h.expires route hroute
    · obtain ⟨route, hroute, rfl⟩ := List.mem_map.1 (hperm.mem_iff.1 hq)
      rfl

/-! ### A run of selections -/

/-- A call that leaves the routes of `d` as they are but for selections: nothing is learned, failed or cleared, and whenever
they are asked for, they are live and can be sent on. -/
def Undisturbed (d : NodeAddr) (routes : List LearnedRoute) : RouteCall → Prop
  | .learn destination .. => destination ≠ d
  | .recordFailure destination _ => destination ≠ d
  | .selectNextHop destination nowMs canSend =>
    destination = d → ∀ route ∈ routes, nowMs < route.expiresAtMs ∧ canSend route.nextHop = true
  | .has destination nowMs => destination = d → ∀ route ∈ routes, nowMs < route.expiresAtMs
  | .clear => False

/-- What a call selects for `d`. -/
def picked (pow15 : ℚ → ℚ) (d : NodeAddr) (t : LearnedRouteTable) : RouteCall → Option NodeAddr
  | .selectNextHop destination nowMs canSend =>
    if destination = d then (t.selectNextHop pow15 destination nowMs canSend).1 else none
  | _ => none

/-- The selections for `d`, one after the other. -/
def picks (pow15 : ℚ → ℚ) (d : NodeAddr) : LearnedRouteTable → List RouteCall → List NodeAddr
  | _, [] => []
  | t, call :: calls => (picked pow15 d t call).toList ++ picks pow15 d (t.call pow15 call) calls

/-- A call is no selection for `d`, or it is a round. -/
theorem Fleet.call {call : RouteCall} (h : Fleet pow15 s w expires c (t.list d)) (hcall : Undisturbed d routes call)
    (hroutes : ∀ hop ∈ s, ∃ route ∈ routes, route.nextHop = hop ∧ route.expiresAtMs = expires hop) :
    picked pow15 d t call = none ∧ (t.call pow15 call).list d = t.list d ∨
      ∃ hop c', picked pow15 d t call = some hop ∧ Round s w c hop c' ∧
        Fleet pow15 s w expires c' ((t.call pow15 call).list d) := by
  have hkept {nowMs : ℚ} (hlive : ∀ route ∈ routes, nowMs < route.expiresAtMs) : retainLive (t.list d) nowMs = t.list d := by
    refine List.filter_eq_self.2 fun route hroute => decide_eq_true ?_
    obtain ⟨route', hroute', -, hexpires⟩ := hroutes route.nextHop (h.mem.2 ⟨route, hroute, rfl⟩)
    rw [h.expires route hroute, ← hexpires]
    exact hlive route' hroute'
  cases call with
  | learn destination hop nowMs ttlSeconds maximum mtu =>
    refine .inl ⟨rfl, ?_⟩
    rw [LearnedRouteTable.call]
    by_cases hskip : destination = hop ∨ maximum = 0
    · rw [learn, if_pos hskip]
    · obtain ⟨hne, hmax⟩ := not_or.1 hskip
      rw [learn_list hne hmax, if_neg hcall]
  | recordFailure destination hop =>
    refine .inl ⟨rfl, ?_⟩
    rw [LearnedRouteTable.call, recordFailure_list, if_neg hcall]
  | selectNextHop destination nowMs canSend =>
    by_cases hd : destination = d
    · subst hd
      by_cases hne : t.list destination = []
      · have hnone := @selectNextHop_none pow15 canSend t destination nowMs (by rw [hne]; rintro _ ⟨⟩)
        refine .inl ⟨by rw [picked, if_pos rfl, hnone], ?_⟩
        rw [LearnedRouteTable.call, hnone, has_list, if_pos rfl, hne]
        rfl
      have hopen : Open expires s nowMs canSend := by
        intro hop hhop
        obtain ⟨route, hroute, hroutehop, hexpires⟩ := hroutes hop hhop
        rw [← hexpires, ← hroutehop]
        exact hcall rfl route hroute
      obtain ⟨hop, c', hround, hsome, hfleet⟩ := h.select hopen hne
      exact .inr ⟨hop, c', by rw [picked, if_pos rfl, hsome], hround, hfleet⟩
    · refine .inl ⟨if_neg hd, ?_⟩
      rcases @selectNextHop_list pow15 t destination nowMs canSend d with heq | ⟨_, _, -, heq⟩
      · rw [LearnedRouteTable.call, heq, if_neg hd]
      · rw [LearnedRouteTable.call, heq, if_neg hd]
  | has destination nowMs =>
    refine .inl ⟨rfl, ?_⟩
    rw [LearnedRouteTable.call, has_list]
    split
    · rename_i hd
      rw [hd, hkept (hcall hd)]
    · rfl
  | clear => exact hcall.elim

/-- The selections of a run are rounds. -/
theorem Fleet.run {calls : List RouteCall} (h : Fleet pow15 s w expires c (t.list d))
    (hcalls : ∀ call ∈ calls, Undisturbed d routes call)
    (hroutes : ∀ hop ∈ s, ∃ route ∈ routes, route.nextHop = hop ∧ route.expiresAtMs = expires hop) :
    ∃ c', Rounds s w c (picks pow15 d t calls) c' ∧
      Fleet pow15 s w expires c' ((Run.run (LearnedRouteTable.call pow15) t calls).list d) := by
  induction calls generalizing t c with
  | nil => exact ⟨c, .nil c, h⟩
  | cons call calls ih =>
    have hrest : ∀ call ∈ calls, Undisturbed d routes call := fun call' hcall' => hcalls call' (List.mem_cons_of_mem call hcall')
    rcases h.call (hcalls call List.mem_cons_self) hroutes with ⟨hnone, hsame⟩ | ⟨hop, c', hsome, hround, hfleet⟩
    · rw [picks, hnone]
      exact ih (hsame.symm ▸ h) hrest
    · obtain ⟨c'', hrounds, hlast⟩ := ih hfleet hrest
      rw [picks, hsome]
      exact ⟨c'', .cons _ _ _ _ _ hround hrounds, hlast⟩

end

/-- Among live routes that can all be sent on, with no learn or failure in between: the counters always add up to zero, and
every route is selected as often as its weight says, within fixed bounds. -/
theorem weighted_fairness (pow15 : ℚ → ℚ) (t : LearnedRouteTable) (d : NodeAddr) (calls : List RouteCall)
    (hdistinct : ((t.list d).map LearnedRoute.nextHop).Nodup) (hzero : ∀ route ∈ t.list d, route.currentWeight = 0)
    (hcalls : ∀ call ∈ calls, Undisturbed d (t.list d) call) :
    (((Run.run (call pow15) t calls).list d).map LearnedRoute.currentWeight).sum = 0 ∧
    ∀ route ∈ t.list d,
      -((t.list d).map (routeWeight pow15)).sum <
        (picks pow15 d t calls).length * routeWeight pow15 route -
          ((t.list d).map (routeWeight pow15)).sum * (picks pow15 d t calls).count route.nextHop ∧
      (picks pow15 d t calls).length * routeWeight pow15 route -
          ((t.list d).map (routeWeight pow15)).sum * (picks pow15 d t calls).count route.nextHop ≤
        ((t.list d).length - 1 : ℚ) * ((t.list d).map (routeWeight pow15)).sum := by
  obtain ⟨w, expires, c, hfleet⟩ := @exists_fleet pow15 (t.list d) hdistinct
  have hc : ∀ hop ∈ ((t.list d).map LearnedRoute.nextHop).toFinset, c hop = 0 := by
    intro hop hhop
    obtain ⟨route, hroute, rfl⟩ := hfleet.mem.1 hhop
    rw [← hfleet.current route hroute, hzero route hroute]
  obtain ⟨c', hrounds, hlast⟩ := hfleet.run hcalls fun hop hhop => by
    obtain ⟨route, hroute, rfl⟩ := hfleet.mem.1 hhop
    exact ⟨route, hroute, rfl, hfleet.expires route hroute⟩
  constructor
  · rw [hlast.sum_eq hlast.current]
    exact (hrounds.balanced (balanced_zero hfleet.pos hc) hfleet.pos).sum
  · intro route hroute
    have hcard : (((t.list d).map LearnedRoute.nextHop).toFinset).card = (t.list d).length := by
      rw [List.toFinset_card_of_nodup hdistinct, List.length_map]
    rw [hfleet.sum_eq hfleet.weight, hfleet.weight route hroute, ← hcard]
    exact hrounds.fair hfleet.pos hc (hfleet.mem.2 ⟨route, hroute, rfl⟩)

/-- Two routes, the first with four times the weight of the second, their counters and how often they have been selected. -/
def toyShares (a b : ℚ) (m n : Nat) : List LearnedRoute :=
  [{ LearnedRouteTable.fresh [1] 0 1000 none with score := 4, currentWeight := a, selected := m },
    { LearnedRouteTable.fresh [2] 0 1000 none with currentWeight := b, selected := n }]

/-- The first route is selected unless the second one comes before it with its weight added. -/
theorem toyShares_select (a b : ℚ) (m n : Nat) :
    selectNextHop id [9] 5 (fun _ => true) ⟨[([9], toyShares a b m n)]⟩ =
      if a + 4 < b + 1 then (some [2], ⟨[([9], toyShares (a + 4) (b + 1 - 5) m (n + 1))]⟩)
      else (some [1], ⟨[([9], toyShares (a + 4 - 5) (b + 1) (m + 1) n)]⟩) := by
  have hsorted (a b : ℚ) (m n : Nat) : sortAndTruncate (toyShares a b m n) 2 = toyShares a b m n := by
    unfold sortAndTruncate
    rw [List.mergeSort_of_pairwise]
    · rfl
    · norm_num [toyShares, compareRoutes, LearnedRouteTable.fresh, compareOfLessAndEq]
      decide
  have hlive : retainLive (toyShares a b m n) 5 = toyShares a b m n := by
    norm_num [toyShares, retainLive, LearnedRouteTable.fresh]
  have hsendable : sendable id (fun _ => true) (toyShares a b m n) = [(0, 4), (1, 1)] := by
    norm_num [toyShares, sendable, routeWeight, LearnedRouteTable.fresh, clamp, MIN_ROUTE_SCORE, MAX_ROUTE_SCORE,
      MAX_ROUTE_WEIGHT]
  have hrounds : [((0 : Nat), (4 : ℚ)), (1, 1)].foldl candidateRound (toyShares a b m n, 0) =
      (toyShares (a + 4) (b + 1) m n, if a + 4 < b + 1 then 1 else 0) := by
    by_cases hlt : a + 4 < b + 1
    · simp [toyShares, candidateRound, hlt, List.modify, LearnedRouteTable.fresh]
    · by_cases heq : b + 1 = a + 4
      · simp [toyShares, candidateRound, List.modify, LearnedRouteTable.fresh, heq, compareRoutes, compareOfLessAndEq]
      · simp [toyShares, candidateRound, hlt, List.modify, LearnedRouteTable.fresh, heq]
  have htotal : ([((0 : Nat), (4 : ℚ)), (1, 1)].map Prod.snd).sum = 5 := by norm_num
  have hpaid : (toyShares (a + 4) (b + 1) m n).modify (if a + 4 < b + 1 then 1 else 0) (pay 5) =
      if a + 4 < b + 1 then toyShares (a + 4) (b + 1 - 5) m (n + 1) else toyShares (a + 4 - 5) (b + 1) (m + 1) n := by
    split
    · rfl
    · rfl
  unfold selectNextHop
  rw [show JsMap.get (⟨[([9], toyShares a b m n)]⟩ : LearnedRouteTable).routes [9] = some (toyShares a b m n) from rfl]
  dsimp only
  rw [hlive, hsendable, if_neg (show toyShares a b m n ≠ [] from List.cons_ne_nil _ _)]
  dsimp only
  rw [hrounds, htotal]
  dsimp only
  rw [hpaid]
  split
  · rw [show (toyShares (a + 4) (b + 1 - 5) m (n + 1)).length = 2 from rfl, hsorted]
    rfl
  · rw [show (toyShares (a + 4 - 5) (b + 1) (m + 1) n).length = 2 from rfl, hsorted]
    rfl

/-- Five selections, and a failure for another node in between. -/
def toySelections : List RouteCall :=
  List.replicate 2 (.selectNextHop [9] 5 fun _ => true) ++ .recordFailure [8] [1] ::
    List.replicate 3 (.selectNextHop [9] 5 fun _ => true)

theorem toySelections_picks : picks id [9] ⟨[([9], toyShares 0 0 0 0)]⟩ toySelections = [[1], [1], [2], [1], [1]] := by
  have hother (routes : List LearnedRoute) : recordFailure [8] [1] ⟨[([9], routes)]⟩ = ⟨[([9], routes)]⟩ := rfl
  norm_num [picks, picked, toySelections, call, toyShares_select, hother, List.replicate]

theorem weighted_fairness_toy :
    let t : LearnedRouteTable := ⟨[([9], toyShares 0 0 0 0)]⟩
    (((Run.run (call id) t toySelections).list [9]).map LearnedRoute.currentWeight).sum = 0 ∧
      (picks id [9] t toySelections).length = 5 ∧
      3 ≤ (picks id [9] t toySelections).count [1] ∧ (picks id [9] t toySelections).count [1] ≤ 4 := by
  intro t
  have hlist : t.list [9] = toyShares 0 0 0 0 := rfl
  have hcalls : ∀ call ∈ toySelections, Undisturbed [9] (toyShares 0 0 0 0) call := by
    have hselects : Undisturbed [9] (toyShares 0 0 0 0) (.selectNextHop [9] 5 fun _ => true) := by
      rintro - route hroute
      simp only [toyShares, List.mem_cons, List.not_mem_nil, or_false] at hroute
      rcases hroute with rfl | rfl
      · exact ⟨by norm_num [LearnedRouteTable.fresh], rfl⟩
      · exact ⟨by norm_num [LearnedRouteTable.fresh], rfl⟩
    intro call hcall
    rcases List.mem_append.1 hcall with hcall | hcall
    · exact List.eq_of_mem_replicate hcall ▸ hselects
    · rcases List.mem_cons.1 hcall with rfl | hcall
      · exact show ([8] : NodeAddr) ≠ [9] by decide
      · exact List.eq_of_mem_replicate hcall ▸ hselects
  obtain ⟨hsum, hshares⟩ := weighted_fairness id t [9] toySelections (by rw [hlist]; decide)
    (by rw [hlist]; simp [toyShares]) hcalls
  have hlength : (picks id [9] t toySelections).length = 5 := congrArg List.length toySelections_picks
  obtain ⟨hlower, hupper⟩ := hshares _ (show (toyShares 0 0 0 0)[0] ∈ t.list [9] from List.mem_cons_self)
  have hweight : routeWeight id (toyShares 0 0 0 0)[0] = 4 := by
    norm_num [toyShares, routeWeight, clamp, MIN_ROUTE_SCORE, MAX_ROUTE_SCORE, MAX_ROUTE_WEIGHT]
  have htotal : ((t.list [9]).map (routeWeight id)).sum = 5 := by
    rw [hlist]
    norm_num [toyShares, LearnedRouteTable.fresh, routeWeight, clamp, MIN_ROUTE_SCORE, MAX_ROUTE_SCORE,
      MAX_ROUTE_WEIGHT]
  rw [hlength, hweight, htotal] at hlower hupper
  rw [show (t.list [9]).length = 2 from rfl] at hupper
  change (5 : ℚ) * 4 - 5 * ((picks id [9] t toySelections).count [1] : ℚ) ≤ _ at hupper
  change _ < (5 : ℚ) * 4 - 5 * ((picks id [9] t toySelections).count [1] : ℚ) at hlower
  refine ⟨hsum, hlength, ?_, ?_⟩
  · have h3 : (3 : ℚ) ≤ (picks id [9] t toySelections).count [1] := by
      push_cast at hupper
      linarith
    exact_mod_cast h3
  · have h5 : ((picks id [9] t toySelections).count [1] : ℚ) < 5 := by linarith
    have : (picks id [9] t toySelections).count [1] < 5 := by exact_mod_cast h5
    omega

end LearnedRouteTable
end Fips
