import Fips.Lib.JsMap
import Fips.Fsp.Wire

/-!
# `node/LearnedRouteTable.ts`: routes learned from replies

Per destination a list of next hops, sorted by score. Scores and weights are rationals; `pow15` is
`Math.pow(x, 1.5)`, which only decides between usable routes. Node keys are the addresses they spell in hex,
whose order is that of the strings.
-/

namespace Fips

def MIN_ROUTE_SCORE : ℚ := 1 / 20
def MAX_ROUTE_SCORE : ℚ := 64
def MAX_ROUTE_WEIGHT : ℚ := 512

structure LearnedRoute where
  nextHop : NodeAddr
  lastSeenMs : ℚ
  expiresAtMs : ℚ
  successes : Nat
  failures : Nat
  score : ℚ
  currentWeight : ℚ
  selected : Nat
  pathMtu : Option Nat
  pathMtuExpiresAtMs : Option ℚ
deriving DecidableEq

def clamp (value minimum maximum : ℚ) : ℚ := min maximum (max minimum value)

def routeWeight (pow15 : ℚ → ℚ) (route : LearnedRoute) : ℚ :=
  clamp (pow15 (clamp route.score MIN_ROUTE_SCORE MAX_ROUTE_SCORE)) MIN_ROUTE_SCORE MAX_ROUTE_WEIGHT

def compareRoutes (left right : LearnedRoute) : Ordering :=
  if left.score ≠ right.score then compareOfLessAndEq right.score left.score
  else if left.lastSeenMs ≠ right.lastSeenMs then compareOfLessAndEq right.lastSeenMs left.lastSeenMs
  else compareOfLessAndEq left.nextHop right.nextHop

structure LearnedRouteTable where
  routes : JsMap NodeAddr (List LearnedRoute)
deriving DecidableEq

namespace LearnedRouteTable

def empty : LearnedRouteTable := ⟨[]⟩

def sortAndTruncate (routes : List LearnedRoute) (maximum : Nat) : List LearnedRoute :=
  (routes.mergeSort fun a b => compareRoutes a b ≠ .gt).take maximum

def retainLive (routes : List LearnedRoute) (nowMs : ℚ) : List LearnedRoute := routes.filter (·.expiresAtMs > nowMs)

/-- A route heard of again. -/
def reinforce (nowMs expiresAtMs : ℚ) (pathMtu : Option Nat) (existing : LearnedRoute) : LearnedRoute :=
  { existing with
    successes := existing.successes + 1
    lastSeenMs := nowMs
    expiresAtMs
    score := clamp (existing.score + 1) MIN_ROUTE_SCORE MAX_ROUTE_SCORE
    pathMtu := pathMtu.orElse fun _ => existing.pathMtu
    pathMtuExpiresAtMs := if pathMtu.isSome then some expiresAtMs else existing.pathMtuExpiresAtMs }

/-- A route heard of for the first time. -/
def fresh (nextHop : NodeAddr) (nowMs expiresAtMs : ℚ) (pathMtu : Option Nat) : LearnedRoute where
  nextHop
  lastSeenMs := nowMs
  expiresAtMs
  successes := 1
  failures := 0
  score := 1
  currentWeight := 0
  selected := 0
  pathMtu
  pathMtuExpiresAtMs := pathMtu.map fun _ => expiresAtMs

/-- The first route through `nextHop` is changed by `f`. -/
def modifyRoute (nextHop : NodeAddr) (f : LearnedRoute → LearnedRoute) : List LearnedRoute → List LearnedRoute
  | [] => []
  | route :: routes => if route.nextHop = nextHop then f route :: routes else route :: modifyRoute nextHop f routes

/-- The routes of a destination after `learn`, before they are sorted. -/
def heard (nextHop : NodeAddr) (nowMs expiresAtMs : ℚ) (pathMtu : Option Nat) (routes : List LearnedRoute) :
    List LearnedRoute :=
  if routes.any (·.nextHop = nextHop) then modifyRoute nextHop (reinforce nowMs expiresAtMs pathMtu) routes
  else routes ++ [fresh nextHop nowMs expiresAtMs pathMtu]

def learn (destination nextHop : NodeAddr) (nowMs ttlSeconds : ℚ) (maxRoutesPerDestination : Nat) (pathMtu : Option Nat)
    (t : LearnedRouteTable) : LearnedRouteTable :=
  if destination = nextHop ∨ maxRoutesPerDestination = 0 then t
  else
    let routes := heard nextHop nowMs (nowMs + ttlSeconds * 1000) pathMtu ((t.routes.get destination).getD [])
    ⟨t.routes.set destination (sortAndTruncate routes maxRoutesPerDestination)⟩

def pathMtu (destination nextHop : NodeAddr) (nowMs : ℚ) (t : LearnedRouteTable) : Option Nat :=
  match ((t.routes.get destination).getD []).find? (·.nextHop = nextHop) with
  | some route => if route.pathMtuExpiresAtMs.getD 0 > nowMs then route.pathMtu else none
  | none => none

def recordFailure (destination nextHop : NodeAddr) (t : LearnedRouteTable) : LearnedRouteTable :=
  match t.routes.get destination with
  | some routes =>
    ⟨t.routes.set destination (modifyRoute nextHop (fun route => { route with
      failures := route.failures + 1
      score := max (route.score * (1 / 2)) MIN_ROUTE_SCORE
      currentWeight := min route.currentWeight 0 }) routes)⟩
  | none => t

/-- One round of the smooth weighted round robin: the weight of candidate `i` is added, and it is selected if
it is now ahead. -/
def candidateRound (acc : List LearnedRoute × Nat) (candidate : Nat × ℚ) : List LearnedRoute × Nat :=
  let routes := acc.1.modify candidate.1 fun route => { route with currentWeight := route.currentWeight + candidate.2 }
  match routes[acc.2]?, routes[candidate.1]? with
  | some selected, some route =>
    if route.currentWeight > selected.currentWeight
      ∨ (route.currentWeight = selected.currentWeight ∧ compareRoutes route selected = .lt) then (routes, candidate.1)
    else (routes, acc.2)
  | _, _ => (routes, acc.2)

/-- The selected route pays the total weight. -/
def pay (totalWeight : ℚ) (route : LearnedRoute) : LearnedRoute :=
  { route with currentWeight := route.currentWeight - totalWeight, selected := route.selected + 1 }

/-- The indices and weights of the routes that can be sent on. -/
def sendable (pow15 : ℚ → ℚ) (canSend : NodeAddr → Bool) (routes : List LearnedRoute) : List (Nat × ℚ) :=
  (routes.zipIdx.filter fun e => canSend e.1.nextHop).map fun e => (e.2, routeWeight pow15 e.1)

def selectNextHop (pow15 : ℚ → ℚ) (destination : NodeAddr) (nowMs : ℚ) (canSend : NodeAddr → Bool)
    (t : LearnedRouteTable) : Option NodeAddr × LearnedRouteTable :=
  match t.routes.get destination with
  | none => (none, t)
  | some routes =>
    let routes := retainLive routes nowMs
    if routes = [] then (none, ⟨t.routes.delete destination⟩)
    else
      match sendable pow15 canSend routes with
      | [] => (none, ⟨t.routes.set destination routes⟩)
      | first :: rest =>
        let totalWeight := ((first :: rest).map Prod.snd).sum
        let (routes, selected) := (first :: rest).foldl candidateRound (routes, first.1)
        let routes := routes.modify selected (pay totalWeight)
        (routes[selected]?.map LearnedRoute.nextHop, ⟨t.routes.set destination (sortAndTruncate routes routes.length)⟩)

def has (destination : NodeAddr) (nowMs : ℚ) (t : LearnedRouteTable) : Bool × LearnedRouteTable :=
  match t.routes.get destination with
  | none => (false, t)
  | some routes =>
    let routes := retainLive routes nowMs
    if routes = [] then (false, ⟨t.routes.delete destination⟩) else (true, ⟨t.routes.set destination routes⟩)

/-! ### One route per next hop -/

/-- The next hops of a destination are distinct. -/
def Distinct (t : LearnedRouteTable) : Prop :=
  ∀ destination routes, t.routes.get destination = some routes → (routes.map LearnedRoute.nextHop).Nodup

section
variable {routes : List LearnedRoute} {nextHop : NodeAddr} {f : LearnedRoute → LearnedRoute}

theorem map_nextHop_modifyRoute (hf : ∀ route, (f route).nextHop = route.nextHop) :
    (modifyRoute nextHop f routes).map LearnedRoute.nextHop = routes.map LearnedRoute.nextHop := by
  induction routes with
  | nil => rfl
  | cons route routes ih =>
    unfold modifyRoute
    split
    · rw [List.map_cons, List.map_cons, hf]
    · rw [List.map_cons, List.map_cons, ih]

theorem map_nextHop_modify (hf : ∀ route, (f route).nextHop = route.nextHop) (i : Nat) :
    (routes.modify i f).map LearnedRoute.nextHop = routes.map LearnedRoute.nextHop := by
  induction routes generalizing i with
  | nil => simp
  | cons route routes ih =>
    cases i with
    | zero => simp [hf]
    | succ i => simp [ih]

theorem nodup_sortAndTruncate (h : (routes.map LearnedRoute.nextHop).Nodup) (maximum : Nat) :
    ((sortAndTruncate routes maximum).map LearnedRoute.nextHop).Nodup := by
  have hperm : ((routes.mergeSort fun a b => compareRoutes a b ≠ .gt).map LearnedRoute.nextHop).Nodup :=
    (((routes.mergeSort_perm _).map _).nodup_iff).2 h
  exact hperm.sublist ((List.take_sublist _ _).map _)

theorem nodup_heard (h : (routes.map LearnedRoute.nextHop).Nodup) (nowMs expiresAtMs : ℚ) (pathMtu : Option Nat) :
    ((heard nextHop nowMs expiresAtMs pathMtu routes).map LearnedRoute.nextHop).Nodup := by
  unfold heard
  split
  · rw [map_nextHop_modifyRoute (f := reinforce nowMs expiresAtMs pathMtu) fun _ => rfl]
    exact h
  · rename_i hany
    rw [List.map_append]
    refine List.nodup_append.2 ⟨h, List.nodup_singleton _, fun a ha b hb => ?_⟩
    obtain ⟨route, hroute, rfl⟩ := List.mem_map.1 ha
    obtain rfl : b = nextHop := List.mem_singleton.1 hb
    intro he
    exact hany (List.any_eq_true.2 ⟨route, hroute, decide_eq_true he⟩)

theorem map_nextHop_candidateRounds (cs : List (Nat × ℚ)) (acc : List LearnedRoute × Nat) :
    (cs.foldl candidateRound acc).1.map LearnedRoute.nextHop = acc.1.map LearnedRoute.nextHop := by
  induction cs generalizing acc with
  | nil => rfl
  | cons c cs ih =>
    rw [List.foldl_cons, ih]
    have hmap := @map_nextHop_modify acc.1 (fun route => { route with currentWeight := route.currentWeight + c.2 }) (fun _ => rfl) c.1
    unfold candidateRound
    dsimp only
    split
    · split
      · exact hmap
      · exact hmap
    · exact hmap

end

section
variable {t : LearnedRouteTable} {destination nextHop : NodeAddr} {nowMs : ℚ}

theorem distinct_empty : empty.Distinct := nofun

theorem Distinct.set (h : t.Distinct) {routes : List LearnedRoute} (hr : (routes.map LearnedRoute.nextHop).Nodup) :
    Distinct ⟨t.routes.set destination routes⟩ := by
  intro d rs hget
  rw [JsMap.get_set] at hget
  split at hget
  · cases hget
    exact hr
  · exact h d rs hget

theorem Distinct.delete (h : t.Distinct) : Distinct ⟨t.routes.delete destination⟩ := by
  intro d rs hget
  rw [JsMap.get_delete] at hget
  split at hget
  · cases hget
  · exact h d rs hget

theorem Distinct.getD (h : t.Distinct) :
    (((t.routes.get destination).getD []).map LearnedRoute.nextHop).Nodup := by
  cases hget : t.routes.get destination with
  | none => exact List.nodup_nil
  | some routes => exact h destination routes hget

theorem Distinct.learn (h : t.Distinct) (ttlSeconds : ℚ) (maximum : Nat) (mtu : Option Nat) :
    (t.learn destination nextHop nowMs ttlSeconds maximum mtu).Distinct := by
  unfold LearnedRouteTable.learn
  split
  · exact h
  · exact h.set (nodup_sortAndTruncate (nodup_heard h.getD _ _ _) _)

theorem Distinct.selectNextHop (h : t.Distinct) (pow15 : ℚ → ℚ) (canSend : NodeAddr → Bool) :
    (t.selectNextHop pow15 destination nowMs canSend).2.Distinct := by
  unfold LearnedRouteTable.selectNextHop
  split
  · exact h
  · rename_i routes hget
    have hlive : ((retainLive routes nowMs).map LearnedRoute.nextHop).Nodup :=
      (h destination routes hget).sublist ((List.filter_sublist).map _)
    dsimp only
    split
    · exact h.delete
    · split
      · exact h.set hlive
      · rename_i first rest _
        refine h.set (nodup_sortAndTruncate ?_ _)
        rw [map_nextHop_modify (f := pay ((first :: rest).map Prod.snd).sum) fun _ => rfl]
        rw [map_nextHop_candidateRounds (first :: rest) (retainLive routes nowMs, first.1)]
        exact hlive

/-- The next hops the table lists for a destination. -/
def hops (destination : NodeAddr) (t : LearnedRouteTable) : List NodeAddr :=
  ((t.routes.get destination).getD []).map LearnedRoute.nextHop

theorem find_of_mem {routes : List LearnedRoute} (h : (routes.map LearnedRoute.nextHop).Nodup) {route : LearnedRoute}
    (hm : route ∈ routes) : routes.find? (·.nextHop = route.nextHop) = some route := by
  induction routes with
  | nil => cases hm
  | cons r routes ih =>
    have hcons := List.nodup_cons.1 h
    rcases List.mem_cons.1 hm with rfl | hm
    · rw [List.find?_cons_of_pos (by simp)]
    · rw [List.find?_cons_of_neg, ih hcons.2 hm]
      simp only [decide_eq_true_eq]
      intro he
      exact hcons.1 (he ▸ List.mem_map_of_mem hm)

theorem mem_modifyRoute {routes : List LearnedRoute} {f : LearnedRoute → LearnedRoute}
    (h : (routes.map LearnedRoute.nextHop).Nodup) {route : LearnedRoute} (hm : route ∈ modifyRoute nextHop f routes)
    (hn : route.nextHop = nextHop) : ∃ r, route = f r := by
  induction routes with
  | nil => cases hm
  | cons r routes ih =>
    have hcons := List.nodup_cons.1 h
    unfold modifyRoute at hm
    split at hm
    · rename_i hr
      rcases List.mem_cons.1 hm with rfl | hm
      · exact ⟨r, rfl⟩
      · exact absurd (hr.trans hn.symm ▸ List.mem_map_of_mem hm) hcons.1
    · rename_i hr
      rcases List.mem_cons.1 hm with rfl | hm
      · exact absurd hn hr
      · exact ih hcons.2 hm

/-- A route the table keeps after `learn` has the path MTU that was learned. -/
theorem pathMtu_learn (h : t.Distinct) {ttlSeconds : ℚ} {maximum mtu : Nat} (hne : destination ≠ nextHop) (hmax : maximum ≠ 0)
    (httl : 0 < ttlSeconds) (hkept : nextHop ∈ (t.learn destination nextHop nowMs ttlSeconds maximum (some mtu)).hops destination) :
    (t.learn destination nextHop nowMs ttlSeconds maximum (some mtu)).pathMtu destination nextHop nowMs = some mtu := by
  have hlearn := @Distinct.learn _ destination nextHop nowMs h ttlSeconds maximum (some mtu)
  have hnodup := @Distinct.getD _ destination hlearn
  unfold hops at hkept
  obtain ⟨route, hroute, hn⟩ := List.mem_map.1 hkept
  have hfind := find_of_mem hnodup hroute
  rw [hn] at hfind
  have hexp : nowMs + ttlSeconds * 1000 > nowMs := by linarith
  -- the route is the one reinforced or added
  have hvals : route.pathMtu = some mtu ∧ route.pathMtuExpiresAtMs = some (nowMs + ttlSeconds * 1000) := by
    unfold LearnedRouteTable.learn at hroute
    rw [if_neg (by simp [hne, hmax])] at hroute
    dsimp only at hroute
    rw [JsMap.get_set, if_pos rfl, Option.getD_some] at hroute
    have hmem := (List.mergeSort_perm _ _).mem_iff.1 (List.mem_of_mem_take hroute)
    unfold heard at hmem
    split at hmem
    · obtain ⟨r, rfl⟩ := mem_modifyRoute h.getD hmem hn
      exact ⟨rfl, rfl⟩
    · rename_i hany
      rcases List.mem_append.1 hmem with hmem | hmem
      · exact absurd (List.any_eq_true.2 ⟨route, hmem, decide_eq_true hn⟩) hany
      · obtain rfl := List.mem_singleton.1 hmem
        exact ⟨rfl, rfl⟩
  unfold pathMtu
  rw [hfind]
  dsimp only
  rw [hvals.2, Option.getD_some, if_pos hexp, hvals.1]

end

end LearnedRouteTable

end Fips
