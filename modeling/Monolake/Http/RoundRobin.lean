import Monolake.Http.Route

/-!
Round robin under any mix of traffic. Every route has a turn of its own, which
only the requests that match it move on.
-/
namespace Monolake.Http

universe u v w
open Common Foundation
variable {I : Type v} {D : Type w} {matchit : Matchit I} {rand : Rand UInt16 D}

/-- What the requests that match one of the paths were given. -/
def given (matchit : Matchit I) (paths : List String) (i : Nat) (requests : List (String × Nat))
    (results : List (Except (RouterError Empty) (Ref Endpoint))) : List (Ref Endpoint) :=
  (requests.zip results).filterMap fun (request, result) =>
    if matchit.at_ paths request.1 = some i then result.toOption else none

section
variable {paths : List String} {i : Nat} {request : String × Nat} {requests : List (String × Nat)}
  {results : List (Except (RouterError Empty) (Ref Endpoint))}

theorem given_matched (h : matchit.at_ paths request.1 = some i) (out : Ref Endpoint) :
    given matchit paths i (request :: requests) (.ok out :: results) =
      out :: given matchit paths i requests results := by
  simp [given, h, Except.toOption]

theorem given_unmatched (h : matchit.at_ paths request.1 ≠ some i)
    (result : Except (RouterError Empty) (Ref Endpoint)) :
    given matchit paths i (request :: requests) (result :: results) =
      given matchit paths i requests results := by
  simp [given, h]

end

/-- Every route has a round robin over its upstreams, and this many requests have
had their turn there. -/
structure Turns (routes : List RouteConfig) (turn : Nat → Nat)
    (router : Router (LoadBalancer Endpoint D)) : Prop where
  paths : router.paths = routes.map RouteConfig.path
  balancers : ∀ (i : Nat) (route : RouteConfig), routes[i]? = some route →
    0 < route.upstreams.length ∧ router.entries[i]? = some (route.path, .roundRobin
      { collection := endpoints route.upstreams, nextIdx := turn i % route.upstreams.length })

section
variable {routes : List RouteConfig} {turn : Nat → Nat} {router : Router (LoadBalancer Endpoint D)}

theorem turns_start {E : Type v} (roundRobin : ∀ route ∈ routes, route.loadBalancer = .roundRobin)
    (made : Router.newFromIter (E := E) matchit rand routes = some (.ok router)) :
    Turns routes (fun _ => 0) router := by
  have all := Router.newFromIter_ok made
  refine ⟨Router.made_paths all, fun i route hi => ?_⟩
  obtain ⟨⟨path, balancer⟩, hentry, hpath, hmade⟩ := Router.made_entry all hi
  rw [roundRobin route (List.mem_of_getElem? hi), LoadBalancer.tryFromUpstreams_roundRobin] at hmade
  split at hmade
  · cases hmade
  · rename_i nonempty
    cases hmade
    refine ⟨List.length_pos_of_ne_nil nonempty, ?_⟩
    rw [hentry, ← hpath, Nat.zero_mod]

/-- A turn moves the round robin of its route on. -/
theorem Turns.next (h : Turns routes turn router) {i : Nat} {route : RouteConfig}
    (hi : routes[i]? = some route) :
    Turns routes (Function.update turn i (turn i + 1))
      { entries := router.entries.set i (route.path, LoadBalancer.roundRobin
          { collection := endpoints route.upstreams
            nextIdx := (turn i % route.upstreams.length + 1) % route.upstreams.length }) } := by
  obtain ⟨some_upstream, hentry⟩ := h.balancers i route hi
  have inside := (List.getElem?_eq_some_iff.mp hentry).1
  constructor
  case paths =>
    have same : (router.entries.map Prod.fst)[i]? = some route.path := by
      rw [List.getElem?_map, hentry, Option.map_some]
    obtain ⟨within, same⟩ := List.getElem?_eq_some_iff.mp same
    rw [← h.paths, Router.paths, Router.paths, List.map_set, ← same, List.set_getElem_self]
  case balancers =>
    intro j other hj
    by_cases hij : i = j
    · subst hij
      obtain rfl : route = other := Option.some.inj (hi.symm.trans hj)
      refine ⟨some_upstream, ?_⟩
      rw [List.getElem?_set_self inside, Function.update_self, Nat.mod_add_mod]
    · obtain ⟨some_other, hother⟩ := h.balancers j other hj
      refine ⟨some_other, ?_⟩
      rw [List.getElem?_set_ne hij, Function.update_of_ne (Ne.symm hij), hother]

/-- One request: it matches no route, or it has the turn of the route it matches. -/
theorem Turns.select (matchit : Matchit I) (rand : Rand UInt16 D) (h : Turns routes turn router)
    (path : String) (draw : Nat) :
    ((∀ (i : Nat) (route : RouteConfig), routes[i]? = some route →
        matchit.at_ (routes.map RouteConfig.path) path ≠ some i) ∧
      router.select matchit rand path draw = some (.error .routeEmpty, router)) ∨
    ∃ (i : Nat) (route : RouteConfig) (out : Ref Endpoint)
        (router' : Router (LoadBalancer Endpoint D)),
      routes[i]? = some route ∧ matchit.at_ (routes.map RouteConfig.path) path = some i ∧
      router.select matchit rand path draw = some (.ok out, router') ∧
      out.position = turn i % route.upstreams.length ∧ out.On (endpoints route.upstreams) ∧
      Turns routes (Function.update turn i (turn i + 1)) router' := by
  rw [Router.select, h.paths]
  cases hat : matchit.at_ (routes.map RouteConfig.path) path with
  | none =>
      left
      exact ⟨fun i route _ => Option.some_ne_none i |>.symm, rfl⟩
  | some i =>
      cases hi : routes[i]? with
      | none =>
          left
          have length := congrArg List.length h.paths
          rw [Router.paths, List.length_map, List.length_map] at length
          have absent : router.entries[i]? = none := by
            rw [List.getElem?_eq_none_iff, length]
            exact List.getElem?_eq_none_iff.mp hi
          constructor
          · intro j route hj same
            obtain rfl : i = j := Option.some.inj same
            rw [hi] at hj
            cases hj
          · simp only [absent]
      | some route =>
          right
          obtain ⟨some_upstream, hentry⟩ := h.balancers i route hi
          have within : turn i % route.upstreams.length < (endpoints route.upstreams).length := by
            rw [endpoints, List.length_map]
            exact Nat.mod_lt _ some_upstream
          have length : (endpoints route.upstreams).length = route.upstreams.length := by
            rw [endpoints, List.length_map]
          have selected := @RoundRobinSelector.select_within _
            ⟨endpoints route.upstreams, turn i % route.upstreams.length⟩ within
          refine ⟨i, route, ⟨turn i % route.upstreams.length, (endpoints route.upstreams)[
            turn i % route.upstreams.length]⟩, _, hi, rfl, ?_, rfl,
            List.getElem?_eq_getElem within, h.next hi⟩
          simp only [hentry, LoadBalancer.select, selected, Option.map_some, length]

end

/-- The requests that match a route are all given one of its upstreams, in cyclic
order from `start` on. -/
structure InTurn (matchit : Matchit I) (routes : List RouteConfig) (i : Nat) (route : RouteConfig)
    (start : Nat) (requests : List (String × Nat))
    (results : List (Except (RouterError Empty) (Ref Endpoint))) : Prop where
  served : (given matchit (routes.map RouteConfig.path) i requests results).length =
    requests.countP (fun request => matchit.at_ (routes.map RouteConfig.path) request.1 = some i)
  cyclic : Cyclic route.upstreams.length start
    ((given matchit (routes.map RouteConfig.path) i requests results).map Ref.position)
  configured : ∀ out ∈ given matchit (routes.map RouteConfig.path) i requests results,
    out.On (endpoints route.upstreams)

section
variable {routes : List RouteConfig} {i start : Nat} {route : RouteConfig} {request : String × Nat}
  {requests : List (String × Nat)} {results : List (Except (RouterError Empty) (Ref Endpoint))}

theorem InTurn.matched (h : InTurn matchit routes i route (start + 1) requests results)
    (hat : matchit.at_ (routes.map RouteConfig.path) request.1 = some i) {out : Ref Endpoint}
    (hposition : out.position = start % route.upstreams.length)
    (on : out.On (endpoints route.upstreams)) :
    InTurn matchit routes i route start (request :: requests) (.ok out :: results) := by
  constructor
  case served =>
    rw [given_matched hat, List.length_cons, h.served, List.countP_cons,
      if_pos (by simpa using hat)]
  case cyclic =>
    rw [given_matched hat, List.map_cons, cyclic_cons_iff]
    exact ⟨hposition, h.cyclic⟩
  case configured =>
    rw [given_matched hat]
    exact List.forall_mem_cons.mpr ⟨on, h.configured⟩

theorem InTurn.unmatched (h : InTurn matchit routes i route start requests results)
    (hat : matchit.at_ (routes.map RouteConfig.path) request.1 ≠ some i)
    (result : Except (RouterError Empty) (Ref Endpoint)) :
    InTurn matchit routes i route start (request :: requests) (result :: results) := by
  constructor
  case served =>
    rw [given_unmatched hat, h.served, List.countP_cons, if_neg (by simpa using hat)]
    rfl
  case cyclic =>
    rw [given_unmatched hat]
    exact h.cyclic
  case configured =>
    rw [given_unmatched hat]
    exact h.configured

end

/-- Requests in any order: those that match one route have its turns, one after
the other. -/
theorem Turns.selects {routes : List RouteConfig} {turn : Nat → Nat}
    {router : Router (LoadBalancer Endpoint D)} (matchit : Matchit I) (rand : Rand UInt16 D)
    (h : Turns routes turn router) (requests : List (String × Nat)) :
    ∃ results router' turn', router.selects matchit rand requests = some (results, router') ∧
      Turns routes turn' router' ∧
      ∀ (i : Nat) (route : RouteConfig), routes[i]? = some route →
        InTurn matchit routes i route (turn i) requests results := by
  induction requests generalizing router turn with
  | nil =>
      exact ⟨[], router, turn, rfl, h, fun i route _ =>
        ⟨rfl, cyclic_nil _ _, fun out hout => absurd hout List.not_mem_nil⟩⟩
  | cons request requests ih =>
      obtain ⟨path, draw⟩ := request
      rcases h.select matchit rand path draw with
        ⟨unmatched, hselect⟩ | ⟨j, mine, out, next, hj, hat, hselect, hposition, on, turned⟩
      · obtain ⟨results, router', turn', hselects, last, each⟩ := ih h
        exact ⟨.error .routeEmpty :: results, router', turn', Router.selects_cons hselect hselects,
          last, fun i route hi => (each i route hi).unmatched (unmatched i route hi) _⟩
      · obtain ⟨results, router', turn', hselects, last, each⟩ := ih turned
        refine ⟨.ok out :: results, router', turn', Router.selects_cons hselect hselects, last,
          fun i route hi => ?_⟩
        have own := each i route hi
        by_cases hij : j = i
        · subst hij
          obtain rfl : mine = route := Option.some.inj (hj.symm.trans hi)
          rw [Function.update_self] at own
          exact own.matched hat hposition on
        · rw [Function.update_of_ne (Ne.symm hij)] at own
          exact own.unmatched (fun same => hij (Option.some.inj (hat.symm.trans same))) _

/-- However the requests to the routes are mixed, those of one route are given its
upstreams in cyclic order, in every window each as often as any other up to one,
and the index that is next stays below their number. -/
theorem round_robin_fair {E : Type v} {routes : List RouteConfig}
    {router : Router (LoadBalancer Endpoint D)}
    (roundRobin : ∀ route ∈ routes, route.loadBalancer = .roundRobin)
    (made : Router.newFromIter (E := E) matchit rand routes = some (.ok router))
    (requests : List (String × Nat)) :
    ∃ results router', router.selects matchit rand requests = some (results, router') ∧
      ∀ (i : Nat) (route : RouteConfig), routes[i]? = some route →
        InTurn matchit routes i route 0 requests results ∧
        (∀ window, window <:+:
            (given matchit (routes.map RouteConfig.path) i requests results).map Ref.position →
          ∀ p < route.upstreams.length,
            window.count p = window.length / route.upstreams.length ∨
            window.count p =
              (window.length + route.upstreams.length - 1) / route.upstreams.length) ∧
        ∃ selector, router'.entries[i]? = some (route.path, .roundRobin selector) ∧
          selector.nextIdx < route.upstreams.length := by
  obtain ⟨results, router', turn', hselects, last, each⟩ :=
    (turns_start roundRobin made).selects matchit rand requests
  refine ⟨results, router', hselects, fun i route hi => ⟨each i route hi, ?_, ?_⟩⟩
  · intro window hwindow p hp
    obtain ⟨start, cyclic⟩ := (each i route hi).cyclic.window hwindow
    exact cyclic.count hp
  · obtain ⟨some_upstream, hentry⟩ := last.balancers i route hi
    exact ⟨_, hentry, Nat.mod_lt _ some_upstream⟩

def twoUpstreams : RouteConfig where
  id := ""
  loadBalancer := .roundRobin
  path := "/a"
  upstreams := [upstreamAt "one:80", upstreamAt "two:80"]

def oneUpstream : RouteConfig where
  id := ""
  loadBalancer := .roundRobin
  path := "/b"
  upstreams := [upstreamAt "three:80"]

def twoRoutes : Router (LoadBalancer Endpoint (List UInt16)) where
  entries := [("/a", .roundRobin ⟨endpoints twoUpstreams.upstreams, 0⟩),
    ("/b", .roundRobin ⟨endpoints oneUpstream.upstreams, 0⟩)]

/-- Three requests to a route with two upstreams, and others between them. -/
theorem mixed_requests_in_turn :
    let requests : List (String × Nat) := [("/a", 0), ("/b", 0), ("/a", 0), ("/c", 0), ("/a", 0)]
    ∃ results router', twoRoutes.selects staticPaths (weightedIndex true) requests =
        some (results, router') ∧
      InTurn staticPaths [twoUpstreams, oneUpstream] 0 twoUpstreams 0 requests results := by
  intro requests
  have roundRobin : ∀ route ∈ [twoUpstreams, oneUpstream], route.loadBalancer = .roundRobin := by
    simp [twoUpstreams, oneUpstream]
  have made : Router.newFromIter (E := Empty) staticPaths (weightedIndex true)
      [twoUpstreams, oneUpstream] = some (.ok twoRoutes) := rfl
  obtain ⟨results, router', hselects, each⟩ := round_robin_fair roundRobin made requests
  exact ⟨results, router', hselects, (each 0 twoUpstreams rfl).1⟩

end Monolake.Http
