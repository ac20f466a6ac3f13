import Monolake.Http.Route

/-!
What becomes of bad routes. A path that the router rejects is reported, but a list
of upstreams that forms no balancer is unwrapped: it panics, unless a path in front
of it has been rejected.
-/
namespace Monolake.Http

universe u v w
open Common
variable {S : Type u} {I E : Type v} {D : Type w}

/-- The upstreams of a route form a balancer: there are some, and weights that are
gone by make a distribution. -/
def RouteConfig.Forms (rand : Rand UInt16 D) (route : RouteConfig) : Prop :=
  match route.loadBalancer with
  | .weightedRandom => ∃ n dist,
      rand.newWeightedIndex (weights route.upstreams) = (n, some (.ok dist))
  | _ => route.upstreams ≠ []

theorem RouteConfig.forms_iff (rand : Rand UInt16 D) (route : RouteConfig) :
    route.Forms rand ↔ ∃ balancer : LoadBalancer Endpoint D,
      LoadBalancer.tryFromUpstreams rand route.loadBalancer route.upstreams =
        some (.ok balancer) := by
  obtain ⟨id, lb, path, upstreams⟩ := route
  cases lb with
  | random =>
      rw [LoadBalancer.tryFromUpstreams_random]
      by_cases empty : upstreams = [] <;> simp [Forms, empty]
  | weightedRandom =>
      constructor
      · rintro ⟨n, dist, hnew⟩
        rw [LoadBalancer.tryFromUpstreams_weighted, hnew]
        exact ⟨_, rfl⟩
      · rintro ⟨balancer, h⟩
        obtain ⟨n, dist, hnew, -⟩ := LoadBalancer.tryFromUpstreams_weighted_ok h
        exact ⟨n, dist, hnew⟩
  | roundRobin =>
      rw [LoadBalancer.tryFromUpstreams_roundRobin]
      by_cases empty : upstreams = [] <;> simp [Forms, empty]
  | first => cases upstreams <;> simp [Forms, LoadBalancer.tryFromUpstreams]

/-- The router takes the paths one after the other, behind those that are there. -/
def Matchit.Accepts (matchit : Matchit I) : List String → List String → Prop
  | _, [] => True
  | inserted, path :: paths =>
      matchit.insert inserted path = none ∧ matchit.Accepts (inserted ++ [path]) paths

theorem accepts_append {matchit : Matchit I} {inserted paths paths' : List String} :
    matchit.Accepts inserted (paths ++ paths') ↔
      matchit.Accepts inserted paths ∧ matchit.Accepts (inserted ++ paths) paths' := by
  induction paths generalizing inserted with
  | nil => simp [Matchit.Accepts]
  | cons path paths ih =>
      rw [List.cons_append, Matchit.Accepts, Matchit.Accepts, ih, and_assoc, List.append_assoc]
      rfl

/-- Every route that is reached forms a balancer: those in front of a route that is
reached have been accepted. -/
def FormsWhereReached (matchit : Matchit I) (rand : Rand UInt16 D) (inserted : List String)
    (iter : List RouteConfig) : Prop :=
  ∀ past route rest, iter = past ++ route :: rest →
    matchit.Accepts inserted (past.map RouteConfig.path) → route.Forms rand

section
variable {matchit : Matchit I} {rand : Rand UInt16 D}

theorem FormsWhereReached.tail {inserted : List String} {route : RouteConfig}
    {iter : List RouteConfig} (h : FormsWhereReached matchit rand inserted (route :: iter))
    (accepted : matchit.insert inserted route.path = none) :
    FormsWhereReached matchit rand (inserted ++ [route.path]) iter := by
  intro past route' rest split accepts
  exact h (route :: past) route' rest (by rw [split]; rfl) ⟨accepted, accepts⟩

theorem formed_of_accepts {inserted : List String} {iter : List RouteConfig}
    (h : FormsWhereReached matchit rand inserted iter)
    (accepts : matchit.Accepts inserted (iter.map RouteConfig.path)) :
    ∀ route ∈ iter, route.Forms rand := by
  intro route hroute
  obtain ⟨past, rest, split⟩ := List.append_of_mem hroute
  rw [split, List.map_append, accepts_append] at accepts
  exact h past route rest split accepts.1

/-- Routes that form balancers where they are reached: there is a result, and it is
an error exactly when a path is rejected. -/
theorem insertAll_returns {router : Router (LoadBalancer Endpoint D)} {iter : List RouteConfig}
    (h : FormsWhereReached matchit rand router.paths iter) :
    ∃ result : Except (RoutingFactoryError I E) (Router (LoadBalancer Endpoint D)),
      router.insertAll matchit rand iter = some result ∧
      ((∃ e, result = .error e) ↔ ¬ matchit.Accepts router.paths (iter.map RouteConfig.path)) := by
  induction iter generalizing router with
  | nil => exact ⟨.ok router, rfl, by simp [Matchit.Accepts]⟩
  | cons route iter ih =>
      obtain ⟨balancer, made⟩ := (route.forms_iff rand).mp (h [] route iter rfl trivial)
      rw [List.map_cons, Matchit.Accepts]
      cases rejected : matchit.insert router.paths route.path with
      | some e =>
          have inserted : router.insert matchit route.path balancer = .error e := by
            rw [Router.insert, rejected]
          refine ⟨.error (.router e), ?_, by simp⟩
          rw [Router.insertAll, made]
          simp only [inserted]
      | none =>
          obtain ⟨next, inserted⟩ := Router.insert_accepted rejected balancer
          have rest := h.tail rejected
          rw [← Router.insert_paths inserted] at rest
          obtain ⟨result, hresult, herror⟩ := ih rest
          rw [Router.insertAll_cons made inserted]
          refine ⟨result, hresult, ?_⟩
          rw [herror, Router.insert_paths inserted]
          simp

theorem insertAll_unformed {router : Router (LoadBalancer Endpoint D)} {route : RouteConfig}
    (unformed : ¬ route.Forms rand) (iter : List RouteConfig) :
    router.insertAll (E := E) matchit rand (route :: iter) = none := by
  rw [Router.insertAll]
  cases made : LoadBalancer.tryFromUpstreams rand route.loadBalancer route.upstreams with
  | none => rfl
  | some result =>
      cases result with
      | error e => rfl
      | ok balancer => exact absurd ((route.forms_iff rand).mpr ⟨balancer, made⟩) unformed

/-- A route that is reached and forms no balancer makes the loop panic. -/
theorem insertAll_panics {router : Router (LoadBalancer Endpoint D)}
    {past rest : List RouteConfig} {route : RouteConfig}
    (reached : matchit.Accepts router.paths (past.map RouteConfig.path))
    (unformed : ¬ route.Forms rand) :
    router.insertAll (E := E) matchit rand (past ++ route :: rest) = none := by
  induction past generalizing router with
  | nil => exact insertAll_unformed unformed rest
  | cons first past ih =>
      by_cases formed : first.Forms rand
      · obtain ⟨balancer, made⟩ := (first.forms_iff rand).mp formed
        obtain ⟨accepted, reached⟩ := reached
        obtain ⟨next, inserted⟩ := Router.insert_accepted accepted balancer
        rw [List.cons_append, Router.insertAll_cons made inserted]
        apply ih
        rw [Router.insert_paths inserted]
        exact reached
      · exact insertAll_unformed formed _

/-- A list of routes is handled as it should be: no panic, an error exactly when a
route forms no balancer or a path is rejected, also from the factory, and otherwise
a router with every route. -/
structure Reported (S : Type u) (E : Type v) (matchit : Matchit I) (rand : Rand UInt16 D)
    (routes : List RouteConfig) : Prop where
  returns : Router.newFromIter (E := E) matchit rand routes ≠ none
  error_iff : (∃ e, Router.newFromIter (E := E) matchit rand routes = some (.error e)) ↔
    (∃ route ∈ routes, ¬ route.Forms rand) ∨ ¬ matchit.Accepts [] (routes.map RouteConfig.path)
  complete : ∀ router, Router.newFromIter (E := E) matchit rand routes = some (.ok router) →
    List.Forall₂ (Router.Made rand) routes router.entries
  make : (∃ route ∈ routes, ¬ route.Forms rand) ∨
      ¬ matchit.Accepts [] (routes.map RouteConfig.path) →
    ∀ (inner : Option S → Except E S) (old : Option (RewriteAndRouteHandler S D)),
      ∃ e, RewriteAndRouteHandlerFactory.makeViaRef matchit rand { inner, routes } old =
        some (.error e)

/-- Bad routes are reported if and only if every route forms a balancer, up to the
first whose path is rejected. -/
theorem bad_routes_reported_iff {routes : List RouteConfig} :
    Reported S E matchit rand routes ↔
      ∀ past route rest, routes = past ++ route :: rest →
        matchit.Accepts [] (past.map RouteConfig.path) → route.Forms rand := by
  constructor
  · intro reported past route rest split accepts
    by_contra unformed
    apply reported.returns
    rw [split]
    exact insertAll_panics accepts unformed
  · intro formed
    have reached : FormsWhereReached matchit rand (Router.paths (T := LoadBalancer Endpoint D)
      Router.new) routes := formed
    obtain ⟨result, hresult, herror⟩ := insertAll_returns (E := E) reached
    have invalid_iff : (∃ route ∈ routes, ¬ route.Forms rand) ∨
        ¬ matchit.Accepts [] (routes.map RouteConfig.path) ↔
          ¬ matchit.Accepts [] (routes.map RouteConfig.path) := by
      constructor
      · rintro (⟨route, hroute, unformed⟩ | rejected)
        · exact fun accepts => unformed (formed_of_accepts reached accepts route hroute)
        · exact rejected
      · exact .inr
    have result_eq : Router.newFromIter (E := E) matchit rand routes = some result := hresult
    constructor
    case returns =>
      rw [result_eq]
      exact Option.some_ne_none _
    case error_iff =>
      rw [invalid_iff, result_eq]
      simp only [Option.some.injEq]
      exact herror
    case complete =>
      intro router made
      exact Router.newFromIter_ok made
    case make =>
      intro invalid inner old
      obtain ⟨e, rfl⟩ := herror.mpr (invalid_iff.mp invalid)
      refine ⟨e, ?_⟩
      rw [RewriteAndRouteHandlerFactory.makeViaRef, result_eq]

end

/-- A route without upstreams. -/
theorem empty_upstreams_panic :
    ¬ Reported Unit String staticPaths (weightedIndex true)
      [{ id := "", loadBalancer := .random, path := "/", upstreams := [] }] := by
  intro reported
  exact reported.returns rfl

end Monolake.Http
