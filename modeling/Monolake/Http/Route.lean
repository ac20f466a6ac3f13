import Monolake.Common.Selection
import Monolake.Http.Upstream

/-!
Routes: a router from path patterns to load balancers, made from a configuration,
and the factory that makes it when a handler is created or updated. The router of
the `matchit` crate is a parameter.
-/
namespace Monolake.Http

universe u v w
open Common
variable {T : Type u} {D : Type w}

structure Upstream where
  endpoint : Endpoint
  weight : UInt16

instance : IntoWeightedEndpoint Upstream Endpoint where
  intoWeightedEndpoint up := (up.endpoint, up.weight)

structure RouteConfig where
  id : String
  loadBalancer : LoadBalanceStrategy
  path : String
  upstreams : List Upstream

/-- What is used of the `matchit` crate. -/
structure Matchit (I : Type v) where
  /-- Why a path cannot be added to those inserted before, if it cannot. -/
  insert : List String → String → Option I
  /-- The number of the inserted path that a path of a request matches. -/
  at_ : List String → String → Option Nat

/-- The inserted paths in their order, each with its value. -/
structure Router (T : Type u) where
  entries : List (String × T)

inductive RouterError (E : Type v) where
  | routeEmpty
  | selectError (e : E)

inductive RoutingFactoryError (I E : Type v) where
  | inner (e : E)
  | loadBalanceError (e : LoadBalanceError)
  | router (e : I)

namespace Router
variable {I E : Type v}

def new : Router T := { entries := [] }

def paths (self : Router T) : List String := self.entries.map Prod.fst

def insert (matchit : Matchit I) (self : Router T) (path : String) (value : T) :
    Except I (Router T) :=
  match matchit.insert self.paths path with
  | some e => .error e
  | none => .ok { entries := self.entries ++ [(path, value)] }

/-- The loop of `new_from_iter`: `none` when it panics, as where a balancer that
could not be made is unwrapped. -/
def insertAll (matchit : Matchit I) (rand : Rand UInt16 D)
    (router : Router (LoadBalancer Endpoint D)) : List RouteConfig →
    Option (Except (RoutingFactoryError I E) (Router (LoadBalancer Endpoint D)))
  | [] => some (.ok router)
  | route :: iter =>
      match LoadBalancer.tryFromUpstreams rand route.loadBalancer route.upstreams with
      | some (.ok balancer) =>
          match router.insert matchit route.path balancer with
          | .ok router => insertAll matchit rand router iter
          | .error e => some (.error (.router e))
      | some (.error _) => none
      | none => none

def newFromIter (matchit : Matchit I) (rand : Rand UInt16 D) (iter : List RouteConfig) :
    Option (Except (RoutingFactoryError I E) (Router (LoadBalancer Endpoint D))) :=
  insertAll matchit rand new iter

/-- The result, and the router with its cells as `select` leaves them; `none` when
the balancer panics. -/
def select (matchit : Matchit I) (rand : Rand UInt16 D) (self : Router (LoadBalancer Endpoint D))
    (path : String) (draw : Nat) :
    Option (Except (RouterError Empty) (Ref Endpoint) × Router (LoadBalancer Endpoint D)) :=
  match matchit.at_ self.paths path with
  | none => some (.error .routeEmpty, self)
  | some i =>
      match self.entries[i]? with
      | none => some (.error .routeEmpty, self)
      | some (pattern, balancer) =>
          (balancer.select rand draw).map fun (out, balancer) =>
            (.ok out, { entries := self.entries.set i (pattern, balancer) })

/-- Requests one after the other, each with its path and its draw. -/
def selects (matchit : Matchit I) (rand : Rand UInt16 D)
    (self : Router (LoadBalancer Endpoint D)) : List (String × Nat) →
    Option (List (Except (RouterError Empty) (Ref Endpoint)) × Router (LoadBalancer Endpoint D))
  | [] => some ([], self)
  | (path, draw) :: requests =>
      match self.select matchit rand path draw with
      | none => none
      | some (result, self) =>
          (selects matchit rand self requests).map fun (results, self) => (result :: results, self)

theorem selects_cons {matchit : Matchit I} {rand : Rand UInt16 D}
    {self next last : Router (LoadBalancer Endpoint D)} {request : String × Nat}
    {requests : List (String × Nat)} {result : Except (RouterError Empty) (Ref Endpoint)}
    {results : List (Except (RouterError Empty) (Ref Endpoint))}
    (first : self.select matchit rand request.1 request.2 = some (result, next))
    (rest : next.selects matchit rand requests = some (results, last)) :
    self.selects matchit rand (request :: requests) = some (result :: results, last) := by
  rw [selects, first]
  simp only [rest, Option.map_some]

/-- An entry is made from a route. -/
def Made (rand : Rand UInt16 D) (route : RouteConfig) (entry : String × LoadBalancer Endpoint D) :
    Prop :=
  entry.1 = route.path ∧
    LoadBalancer.tryFromUpstreams rand route.loadBalancer route.upstreams = some (.ok entry.2)

section
variable {matchit : Matchit I} {rand : Rand UInt16 D}

theorem made_paths {iter : List RouteConfig} {entries : List (String × LoadBalancer Endpoint D)}
    (h : List.Forall₂ (Made rand) iter entries) :
    entries.map Prod.fst = iter.map RouteConfig.path := by
  induction h with
  | nil => rfl
  | cons made _ ih => rw [List.map_cons, List.map_cons, ih, made.1]

theorem made_entry {iter : List RouteConfig} {entries : List (String × LoadBalancer Endpoint D)}
    (h : List.Forall₂ (Made rand) iter entries) {i : Nat} {route : RouteConfig}
    (hi : iter[i]? = some route) : ∃ entry, entries[i]? = some entry ∧ Made rand route entry := by
  induction h generalizing i with
  | nil => cases hi
  | cons made _ ih =>
      cases i with
      | zero =>
          cases hi
          exact ⟨_, rfl, made⟩
      | succ i => exact ih hi

theorem made_mem {iter : List RouteConfig} {entries : List (String × LoadBalancer Endpoint D)}
    (h : List.Forall₂ (Made rand) iter entries) {entry : String × LoadBalancer Endpoint D}
    (hentry : entry ∈ entries) : ∃ route ∈ iter, Made rand route entry := by
  induction h with
  | nil => cases hentry
  | cons made _ ih =>
      cases hentry with
      | head => exact ⟨_, List.mem_cons_self, made⟩
      | tail _ later =>
          obtain ⟨route, hroute, made'⟩ := ih later
          exact ⟨route, List.mem_cons_of_mem _ hroute, made'⟩

/-- The first route, when it is accepted. -/
theorem insertAll_cons {router router' : Router (LoadBalancer Endpoint D)} {route : RouteConfig}
    {iter : List RouteConfig} {balancer : LoadBalancer Endpoint D}
    (made : LoadBalancer.tryFromUpstreams rand route.loadBalancer route.upstreams =
      some (.ok balancer))
    (inserted : router.insert matchit route.path balancer = .ok router') :
    insertAll (E := E) matchit rand router (route :: iter) =
      insertAll matchit rand router' iter := by
  rw [insertAll, made]
  simp only [inserted]

theorem insert_entries {router router' : Router T} {path : String} {value : T}
    (h : router.insert matchit path value = .ok router') :
    router'.entries = router.entries ++ [(path, value)] := by
  rw [insert] at h
  split at h
  · cases h
  · cases h
    rfl

theorem insert_paths {router router' : Router T} {path : String} {value : T}
    (h : router.insert matchit path value = .ok router') :
    router'.paths = router.paths ++ [path] := by
  rw [paths, paths, insert_entries h, List.map_append]
  rfl

theorem insert_accepted {router : Router T} {path : String}
    (h : matchit.insert router.paths path = none) (value : T) :
    ∃ router', router.insert matchit path value = .ok router' := by
  rw [insert, h]
  exact ⟨_, rfl⟩

theorem insertAll_ok {router router' : Router (LoadBalancer Endpoint D)}
    {iter : List RouteConfig}
    (h : insertAll (E := E) matchit rand router iter = some (.ok router')) :
    ∃ entries, router'.entries = router.entries ++ entries ∧
      List.Forall₂ (Made rand) iter entries := by
  induction iter generalizing router with
  | nil =>
      cases h
      exact ⟨[], (List.append_nil _).symm, .nil⟩
  | cons route iter ih =>
      cases made : LoadBalancer.tryFromUpstreams rand route.loadBalancer route.upstreams with
      | none =>
          rw [insertAll, made] at h
          cases h
      | some result =>
          cases result with
          | error e =>
              rw [insertAll, made] at h
              cases h
          | ok balancer =>
              cases inserted : router.insert matchit route.path balancer with
              | error e =>
                  rw [insertAll, made] at h
                  simp only [inserted] at h
                  cases h
              | ok next =>
                  rw [insertAll_cons made inserted] at h
                  obtain ⟨entries, happend, all⟩ := ih h
                  refine ⟨(route.path, balancer) :: entries, ?_, .cons ⟨rfl, made⟩ all⟩
                  rw [happend, insert_entries inserted, List.append_assoc]
                  rfl

/-- A router that is made has all routes, in their order. -/
theorem newFromIter_ok {router : Router (LoadBalancer Endpoint D)} {iter : List RouteConfig}
    (h : newFromIter (E := E) matchit rand iter = some (.ok router)) :
    List.Forall₂ (Made rand) iter router.entries := by
  obtain ⟨entries, happend, all⟩ := insertAll_ok h
  rw [happend]
  exact all

end

end Router

/-- A handler behind the routing, of type `S`. -/
structure RewriteAndRouteHandler (S : Type u) (D : Type w) where
  selector : Router (LoadBalancer Endpoint D)
  inner : S

structure RewriteAndRouteHandlerFactory (S : Type u) (E : Type v) where
  /-- `make_via_ref` of the factory behind. -/
  inner : Option S → Except E S
  routes : List RouteConfig

def RewriteAndRouteHandlerFactory.makeViaRef {S : Type u} {I E : Type v}
    (matchit : Matchit I) (rand : Rand UInt16 D) (self : RewriteAndRouteHandlerFactory S E)
    (old : Option (RewriteAndRouteHandler S D)) :
    Option (Except (RoutingFactoryError I E) (RewriteAndRouteHandler S D)) :=
  match Router.newFromIter matchit rand self.routes with
  | none => none
  | some (.error e) => some (.error e)
  | some (.ok selector) =>
      match self.inner (old.map RewriteAndRouteHandler.inner) with
      | .error e => some (.error (.inner e))
      | .ok inner => some (.ok { selector, inner })

/-- Paths without parameters: none can be inserted twice. -/
def staticPaths : Matchit String where
  insert paths path := if path ∈ paths then some path else none
  at_ paths path := paths.idxOf? path

def upstreamAt (authority : String) : Upstream where
  endpoint := .uri ⟨some "http", some authority, some ⟨"/", none⟩⟩
  weight := 1

end Monolake.Http
