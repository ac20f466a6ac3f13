import Monolake.Http.Proxying
import Monolake.Http.Rewrite

/-!
An HTTP/1 client of a site. Its requests go through the handlers one after the other, each to an
upstream of the route that it matches. Other clients go to the same routes meanwhile.
-/
namespace Monolake.Http

open Common Foundation
variable {B E F I D P Dc W : Type}

/-! The routes. -/

/-- The paths of the routes, each with a balancer for its upstreams. -/
structure Along (rand : Rand UInt16 D) (routes : List RouteConfig)
    (router : Router (LoadBalancer Endpoint D)) : Prop where
  paths : router.paths = routes.map RouteConfig.path
  balancers : ∀ (i : Nat) (route : RouteConfig), routes[i]? = some route →
    ∃ balancer, router.entries[i]? = some (route.path, balancer) ∧
      balancer.Sound rand (endpoints route.upstreams)

def Unmatched (matchit : Matchit I) (routes : List RouteConfig) (path : String) : Prop :=
  ∀ (i : Nat) (route : RouteConfig), routes[i]? = some route →
    matchit.at_ (routes.map RouteConfig.path) path ≠ some i

/-- It is an endpoint of the route that the path matches. -/
def MatchedBy (matchit : Matchit I) (routes : List RouteConfig) (path : String)
    (endpoint : Endpoint) : Prop :=
  ∃ (i : Nat) (route : RouteConfig), routes[i]? = some route ∧
    matchit.at_ (routes.map RouteConfig.path) path = some i ∧
    ∃ up ∈ route.upstreams, up.endpoint = endpoint

section
variable {matchit : Matchit I} {rand : Rand UInt16 D} {routes : List RouteConfig}
  {router router' : Router (LoadBalancer Endpoint D)}

/-- A balancer moves on. -/
theorem Along.set (h : Along rand routes router) {i : Nat} {route : RouteConfig}
    (hi : routes[i]? = some route) {balancer : LoadBalancer Endpoint D}
    (sound : balancer.Sound rand (endpoints route.upstreams)) :
    Along rand routes { entries := router.entries.set i (route.path, balancer) } := by
  obtain ⟨old, hentry, -⟩ := h.balancers i route hi
  have inside := (List.getElem?_eq_some_iff.mp hentry).1
  constructor
  case paths =>
    have same : (router.entries.map Prod.fst)[i]? = some route.path := by
      rw [List.getElem?_map, hentry, Option.map_some]
    obtain ⟨within, same⟩ := List.getElem?_eq_some_iff.mp same
    rw [← h.paths, Router.paths, Router.paths, List.map_set, ← same, List.set_getElem_self]
  case balancers =>
    intro j other hj
    by_cases hij : i = j
    · subst hij
      obtain rfl : route = other := Option.some.inj (hi.symm.trans hj)
      exact ⟨balancer, List.getElem?_set_self inside, sound⟩
    · rw [List.getElem?_set_ne hij]
      exact h.balancers j other hj

theorem Along.select (reliable : rand.Reliable) (h : Along rand routes router) {path : String}
    {draw : Nat} {result : Except (RouterError Empty) (Ref Endpoint)}
    (selected : router.select matchit rand path draw = some (result, router')) :
    Along rand routes router' ∧ (∀ e, result = .error e → Unmatched matchit routes path) ∧
      ∀ out, result = .ok out → MatchedBy matchit routes path out.value := by
  rw [Router.select, h.paths] at selected
  cases hat : matchit.at_ (routes.map RouteConfig.path) path with
  | none =>
      simp only [hat] at selected
      cases selected
      refine ⟨h, fun e _ i route _ => ?_, fun out ok => by cases ok⟩
      rw [hat]
      exact (Option.some_ne_none i).symm
  | some i =>
      cases hi : routes[i]? with
      | none =>
          have length := congrArg List.length h.paths
          rw [Router.paths, List.length_map, List.length_map] at length
          have absent : router.entries[i]? = none := by
            rw [List.getElem?_eq_none_iff, length]
            exact List.getElem?_eq_none_iff.mp hi
          simp only [hat, absent] at selected
          cases selected
          refine ⟨h, fun e _ j route hj same => ?_, fun out ok => by cases ok⟩
          obtain rfl : i = j := Option.some.inj (hat.symm.trans same)
          simp [hi] at hj
      | some route =>
          obtain ⟨balancer, hentry, sound⟩ := h.balancers i route hi
          obtain ⟨out, next, hselect, sound', on⟩ := sound.select reliable draw
          simp only [hat, hentry, hselect, Option.map_some, Option.some.injEq, Prod.mk.injEq]
            at selected
          obtain ⟨rfl, rfl⟩ := selected
          refine ⟨h.set hi sound', fun e failed => ?_, fun out' ok => ?_⟩
          · cases failed
          · obtain rfl := Except.ok.inj ok
            obtain ⟨up, hup, same⟩ := List.mem_map.mp (List.mem_of_getElem? on)
            exact ⟨i, route, hi, hat, up, hup, same⟩

theorem Along.selects (reliable : rand.Reliable) (h : Along rand routes router)
    {requests : List (String × Nat)} {results : List (Except (RouterError Empty) (Ref Endpoint))}
    (selected : router.selects matchit rand requests = some (results, router')) :
    Along rand routes router' := by
  induction requests generalizing router results with
  | nil =>
      cases selected
      exact h
  | cons request requests ih =>
      rw [Router.selects] at selected
      cases first : router.select matchit rand request.1 request.2 with
      | none => simp [first] at selected
      | some out =>
          obtain ⟨result, next⟩ := out
          simp only [first] at selected
          obtain ⟨⟨results', last⟩, rest, same⟩ := Option.map_eq_some_iff.mp selected
          obtain ⟨-, rfl⟩ := Prod.mk.inj same
          exact ih (h.select reliable first).1 rest

end

/-! The connection. -/

/-- What the handlers return for a request, with the exchanges on the way, after whatever other
requests and from whatever the connectors answer. -/
def ProxySite.Answers (site : ProxySite B E F I D) (ctx : ConnectionContext) (request : Request B)
    (result : Except site.Error (Response E × Bool)) (exchanges : List (Exchange B E)) : Prop :=
  ∃ (K L Err : Type) (self : UpstreamHandler K L B Err E) (before : List (String × Nat))
    (results : _) (selector : Router (LoadBalancer Endpoint D)) (draw : Nat),
    site.selector.selects site.matchit site.rand before = some (results, selector) ∧
    site.handle (selector.routing site.matchit site.rand draw) self ctx request =
      some (result, exchanges)

/-- The loop of a connection, and the request that is being handled. -/
structure Conversation (B P Er E : Type) where
  loop : H1Loop P Er E
  request : Option (Request B)

def Conversation.start {Er : Type} : Conversation B P Er E := { loop := .start, request := none }

abbrev ProxySite.Event (site : ProxySite B E F I D) (Dc P W : Type) : Type :=
  H1Event (Request B) Dc P site.Error W E

/-- An event of the loop, with the exchanges of the handlers when it is their result. -/
inductive ConversationStep (site : ProxySite B E F I D) (ctx : ConnectionContext)
    (s : Conversation B P site.Error E) :
    site.Event Dc P W × List (Exchange B E) → Conversation B P site.Error E → Prop
  | received {n request loop}
      (step : H1Step site.httpTimeout s.loop
        (.decoded n (some (.ok request)) : site.Event Dc P W) loop) :
      ConversationStep site ctx s (.decoded n (some (.ok request)), [])
        { loop, request := some request }
  | handled {n request result exchanges loop}
      (step : H1Step site.httpTimeout s.loop
        (.handler n (some result) : site.Event Dc P W) loop)
      (handling : s.request = some request) (answers : site.Answers ctx request result exchanges) :
      ConversationStep site ctx s (.handler n (some result), exchanges) { loop, request := none }
  | other {event : site.Event Dc P W} {loop} (step : H1Step site.httpTimeout s.loop event loop)
      (unreceived : decodes [event] = []) (unhandled : results [event] = []) :
      ConversationStep site ctx s (event, []) { s with loop }

section
variable {Er : Type}

/-- The events of the loop. -/
def loopEvents (tr : List (H1Event (Request B) Dc P Er W E × List (Exchange B E))) :
    List (H1Event (Request B) Dc P Er W E) :=
  tr.map Prod.fst

/-- The requests that were handled, with their exchanges. -/
def exchanged (tr : List (H1Event (Request B) Dc P Er W E × List (Exchange B E))) :
    List (Nat × List (Exchange B E)) :=
  tr.filterMap fun
    | (.handler n (some _), exchanges) => some (n, exchanges)
    | _ => none

variable (tr tr' : List (H1Event (Request B) Dc P Er W E × List (Exchange B E)))

@[simp] theorem loopEvents_append : loopEvents (tr ++ tr') = loopEvents tr ++ loopEvents tr' :=
  List.map_append

@[simp] theorem exchanged_append : exchanged (tr ++ tr') = exchanged tr ++ exchanged tr' :=
  List.filterMap_append

end

section
variable {site : ProxySite B E F I D} {ctx : ConnectionContext} {routes : List RouteConfig}
  {tr : List (site.Event Dc P W × List (Exchange B E))}
  {s s' : Conversation B P site.Error E}

/-- The request that is being handled was the last one decoded, and what was returned for the
others are answers of the handlers to them. -/
structure Conversing (site : ProxySite B E F I D) (ctx : ConnectionContext)
    (tr : List (site.Event Dc P W × List (Exchange B E)))
    (s : Conversation B P site.Error E) : Prop where
  run : Run (H1Step site.httpTimeout) .start (loopEvents tr) s.loop
  handling : ∀ accFut, s.loop.phase = .handling accFut → ∀ request, s.request = some request →
    (s.loop.number, request) ∈ decodes (loopEvents tr)
  answers : ∀ n result, (n, result) ∈ results (loopEvents tr) → ∃ request exchanges,
    (n, request) ∈ decodes (loopEvents tr) ∧ (n, exchanges) ∈ exchanged tr ∧
      site.Answers ctx request result exchanges
  numbered : (exchanged tr).map Prod.fst = (results (loopEvents tr)).map Prod.fst

/-- The loop goes on with the same request. -/
theorem handling_kept {timeout : HttpServerTimeout} {Er : Type} {loop loop' : H1Loop P Er E}
    {event : H1Event (Request B) Dc P Er W E} (step : H1Step timeout loop event loop')
    (unreceived : decodes [event] = []) {accFut : AccompanyPair (Except P Unit)}
    (phase : loop'.phase = .handling accFut) :
    loop'.number = loop.number ∧ ∃ before, loop.phase = .handling before := by
  cases step with
  | decoded => simp [decodes] at unreceived
  | handlingFills before | handlerPending before => exact ⟨rfl, _, before⟩
  | @slotTaken t before => cases t <;> cases phase
  | @drainReady t before => cases t <;> cases phase
  | drainPending before | replyPending before => simp [before] at phase
  | _ => cases phase

theorem exchanged_of_unhandled {event : site.Event Dc P W} (unhandled : results [event] = [])
    (exchanges : List (Exchange B E)) : exchanged [(event, exchanges)] = [] := by
  cases event with
  | handler n answer =>
      cases answer with
      | none => rfl
      | some result => simp [results] at unhandled
  | _ => rfl

/-- Nothing is returned by the handlers. -/
theorem Conversing.unhandled (h : Conversing site ctx tr s) {event : site.Event Dc P W}
    (unhandled : results [event] = []) {loop : H1Loop P site.Error E} {request : Option (Request B)}
    (step : H1Step site.httpTimeout s.loop event loop)
    (handling : ∀ accFut, loop.phase = .handling accFut → ∀ request', request = some request' →
      (loop.number, request') ∈ decodes (loopEvents tr ++ [event])) :
    Conversing site ctx (tr ++ [(event, [])]) { loop, request } := by
  have events : loopEvents (tr ++ [(event, [])]) = loopEvents tr ++ [event] := loopEvents_append ..
  have same : results (loopEvents (tr ++ [(event, [])])) = results (loopEvents tr) := by
    rw [events, results_append, unhandled, List.append_nil]
  have none : exchanged (tr ++ [(event, [])]) = exchanged tr := by
    rw [exchanged_append, exchanged_of_unhandled unhandled, List.append_nil]
  refine ⟨?_, ?_, fun n result returned => ?_, ?_⟩
  · rw [events]
    exact h.run.snoc step
  · rw [events]
    exact handling
  · rw [same] at returned
    obtain ⟨request', exchanges, decoded, noted, answers⟩ := h.answers n result returned
    refine ⟨request', exchanges, ?_, none ▸ noted, answers⟩
    rw [events, decodes_append]
    exact List.mem_append_left _ decoded
  · rw [none, same]
    exact h.numbered

theorem Conversing.step (h : Conversing site ctx tr s)
    {e : site.Event Dc P W × List (Exchange B E)}
    (step : ConversationStep site ctx s e s') : Conversing site ctx (tr ++ [e]) s' := by
  cases step with
  | @received n request loop step =>
      refine h.unhandled rfl step fun accFut _ request' same => ?_
      obtain rfl := Option.some.inj same
      cases step with
      | decoded phase => exact decodes_append (loopEvents tr) _ ▸ List.mem_concat_self
  | @other event loop step unreceived unhandled =>
      refine h.unhandled unhandled step fun accFut phase request' same => ?_
      obtain ⟨number, before, phase⟩ := handling_kept step unreceived phase
      rw [number, decodes_append]
      exact List.mem_append_left _ (h.handling before phase request' same)
  | @handled n request result exchanges loop step handling answers =>
      have events : loopEvents (tr ++ [(.handler n (some result), exchanges)]) =
          loopEvents tr ++ [.handler n (some result)] := loopEvents_append ..
      have same : decodes (loopEvents (tr ++ [(.handler n (some result), exchanges)])) =
          decodes (loopEvents tr) := by
        rw [events, decodes_append]
        exact List.append_nil _
      have more : results (loopEvents (tr ++ [(.handler n (some result), exchanges)])) =
          results (loopEvents tr) ++ [(n, result)] := by
        rw [events, results_append]
        rfl
      have noted : exchanged (tr ++ [(.handler n (some result), exchanges)]) =
          exchanged tr ++ [(n, exchanges)] := exchanged_append ..
      refine ⟨events ▸ h.run.snoc step, fun accFut phase => ?_, fun m result' returned => ?_, ?_⟩
      · cases step with
        | handlerReady before => cases phase
      · rw [more] at returned
        rw [same, noted]
        rcases List.mem_append.mp returned with before | now
        · obtain ⟨request', exchanges', decoded, noted, answers⟩ := h.answers m result' before
          exact ⟨request', exchanges', decoded, List.mem_append_left _ noted, answers⟩
        · obtain ⟨rfl, rfl⟩ := Prod.mk.inj (List.mem_singleton.mp now)
          cases step with
          | handlerReady phase =>
              exact ⟨request, exchanges, h.handling _ phase request handling,
                List.mem_concat_self, answers⟩
      · rw [noted, more, List.map_append, List.map_append, h.numbered]
        rfl

theorem Handled.mono {unrouted unrouted' : Prop} {on on' : Endpoint → Prop} {request : Request B}
    {exchanges : List (Exchange B E)} {given : Response E}
    (h : Handled site ctx unrouted on request exchanges given) (none : unrouted → unrouted')
    (some : ∀ endpoint, on endpoint → on' endpoint) :
    Handled site ctx unrouted' on' request exchanges given := by
  cases h with
  | unrouted unrouted => exact .unrouted (none unrouted)
  | undecoded on rewrites refused => exact .undecoded (some _ on) rewrites refused
  | exchanged on rewrites passes sent => exact .exchanged (some _ on) rewrites passes sent

/-- The response to a request, and the exchanges that it came from: it was sent to one of the
upstreams of the route that it matches, or to none. -/
def Relayed (site : ProxySite B E F I D) (ctx : ConnectionContext) (routes : List RouteConfig)
    (request : Request B) (exchanges : List (Exchange B E)) (response : Response E) : Prop :=
  ∃ given, Handled site ctx (Unmatched site.matchit routes request.uri.path)
      (MatchedBy site.matchit routes request.uri.path) request exchanges given ∧
    Persists request (given, true) (response, isConnKeepalive request.headers request.version)

theorem ProxySite.Answers.relayed {request : Request B}
    {result : Except site.Error (Response E × Bool)} {exchanges : List (Exchange B E)}
    (h : site.Answers ctx request result exchanges) (reliable : site.rand.Reliable)
    (along : Along site.rand routes site.selector)
    (version : request.version = .http10 ∨ request.version = .http11) :
    ∃ response, result = .ok (response, isConnKeepalive request.headers request.version) ∧
      Relayed site ctx routes request exchanges response := by
  obtain ⟨K, L, Err, self, before, selections, selector, draw, selected, handles⟩ := h
  obtain ⟨given, response, handled, persists, reply⟩ := ProxySite.handle_handled version handles
  have along := along.selects reliable selected
  refine ⟨response, reply, given, handled.mono ?_ ?_, persists⟩
  · rintro ⟨e, none⟩
    obtain ⟨⟨result', selector'⟩, selects, rfl⟩ := Option.map_eq_some_iff.mp none
    exact (along.select reliable selects).2.1 e rfl
  · rintro endpoint ⟨out, some, rfl⟩
    obtain ⟨⟨result', selector'⟩, selects, rfl⟩ := Option.map_eq_some_iff.mp some
    exact (along.select reliable selects).2.2 out rfl

end

end Monolake.Http
