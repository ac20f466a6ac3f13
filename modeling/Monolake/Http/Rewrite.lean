import Monolake.Http.Route

/-!
The request path of the routes that were accepted: an endpoint is selected and the
request is pointed at it. That succeeds for every URI, and only for URIs.
-/
namespace Monolake.Http

universe u v w
open Common
variable {B : Type u} {I : Type v} {D : Type w}

/-- The texts that are found as the parts of URIs. -/
structure UriTexts where
  scheme : String → Prop
  authority : String → Prop
  path : String → Prop
  query : String → Prop

/-- A URI as the `http` crate parses it. -/
structure Uri.Parsed (texts : UriTexts) (uri : Uri) : Prop where
  scheme : ∀ scheme, uri.scheme = some scheme → texts.scheme scheme
  authority : ∀ authority, uri.authority = some authority → texts.authority authority
  path : ∀ pathAndQuery, uri.pathAndQuery = some pathAndQuery → texts.path pathAndQuery.path
  query : ∀ pathAndQuery, uri.pathAndQuery = some pathAndQuery →
    ∀ query, pathAndQuery.query = some query → texts.query query

/-- What is assumed of the `http` crate: an authority is a header value, and the
builder takes the parts of URIs together to a URI of these parts, in which an empty
path is read as `/`. -/
structure HttpCrate.Reassembles (http : HttpCrate) (texts : UriTexts) : Prop where
  defaultScheme : texts.scheme "http"
  slash : texts.path "/"
  fromStr : ∀ authority, texts.authority authority → http.fromStr authority = some authority
  build : ∀ authority scheme path, texts.authority authority → texts.scheme scheme →
    path = "" ∨ texts.path path → http.buildUri authority scheme path =
      some ⟨some scheme, some authority, some ⟨if path = "" then "/" else path, none⟩⟩
  buildQuery : ∀ authority scheme path query, texts.authority authority → texts.scheme scheme →
    path = "" ∨ texts.path path → texts.query query →
    http.buildUri authority scheme (path ++ "?" ++ query) =
      some ⟨some scheme, some authority, some ⟨if path = "" then "/" else path, some query⟩⟩

def Uri.query (uri : Uri) : Option String := uri.pathAndQuery.bind PathAndQuery.query

/-- A request is pointed at a URI with an authority. -/
structure PointedAt (remote : Uri) (authority : String) (request request' : Request B) : Prop where
  host : request'.headers.getAll "host" = [authority]
  scheme : request'.uri.scheme = some (remote.scheme.getD "http")
  authority : request'.uri.authority = some authority
  query : request'.uri.query = request.uri.query
  others : ∀ name, name ≠ "host" → request'.headers.getAll name = request.headers.getAll name

/-- The rewriting does not panic, and points the request at a URI with an authority. -/
def Rewritten (http : HttpCrate) (endpoint : Endpoint) (request : Request B) : Prop :=
  ∃ request', rewriteRequest http request endpoint = some request' ∧
    ∀ remote authority, endpoint = .uri remote → remote.authority = some authority →
      PointedAt remote authority request request'

def Endpoint.IsUri : Endpoint → Prop
  | .uri _ => True
  | .socket .. | .unix _ => False

section
variable {http : HttpCrate} {texts : UriTexts} {remote uri : Uri} {authority : String}

theorem rewriteUri_parts (laws : http.Reassembles texts) (parsed : remote.Parsed texts)
    (hauthority : remote.authority = some authority) (requested : uri.Parsed texts) :
    ∃ uri', rewriteUri http remote authority uri = some uri' ∧
      uri'.scheme = some (remote.scheme.getD "http") ∧ uri'.authority = some authority ∧
      uri'.query = uri.query := by
  have known := parsed.authority authority hauthority
  have scheme : texts.scheme (remote.scheme.getD "http") := by
    cases hscheme : remote.scheme with
    | none => exact laws.defaultScheme
    | some scheme => exact parsed.scheme scheme hscheme
  have path : remote.path = "" ∨ texts.path remote.path := by
    rw [Uri.path]
    cases hpath : remote.pathAndQuery with
    | none => exact .inl rfl
    | some pathAndQuery => exact .inr (parsed.path pathAndQuery hpath)
  rw [rewriteUri]
  cases hrequest : uri.pathAndQuery with
  | none =>
      refine ⟨_, laws.build authority _ "/" known scheme (.inr laws.slash), rfl, rfl, ?_⟩
      rw [Uri.query, Uri.query, hrequest]
      rfl
  | some pathAndQuery =>
      cases hquery : pathAndQuery.query with
      | none =>
          simp only [hquery]
          refine ⟨_, laws.build authority _ _ known scheme path, rfl, rfl, ?_⟩
          rw [Uri.query, Uri.query, hrequest, Option.bind_some, Option.bind_some, hquery]
      | some query =>
          simp only [hquery]
          refine ⟨_, laws.buildQuery authority _ _ query known scheme path
            (requested.query pathAndQuery hrequest query hquery), rfl, rfl, ?_⟩
          rw [Uri.query, Uri.query, hrequest, Option.bind_some, Option.bind_some, hquery]

/-- Requests are rewritten for URIs and for nothing else. -/
theorem rewritten_iff (laws : http.Reassembles texts) {endpoint : Endpoint}
    (parsed : ∀ remote, endpoint = .uri remote → remote.Parsed texts) {request : Request B}
    (requested : request.uri.Parsed texts) :
    Rewritten http endpoint request ↔ endpoint.IsUri := by
  cases endpoint with
  | uri remote =>
      refine iff_of_true ?_ trivial
      rw [Rewritten, rewriteRequest]
      cases hauthority : remote.authority with
      | none =>
          refine ⟨request, rfl, fun remote' authority same some_authority => ?_⟩
          cases same
          rw [hauthority] at some_authority
          cases some_authority
      | some authority =>
          obtain ⟨uri', huri, scheme, authority', query⟩ :=
            rewriteUri_parts laws (parsed remote rfl) hauthority requested
          have known := (parsed remote rfl).authority authority hauthority
          simp only [huri, Option.map_some, laws.fromStr authority known, Option.getD_some]
          refine ⟨_, rfl, fun remote' other same some_authority => ?_⟩
          cases same
          obtain rfl : authority = other := Option.some.inj (hauthority.symm.trans some_authority)
          constructor
          case host => exact HeaderMap.getAll_insert_self _ _ _
          case scheme => exact scheme
          case authority => exact authority'
          case query => exact query
          case others =>
            intro name hname
            rw [HeaderMap.getAll_insert_of_ne _ _ _ hname, HeaderMap.getAll_remove_of_ne _ _ hname]
  | socket ip port =>
      refine iff_of_false ?_ not_false
      rintro ⟨request', h, -⟩
      cases h
  | unix path =>
      refine iff_of_false ?_ not_false
      rintro ⟨request', h, -⟩
      cases h

end

/-- Every balancer of the router is sound for the endpoints of a route. -/
def Configured (rand : Rand UInt16 D) (routes : List RouteConfig)
    (router : Router (LoadBalancer Endpoint D)) : Prop :=
  ∀ entry ∈ router.entries, ∃ route ∈ routes, entry.2.Sound rand (endpoints route.upstreams)

section
variable {matchit : Matchit I} {rand : Rand UInt16 D} {routes : List RouteConfig}
  {router : Router (LoadBalancer Endpoint D)}

theorem configured_start {E : Type v} (reliable : rand.Reliable)
    (made : Router.newFromIter (E := E) matchit rand routes = some (.ok router)) :
    Configured rand routes router := by
  intro entry hentry
  obtain ⟨route, hroute, -, built⟩ := Router.made_mem (Router.newFromIter_ok made) hentry
  exact ⟨route, hroute, .built reliable built⟩

/-- An endpoint that is selected is one of the configuration. -/
theorem Configured.select (matchit : Matchit I) (reliable : rand.Reliable)
    (h : Configured rand routes router) (path : String) (draw : Nat) :
    ∃ result router', router.select matchit rand path draw = some (result, router') ∧
      Configured rand routes router' ∧ ∀ out, result = .ok out →
        ∃ route ∈ routes, ∃ up ∈ route.upstreams, up.endpoint = out.value := by
  rw [Router.select]
  cases matchit.at_ router.paths path with
  | none => exact ⟨_, router, rfl, h, fun out same => by cases same⟩
  | some i =>
      cases hentry : router.entries[i]? with
      | none =>
          simp only [hentry]
          exact ⟨_, router, rfl, h, fun out same => by cases same⟩
      | some entry =>
          simp only [hentry]
          obtain ⟨route, hroute, sound⟩ := h entry (List.mem_of_getElem? hentry)
          obtain ⟨out, next, hselect, sound', on⟩ := sound.select reliable draw
          refine ⟨_, _, by rw [hselect, Option.map_some], ?_, ?_⟩
          · intro entry' hentry'
            cases List.mem_or_eq_of_mem_set hentry' with
            | inl old => exact h entry' old
            | inr same =>
                subst same
                exact ⟨route, hroute, sound'⟩
          · intro out' same
            cases same
            obtain ⟨up, hup, same⟩ := List.mem_map.mp (List.mem_of_getElem? on)
            exact ⟨route, hroute, up, hup, same⟩

theorem Configured.selects (matchit : Matchit I) (reliable : rand.Reliable)
    (h : Configured rand routes router) (requests : List (String × Nat)) :
    ∃ results router', router.selects matchit rand requests = some (results, router') ∧
      Configured rand routes router' := by
  induction requests generalizing router with
  | nil => exact ⟨[], router, rfl, h⟩
  | cons request requests ih =>
      obtain ⟨result, next, hselect, configured, -⟩ :=
        h.select matchit reliable request.1 request.2
      obtain ⟨results, router', hselects, last⟩ := ih configured
      exact ⟨result :: results, router', Router.selects_cons hselect hselects, last⟩

end

/-- In every run of a router that was accepted an endpoint of the configuration is
selected, and for every endpoint of the configuration, every request is rewritten
if and only if it is a URI. -/
theorem accepted_routes_rewrite_iff {E : Type v} {matchit : Matchit I} {rand : Rand UInt16 D}
    {http : HttpCrate} {texts : UriTexts} {routes : List RouteConfig}
    {router : Router (LoadBalancer Endpoint D)}
    (reliable : rand.Reliable) (laws : http.Reassembles texts)
    (made : Router.newFromIter (E := E) matchit rand routes = some (.ok router))
    (parsed : ∀ route ∈ routes, ∀ up ∈ route.upstreams, ∀ remote, up.endpoint = .uri remote →
      remote.Parsed texts) :
    (∀ requests : List (String × Nat), ∃ results router',
      router.selects matchit rand requests = some (results, router') ∧
      ∀ path draw, ∃ result router'', router'.select matchit rand path draw =
        some (result, router'') ∧ ∀ out, result = .ok out →
          ∃ route ∈ routes, ∃ up ∈ route.upstreams, up.endpoint = out.value) ∧
    ∀ route ∈ routes, ∀ up ∈ route.upstreams, ∀ request : Request B, request.uri.Parsed texts →
      (Rewritten http up.endpoint request ↔ up.endpoint.IsUri) := by
  constructor
  · intro requests
    obtain ⟨results, router', hselects, configured⟩ :=
      (configured_start reliable made).selects matchit reliable requests
    refine ⟨results, router', hselects, fun path draw => ?_⟩
    obtain ⟨result, router'', hselect, -, found⟩ := configured.select matchit reliable path draw
    exact ⟨result, router'', hselect, found⟩
  · intro route hroute up hup request requested
    exact rewritten_iff laws (parsed route hroute up hup) requested

/-- A path with a query is split at the first question mark. -/
def splitHttp : HttpCrate where
  fromStr text := if text.toList.all (Visible ·) then some text else none
  fromMaybeShared text := if text.toList.all (Visible ·) then some text else none
  buildUri authority scheme text :=
    let path := String.ofList (text.toList.takeWhile (· ≠ '?'))
    let query :=
      match text.toList.dropWhile (· ≠ '?') with
      | [] => none
      | _ :: query => some (String.ofList query)
    some ⟨some scheme, some authority, some ⟨if path = "" then "/" else path, query⟩⟩

def plainTexts : UriTexts where
  scheme _ := True
  authority text := text.toList.all (Visible ·) = true
  path text := '?' ∉ text.toList
  query _ := True

/-- The first question mark is behind a text without one. -/
theorem split_plain {text : String} (plain : text = "" ∨ plainTexts.path text)
    (rest : List Char) :
    (text.toList ++ rest).takeWhile (· ≠ '?') = text.toList ++ rest.takeWhile (· ≠ '?') ∧
      (text.toList ++ rest).dropWhile (· ≠ '?') = rest.dropWhile (· ≠ '?') := by
  have before : ∀ c ∈ text.toList, decide (c ≠ '?') = true := by
    intro c hc
    apply decide_eq_true
    rintro rfl
    rcases plain with rfl | plain
    · cases hc
    · exact plain hc
  exact ⟨List.takeWhile_append_of_pos before, List.dropWhile_append_of_pos before⟩

theorem splitHttp_reassembles : splitHttp.Reassembles plainTexts where
  defaultScheme := trivial
  slash := by simp [plainTexts]
  fromStr := by
    intro authority visible
    exact if_pos visible
  build := by
    intro authority scheme path _ _ plain
    have split := split_plain plain []
    rw [List.append_nil] at split
    simp only [splitHttp, split.1, split.2]
    simp
  buildQuery := by
    intro authority scheme path query _ _ plain _
    have text : (path ++ "?" ++ query).toList = path.toList ++ '?' :: query.toList := by simp
    have split := split_plain plain ('?' :: query.toList)
    simp only [splitHttp, text, split.1, split.2]
    simp

theorem parsed_of_plain {uri : Uri}
    (authority : ∀ authority, uri.authority = some authority →
      authority.toList.all (Visible ·) = true)
    (path : ∀ pathAndQuery, uri.pathAndQuery = some pathAndQuery →
      '?' ∉ pathAndQuery.path.toList) : uri.Parsed plainTexts :=
  ⟨fun _ _ => trivial, authority, path, fun _ _ _ _ => trivial⟩

def uriRoute : RouteConfig where
  id := ""
  loadBalancer := .first
  path := "/"
  upstreams := [upstreamAt "one:80"]

/-- A request with a query, for a route with one URI. -/
theorem uri_endpoint_rewritten :
    let request : Request Unit :=
      { getRequest [("host", "a"), ("accept", "*/*")] with
        uri := ⟨none, none, some ⟨"/", some "q=1"⟩⟩ }
    Rewritten splitHttp (upstreamAt "one:80").endpoint request := by
  intro request
  have made : Router.newFromIter (E := String) staticPaths (weightedIndex true) [uriRoute] =
      some (.ok { entries := [("/", .identity ⟨(upstreamAt "one:80").endpoint⟩)] }) := rfl
  have parsed : ∀ route ∈ [uriRoute], ∀ up ∈ route.upstreams, ∀ remote,
      up.endpoint = .uri remote → remote.Parsed plainTexts := by
    intro route hroute up hup remote same
    obtain rfl := List.mem_singleton.mp hroute
    obtain rfl := List.mem_singleton.mp hup
    cases same
    refine parsed_of_plain (fun authority same => ?_) (by simp)
    cases same
    decide
  have requested : request.uri.Parsed plainTexts :=
    parsed_of_plain (by simp [request]) (by simp [request])
  exact ((accepted_routes_rewrite_iff (weightedIndex_reliable true) splitHttp_reassembles made
    parsed).2 uriRoute (List.mem_singleton_self _) (upstreamAt "one:80") (List.mem_singleton_self _)
    request requested).mpr trivial

def socketRoute : RouteConfig where
  id := ""
  loadBalancer := .first
  path := "/"
  upstreams := [{ endpoint := .socket (.v4 #v[127, 0, 0, 1]) 80, weight := 1 }]

/-- A route with one socket address is accepted, and its endpoint selected. -/
theorem socket_endpoint_panics :
    let router : Router (LoadBalancer Endpoint (List UInt16)) :=
      { entries := [("/", .identity ⟨.socket (.v4 #v[127, 0, 0, 1]) 80⟩)] }
    Router.newFromIter (E := String) staticPaths (weightedIndex true) [socketRoute] =
      some (.ok router) ∧
    router.select staticPaths (weightedIndex true) "/" 0 =
      some (.ok ⟨0, .socket (.v4 #v[127, 0, 0, 1]) 80⟩, router) ∧
    (getRequest []).uri.Parsed plainTexts ∧
    ¬ Rewritten splitHttp (.socket (.v4 #v[127, 0, 0, 1]) 80) (getRequest []) := by
  intro router
  refine ⟨rfl, rfl, parsed_of_plain (by simp [getRequest]) (by simp [getRequest]), ?_⟩
  rintro ⟨request', h, -⟩
  cases h

end Monolake.Http
