import Monolake.Config.ServerConfig
import Monolake.Http.RouteErrors

/-!
The factories that a server config leads to, layer by layer, and the services they make. A
factory may be shown the service that the new one takes over from; what comes out of it, a
service, an error or a panic, is decided by the config alone.
-/
namespace Monolake.Config

open Common

/-- `make_via_ref` of a factory: `none` is a panic. -/
abbrev Make (E S : Type) := Option S → Option (Except E S)

section
variable {E S T : Type}

/-- The layers with a handler behind make it from the one behind the old service. -/
def makeBehind (inner : Make E T) (behind : S → T) (service : T → S) : Make E S := fun old =>
  (inner (old.map behind)).map fun made => made.map service

theorem makeBehind_none_iff {inner : Make E T} {behind : S → T} {service : T → S} {old : Option S} :
    makeBehind inner behind service old = none ↔ inner (old.map behind) = none :=
  Option.map_eq_none_iff

theorem makeBehind_ok_iff {inner : Make E T} {behind : S → T} {service : T → S} {old : Option S}
    {svc : S} :
    makeBehind inner behind service old = some (.ok svc) ↔
      ∃ made, inner (old.map behind) = some (.ok made) ∧ svc = service made := by
  rw [makeBehind, Option.map_eq_some_iff]
  constructor
  · rintro ⟨e | made, h, hmap⟩
    · cases hmap
    · exact ⟨made, h, (Except.ok.inj hmap).symm⟩
  · rintro ⟨made, h, rfl⟩
    exact ⟨.ok made, h, rfl⟩

end

/-! The layers. -/

/-- What is used of a pooled connector: `transferPool` is the second one after the pool of
the first was offered to it. -/
structure ConnectorCrate (C : Type) where
  build : HttpVersion → C
  setReadTimeout : C → Option Nat → C
  transferPool : C → C → C

structure UpstreamHandler (C₁ C₂ : Type) where
  httpConnector : C₁
  httpsConnector : C₂
  httpUpstreamTimeout : Http.HttpUpstreamTimeout

structure UpstreamHandlerFactory where
  httpUpstreamTimeout : Http.HttpUpstreamTimeout
  version : HttpVersion

/-- One half of `create_connectors!`. -/
def createConnector {C : Type} (crate : ConnectorCrate C) (self : UpstreamHandlerFactory)
    (old : Option C) : C :=
  let connector :=
    crate.setReadTimeout (crate.build self.version) self.httpUpstreamTimeout.readTimeout
  match old with
  | some old => crate.transferPool old connector
  | none => connector

def UpstreamHandlerFactory.makeViaRef {C₁ C₂ : Type} (http : ConnectorCrate C₁)
    (https : ConnectorCrate C₂) (self : UpstreamHandlerFactory)
    (old : Option (UpstreamHandler C₁ C₂)) : Except Empty (UpstreamHandler C₁ C₂) :=
  .ok {
    httpConnector := createConnector http self (old.map UpstreamHandler.httpConnector)
    httpsConnector := createConnector https self (old.map UpstreamHandler.httpsConnector)
    httpUpstreamTimeout := self.httpUpstreamTimeout }

structure ContentHandler (T : Type) where
  inner : T

structure OpenIdHandler (T : Type) where
  inner : T
  openidConfig : Option OpenIdConfig

structure ConnectionReuseHandler (T : Type) where
  inner : T

structure HttpCoreService (T : Type) where
  handlerChain : T
  httpTimeout : Http.HttpServerTimeout

structure H2DetectService (T : Type) where
  inner : T

structure TtheaderCoreService (T : Type) where
  handlerChain : T
  thriftTimeout : Thrift.ThriftServerTimeout

structure ProxyProtocolService (T : Type) where
  inner : T

structure ContextService (T : Type) where
  inner : T

structure RustlsService (R T : Type) where
  acceptor : RustlsConfig R
  inner : T

structure NativeTlsService (A T : Type) where
  acceptor : A
  inner : T

inductive UnifiedTlsService (R A T : Type) where
  | rustls (service : RustlsService R T)
  | native (service : NativeTlsService A T)
  | none (inner : T)

/-- What can go wrong with a factory of layer 7. -/
inductive L7Error (I TE : Type) where
  | routing (e : Http.RoutingFactoryError I Empty)
  | loadBalance (e : LoadBalanceError)
  | acceptor (e : TE)

section
variable {E T : Type}

def ContentHandler.makeViaRef (inner : Option T → Except E T) (old : Option (ContentHandler T)) :
    Except E (ContentHandler T) :=
  (inner (old.map ContentHandler.inner)).map ContentHandler.mk

/-- The service behind the handler, or the service itself where there is none. -/
def ContentHandler.optBehind : ContentHandler T ⊕ T → T := Sum.elim ContentHandler.inner id

/-- With `opt_layer`: the service is one of an `Either`, and an old one of the other kind is
not shown. -/
def ContentHandler.optMakeViaRef (enabled : Bool) (inner : Option T → Except E T)
    (old : Option (ContentHandler T ⊕ T)) : Except E (ContentHandler T ⊕ T) :=
  if enabled then (ContentHandler.makeViaRef inner (old.bind Sum.getLeft?)).map Sum.inl
  else (inner (old.bind Sum.getRight?)).map Sum.inr

def OpenIdHandler.makeViaRef (openidConfig : Option OpenIdConfig) (inner : Make E T) :
    Make E (OpenIdHandler T) :=
  makeBehind inner OpenIdHandler.inner ({ inner := ·, openidConfig })

def ConnectionReuseHandler.makeViaRef (inner : Make E T) : Make E (ConnectionReuseHandler T) :=
  makeBehind inner ConnectionReuseHandler.inner ConnectionReuseHandler.mk

def HttpCoreService.makeViaRef (httpTimeout : Http.HttpServerTimeout) (inner : Make E T) :
    Make E (HttpCoreService T) :=
  makeBehind inner HttpCoreService.handlerChain ({ handlerChain := ·, httpTimeout })

def H2DetectService.makeViaRef (inner : Make E T) : Make E (H2DetectService T) :=
  makeBehind inner H2DetectService.inner H2DetectService.mk

def TtheaderCoreService.makeViaRef (thriftTimeout : Thrift.ThriftServerTimeout)
    (inner : Make E T) : Make E (TtheaderCoreService T) :=
  makeBehind inner TtheaderCoreService.handlerChain ({ handlerChain := ·, thriftTimeout })

def ProxyProtocolService.makeViaRef (inner : Make E T) : Make E (ProxyProtocolService T) :=
  makeBehind inner ProxyProtocolService.inner ProxyProtocolService.mk

def ContextService.makeViaRef (inner : Make E T) : Make E (ContextService T) :=
  makeBehind inner ContextService.inner ContextService.mk

end

section
variable {R I A E IE TE T : Type}

def RustlsServiceFactory.makeViaRef (config : RustlsConfig R) (inner : Make E T) :
    Make E (RustlsService R T) :=
  makeBehind inner RustlsService.inner ({ acceptor := config, inner := · })

/-- The acceptor is built before the handler behind. -/
def NativeTlsServiceFactory.makeViaRef (buildAcceptor : I → Except TE A) (identity : I)
    (inner : Make (L7Error IE TE) T) : Make (L7Error IE TE) (NativeTlsService A T) := fun old =>
  match buildAcceptor identity with
  | .error e => some (.error (.acceptor e))
  | .ok acceptor => makeBehind inner NativeTlsService.inner ({ acceptor, inner := · }) old

def UnifiedTlsService.asRustls : UnifiedTlsService R A T → Option (RustlsService R T)
  | .rustls service => some service
  | _ => Option.none

def UnifiedTlsService.asNative : UnifiedTlsService R A T → Option (NativeTlsService A T)
  | .native service => some service
  | _ => Option.none

def UnifiedTlsService.asNone : UnifiedTlsService R A T → Option T
  | .none inner => some inner
  | _ => Option.none

/-- The service behind TLS. -/
def UnifiedTlsService.behind : UnifiedTlsService R A T → T
  | .rustls service => service.inner
  | .native service => service.inner
  | .none inner => inner

def UnifiedTlsFactory.makeViaRef (buildAcceptor : I → Except TE A)
    (tls : TlsConfig (RustlsConfig R) I) (inner : Make (L7Error IE TE) T) :
    Make (L7Error IE TE) (UnifiedTlsService R A T) := fun old =>
  match tls with
  | .rustls config =>
      (RustlsServiceFactory.makeViaRef config inner (old.bind UnifiedTlsService.asRustls)).map
        fun made => made.map .rustls
  | .native identity =>
      (NativeTlsServiceFactory.makeViaRef buildAcceptor identity inner
        (old.bind UnifiedTlsService.asNative)).map fun made => made.map .native
  | .none => (inner (old.bind UnifiedTlsService.asNone)).map fun made => made.map .none

end

/-! The stacks. -/

/-- What is used of other crates. -/
structure L7Crates (C₁ C₂ I A IE TE D : Type) where
  http : ConnectorCrate C₁
  https : ConnectorCrate C₂
  matchit : Http.Matchit IE
  rand : Rand UInt16 D
  buildAcceptor : I → Except TE A

section
variable (C₁ C₂ R A D : Type)

abbrev HttpHandlerChain :=
  ConnectionReuseHandler (OpenIdHandler
    (Http.RewriteAndRouteHandler (ContentHandler (UpstreamHandler C₁ C₂) ⊕ UpstreamHandler C₁ C₂)
      D))

abbrev HttpService :=
  ContextService (ProxyProtocolService
    (UnifiedTlsService R A (H2DetectService (HttpCoreService (HttpHandlerChain C₁ C₂ D)))))

abbrev ThriftService :=
  ContextService
    (UnifiedTlsService R A (TtheaderCoreService (LoadBalancer Thrift.Endpoint D)))

/-- The boxed service of either protocol. -/
inductive L7Service where
  | http (service : HttpService C₁ C₂ R A D)
  | thrift (service : ThriftService R A D)

end

structure HttpFactory (R I : Type) where
  upstream : UpstreamHandlerFactory
  enableContentHandler : Bool
  routes : List Http.RouteConfig
  openidConfig : Option OpenIdConfig
  httpTimeout : Http.HttpServerTimeout
  tls : TlsConfig (RustlsConfig R) I

structure ThriftFactory (R I : Type) where
  config : Thrift.RouteConfig
  thriftTimeout : Thrift.ThriftServerTimeout
  tls : TlsConfig (RustlsConfig R) I

inductive L7Factory (R I : Type) where
  | http (factory : HttpFactory R I)
  | thrift (factory : ThriftFactory R I)

section
variable {C₁ C₂ R I A IE TE D : Type} (crates : L7Crates C₁ C₂ I A IE TE D)

/-- The routing of the handlers for the upstreams. -/
def HttpFactory.routing (self : HttpFactory R I) :
    Make (Http.RoutingFactoryError IE Empty) (Http.RewriteAndRouteHandler
      (ContentHandler (UpstreamHandler C₁ C₂) ⊕ UpstreamHandler C₁ C₂) D) :=
  Http.RewriteAndRouteHandlerFactory.makeViaRef crates.matchit crates.rand
    { inner := ContentHandler.optMakeViaRef self.enableContentHandler
        (self.upstream.makeViaRef crates.http crates.https)
      routes := self.routes }

def HttpFactory.handlerChain (self : HttpFactory R I) :
    Make (L7Error IE TE) (HttpHandlerChain C₁ C₂ D) :=
  ConnectionReuseHandler.makeViaRef <| OpenIdHandler.makeViaRef self.openidConfig <| fun old =>
    (self.routing crates old).map fun made => made.mapError .routing

def HttpFactory.makeViaRef (self : HttpFactory R I) :
    Make (L7Error IE TE) (HttpService C₁ C₂ R A D) :=
  ContextService.makeViaRef <| ProxyProtocolService.makeViaRef <|
    UnifiedTlsFactory.makeViaRef crates.buildAcceptor self.tls <| H2DetectService.makeViaRef <|
      HttpCoreService.makeViaRef self.httpTimeout <| self.handlerChain crates

/-- `RouteConfig::proxy_handler`, with a connector that has no connections. -/
def proxyHandlerEndpoints (rand : Rand UInt16 D) (config : Thrift.RouteConfig) :
    Option (Except LoadBalanceError (LoadBalancer Thrift.Endpoint D)) :=
  LoadBalancer.tryFromUpstreams rand config.loadBalancer config.upstreams

def ThriftFactory.makeViaRef (self : ThriftFactory R I) :
    Make (L7Error IE TE) (ThriftService R A D) :=
  ContextService.makeViaRef <|
    UnifiedTlsFactory.makeViaRef crates.buildAcceptor self.tls <|
      TtheaderCoreService.makeViaRef self.thriftTimeout <| fun _ =>
        (proxyHandlerEndpoints crates.rand self.config).map fun made =>
          made.mapError .loadBalance

def L7Service.asHttp : L7Service C₁ C₂ R A D → Option (HttpService C₁ C₂ R A D)
  | .http service => some service
  | .thrift _ => none

def L7Service.asThrift : L7Service C₁ C₂ R A D → Option (ThriftService R A D)
  | .http _ => none
  | .thrift service => some service

/-- An old service of the other protocol is not shown. -/
def L7Factory.makeViaRef (self : L7Factory R I) :
    Make (L7Error IE TE) (L7Service C₁ C₂ R A D) := fun old =>
  match self with
  | .http factory =>
      (factory.makeViaRef crates (old.bind L7Service.asHttp)).map fun made => made.map .http
  | .thrift factory =>
      (factory.makeViaRef crates (old.bind L7Service.asThrift)).map fun made => made.map .thrift

end

/-! The parameters that the layers take from a server config: where it is for the other
protocol they panic. -/

section
variable {R I : Type} (config : ServerConfig R I)

def ServerConfig.httpServerTimeout : Option Http.HttpServerTimeout :=
  match config.protocol with
  | .http _ serverTimeout _ _ _ => some serverTimeout
  | .thrift .. => none

def ServerConfig.httpUpstreamTimeout : Option Http.HttpUpstreamTimeout :=
  match config.protocol with
  | .http _ _ upstreamTimeout _ _ => some upstreamTimeout
  | .thrift .. => none

def ServerConfig.thriftServerTimeout : Option Thrift.ThriftServerTimeout :=
  match config.protocol with
  | .thrift _ serverTimeout => some serverTimeout
  | .http .. => none

def ServerConfig.openIdConfig : Option OpenIdConfig := config.authConfig

def ServerConfig.httpRoutes : Option (List Http.RouteConfig) :=
  match config.protocol with
  | .http routes _ _ _ _ => some routes
  | .thrift .. => none

def ServerConfig.thriftRoute : Option Thrift.RouteConfig :=
  match config.protocol with
  | .thrift route _ => some route
  | .http .. => none

def ServerConfig.tlsConfig : TlsConfig (RustlsConfig R) I := config.tls

def ServerConfig.httpVersion : Option HttpVersion :=
  match config.protocol with
  | .http _ _ _ upstreamHttpVersion _ => some upstreamHttpVersion
  | .thrift .. => none

/-- `l7_factory`; `none` is a panic of a parameter. -/
def l7Factory : Option (L7Factory R I) :=
  match config.protocol with
  | .http _ _ _ _ optHandlers => do
      let version ← config.httpVersion
      let httpUpstreamTimeout ← config.httpUpstreamTimeout
      let routes ← config.httpRoutes
      let httpTimeout ← config.httpServerTimeout
      return .http {
        upstream := { httpUpstreamTimeout, version }
        enableContentHandler := optHandlers.contentHandler
        routes, openidConfig := config.openIdConfig, httpTimeout, tls := config.tlsConfig }
  | .thrift _ _ => do
      let proxyConfig ← config.thriftRoute
      let thriftTimeout ← config.thriftServerTimeout
      return .thrift { config := proxyConfig, thriftTimeout, tls := config.tlsConfig }

theorem l7Factory_isSome : (l7Factory config).isSome := by
  obtain ⟨name, tls, authConfig, protocol⟩ := config
  cases protocol <;> rfl

end

/-! What comes out of a factory. -/

/-- Whatever service is shown to it, the factory panics or succeeds as these say, and what it
makes has a property. -/
structure Decides {E S : Type} (make : Make E S) (panics builds : Prop) (made : S → Prop) :
    Prop where
  panics : ∀ old, make old = none ↔ panics
  builds : ∀ old, (∃ svc, make old = some (.ok svc)) ↔ builds
  made : ∀ old svc, make old = some (.ok svc) → made svc

namespace Decides
variable {E E' S T : Type} {inner : Make E T} {panics builds : Prop} {made : T → Prop}

theorem behind (h : Decides inner panics builds made) (behind : S → T) (service : T → S) :
    Decides (makeBehind inner behind service) panics builds
      fun svc => ∃ innerSvc, made innerSvc ∧ svc = service innerSvc where
  panics old := makeBehind_none_iff.trans (h.panics _)
  builds old := by
    rw [← h.builds (old.map behind)]
    constructor
    · rintro ⟨svc, hmade⟩
      obtain ⟨innerSvc, hinner, -⟩ := makeBehind_ok_iff.mp hmade
      exact ⟨innerSvc, hinner⟩
    · rintro ⟨innerSvc, hinner⟩
      exact ⟨_, makeBehind_ok_iff.mpr ⟨innerSvc, hinner, rfl⟩⟩
  made old svc hmade := by
    obtain ⟨innerSvc, hinner, rfl⟩ := makeBehind_ok_iff.mp hmade
    exact ⟨innerSvc, h.made _ _ hinner, rfl⟩

/-- A factory that hides old services, and wraps the new one. -/
theorem wrapped (h : Decides inner panics builds made) (shown : Option S → Option T)
    (service : T → S) :
    Decides (fun old => (inner (shown old)).map fun m => m.map service) panics builds
      fun svc => ∃ innerSvc, made innerSvc ∧ svc = service innerSvc where
  panics old := Option.map_eq_none_iff.trans (h.panics _)
  builds old := by
    rw [← h.builds (shown old)]
    rcases inner (shown old) with _ | e | svc <;> simp [Except.map]
  made old svc hmade := by
    obtain ⟨e | innerSvc, hinner, hmap⟩ := Option.map_eq_some_iff.mp hmade
    · cases hmap
    · exact ⟨innerSvc, h.made _ _ hinner, (Except.ok.inj hmap).symm⟩

theorem mapError (h : Decides inner panics builds made) (into : E → E') :
    Decides (fun old => (inner old).map fun m => m.mapError into) panics builds made where
  panics old := Option.map_eq_none_iff.trans (h.panics _)
  builds old := by
    rw [← h.builds old]
    rcases inner old with _ | e | svc <;> simp [Except.mapError]
  made old svc hmade := by
    obtain ⟨e | innerSvc, hinner, hmap⟩ := Option.map_eq_some_iff.mp hmade
    · cases hmap
    · obtain rfl := Except.ok.inj hmap
      exact h.made _ _ hinner

theorem mono {made' : T → Prop} (h : Decides inner panics builds made)
    (all : ∀ svc, made svc → made' svc) : Decides inner panics builds made' :=
  ⟨h.panics, h.builds, fun old svc hmade => all svc (h.made old svc hmade)⟩

end Decides

section
variable {C₁ C₂ R I A IE TE D T : Type}
  {inner : Make (L7Error IE TE) T} {panics builds : Prop} {made : T → Prop}

/-- The acceptor of the config can be built. -/
def TlsReady (buildAcceptor : I → Except TE A) : TlsConfig (RustlsConfig R) I → Prop
  | .native identity => ∃ acceptor, buildAcceptor identity = .ok acceptor
  | .rustls _ | .none => True

/-- The service accepts connections with the credentials of the config. -/
def UnifiedTlsService.Presents (buildAcceptor : I → Except TE A) :
    TlsConfig (RustlsConfig R) I → UnifiedTlsService R A T → Prop
  | .rustls config, .rustls service => service.acceptor = config
  | .native identity, .native service => buildAcceptor identity = .ok service.acceptor
  | .none, .none _ => True
  | _, _ => False

theorem unifiedTls_decides (buildAcceptor : I → Except TE A)
    (h : Decides inner panics builds made) (tls : TlsConfig (RustlsConfig R) I) :
    Decides (UnifiedTlsFactory.makeViaRef buildAcceptor tls inner)
      (TlsReady buildAcceptor tls ∧ panics) (TlsReady buildAcceptor tls ∧ builds)
      fun svc => svc.Presents buildAcceptor tls ∧ made svc.behind := by
  cases tls with
  | rustls config =>
      have layer := (h.behind RustlsService.inner ({ acceptor := config, inner := · })).wrapped
        (fun old => old.bind UnifiedTlsService.asRustls)
        (UnifiedTlsService.rustls (A := A))
      simp only [TlsReady, true_and]
      refine layer.mono ?_
      rintro _ ⟨_, ⟨innerSvc, hmade, rfl⟩, rfl⟩
      exact ⟨rfl, hmade⟩
  | native identity =>
      cases hacceptor : buildAcceptor identity with
      | error e =>
          have failed : ¬ TlsReady (R := R) buildAcceptor (.native identity) := by
            rintro ⟨acceptor, hready⟩
            cases hacceptor.symm.trans hready
          have outcome : ∀ old, UnifiedTlsFactory.makeViaRef (R := R) buildAcceptor
              (.native identity) inner old = some (.error (.acceptor e)) := fun old => by
            simp [UnifiedTlsFactory.makeViaRef, NativeTlsServiceFactory.makeViaRef, hacceptor,
              Except.map]
          simp only [failed, false_and]
          exact ⟨fun old => by simp [outcome], fun old => by simp [outcome],
            fun old svc hmade => by simp [outcome] at hmade⟩
      | ok acceptor =>
          have layer := (h.behind NativeTlsService.inner ({ acceptor, inner := · })).wrapped
            (fun old => old.bind UnifiedTlsService.asNative)
            (UnifiedTlsService.native (R := R))
          have ready : TlsReady (R := R) buildAcceptor (.native identity) :=
            ⟨acceptor, hacceptor⟩
          simp only [ready, true_and]
          have same : UnifiedTlsFactory.makeViaRef (R := R) buildAcceptor (.native identity) inner =
              fun old => (makeBehind inner NativeTlsService.inner ({ acceptor, inner := · })
                (old.bind UnifiedTlsService.asNative)).map fun m => m.map .native := by
            funext old
            simp [UnifiedTlsFactory.makeViaRef, NativeTlsServiceFactory.makeViaRef, hacceptor]
          rw [same]
          refine layer.mono ?_
          rintro _ ⟨_, ⟨innerSvc, hmade, rfl⟩, rfl⟩
          exact ⟨hacceptor, hmade⟩
  | none =>
      have layer := h.wrapped (fun old => old.bind UnifiedTlsService.asNone)
        (UnifiedTlsService.none (R := R) (A := A))
      simp only [TlsReady, true_and]
      refine layer.mono ?_
      rintro _ ⟨innerSvc, hmade, rfl⟩
      exact ⟨trivial, hmade⟩

section
variable {matchit : Http.Matchit IE} {rand : Rand UInt16 D} {routes : List Http.RouteConfig}
  {E : Type}

theorem newFromIter_none_iff :
    Http.Router.newFromIter (E := E) matchit rand routes = none ↔
      ¬ Http.FormsWhereReached matchit rand [] routes := by
  constructor
  · intro panicked formed
    have reached : Http.FormsWhereReached matchit rand
      (Http.Router.paths (T := LoadBalancer Http.Endpoint D) .new) routes := formed
    obtain ⟨result, hresult, -⟩ := Http.insertAll_returns (E := E) reached
    cases panicked.symm.trans hresult
  · intro unformed
    simp only [Http.FormsWhereReached, not_forall] at unformed
    obtain ⟨past, route, rest, rfl, accepts, unformed⟩ := unformed
    have panics : Http.Router.insertAll matchit rand .new (past ++ route :: rest) =
        (none : Option (Except (Http.RoutingFactoryError IE E) _)) :=
      Http.insertAll_panics accepts unformed
    exact panics

theorem newFromIter_ok_iff :
    (∃ router, Http.Router.newFromIter (E := E) matchit rand routes = some (.ok router)) ↔
      (∀ route ∈ routes, route.Forms rand) ∧
        matchit.Accepts [] (routes.map Http.RouteConfig.path) := by
  constructor
  · rintro ⟨router, made⟩
    have reached : Http.FormsWhereReached matchit rand
        (Http.Router.paths (T := LoadBalancer Http.Endpoint D) .new) routes := by
      by_contra unformed
      cases made.symm.trans (newFromIter_none_iff.mpr unformed)
    obtain ⟨result, hresult, error_iff⟩ := Http.insertAll_returns (E := E) reached
    obtain rfl := Option.some.inj (made.symm.trans hresult)
    have accepts : matchit.Accepts [] (routes.map Http.RouteConfig.path) := by
      by_contra rejected
      obtain ⟨e, he⟩ := error_iff.mpr rejected
      cases he
    exact ⟨Http.formed_of_accepts reached accepts, accepts⟩
  · rintro ⟨formed, accepts⟩
    have reached : Http.FormsWhereReached matchit rand
        (Http.Router.paths (T := LoadBalancer Http.Endpoint D) .new) routes :=
      fun past route rest split _ => formed route (by simp [split])
    obtain ⟨result, hresult, error_iff⟩ := Http.insertAll_returns (E := E) reached
    cases result with
    | error e => exact absurd accepts (error_iff.mp ⟨e, rfl⟩)
    | ok router => exact ⟨router, hresult⟩

end

namespace UpstreamHandlerFactory

/-- A connector for the version and the read timeout of the factory, which may have been offered
the pool of an old one. -/
def Connects {C : Type} (crate : ConnectorCrate C) (self : UpstreamHandlerFactory)
    (connector : C) : Prop :=
  let fresh := crate.setReadTimeout (crate.build self.version) self.httpUpstreamTimeout.readTimeout
  connector = fresh ∨ ∃ old, connector = crate.transferPool old fresh

theorem createConnector_connects {C : Type} (crate : ConnectorCrate C)
    (self : UpstreamHandlerFactory) (old : Option C) :
    self.Connects crate (createConnector crate self old) := by
  cases old with
  | none => exact .inl rfl
  | some old => exact .inr ⟨old, rfl⟩

end UpstreamHandlerFactory

variable (crates : L7Crates C₁ C₂ I A IE TE D)

/-- Requests go upstream over connectors as the factory describes them, with its timeouts. -/
structure UpstreamHandlerFactory.Serves (self : UpstreamHandlerFactory)
    (svc : UpstreamHandler C₁ C₂) : Prop where
  http : self.Connects crates.http svc.httpConnector
  https : self.Connects crates.https svc.httpsConnector
  httpUpstreamTimeout : svc.httpUpstreamTimeout = self.httpUpstreamTimeout

theorem UpstreamHandlerFactory.makeViaRef_serves (self : UpstreamHandlerFactory)
    (old : Option (UpstreamHandler C₁ C₂)) :
    ∃ svc, self.makeViaRef crates.http crates.https old = .ok svc ∧ self.Serves crates svc := by
  refine ⟨_, rfl, ?_⟩
  constructor
  case http => exact createConnector_connects crates.http self _
  case https => exact createConnector_connects crates.https self _
  case httpUpstreamTimeout => rfl

/-- What stands behind the routing: the content handler where it is enabled, and the handler for
the upstreams. -/
structure HttpFactory.ServesUpstreams (self : HttpFactory R I)
    (svc : ContentHandler (UpstreamHandler C₁ C₂) ⊕ UpstreamHandler C₁ C₂) : Prop where
  content : svc.isLeft = self.enableContentHandler
  upstream : self.upstream.Serves crates (ContentHandler.optBehind svc)

theorem HttpFactory.upstreams_made (self : HttpFactory R I)
    (old : Option (ContentHandler (UpstreamHandler C₁ C₂) ⊕ UpstreamHandler C₁ C₂)) :
    ∃ svc, ContentHandler.optMakeViaRef self.enableContentHandler
        (self.upstream.makeViaRef crates.http crates.https) old = .ok svc ∧
      self.ServesUpstreams crates svc := by
  rw [ContentHandler.optMakeViaRef]
  cases content : self.enableContentHandler with
  | true =>
      obtain ⟨svc, made, serves⟩ := self.upstream.makeViaRef_serves crates
        ((old.bind Sum.getLeft?).map ContentHandler.inner)
      rw [if_pos rfl, ContentHandler.makeViaRef, made]
      exact ⟨.inl ⟨svc⟩, rfl, content.symm, serves⟩
  | false =>
      obtain ⟨svc, made, serves⟩ := self.upstream.makeViaRef_serves crates
        (old.bind Sum.getRight?)
      rw [if_neg Bool.false_ne_true, made]
      exact ⟨.inr svc, rfl, content.symm, serves⟩

theorem routing_decides (self : HttpFactory R I) :
    Decides (self.routing crates)
      (¬ Http.FormsWhereReached crates.matchit crates.rand [] self.routes)
      ((∀ route ∈ self.routes, route.Forms crates.rand) ∧
        crates.matchit.Accepts [] (self.routes.map Http.RouteConfig.path))
      fun svc => List.Forall₂ (Http.Router.Made crates.rand) self.routes svc.selector.entries ∧
        self.ServesUpstreams crates svc.inner := by
  have outcome : ∀ old, ∃ svc, self.ServesUpstreams crates svc ∧
      self.routing crates old = (Http.Router.newFromIter crates.matchit crates.rand
        self.routes).map fun made => made.map fun selector => { selector, inner := svc } := by
    intro old
    obtain ⟨svc, made, serves⟩ :=
      self.upstreams_made crates (old.map Http.RewriteAndRouteHandler.inner)
    refine ⟨svc, serves, ?_⟩
    simp only [HttpFactory.routing, Http.RewriteAndRouteHandlerFactory.makeViaRef, made]
    rcases Http.Router.newFromIter crates.matchit crates.rand self.routes with
      _ | e | selector <;> rfl
  constructor
  case panics =>
    intro old
    obtain ⟨svc, -, result⟩ := outcome old
    rw [result, Option.map_eq_none_iff, newFromIter_none_iff]
  case builds =>
    intro old
    obtain ⟨svc, -, result⟩ := outcome old
    rw [result, ← newFromIter_ok_iff (E := Empty)]
    rcases Http.Router.newFromIter crates.matchit crates.rand self.routes with
      _ | e | selector <;> simp [Except.map]
  case made =>
    intro old svc' hmade
    obtain ⟨svc, serves, result⟩ := outcome old
    rw [result] at hmade
    obtain ⟨e | selector, hselector, hmap⟩ := Option.map_eq_some_iff.mp hmade
    · cases hmap
    · obtain rfl := Except.ok.inj hmap
      exact ⟨Http.Router.newFromIter_ok hselector, serves⟩

/-! Factories of layer 7. -/

/-- What a factory makes is what its config asks for. -/
structure HttpFactory.Serves (self : HttpFactory R I) (svc : HttpService C₁ C₂ R A D) : Prop where
  tls : svc.inner.inner.Presents crates.buildAcceptor self.tls
  httpTimeout : svc.inner.inner.behind.inner.httpTimeout = self.httpTimeout
  openid : svc.inner.inner.behind.inner.handlerChain.inner.openidConfig = self.openidConfig
  routes : List.Forall₂ (Http.Router.Made crates.rand) self.routes
    svc.inner.inner.behind.inner.handlerChain.inner.inner.selector.entries
  upstreams : self.ServesUpstreams crates
    svc.inner.inner.behind.inner.handlerChain.inner.inner.inner

structure ThriftFactory.Serves (self : ThriftFactory R I) (svc : ThriftService R A D) : Prop where
  tls : svc.inner.Presents crates.buildAcceptor self.tls
  thriftTimeout : svc.inner.behind.thriftTimeout = self.thriftTimeout
  endpoints : proxyHandlerEndpoints crates.rand self.config =
    some (.ok svc.inner.behind.handlerChain)

theorem handlerChain_decides (self : HttpFactory R I) :
    Decides (self.handlerChain crates : Make (L7Error IE TE) _)
      (¬ Http.FormsWhereReached crates.matchit crates.rand [] self.routes)
      ((∀ route ∈ self.routes, route.Forms crates.rand) ∧
        crates.matchit.Accepts [] (self.routes.map Http.RouteConfig.path))
      fun svc => svc.inner.openidConfig = self.openidConfig ∧
        List.Forall₂ (Http.Router.Made crates.rand) self.routes
          svc.inner.inner.selector.entries ∧
        self.ServesUpstreams crates svc.inner.inner.inner := by
  have routing := (routing_decides crates self).mapError
    (L7Error.routing : _ → L7Error IE TE)
  have openid := routing.behind OpenIdHandler.inner
    ({ inner := ·, openidConfig := self.openidConfig })
  have reuse := openid.behind ConnectionReuseHandler.inner ConnectionReuseHandler.mk
  refine reuse.mono ?_
  rintro _ ⟨_, ⟨svc, made, rfl⟩, rfl⟩
  exact ⟨rfl, made⟩

namespace L7Factory

def tls : L7Factory R I → TlsConfig (RustlsConfig R) I
  | .http factory => factory.tls
  | .thrift factory => factory.tls

/-- With its credentials in order, it comes upon upstreams that make it panic. -/
def Panics (self : L7Factory R I) : Prop :=
  TlsReady crates.buildAcceptor self.tls ∧
    match self with
    | .http factory => ¬ Http.FormsWhereReached crates.matchit crates.rand [] factory.routes
    | .thrift factory => proxyHandlerEndpoints crates.rand factory.config = none

def Builds (self : L7Factory R I) : Prop :=
  TlsReady crates.buildAcceptor self.tls ∧
    match self with
    | .http factory => (∀ route ∈ factory.routes, route.Forms crates.rand) ∧
        crates.matchit.Accepts [] (factory.routes.map Http.RouteConfig.path)
    | .thrift factory => ∃ endpoints, proxyHandlerEndpoints crates.rand factory.config =
        some (.ok endpoints)

def Serves : L7Factory R I → L7Service C₁ C₂ R A D → Prop
  | .http factory, .http svc => factory.Serves crates svc
  | .thrift factory, .thrift svc => factory.Serves crates svc
  | _, _ => False

theorem http_decides (factory : HttpFactory R I) :
    Decides (makeViaRef crates (.http factory)) (Panics crates (.http factory))
      (Builds crates (.http factory)) (Serves crates (.http factory)) := by
  have core := (handlerChain_decides crates factory).behind HttpCoreService.handlerChain
    ({ handlerChain := ·, httpTimeout := factory.httpTimeout })
  have detect := core.behind H2DetectService.inner H2DetectService.mk
  have tls := unifiedTls_decides crates.buildAcceptor detect factory.tls
  have proxied := tls.behind ProxyProtocolService.inner ProxyProtocolService.mk
  have service := proxied.behind ContextService.inner ContextService.mk
  refine (service.wrapped (fun old => old.bind L7Service.asHttp) L7Service.http).mono ?_
  rintro _ ⟨_, ⟨_, ⟨svc, ⟨presents, _, ⟨chain, ⟨openid, routes, upstreams⟩, rfl⟩, behind⟩, rfl⟩,
    rfl⟩, rfl⟩
  constructor
  case tls => exact presents
  case httpTimeout => rw [behind]
  case openid => rw [behind]; exact openid
  case routes => rw [behind]; exact routes
  case upstreams => rw [behind]; exact upstreams

theorem thrift_decides (factory : ThriftFactory R I) :
    Decides (makeViaRef crates (.thrift factory)) (Panics crates (.thrift factory))
      (Builds crates (.thrift factory)) (Serves crates (.thrift factory)) := by
  have endpoints : Decides (fun _ : Option (LoadBalancer Thrift.Endpoint D) =>
        proxyHandlerEndpoints crates.rand factory.config)
      (proxyHandlerEndpoints crates.rand factory.config = none)
      (∃ endpoints, proxyHandlerEndpoints crates.rand factory.config = some (.ok endpoints))
      fun endpoints => proxyHandlerEndpoints crates.rand factory.config = some (.ok endpoints) :=
    ⟨fun _ => .rfl, fun _ => .rfl, fun _ _ made => made⟩
  have core := (endpoints.mapError (L7Error.loadBalance : _ → L7Error IE TE)).behind
    TtheaderCoreService.handlerChain
    ({ handlerChain := ·, thriftTimeout := factory.thriftTimeout })
  have tls := unifiedTls_decides crates.buildAcceptor core factory.tls
  have service := tls.behind ContextService.inner ContextService.mk
  refine (service.wrapped (fun old => old.bind L7Service.asThrift) L7Service.thrift).mono ?_
  rintro _ ⟨_, ⟨svc, ⟨presents, endpoints, made, behind⟩, rfl⟩, rfl⟩
  constructor
  case tls => exact presents
  case thriftTimeout => rw [behind]
  case endpoints => rw [behind]; exact made

/-- The outcome does not depend on the service that is taken over from. -/
theorem decides (self : L7Factory R I) :
    Decides (self.makeViaRef crates) (self.Panics crates) (self.Builds crates)
      (self.Serves crates) := by
  cases self with
  | http factory => exact http_decides crates factory
  | thrift factory => exact thrift_decides crates factory

end L7Factory

end

end Monolake.Config
