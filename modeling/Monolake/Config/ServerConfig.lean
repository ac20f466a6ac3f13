import Monolake.Config.Manager
import Monolake.Http.H1Service
import Monolake.Http.Route
import Monolake.Http.UpstreamSend
import Monolake.Thrift.Ttheader

/-!
From the content of the config file to the servers. The formats and the TLS crates are
parameters, and so are the files that a server with TLS refers to. The table of the servers
comes in any order; whether it can be built does not depend on that.
-/
namespace Monolake.Config

open Orchestrator

/-! What the user writes. -/

inductive ListenerConfig where
  | socket (ip : Http.IpAddr) (port : UInt16)
  | unix (path : ByteArray)

inductive TlsStack where
  | rustls
  | nativeTls

/-- The paths of the two files, and who reads them. -/
structure TlsUserConfig where
  key : String
  chain : String
  stack : TlsStack

structure HttpTimeout where
  serverKeepaliveTimeoutSec : Option UInt64
  serverReadHeaderTimeoutSec : Option UInt64
  serverReadBodyTimeoutSec : Option UInt64
  upstreamConnectTimeoutSec : Option UInt64
  upstreamReadTimeoutSec : Option UInt64

structure ThriftTimeout where
  serverKeepaliveTimeoutSec : Option UInt64
  serverMessageTimeoutSec : Option UInt64

inductive HttpVersion where
  | http2
  | http11
  | auto

structure HttpOptHandlers where
  contentHandler : Bool

structure ServerHttpUserConfig where
  routes : List Http.RouteConfig
  timeout : HttpTimeout
  upstreamHttpVersion : HttpVersion
  httpOptHandlers : HttpOptHandlers

structure ServerThriftUserConfig where
  route : Thrift.RouteConfig
  timeout : ThriftTimeout

inductive ServerProtocolUserConfig where
  | http (config : ServerHttpUserConfig)
  | thrift (config : ServerThriftUserConfig)

structure ServerUserConfig where
  name : String
  tls : Option TlsUserConfig
  protocolConfig : ServerProtocolUserConfig

/-! What the factories get. -/

/-- `Duration::from_secs`, in nanoseconds. -/
def durationFromSecs (secs : UInt64) : Nat := secs.toNat * 1000000000

def HttpTimeout.toServerTimeout (t : HttpTimeout) : Http.HttpServerTimeout where
  keepaliveTimeout := t.serverKeepaliveTimeoutSec.map durationFromSecs
  readHeaderTimeout := t.serverReadHeaderTimeoutSec.map durationFromSecs
  readBodyTimeout := t.serverReadBodyTimeoutSec.map durationFromSecs

def HttpTimeout.toUpstreamTimeout (t : HttpTimeout) : Http.HttpUpstreamTimeout where
  connectTimeout := t.upstreamConnectTimeoutSec.map durationFromSecs
  readTimeout := t.upstreamReadTimeoutSec.map durationFromSecs

def ThriftTimeout.toServerTimeout (t : ThriftTimeout) : Thrift.ThriftServerTimeout where
  keepaliveTimeout := t.serverKeepaliveTimeoutSec.map durationFromSecs
  messageTimeout := t.serverMessageTimeoutSec.map durationFromSecs

inductive ServerProtocolConfig where
  | http (routes : List Http.RouteConfig) (serverTimeout : Http.HttpServerTimeout)
      (upstreamTimeout : Http.HttpUpstreamTimeout) (upstreamHttpVersion : HttpVersion)
      (optHandlers : HttpOptHandlers)
  | thrift (route : Thrift.RouteConfig) (serverTimeout : Thrift.ThriftServerTimeout)

inductive TlsConfig (A B : Type) where
  | rustls (config : A)
  | native (config : B)
  | none

/-- `AuthConfig`: the registration of the proxy with an OpenID provider. -/
structure OpenIdConfig where
  clientId : String
  clientSecret : String
  issuerUrl : String
  redirectUrl : String

/-- A `rustls::ServerConfig`, with the protocols that it offers. -/
structure RustlsConfig (R : Type) where
  scfg : R
  alpnProtocols : List (List UInt8)

structure ServerConfig (R I : Type) where
  name : String
  tls : TlsConfig (RustlsConfig R) I
  authConfig : Option OpenIdConfig
  protocol : ServerProtocolConfig

/-! TLS credentials. -/

/-- What is used of the TLS crates: `R` are the configurations of `rustls`, and `I` the
identities of `native_tls`. -/
structure TlsCrates (R I E : Type) where
  certs : List UInt8 → Except E (List (List UInt8))
  pkcs8PrivateKeys : List UInt8 → Except E (List (List UInt8))
  withSingleCert : List (List UInt8) → List UInt8 → Except E R
  identityFromPkcs8 : List UInt8 → List UInt8 → Except E I

inductive TlsConfigError (E : Type) where
  | emptyCertFile
  | emptyKeyFile
  | refused (e : E)

/-- The bytes of "h2" and of "http/1.1". -/
def aplnProtocols : List (List UInt8) :=
  [[0x68, 0x32], [0x68, 0x74, 0x74, 0x70, 0x2f, 0x31, 0x2e, 0x31]]

section
variable {R I E : Type}

/-- `TlsConfig::try_from`, on the contents of the two files. -/
def TlsConfig.tryFrom (crates : TlsCrates R I E) :
    TlsConfig (List UInt8 × List UInt8) (List UInt8 × List UInt8) →
      Except (TlsConfigError E) (TlsConfig (RustlsConfig R) I)
  | .rustls (chain, key) => do
      let chain ← (crates.certs chain).mapError .refused
      if chain.isEmpty then throw .emptyCertFile
      let keys ← (crates.pkcs8PrivateKeys key).mapError .refused
      match keys.getLast? with
      | .some key =>
          let scfg ← (crates.withSingleCert chain key).mapError .refused
          return .rustls { scfg, alpnProtocols := aplnProtocols }
      | .none => throw .emptyKeyFile
  | .native (chain, key) => do
      let identity ← (crates.identityFromPkcs8 chain key).mapError .refused
      return .native identity
  | .none => return .none

end

/-! The file. -/

/-- Why `parse_service_config` fails. -/
inductive ConfigError (P IE E : Type) where
  | format (e : P)
  | fileRead (e : IE)
  | tls (e : TlsConfigError E)

/-- The first byte that is no white space is an opening brace. -/
def isJson (content : List UInt8) : Bool :=
  match content.find? fun b => b ≠ 0x20 && b ≠ 0x0d && b ≠ 0x0a && b ≠ 0x09 with
  | some first => first = 0x7b
  | none => false

/-- What reads the file, and the files that it refers to. -/
structure ConfigReader (T R I P IE E : Type) where
  json : List UInt8 → Except P T
  toml : List UInt8 → Except P T
  fileReadSync : String → Except IE (List UInt8)
  crates : TlsCrates R I E

section
variable {T R I P IE E : Type}

def parseFromSlice (reader : ConfigReader T R I P IE E) (content : List UInt8) : Except P T :=
  if isJson content then reader.json content else reader.toml content

/-- The certificate chain is read before the key. -/
def buildTls (reader : ConfigReader T R I P IE E) :
    Option TlsUserConfig → Except (ConfigError P IE E) (TlsConfig (RustlsConfig R) I)
  | some inner => do
      let chain ← (reader.fileReadSync inner.chain).mapError .fileRead
      let key ← (reader.fileReadSync inner.key).mapError .fileRead
      match inner.stack with
      | .rustls => (TlsConfig.tryFrom reader.crates (.rustls (chain, key))).mapError .tls
      | .nativeTls => (TlsConfig.tryFrom reader.crates (.native (chain, key))).mapError .tls
  | none => return .none

def buildProtocol : ServerProtocolUserConfig → ServerProtocolConfig
  | .http http =>
      .http http.routes http.timeout.toServerTimeout http.timeout.toUpstreamTimeout
        http.upstreamHttpVersion http.httpOptHandlers
  | .thrift thrift => .thrift thrift.route thrift.timeout.toServerTimeout

/-- One round of the loop in `build_server_config`. -/
def buildServer (reader : ConfigReader T R I P IE E) (server : ServerUserConfig) :
    Except (ConfigError P IE E) (ServerConfig R I) := do
  let tls ← buildTls reader server.tls
  return { name := server.name, tls, authConfig := none
           protocol := buildProtocol server.protocolConfig }

/-- The loop of `build_server_config`, over the rest of the table. -/
def buildServers (reader : ConfigReader T R I P IE E)
    (serversNew : ServiceConfigMap ListenerConfig (ServerConfig R I)) :
    List (Sigma fun _ : Name => ServiceConfig ListenerConfig ServerUserConfig) →
      Except (ConfigError P IE E) (ServiceConfigMap ListenerConfig (ServerConfig R I))
  | [] => return serversNew
  | ⟨key, config⟩ :: servers => do
      let server ← buildServer reader config.server
      buildServers reader (serversNew.insert key { listener := config.listener, server }) servers

end

section
variable {R I P IE E : Type}

abbrev UserServers := ServiceConfigMap ListenerConfig ServerUserConfig

def buildServerConfig (reader : ConfigReader UserServers R I P IE E) (servers : UserServers) :
    Except (ConfigError P IE E) (ServiceConfigMap ListenerConfig (ServerConfig R I)) :=
  buildServers reader ∅ servers.entries

def parseServiceConfig (reader : ConfigReader UserServers R I P IE E) (content : List UInt8) :
    Except (ConfigError P IE E) (ServiceConfigMap ListenerConfig (ServerConfig R I)) := do
  let servers ← (parseFromSlice reader content).mapError .format
  buildServerConfig reader servers

variable {reader : ConfigReader UserServers R I P IE E}

theorem parseServiceConfig_eq {content : List UInt8} {servers : UserServers}
    (parsed : parseFromSlice reader content = .ok servers) :
    parseServiceConfig reader content = buildServerConfig reader servers := by
  rw [parseServiceConfig, parsed]
  rfl

theorem parseServiceConfig_ok_iff {content : List UInt8}
    {services : ServiceConfigMap ListenerConfig (ServerConfig R I)} :
    parseServiceConfig reader content = .ok services ↔
      ∃ servers, parseFromSlice reader content = .ok servers ∧
        buildServerConfig reader servers = .ok services := by
  cases hservers : parseFromSlice reader content with
  | error e => simp [parseServiceConfig, hservers, Except.mapError, bind, Except.bind]
  | ok servers => simp [parseServiceConfig_eq hservers]

/-- A server of the table is built with its listener as it is. -/
def BuiltFrom (reader : ConfigReader UserServers R I P IE E)
    (user : ServiceConfig ListenerConfig ServerUserConfig)
    (built : ServiceConfig ListenerConfig (ServerConfig R I)) : Prop :=
  built.listener = user.listener ∧ buildServer reader user.server = .ok built.server

theorem buildServers_ok {serversNew services : ServiceConfigMap ListenerConfig (ServerConfig R I)}
    {entries : List (Sigma fun _ : Name => ServiceConfig ListenerConfig ServerUserConfig)}
    (nodup : (entries.map Sigma.fst).Nodup)
    (built : buildServers reader serversNew entries = .ok services) :
    (∀ key user, ⟨key, user⟩ ∈ entries →
      ∃ server, services.lookup key = some server ∧ BuiltFrom reader user server) ∧
    ∀ key, key ∉ entries.map Sigma.fst → services.lookup key = serversNew.lookup key := by
  induction entries generalizing serversNew with
  | nil =>
      obtain rfl := Except.ok.inj built
      exact ⟨by simp, fun _ _ => rfl⟩
  | cons entry rest ih =>
      obtain ⟨key, user⟩ := entry
      obtain ⟨fresh, nodup⟩ := List.nodup_cons.mp nodup
      rw [buildServers] at built
      cases first : buildServer reader user.server with
      | error e =>
          rw [first] at built
          cases built
      | ok server =>
          rw [first] at built
          obtain ⟨built_rest, others⟩ := ih nodup built
          constructor
          · intro key' user' hmem
            rcases List.mem_cons.mp hmem with heq | hrest
            · obtain ⟨rfl, hheq⟩ := Sigma.mk.inj heq
              obtain rfl := eq_of_heq hheq
              have lookup : services.lookup key' = some ⟨user'.listener, server⟩ := by
                rw [others _ fresh, AList.lookup_insert]
              exact ⟨_, lookup, rfl, first⟩
            · exact built_rest key' user' hrest
          · intro key' hkey
            rw [List.map_cons, List.mem_cons, not_or] at hkey
            rw [others key' hkey.2, AList.lookup_insert_ne hkey.1]

theorem buildServers_returns {serversNew : ServiceConfigMap ListenerConfig (ServerConfig R I)}
    {entries : List (Sigma fun _ : Name => ServiceConfig ListenerConfig ServerUserConfig)} :
    (∃ services, buildServers reader serversNew entries = .ok services) ↔
      ∀ entry ∈ entries, ∃ server, buildServer reader entry.2.server = .ok server := by
  induction entries generalizing serversNew with
  | nil => exact iff_of_true ⟨_, rfl⟩ (by simp)
  | cons entry rest ih =>
      obtain ⟨key, user⟩ := entry
      rw [buildServers, List.forall_mem_cons]
      cases buildServer reader user.server with
      | error e => exact iff_of_false (fun ⟨_, h⟩ => nomatch h) fun ⟨⟨_, h⟩, _⟩ => nomatch h
      | ok server => exact ih.trans ⟨fun h => ⟨⟨server, rfl⟩, h⟩, fun h => h.2⟩

variable {servers : UserServers} {services : ServiceConfigMap ListenerConfig (ServerConfig R I)}

theorem mem_entries_iff {key : Name} {user : ServiceConfig ListenerConfig ServerUserConfig} :
    (⟨key, user⟩ : Sigma fun _ => _) ∈ servers.entries ↔ servers.lookup key = some user :=
  (AList.mem_lookup_iff (s := servers)).symm

/-- The names of the table are built, and no others. -/
theorem buildServerConfig_ok (built : buildServerConfig reader servers = .ok services)
    (key : Name) :
    Option.Rel (BuiltFrom reader) (servers.lookup key) (services.lookup key) := by
  obtain ⟨entries, others⟩ := buildServers_ok servers.nodupKeys built
  cases lookup : servers.lookup key with
  | some user =>
      obtain ⟨server, hserver, from_user⟩ := entries key user (mem_entries_iff.mpr lookup)
      rw [hserver]
      exact .some from_user
  | none =>
      rw [others key (AList.lookup_eq_none.mp lookup), AList.lookup_empty]
      exact .none

/-- The table is built as a whole or not at all. -/
theorem buildServerConfig_returns :
    (∃ services, buildServerConfig reader servers = .ok services) ↔
      ∀ key user, servers.lookup key = some user →
        ∃ server, buildServer reader user.server = .ok server := by
  rw [buildServerConfig, buildServers_returns]
  constructor
  · exact fun all key user lookup => all _ (mem_entries_iff.mpr lookup)
  · rintro all ⟨key, user⟩ hmem
    exact all key user (mem_entries_iff.mp hmem)

end

end Monolake.Config
