import Monolake.Config.L7Factory
import Monolake.Config.LostWorkers
import Monolake.Config.Watch
import Monolake.Orchestrator.Provenance

/-!
Hot reload of the sites that the config file describes. The attempts of the manager meet the
parser of the file and the factories of layer 7 here; a worker is lost when a factory panics
on it.
-/
namespace Monolake.Config

universe u
open Foundation Orchestrator Common

/-! What holds of every worker, one by one, is kept by an attempt that keeps it in each
dispatch. -/

section Keeps
variable {F LF S L SE LE LC SC IE PE : Type u} {P : Worker F S L → Prop}

/-- Every dispatch of the attempt. -/
structure Outcomes.All (Q : Factories F LF S L SE LE → Prop) (outcomes : Outcomes F LF S L SE LE) :
    Prop where
  prepare : ∀ key i, Q (outcomes.prepare key i)
  commit : ∀ key i, Q (outcomes.commit key i)
  abort : ∀ key i, Q (outcomes.abort key i)

/-- Losing a worker keeps the property, and so does a dispatch with these factories. -/
structure Kept (P : Worker F S L → Prop) (Q : Factories F LF S L SE LE → Prop) : Prop where
  lose : ∀ w, P w → ∀ g, P (w.lose g)
  dispatch : ∀ w, P w → ∀ env, Q env → ∀ cmd, P (w.dispatch env cmd).1

variable {Q : Factories F LF S L SE LE → Prop} (kept : Kept P Q)
  {mgr mgr' : StaticFileConfigManager F LF S L LC SC} {losses : Losses}
  {workers : List (Worker F S L)}

include kept in
theorem dispatchLosing_keeps {gone : Nat → Bool} {env : Nat → Factories F LF S L SE LE}
    (all : ∀ i, Q (env i)) (cmd : ServiceCommand F LF) (h : ∀ w ∈ workers, P w) :
    ∀ w ∈ (dispatchLosing gone env cmd workers).1, P w := by
  intro w hw
  obtain ⟨i, hi⟩ := List.getElem?_of_mem hw
  rw [dispatchLosing_getElem?] at hi
  obtain ⟨before, hb, rfl⟩ := Option.map_eq_some_iff.mp hi
  exact kept.dispatch _ (kept.lose _ (h before (List.mem_of_getElem? hb)) _) _ (all i) cmd

include kept in
theorem losingUntilError_keeps (gone : Name → Nat → Bool)
    {env : Name → Nat → Factories F LF S L SE LE} (all : ∀ key i, Q (env key i))
    (command : Patch LC SC → Option (ServiceCommand F LF)) (patches : List (Patch LC SC))
    (h : ∀ w ∈ workers, P w) :
    ∀ w ∈ (losingUntilError gone env command patches workers).1, P w := by
  induction patches generalizing workers with
  | nil => exact h
  | cons p rest ih =>
      rw [losingUntilError]
      split
      · exact ih h
      · rename_i cmd _
        have dispatched : ∀ w ∈ (dispatchLosing (gone p.key) (env p.key) cmd workers).1, P w :=
          dispatchLosing_keeps kept (all p.key) cmd h
        dsimp only
        split
        · exact dispatched
        · exact ih dispatched

include kept in
theorem abortLosing_keeps {outcomes : Outcomes F LF S L SE LE} (all : outcomes.All Q)
    (patches : List (Patch LC SC)) (h : ∀ w ∈ workers, P w) :
    ∀ w ∈ StaticFileConfigManager.abortLosing losses outcomes patches workers, P w := by
  induction patches generalizing workers with
  | nil => exact h
  | cons p rest ih =>
      cases p with
      | insert key _ _ | update key _ =>
          exact ih (dispatchLosing_keeps kept (all.abort key) (.abort key) h)
      | delete key => exact ih h

include kept in
theorem reloadFileLosing_keeps {attempt : Attempt F LF S L SE LE LC SC IE PE}
    (all : attempt.outcomes.All Q) {result : ReloadResult SE LE IE PE}
    (step : mgr.reloadFileLosing losses attempt = some (mgr', result))
    (h : ∀ w ∈ mgr.workers, P w) : ∀ w ∈ mgr'.workers, P w := by
  have services : ∀ newServices r,
      mgr.reloadServicesLosing losses attempt.order attempt.outcomes newServices = some r →
        ∀ w ∈ r.1, P w := by
    intro newServices r hr
    simp only [StaticFileConfigManager.reloadServicesLosing] at hr
    split at hr
    · cases hr
    · rename_i patches _
      have prepared := losingUntilError_keeps kept losses.prepare all.prepare
        mgr.prepareCommand patches h
      split at hr
      · rename_i workers hprepare
        rw [hprepare] at prepared
        split at hr
        · rename_i workers' hcommit
          obtain rfl := Option.some.inj hr
          have committed := losingUntilError_keeps kept losses.commit all.commit
            mgr.commitCommand patches prepared
          rw [hcommit] at committed
          exact committed
        · cases hr
      · rename_i workers e hprepare
        rw [hprepare] at prepared
        obtain rfl := Option.some.inj hr
        exact abortLosing_keeps kept all patches prepared
  simp only [StaticFileConfigManager.reloadFileLosing] at step
  split at step
  · obtain ⟨rfl, rfl⟩ := Prod.mk.inj (Option.some.inj step)
    exact h
  · split at step
    · obtain ⟨rfl, rfl⟩ := Prod.mk.inj (Option.some.inj step)
      exact h
    · split at step
      · obtain ⟨rfl, rfl⟩ := Prod.mk.inj (Option.some.inj step)
        exact h
      · rename_i newServices _
        split at step
        · cases step
        · rename_i workers e hreload
          obtain ⟨rfl, rfl⟩ := Prod.mk.inj (Option.some.inj step)
          exact services newServices _ hreload
        · rename_i workers hreload
          obtain ⟨rfl, rfl⟩ := Prod.mk.inj (Option.some.inj step)
          exact services newServices _ hreload

/-- What is online was read and parsed in an attempt that reloaded. -/
theorem reloadFileLosing_brings {attempt : Attempt F LF S L SE LE LC SC IE PE}
    (step : mgr.reloadFileLosing losses attempt = some (mgr', .reloaded)) :
    attempt.Brings mgr' := by
  simp only [StaticFileConfigManager.reloadFileLosing] at step
  split at step
  · simp at step
  · rename_i latestContent hread
    split at step
    · simp at step
    · split at step
      · simp at step
      · rename_i newServices hparse
        split at step
        · cases step
        · simp at step
        · obtain ⟨rfl, -⟩ := Prod.mk.inj (Option.some.inj step)
          exact ⟨hread, hparse⟩

theorem dispatchLosing_all_gone {gone : Nat → Bool} {env : Nat → Factories F LF S L SE LE}
    (cmd : ServiceCommand F LF) (some_worker : workers ≠ []) (all_gone : ∀ i, gone i = true) :
    resultGroupErr (dispatchLosing gone env cmd workers).2 ≠ .ok () ∧
      ∀ w ∈ (dispatchLosing gone env cmd workers).1, w.alive = false := by
  constructor
  · intro hgroup
    obtain ⟨w, hw⟩ := List.exists_mem_of_ne_nil _ some_worker
    obtain ⟨i, hi⟩ := List.getElem?_of_mem hw
    obtain ⟨alive, same, -⟩ := dispatchLosing_ok hgroup i w hi
    rw [← same] at alive
    simp [Worker.lose, all_gone i] at alive
  · intro w hw
    obtain ⟨i, hi⟩ := List.getElem?_of_mem hw
    rw [dispatchLosing_getElem?] at hi
    obtain ⟨before, -, rfl⟩ := Option.map_eq_some_iff.mp hi
    rw [dispatch_alive]
    simp [Worker.lose, all_gone i]

/-- A prepare in which factories panic: it goes on while every worker can build, and the first
panic takes all workers along. -/
theorem prepare_panics (mgr : StaticFileConfigManager F LF S L LC SC) (gone : Name → Nat → Bool)
    (env : Name → Nat → Factories F LF S L SE LE) {patches : List (Patch LC SC)}
    (sound : ∀ w ∈ workers, w.Sound) (some_worker : workers ≠ [])
    (decided : ∀ p ∈ patches, ∀ server, p.staging = some server → (∀ i, gone p.key i = true) ∨
      (∀ i, gone p.key i = false) ∧ ∀ i old, ∃ svc,
        (env p.key i).makeViaRef (mgr.serverFactoryProvider server) old = .ok svc)
    {q : Patch LC SC} (hq : q ∈ patches) (staging : q.staging ≠ none)
    (panics : ∀ i, gone q.key i = true) :
    let out := losingUntilError gone env mgr.prepareCommand patches workers
    out.2 ≠ .ok () ∧ ∀ w ∈ out.1, w.alive = false := by
  induction patches generalizing workers with
  | nil => simp at hq
  | cons p rest ih =>
      obtain ⟨first, others⟩ := List.forall_mem_cons.mp decided
      have later : ∀ {next : List (Worker F S L)}, (∀ w ∈ next, w.Sound) → next ≠ [] →
          ((∃ i, gone p.key i = false) ∨ p.staging = none) →
          let out := losingUntilError gone env mgr.prepareCommand rest next
          out.2 ≠ .ok () ∧ ∀ w ∈ out.1, w.alive = false := by
        intro next hsound hne skips
        refine ih hsound hne others ((List.mem_cons.mp hq).resolve_left ?_)
        rintro rfl
        rcases skips with ⟨i, stays⟩ | unstaged
        · simp [panics i] at stays
        · exact staging unstaged
      cases hstaging : p.staging with
      | none =>
          have skip : mgr.prepareCommand p = none := by rw [prepareCommand_eq, hstaging]; rfl
          simp only [losingUntilError, skip]
          exact later sound some_worker (.inr hstaging)
      | some server =>
          have command : mgr.prepareCommand p =
              some (.precommit p.key (mgr.serverFactoryProvider server)) := by
            rw [prepareCommand_eq, hstaging]
            rfl
          simp only [losingUntilError, command]
          rcases first server hstaging with all_gone | ⟨all_stay, answers⟩
          · obtain ⟨failed, dead⟩ := dispatchLosing_all_gone
              (.precommit p.key (mgr.serverFactoryProvider server)) some_worker all_gone
            split
            · exact ⟨by simp, dead⟩
            · rename_i hgroup
              exact absurd hgroup failed
          · have stay : gone p.key = fun _ => false := funext all_stay
            rw [stay, dispatchLosing_none]
            have succeeds : resultGroupErr (dispatchServiceCommand (env p.key)
                (.precommit p.key (mgr.serverFactoryProvider server)) workers).2 = .ok () := by
              refine dispatch_err_iff.mpr fun i w hw => ?_
              exact (precommit_ok_iff (sound w (List.mem_of_getElem? hw)) _ _).mpr (answers i _)
            rw [succeeds]
            refine later ?_ ?_ (.inl ⟨0, all_stay 0⟩)
            · intro w hw
              obtain ⟨i, hi⟩ := List.getElem?_of_mem hw
              rw [dispatch_getElem?] at hi
              obtain ⟨before, hb, rfl⟩ := Option.map_eq_some_iff.mp hi
              exact (sound before (List.mem_of_getElem? hb)).dispatch _
            · rw [← List.length_pos_iff, dispatch_length, List.length_pos_iff]
              exact some_worker

theorem abortLosing_lost {outcomes : Outcomes F LF S L SE LE} (patches : List (Patch LC SC))
    (h : ∀ w ∈ workers, w.alive = false) :
    ∀ w ∈ StaticFileConfigManager.abortLosing losses outcomes patches workers,
      w.alive = false := by
  have kept : Kept (fun w : Worker F S L => w.alive = false)
      (fun _ : Factories F LF S L SE LE => True) :=
    ⟨fun w h g => by simp [Worker.lose, h], fun w h env _ cmd => (dispatch_alive w env).trans h⟩
  exact abortLosing_keeps kept ⟨fun _ _ => trivial, fun _ _ => trivial, fun _ _ => trivial⟩
    patches h

end Keeps

/-! The attempts of `main`. -/

section Main
variable {C₁ C₂ R I A IE TE D X FE TC IOE L LE : Type}

/-- The factory of a server, as `main` provides it. -/
def serverFactory (config : ServerConfig R I) : L7Factory R I :=
  (l7Factory config).get (l7Factory_isSome config)

/-- The answer of a factory. Nobody gets the answer of one that panics. -/
def l7Answer (crates : L7Crates C₁ C₂ I A IE TE D) (factory : L7Factory R I)
    (old : Option (L7Service C₁ C₂ R A D)) :
    Except (Option (L7Error IE TE)) (L7Service C₁ C₂ R A D) :=
  match factory.makeViaRef crates old with
  | some made => made.mapError some
  | none => .error none

/-- What an attempt meets: the files, the order in which `diff` takes the names, the outcomes of
listening, and the workers that are lost for other reasons. The listener of a server is bound
or built from its config. -/
structure Surroundings (R I X FE TC IOE L LE : Type) where
  fileRead : Except IOE (List UInt8)
  reader : ConfigReader UserServers R I X FE TC
  order : IterationOrder
  listen : Name → Nat → ListenerConfig → Except LE L
  lost : Losses

abbrev SiteManager (C₁ C₂ R I A D L : Type) :=
  StaticFileConfigManager (L7Factory R I) ListenerConfig (L7Service C₁ C₂ R A D) L ListenerConfig
    (ServerConfig R I)

abbrev SiteAttempt (C₁ C₂ R I A IE TE D X FE TC IOE L LE : Type) :=
  Attempt (L7Factory R I) ListenerConfig (L7Service C₁ C₂ R A D) L (Option (L7Error IE TE)) LE
    ListenerConfig (ServerConfig R I) IOE (ConfigError X FE TC)

abbrev SiteResult (IE TE X FE TC IOE LE : Type) :=
  ReloadResult (Option (L7Error IE TE)) LE IOE (ConfigError X FE TC)

namespace Surroundings
variable (crates : L7Crates C₁ C₂ I A IE TE D) (s : Surroundings R I X FE TC IOE L LE)

def attempt : SiteAttempt C₁ C₂ R I A IE TE D X FE TC IOE L LE :=
  let factories key i := { makeViaRef := l7Answer crates, makeListener := s.listen key i }
  { fileRead := s.fileRead
    parseServiceConfig := parseServiceConfig s.reader
    order := s.order
    outcomes := { prepare := factories, commit := factories, abort := factories } }

/-- The factory of the server with this name in the file panics. -/
def panics (key : Name) : Bool :=
  match s.fileRead with
  | .error _ => false
  | .ok content =>
      match parseServiceConfig s.reader content with
      | .error _ => false
      | .ok services =>
          match services.lookup key with
          | none => false
          | some config => ((serverFactory config.server).makeViaRef crates none).isNone

def losses : Losses :=
  { s.lost with prepare := fun key i => s.lost.prepare key i || s.panics crates key }

end Surroundings

def siteStep (crates : L7Crates C₁ C₂ I A IE TE D) (mgr : SiteManager C₁ C₂ R I A D L)
    (performed : Surroundings R I X FE TC IOE L LE × SiteResult IE TE X FE TC IOE LE)
    (mgr' : SiteManager C₁ C₂ R I A D L) : Prop :=
  mgr.reloadFileLosing (performed.1.losses crates) (performed.1.attempt crates) =
    some (mgr', performed.2)

variable {crates : L7Crates C₁ C₂ I A IE TE D} {mgr mgr' : SiteManager C₁ C₂ R I A D L}
  {s : Surroundings R I X FE TC IOE L LE} {result : SiteResult IE TE X FE TC IOE LE}
  {tr : List (Surroundings R I X FE TC IOE L LE × SiteResult IE TE X FE TC IOE LE)}

theorem l7Answer_ok_iff {factory : L7Factory R I} {old : Option (L7Service C₁ C₂ R A D)}
    {svc : L7Service C₁ C₂ R A D} :
    l7Answer crates factory old = .ok svc ↔ factory.makeViaRef crates old = some (.ok svc) := by
  rw [l7Answer]
  rcases factory.makeViaRef crates old with _ | e | made <;> simp [Except.mapError]

/-- The value of a service is what its factory is for. -/
def ServesFactory (crates : L7Crates C₁ C₂ I A IE TE D)
    (svc : BuiltService (L7Factory R I) (L7Service C₁ C₂ R A D)) : Prop :=
  svc.factory.Serves crates svc.value

/-- What is known of the manager after the attempts `tr`. -/
structure SitesKnown (crates : L7Crates C₁ C₂ I A IE TE D)
    (tr : List (Surroundings R I X FE TC IOE L LE × SiteResult IE TE X FE TC IOE LE))
    (mgr : SiteManager C₁ C₂ R I A D L) : Prop where
  live : mgr.LiveInStep
  provider : mgr.serverFactoryProvider = serverFactory
  holds : ∀ w ∈ mgr.workers, w.executor.Holds (ServesFactory crates)
  origin : mgr.onlineServices = ∅ ∨ ∃ s, (s, .reloaded) ∈ tr ∧
    s.fileRead = .ok mgr.onlineConfigContent ∧
      parseServiceConfig s.reader mgr.onlineConfigContent = .ok mgr.onlineServices

theorem SitesKnown.step {before after : SiteManager C₁ C₂ R I A D L}
    (known : SitesKnown crates tr before) (step : siteStep crates before (s, result) after) :
    SitesKnown crates (tr ++ [(s, result)]) after := by
  have losing : losingStep before (s.attempt crates, s.losses crates, result) after := step
  obtain ⟨live, provider, keeps⟩ := losingStep_inStep known.live losing
  refine ⟨live, provider.trans known.provider, ?_, ?_⟩
  · have kept : Kept (fun w : Worker (L7Factory R I) (L7Service C₁ C₂ R A D) L =>
          w.executor.Holds (ServesFactory crates))
        (fun env : Factories (L7Factory R I) ListenerConfig (L7Service C₁ C₂ R A D) L
          (Option (L7Error IE TE)) LE => env.makeViaRef = l7Answer crates) := by
      refine ⟨fun w h g => h, fun w h env henv cmd => ?_⟩
      rw [Worker.dispatch]
      split
      · refine execute_holds h (fun serial factory old value made => ?_) cmd
        rw [henv, l7Answer_ok_iff] at made
        exact (factory.decides crates).made old value made
      · exact h
    exact reloadFileLosing_keeps kept ⟨fun _ _ => rfl, fun _ _ => rfl, fun _ _ => rfl⟩ step
      known.holds
  · by_cases reloaded : result = .reloaded
    · subst reloaded
      obtain ⟨read, parsed⟩ := reloadFileLosing_brings step
      exact .inr ⟨s, by simp, read, parsed⟩
    · obtain ⟨-, services, content⟩ := keeps reloaded
      rw [services, content]
      refine known.origin.imp_right ?_
      rintro ⟨s', hs', origin⟩
      exact ⟨s', List.mem_append_left _ hs', origin⟩

theorem sitesKnown_run {threads : Nat}
    (hrun : Run (siteStep crates) (.new threads id serverFactory) tr mgr) :
    SitesKnown crates tr mgr := by
  refine hrun.history (I := SitesKnown crates) ?_ ?_
  · refine ⟨fun i w hw _ => new_inStep threads _ _ i w hw, rfl, ?_, .inl rfl⟩
    intro w hw
    obtain ⟨-, rfl⟩ := List.mem_replicate.mp hw
    exact .new
  · rintro tr before ⟨s, result⟩ after - known step
    exact known.step step

theorem SitesKnown.committed (known : SitesKnown crates tr mgr)
    {w : Worker (L7Factory R I) (L7Service C₁ C₂ R A D) L} (hw : w ∈ mgr.workers)
    (alive : w.alive = true) (n : Name) :
    (w.getSvc n).map (·.factory) =
      (mgr.onlineServices.lookup n).map fun config => serverFactory config.server := by
  obtain ⟨i, hi⟩ := List.getElem?_of_mem hw
  rw [← known.provider]
  exact (known.live i w hi alive).committed n

/-- The service is made for the server that the user described, with the files of that time. -/
def Delivers (crates : L7Crates C₁ C₂ I A IE TE D) (reader : ConfigReader UserServers R I X FE TC)
    (user : ServiceConfig ListenerConfig ServerUserConfig)
    (svc : BuiltService (L7Factory R I) (L7Service C₁ C₂ R A D)) : Prop :=
  ∃ server, buildServer reader user.server = .ok server ∧
    (serverFactory server).Serves crates svc.value

/-- Workers that are left run what the file describes whose services are online. -/
theorem SitesKnown.delivers (known : SitesKnown crates tr mgr)
    {reader : ConfigReader UserServers R I X FE TC} {servers : UserServers}
    (built : buildServerConfig reader servers = .ok mgr.onlineServices)
    {w : Worker (L7Factory R I) (L7Service C₁ C₂ R A D) L} (hw : w ∈ mgr.workers)
    (alive : w.alive = true) (n : Name) :
    Option.Rel (Delivers crates reader) (servers.lookup n) (w.getSvc n) := by
  have name := known.committed hw alive n
  generalize honline : mgr.onlineServices.lookup n = online at name
  have user := buildServerConfig_ok built n
  rw [honline] at user
  generalize servers.lookup n = given at user
  cases user with
  | none =>
      rw [Option.map_eq_none_iff.mp name]
      exact .none
  | some from_user =>
      obtain ⟨svc, hsvc, factory⟩ := Option.map_eq_some_iff.mp name
      rw [hsvc]
      have serves := (known.holds w hw).getSvc hsvc
      rw [ServesFactory, factory] at serves
      exact .some ⟨_, from_user.2, serves⟩

/-- After any attempts, whatever files, outcomes and losses they met: nothing is online and no
worker that is left runs anything, or there is an attempt that brought the online file online,
and every worker that is left runs, under the names of its table and no others, services with
the routes, the upstream connectors, the credentials and the timeouts that it described. -/
theorem sites_delivered {threads : Nat}
    {tr : List (Surroundings R I X FE TC IOE L LE × SiteResult IE TE X FE TC IOE LE)}
    (hrun : Run (siteStep crates) (.new threads id serverFactory) tr mgr) :
    (∀ w ∈ mgr.workers, w.alive = true → ∀ n, w.getSvc n = none) ∨
    ∃ s servers, (s, .reloaded) ∈ tr ∧ s.fileRead = .ok mgr.onlineConfigContent ∧
      parseFromSlice s.reader mgr.onlineConfigContent = .ok servers ∧
      ∀ w ∈ mgr.workers, w.alive = true →
        ∀ n, Option.Rel (Delivers crates s.reader) (servers.lookup n) (w.getSvc n) := by
  have known := sitesKnown_run hrun
  rcases known.origin with empty | ⟨s, hs, read, parsed⟩
  · refine .inl fun w hw alive n => ?_
    have none := known.committed hw alive n
    rw [empty, AList.lookup_empty] at none
    exact Option.map_eq_none_iff.mp none
  · obtain ⟨servers, hservers, built⟩ := parseServiceConfig_ok_iff.mp parsed
    exact .inr ⟨s, servers, hs, read, hservers, fun w hw alive n => known.delivers built hw alive n⟩

/-! What a new file does. -/

/-- The service of the server can be made. -/
def CanBuild (crates : L7Crates C₁ C₂ I A IE TE D) (reader : ConfigReader UserServers R I X FE TC)
    (user : ServiceConfig ListenerConfig ServerUserConfig) : Prop :=
  ∃ server, buildServer reader user.server = .ok server ∧ (serverFactory server).Builds crates

/-- Making it panics, as where upstreams form no balancer. -/
def MakesPanic (crates : L7Crates C₁ C₂ I A IE TE D)
    (reader : ConfigReader UserServers R I X FE TC)
    (user : ServiceConfig ListenerConfig ServerUserConfig) : Prop :=
  ∃ server, buildServer reader user.server = .ok server ∧ (serverFactory server).Panics crates

section
variable {content : List UInt8} {servers : UserServers}
  {services : ServiceConfigMap ListenerConfig (ServerConfig R I)}

theorem built_lookup {reader : ConfigReader UserServers R I X FE TC}
    (built : buildServerConfig reader servers = .ok services) {key : Name}
    {user : ServiceConfig ListenerConfig ServerUserConfig} (hkey : servers.lookup key = some user) :
    ∃ config, services.lookup key = some config ∧ BuiltFrom reader user config := by
  have rel := buildServerConfig_ok built key
  rw [hkey] at rel
  generalize services.lookup key = online at rel ⊢
  cases rel with
  | some from_user => exact ⟨_, rfl, from_user⟩

theorem lookup_built {reader : ConfigReader UserServers R I X FE TC}
    (built : buildServerConfig reader servers = .ok services) {key : Name}
    {config : ServiceConfig ListenerConfig (ServerConfig R I)}
    (hkey : services.lookup key = some config) :
    ∃ user, servers.lookup key = some user ∧ BuiltFrom reader user config := by
  have rel := buildServerConfig_ok built key
  rw [hkey] at rel
  generalize servers.lookup key = given at rel ⊢
  cases rel with
  | some from_user => exact ⟨_, rfl, from_user⟩

theorem panics_iff (read : s.fileRead = .ok content)
    (parsed : parseServiceConfig s.reader content = .ok services) (key : Name) :
    s.panics crates key = true ↔ ∃ config, services.lookup key = some config ∧
      (serverFactory config.server).Panics crates := by
  simp only [Surroundings.panics, read, parsed]
  cases services.lookup key with
  | none => simp
  | some config =>
      simp only [Option.isNone_iff_eq_none, Option.some.injEq, exists_eq_left']
      exact ((serverFactory config.server).decides crates).panics none

theorem losses_none (nobody : s.lost = .none) (calm : ∀ key, s.panics crates key ≠ true) :
    s.losses crates = .none := by
  have prepare : (fun (key : Name) (i : Nat) => Losses.none.prepare key i || s.panics crates key) =
      Losses.none.prepare := by
    funext key i
    simp [Losses.none, calm key]
  rw [Surroundings.losses, nobody, prepare]

/-- Without panics a new file is online afterwards or nothing has changed, as the round of a
manager whose workers are all there decides. -/
theorem calm_round (known : mgr.WorkersInStep) (nobody : s.lost = .none)
    (listens : ∀ key i config, ∃ l, s.listen key i config = .ok l)
    (read : s.fileRead = .ok content) (changed : mgr.onlineConfigContent ≠ content)
    (calm : ∀ key, s.panics crates key ≠ true) :
    ∃ mgr' result, siteStep crates mgr (s, result) mgr' ∧ mgr'.WorkersInStep ∧
      ((mgr.Accepts (s.attempt crates) content ∧ result = .reloaded ∧
          mgr'.onlineConfigContent = content) ∨
        (¬ mgr.Accepts (s.attempt crates) content ∧ result.isErr = true ∧
          mgr'.running = mgr.running ∧ mgr'.onlineServices = mgr.onlineServices)) := by
  have listeners : (s.attempt crates).ListenersSucceed := fun key i config => listens key i config
  obtain ⟨⟨mgr', result⟩, hreload⟩ := reloadFile_returns known listeners
  have reads : (s.attempt crates).Reads content := fun latest hread =>
    (Except.ok.inj (read.symm.trans hread)).symm
  have step : siteStep crates mgr (s, result) mgr' := by
    rw [siteStep, losses_none nobody calm, reloadFileLosing_none, hreload]
  have plain : reloadStep mgr (s.attempt crates, result) mgr' := hreload
  obtain ⟨inStep, -, -, brings, keeps⟩ := reloadStep_inStep known plain
  refine ⟨mgr', result, step, inStep, ?_⟩
  rcases round_decided known changed reads hreload with ⟨accepts, rfl⟩ | ⟨refuses, err⟩
  · have online := (brings rfl).1
    exact .inl ⟨accepts, rfl, (Except.ok.inj (read.symm.trans online)).symm⟩
  · have ne : result ≠ .reloaded := by
      rintro rfl
      cases err
    obtain ⟨running, services, -⟩ := keeps ne
    exact .inr ⟨refuses, err, running, services⟩

theorem accepts_iff (some_worker : mgr.workers ≠ []) (known : SitesKnown crates tr mgr)
    (read : s.fileRead = .ok content)
    (parsed : parseServiceConfig s.reader content = .ok services) :
    mgr.Accepts (s.attempt crates) content ↔ ∀ key config, services.lookup key = some config →
      (serverFactory config.server).Builds crates := by
  have builds : ∀ (config : ServiceConfig ListenerConfig (ServerConfig R I))
      (old : Option (L7Service C₁ C₂ R A D)),
      (∃ svc, l7Answer crates (serverFactory config.server) old = .ok svc) ↔
        (serverFactory config.server).Builds crates := by
    intro config old
    rw [← ((serverFactory config.server).decides crates).builds old]
    simp only [l7Answer_ok_iff]
  constructor
  · rintro ⟨-, newServices, hparse, made⟩ key config hkey
    obtain rfl := Except.ok.inj (parsed.symm.trans hparse)
    obtain ⟨w, hw⟩ := List.exists_mem_of_ne_nil _ some_worker
    obtain ⟨i, hi⟩ := List.getElem?_of_mem hw
    have running : mgr.running i = some w.getSvc := by
      simp [StaticFileConfigManager.running, hi]
    have built := made key config hkey i w.getSvc running
    rw [known.provider] at built
    exact (builds config _).mp built
  · intro all
    refine ⟨read, services, parsed, fun key config hkey i running _ => ?_⟩
    rw [known.provider]
    exact (builds config _).mpr (all key config hkey)

theorem builds_not_panics {factory : L7Factory R I} (builds : factory.Builds crates) :
    ¬ factory.Panics crates := by
  intro panics
  have decides := factory.decides crates
  obtain ⟨svc, made⟩ := (decides.builds none).mpr builds
  rw [(decides.panics none).mpr panics] at made
  cases made

/-- A factory that panics takes all workers along, unless another one reports an error first. -/
theorem panicking_round (some_worker : mgr.workers ≠ []) (alive : ∀ w ∈ mgr.workers, w.Sound)
    (known : SitesKnown crates tr mgr) (nobody : s.lost = .none) (read : s.fileRead = .ok content)
    (changed : mgr.onlineConfigContent ≠ content)
    (parsed : parseServiceConfig s.reader content = .ok services)
    (decided : ∀ key config, services.lookup key = some config →
      (serverFactory config.server).Builds crates ∨ (serverFactory config.server).Panics crates)
    {key : Name} {config : ServiceConfig ListenerConfig (ServerConfig R I)}
    (hkey : services.lookup key = some config)
    (panics : (serverFactory config.server).Panics crates) :
    ∃ mgr' e, siteStep crates mgr (s, .prepareFailed e) mgr' ∧
      ∀ w ∈ mgr'.workers, w.alive = false := by
  obtain ⟨patches, hd, -, fits, keys⟩ := diff_fits s.order mgr.onlineServices services
  have gone : ∀ key i, (s.losses crates).prepare key i = s.panics crates key := by
    intro key i
    simp [Surroundings.losses, nobody, Losses.none]
  have member : key ∈ services := AList.lookup_isSome.mp (by simp [hkey])
  obtain ⟨q, hq, rfl⟩ := List.mem_map.mp ((keys key).mpr (.inr member))
  have staging := (fits q hq).staging_iff.mpr ⟨config.listener, hkey⟩
  obtain ⟨failed, dead⟩ := prepare_panics mgr (s.losses crates).prepare
    (s.attempt crates).outcomes.prepare alive some_worker
    (by
      intro p hp server hserver
      obtain ⟨listener, hlookup⟩ := (fits p hp).staging_iff.mp hserver
      rcases decided p.key _ hlookup with builds | panics
      · refine .inr ⟨fun i => ?_, fun i old => ?_⟩
        · rw [gone, ← Bool.not_eq_true, panics_iff read parsed]
          rintro ⟨config, hconfig, panics⟩
          obtain rfl := Option.some.inj (hlookup.symm.trans hconfig)
          exact builds_not_panics builds panics
        · obtain ⟨svc, made⟩ := (((serverFactory server).decides crates).builds old).mpr builds
          rw [known.provider]
          exact ⟨svc, l7Answer_ok_iff.mpr made⟩
      · exact .inl fun i => by rw [gone, panics_iff read parsed]; exact ⟨_, hlookup, panics⟩)
    hq (by simp [staging])
    (fun i => by rw [gone, panics_iff read parsed]; exact ⟨_, hkey, panics⟩)
  have step : ∃ workers e, mgr.reloadServicesLosing (s.losses crates) s.order
      (s.attempt crates).outcomes services = some (workers, .error e) ∧
        ∀ w ∈ workers, w.alive = false := by
    simp only [StaticFileConfigManager.reloadServicesLosing, hd]
    split
    · rename_i hprepare
      exact absurd (by rw [hprepare]) failed
    · rename_i workers e hprepare
      rw [hprepare] at dead
      exact ⟨_, e, rfl, abortLosing_lost patches dead⟩
  obtain ⟨workers, e, hreload, lost⟩ := step
  refine ⟨{ mgr with workers }, e, ?_, lost⟩
  have fileRead : (s.attempt crates).fileRead = .ok content := read
  have parse : (s.attempt crates).parseServiceConfig content = .ok services := parsed
  have order : (s.attempt crates).order = s.order := rfl
  simp only [siteStep, StaticFileConfigManager.reloadFileLosing, fileRead, if_neg changed, parse,
    order, hreload]

/-- Credentials that cannot be built refuse the file before a worker hears of it. -/
theorem unparsed_round (read : s.fileRead = .ok content)
    (changed : mgr.onlineConfigContent ≠ content)
    (parsed : parseFromSlice s.reader content = .ok servers) {key : Name}
    {user : ServiceConfig ListenerConfig ServerUserConfig} (hkey : servers.lookup key = some user)
    (refused : ∀ server, buildServer s.reader user.server ≠ .ok server) :
    ∃ e, siteStep crates mgr (s, .parseFailed e) mgr := by
  cases hbuilt : buildServerConfig s.reader servers with
  | ok services =>
      obtain ⟨server, hserver⟩ := buildServerConfig_returns.mp ⟨services, hbuilt⟩ key user hkey
      exact absurd hserver (refused server)
  | error e =>
      have fileRead : (s.attempt crates).fileRead = .ok content := read
      have parse : (s.attempt crates).parseServiceConfig content = .error e :=
        (parseServiceConfig_eq parsed).trans hbuilt
      refine ⟨e, ?_⟩
      simp only [siteStep, StaticFileConfigManager.reloadFileLosing, fileRead, if_neg changed,
        parse]

theorem not_panics (read : s.fileRead = .ok content)
    (parsed : parseServiceConfig s.reader content = .ok services)
    (calm : ∀ key config, services.lookup key = some config →
      ¬ (serverFactory config.server).Panics crates) (key : Name) :
    s.panics crates key ≠ true := by
  intro panics
  obtain ⟨config, hconfig, panics⟩ := (panics_iff read parsed key).mp panics
  exact calm key config hconfig panics

theorem workersInStep_sound (inStep : mgr.WorkersInStep) : ∀ w ∈ mgr.workers, w.Sound := by
  intro w hw
  obtain ⟨i, hi⟩ := List.getElem?_of_mem hw
  exact (inStep i w hi).sound

section Round
variable (some_worker : mgr.workers ≠ []) (inStep : mgr.WorkersInStep)
  (known : SitesKnown crates tr mgr) (nobody : s.lost = .none)
  (listens : ∀ key i config, ∃ l, s.listen key i config = .ok l)
  (read : s.fileRead = .ok content) (changed : mgr.onlineConfigContent ≠ content)

include some_worker inStep known nobody listens read changed

/-- Every worker runs what the file describes. -/
theorem building_round (parsed : parseFromSlice s.reader content = .ok servers)
    (all : ∀ key user, servers.lookup key = some user → CanBuild crates s.reader user) :
    ∃ mgr', siteStep crates mgr (s, .reloaded) mgr' ∧ mgr'.onlineConfigContent = content ∧
      ∀ w ∈ mgr'.workers, w.alive = true ∧
        ∀ n, Option.Rel (Delivers crates s.reader) (servers.lookup n) (w.getSvc n) := by
  obtain ⟨services, hbuilt⟩ := buildServerConfig_returns.mpr fun key user hkey =>
    (all key user hkey).imp fun _ => And.left
  have hparse := (parseServiceConfig_eq parsed).trans hbuilt
  have builds : ∀ key config, services.lookup key = some config →
      (serverFactory config.server).Builds crates := by
    intro key config hconfig
    obtain ⟨user, huser, -, hserver⟩ := lookup_built hbuilt hconfig
    obtain ⟨server, hserver', builds⟩ := all key user huser
    obtain rfl := Except.ok.inj (hserver.symm.trans hserver')
    exact builds
  have calm : ∀ key, s.panics crates key ≠ true := not_panics read hparse fun key config hconfig =>
    builds_not_panics (builds key config hconfig)
  obtain ⟨mgr', result, step, inStep', outcome⟩ :=
    calm_round inStep nobody listens read changed calm
  rcases outcome with ⟨-, rfl, online⟩ | ⟨refuses, -⟩
  · have sound := workersInStep_sound inStep'
    -- what is online afterwards was built from this file
    have brought : parseServiceConfig s.reader content = .ok mgr'.onlineServices := by
      rw [← online]
      exact (reloadFileLosing_brings step).2
    have built : buildServerConfig s.reader servers = .ok mgr'.onlineServices :=
      (parseServiceConfig_eq parsed).symm.trans brought
    exact ⟨mgr', step, online, fun w hw =>
      ⟨(sound w hw).alive, (known.step step).delivers built hw (sound w hw).alive⟩⟩
  · exact absurd ((accepts_iff some_worker known read hparse).mpr builds) refuses

/-- A server that cannot be built leaves everything as it was. -/
theorem failing_round (parsed : parseFromSlice s.reader content = .ok servers)
    (all : ∀ key user, servers.lookup key = some user →
      (∃ server, buildServer s.reader user.server = .ok server) ∧
        ¬ MakesPanic crates s.reader user)
    {key : Name} {user : ServiceConfig ListenerConfig ServerUserConfig}
    (hkey : servers.lookup key = some user) (unbuilt : ¬ CanBuild crates s.reader user) :
    ∃ mgr' result, siteStep crates mgr (s, result) mgr' ∧ result.isErr = true ∧
      mgr'.running = mgr.running ∧ mgr'.onlineServices = mgr.onlineServices ∧
      ∀ w ∈ mgr'.workers, w.alive = true := by
  obtain ⟨services, hbuilt⟩ := buildServerConfig_returns.mpr fun key user hkey =>
    (all key user hkey).1
  have hparse := (parseServiceConfig_eq parsed).trans hbuilt
  have calm : ∀ key, s.panics crates key ≠ true := not_panics read hparse <| by
    intro key config hconfig panics
    obtain ⟨user, huser, -, hserver⟩ := lookup_built hbuilt hconfig
    exact (all key user huser).2 ⟨config.server, hserver, panics⟩
  obtain ⟨mgr', result, step, inStep', outcome⟩ :=
    calm_round inStep nobody listens read changed calm
  rcases outcome with ⟨accepts, -, -⟩ | ⟨-, err, running, online⟩
  · obtain ⟨config, hconfig, -, hserver⟩ := built_lookup hbuilt hkey
    have builds := (accepts_iff some_worker known read hparse).mp accepts key config hconfig
    exact absurd ⟨config.server, hserver, builds⟩ unbuilt
  · exact ⟨mgr', result, step, err, running, online, fun w hw =>
      (workersInStep_sound inStep' w hw).alive⟩

omit listens in
/-- A server whose factory panics takes all workers along, where the others can be built. -/
theorem losing_round (parsed : parseFromSlice s.reader content = .ok servers)
    (all : ∀ key user, servers.lookup key = some user →
      CanBuild crates s.reader user ∨ MakesPanic crates s.reader user)
    {key : Name} {user : ServiceConfig ListenerConfig ServerUserConfig}
    (hkey : servers.lookup key = some user) (panics : MakesPanic crates s.reader user) :
    ∃ mgr' e, siteStep crates mgr (s, .prepareFailed e) mgr' ∧
      ∀ w ∈ mgr'.workers, w.alive = false := by
  have server_built : ∀ key user, servers.lookup key = some user →
      ∃ server, buildServer s.reader user.server = .ok server := by
    intro key user hkey
    rcases all key user hkey with ⟨server, h, -⟩ | ⟨server, h, -⟩ <;> exact ⟨server, h⟩
  obtain ⟨services, hbuilt⟩ := buildServerConfig_returns.mpr server_built
  have hparse := (parseServiceConfig_eq parsed).trans hbuilt
  obtain ⟨server, hserver, panics⟩ := panics
  obtain ⟨config, hconfig, -, hserver'⟩ := built_lookup hbuilt hkey
  obtain rfl := Except.ok.inj (hserver.symm.trans hserver')
  refine panicking_round some_worker (workersInStep_sound inStep) known nobody read changed hparse
    ?_ hconfig panics
  intro key' config' hconfig'
  obtain ⟨user', huser', -, hbuild⟩ := lookup_built hbuilt hconfig'
  rcases all key' user' huser' with ⟨server', h, builds⟩ | ⟨server', h, panics⟩
  · obtain rfl := Except.ok.inj (hbuild.symm.trans h)
    exact .inl builds
  · obtain rfl := Except.ok.inj (hbuild.symm.trans h)
    exact .inr panics

end Round

/-- A new file, read and parsed, for a manager whose workers are all there, when nobody is lost
for other reasons and every listener can be made. If the files of some server give no
credentials, it is refused. If all servers can be built, every worker runs afterwards what it
describes. If some cannot, but none of them panics, nothing changes. If each of them can be built
or panics, and one panics, all workers are lost. -/
theorem new_file_decided {threads : Nat}
    (hrun : Run (siteStep crates) (.new threads id serverFactory) tr mgr)
    (some_worker : mgr.workers ≠ []) (alive : ∀ w ∈ mgr.workers, w.alive = true)
    (nobody : s.lost = .none) (listens : ∀ key i config, ∃ l, s.listen key i config = .ok l)
    (read : s.fileRead = .ok content) (changed : mgr.onlineConfigContent ≠ content)
    (parsed : parseFromSlice s.reader content = .ok servers) :
    ((∃ key user, servers.lookup key = some user ∧
        ∀ server, buildServer s.reader user.server ≠ .ok server) →
      ∃ e, siteStep crates mgr (s, .parseFailed e) mgr) ∧
    ((∀ key user, servers.lookup key = some user → CanBuild crates s.reader user) →
      ∃ mgr', siteStep crates mgr (s, .reloaded) mgr' ∧ mgr'.onlineConfigContent = content ∧
        ∀ w ∈ mgr'.workers, w.alive = true ∧
          ∀ n, Option.Rel (Delivers crates s.reader) (servers.lookup n) (w.getSvc n)) ∧
    ((∀ key user, servers.lookup key = some user →
        (∃ server, buildServer s.reader user.server = .ok server) ∧
          ¬ MakesPanic crates s.reader user) →
      (∃ key user, servers.lookup key = some user ∧ ¬ CanBuild crates s.reader user) →
      ∃ mgr' result, siteStep crates mgr (s, result) mgr' ∧ result.isErr = true ∧
        mgr'.running = mgr.running ∧ mgr'.onlineServices = mgr.onlineServices ∧
        ∀ w ∈ mgr'.workers, w.alive = true) ∧
    ((∀ key user, servers.lookup key = some user →
        CanBuild crates s.reader user ∨ MakesPanic crates s.reader user) →
      (∃ key user, servers.lookup key = some user ∧ MakesPanic crates s.reader user) →
      ∃ mgr' e, siteStep crates mgr (s, .prepareFailed e) mgr' ∧
        ∀ w ∈ mgr'.workers, w.alive = false) := by
  have known := sitesKnown_run hrun
  have inStep : mgr.WorkersInStep := fun i w hi =>
    known.live i w hi (alive w (List.mem_of_getElem? hi))
  refine ⟨?_, ?_, ?_, ?_⟩
  · rintro ⟨key, user, hkey, refused⟩
    exact unparsed_round read changed parsed hkey refused
  · intro all
    exact building_round some_worker inStep known nobody listens read changed parsed all
  · rintro all ⟨key, user, hkey, unbuilt⟩
    exact failing_round some_worker inStep known nobody listens read changed parsed all hkey unbuilt
  · rintro all ⟨key, user, hkey, panics⟩
    exact losing_round some_worker inStep known nobody read changed parsed all hkey panics

end

end Main

/-- Paths without parameters, and connectors of no kind. -/
def plainCrates : L7Crates Unit Unit Unit Unit String Unit (List UInt16) where
  http := { build := fun _ => (), setReadTimeout := fun _ _ => (), transferPool := fun _ _ => () }
  https := { build := fun _ => (), setReadTimeout := fun _ _ => (), transferPool := fun _ _ => () }
  matchit := Http.staticPaths
  rand := weightedIndex true
  buildAcceptor := fun _ => .ok ()

/-- A server without TLS, and one route with these upstreams. -/
def webServer (upstreams : List Http.Upstream) : ServiceConfig ListenerConfig ServerUserConfig where
  listener := .socket (.v4 (Vector.replicate 4 0)) 8080
  server :=
    { name := "web", tls := none
      protocolConfig := .http {
        routes := [{ id := "", loadBalancer := .random, path := "/", upstreams }]
        timeout := ⟨some 75, none, none, none, none⟩
        upstreamHttpVersion := .auto, httpOptHandlers := ⟨false⟩ } }

def serverWith (upstreams : List Http.Upstream) : UserServers :=
  AList.singleton "web" (webServer upstreams)

/-- A config file with one byte, in either format, and TLS files that are not needed. -/
def fileWith (content : UInt8) (upstreams : List Http.Upstream) :
    Surroundings Unit Unit Unit Unit Unit Unit Unit Unit where
  fileRead := .ok [content]
  reader :=
    { json := fun _ => .ok (serverWith upstreams), toml := fun _ => .ok (serverWith upstreams)
      fileReadSync := fun _ => .ok []
      crates := { certs := fun _ => .ok [[]], pkcs8PrivateKeys := fun _ => .ok [[]]
                  withSingleCert := fun _ _ => .ok (), identityFromPkcs8 := fun _ _ => .ok () } }
  order := inOrder
  listen := fun _ _ _ => .ok ()
  lost := .none

abbrev PlainManager := SiteManager Unit Unit Unit Unit Unit (List UInt16) Unit

/-- Both workers run the one site. -/
theorem web_delivered :
    ∃ (mgr : PlainManager) (s : Surroundings Unit Unit Unit Unit Unit Unit Unit Unit) (servers : _),
      Run (siteStep plainCrates) (.new 2 id serverFactory)
        [(fileWith 1 [Http.upstreamAt "a"], .reloaded)] mgr ∧
      parseFromSlice s.reader mgr.onlineConfigContent = .ok servers ∧
      ∀ w ∈ mgr.workers, w.alive = true →
        ∀ n, Option.Rel (Delivers plainCrates s.reader) (servers.lookup n) (w.getSvc n) := by
  have run : Run (siteStep plainCrates) (.new 2 id serverFactory : PlainManager)
      [(fileWith 1 [Http.upstreamAt "a"], .reloaded)] _ := .single rfl
  obtain ⟨s, servers, -, -, parsed, delivers⟩ := (sites_delivered run).resolve_left fun none => by
    cases none _ (.head _) rfl "web"
  exact ⟨_, s, servers, run, parsed, delivers⟩

/-- A route without upstreams in the first file. -/
theorem empty_upstreams_lose_workers :
    ∃ (mgr : PlainManager) (e : _),
      siteStep plainCrates (.new 2 id serverFactory) (fileWith 1 [], .prepareFailed e) mgr ∧
      ∀ w ∈ mgr.workers, w.alive = false := by
  have run : Run (siteStep plainCrates) (.new 2 id serverFactory : PlainManager)
      ([] : List (Surroundings Unit Unit Unit Unit Unit Unit Unit Unit × _)) _ := .nil
  have alive : ∀ w ∈ (StaticFileConfigManager.new 2 id serverFactory : PlainManager).workers,
      w.alive = true := by
    intro w hw
    obtain ⟨-, rfl⟩ := List.mem_replicate.mp hw
    rfl
  have panics : MakesPanic plainCrates (fileWith 1 []).reader (webServer []) := by
    refine ⟨_, rfl, trivial, fun formed => ?_⟩
    exact formed [] _ [] rfl trivial rfl
  obtain ⟨-, -, -, lost⟩ := new_file_decided (s := fileWith 1 []) run (by decide) alive rfl
    (fun _ _ _ => ⟨(), rfl⟩) rfl (by decide) rfl
  refine lost (fun key user hkey => .inr ?_) ⟨"web", _, rfl, panics⟩
  have member : key ∈ serverWith [] := AList.lookup_isSome.mp (by simp [hkey])
  have named : key ∈ ["web"] := member
  obtain rfl := List.mem_singleton.mp named
  obtain rfl := Option.some.inj hkey
  exact panics

end Monolake.Config
