import Monolake.Config.HotReload

/-!
The loop that watches the config file. Whether a round brings its file online is decided by
the file, its parse and the service factories; while the file does not change, at most one
round does, and it is the first one that can.
-/
namespace Monolake.Config

universe u
open Foundation Orchestrator

variable {F LF S L SE LE LC SC IE PE : Type u}

/-- The results that `reload_file` returns as an error. -/
def ReloadResult.isErr : ReloadResult SE LE IE PE → Bool
  | .readFailed _ | .parseFailed _ | .prepareFailed _ => true
  | .unchanged | .reloaded => false

namespace StaticFileConfigManager
variable (mgr : StaticFileConfigManager F LF S L LC SC)

/-- Rounds of the loop in `watch`. The error of a round is logged, and the loop goes on. -/
def watch (mgr : StaticFileConfigManager F LF S L LC SC) :
    List (Attempt F LF S L SE LE LC SC IE PE) →
      Option (StaticFileConfigManager F LF S L LC SC × List (ReloadResult SE LE IE PE))
  | [] => some (mgr, [])
  | attempt :: rest =>
      match mgr.reloadFile attempt with
      | none => none
      | some (mgr, result) => (mgr.watch rest).map fun out => (out.1, result :: out.2)

/-- The first attempt has to succeed, also by finding an empty file. -/
def loadAndWatch (first : Attempt F LF S L SE LE LC SC IE PE)
    (rounds : List (Attempt F LF S L SE LE LC SC IE PE)) :
    Option (Except (ReloadResult SE LE IE PE)
      (StaticFileConfigManager F LF S L LC SC × List (ReloadResult SE LE IE PE))) :=
  match mgr.reloadFile first with
  | none => none
  | some (mgr, result) => if result.isErr then some (.error result) else (mgr.watch rounds).map .ok

end StaticFileConfigManager

variable {mgr mgr' : StaticFileConfigManager F LF S L LC SC}
  {rounds : List (Attempt F LF S L SE LE LC SC IE PE)}
  {results : List (ReloadResult SE LE IE PE)}

theorem watch_run (watched : mgr.watch rounds = some (mgr', results)) :
    Run reloadStep mgr (rounds.zip results) mgr' ∧ results.length = rounds.length := by
  induction rounds generalizing mgr results with
  | nil =>
      obtain ⟨rfl, rfl⟩ := Prod.mk.inj (Option.some.inj watched)
      exact ⟨.nil, rfl⟩
  | cons attempt rest ih =>
      rw [StaticFileConfigManager.watch] at watched
      split at watched
      · cases watched
      · rename_i next result hround
        obtain ⟨⟨last, later⟩, hrest, hout⟩ := Option.map_eq_some_iff.mp watched
        obtain ⟨rfl, rfl⟩ := Prod.mk.inj hout
        obtain ⟨run, length⟩ := ih hrest
        exact ⟨.cons hround run, by simp [length]⟩

/-- A manager that watches is one that attempts have led to. -/
theorem loadAndWatch_run {first : Attempt F LF S L SE LE LC SC IE PE}
    (started : mgr.loadAndWatch first rounds = some (.ok (mgr', results))) :
    ∃ performed, Run (ℓ := Attempt F LF S L SE LE LC SC IE PE × ReloadResult SE LE IE PE)
      reloadStep mgr performed mgr' := by
  rw [StaticFileConfigManager.loadAndWatch] at started
  split at started
  · cases started
  · rename_i next result hfirst
    split at started
    · cases started
    · obtain ⟨out, watched, hout⟩ := Option.map_eq_some_iff.mp started
      cases hout
      have step : reloadStep mgr (first, result) next := hfirst
      exact ⟨_, .cons step (watch_run watched).1⟩

/-! What decides a round. -/

section OneRound
variable {newServices : ServiceConfigMap LC SC} {patches : List (Patch LC SC)}
  {order : IterationOrder} {outcomes : Outcomes F LF S L SE LE}
  {attempt : Attempt F LF S L SE LE LC SC IE PE} {content : List UInt8}

theorem precommit_ok_iff {env : Factories F LF S L SE LE} {w : Worker F S L} (h : w.Sound)
    (n : Name) (factory : F) :
    (w.dispatch env (.precommit n factory : ServiceCommand F LF)).2 = .ok () ↔
      ∃ svc, env.makeViaRef factory ((w.getSvc n).map (·.value)) = .ok svc := by
  rw [h.dispatch_eq]
  simp only [execute, Worker.getSvc]
  cases env.makeViaRef factory ((w.executor.getSvc n).map (·.value)) <;> simp [Except.mapError]

/-- Every worker can build every service of the file, taking over from the service it runs
under that name. -/
def StaticFileConfigManager.ServicesMade (mgr : StaticFileConfigManager F LF S L LC SC)
    (outcomes : Outcomes F LF S L SE LE) (newServices : ServiceConfigMap LC SC) : Prop :=
  ∀ key config, newServices.lookup key = some config → ∀ i services, mgr.running i = some services →
    ∃ svc, (outcomes.prepare key i).makeViaRef (mgr.serverFactoryProvider config.server)
      ((services key).map (·.value)) = .ok svc

/-- The round reads the content, and every worker can build the services it describes. -/
def StaticFileConfigManager.Accepts (mgr : StaticFileConfigManager F LF S L LC SC)
    (attempt : Attempt F LF S L SE LE LC SC IE PE) (content : List UInt8) : Prop :=
  attempt.fileRead = .ok content ∧ ∃ newServices,
    attempt.parseServiceConfig content = .ok newServices ∧
      mgr.ServicesMade attempt.outcomes newServices

/-- A patch that stages something has its service built. -/
def Patch.ServiceMade (mgr : StaticFileConfigManager F LF S L LC SC)
    (outcomes : Outcomes F LF S L SE LE) (p : Patch LC SC) (i : Nat) : Prop :=
  ∀ server, p.staging = some server → ∀ services, mgr.running i = some services →
    ∃ svc, (outcomes.prepare p.key i).makeViaRef (mgr.serverFactoryProvider server)
      ((services p.key).map (·.value)) = .ok svc

/-- A patch of a diff stages what the new services say of its key. -/
theorem Patch.Fits.staging_iff {oldServices : ServiceConfigMap LC SC} {p : Patch LC SC}
    (fit : p.Fits oldServices newServices) {server : SC} :
    p.staging = some server ↔ ∃ listener, newServices.lookup p.key = some ⟨listener, server⟩ := by
  cases p with
  | insert key listener _ =>
      obtain ⟨-, hlookup⟩ := fit
      simp [Patch.staging, Patch.key, hlookup]
  | update key _ =>
      obtain ⟨-, listener, hlookup⟩ := fit
      simp [Patch.staging, Patch.key, hlookup]
  | delete key =>
      obtain ⟨-, gone⟩ := fit
      simp [Patch.staging, Patch.key, AList.lookup_eq_none.mpr gone]

/-- Over the patches of a diff, every name of the new services is staged. -/
theorem servicesMade_iff (hd : diff order mgr.onlineServices newServices = some patches) :
    (∀ p ∈ patches, ∀ i, p.ServiceMade mgr outcomes i) ↔ mgr.ServicesMade outcomes newServices := by
  obtain ⟨ps, hps, -, fits, keys⟩ := diff_fits order mgr.onlineServices newServices
  obtain rfl := Option.some.inj (hps.symm.trans hd)
  constructor
  · intro hall key config hconfig i services hi
    have member : key ∈ newServices := AList.lookup_isSome.mp (by simp [hconfig])
    obtain ⟨p, hp, rfl⟩ := List.mem_map.mp ((keys key).mpr (.inr member))
    have staging := (fits p hp).staging_iff.mpr ⟨config.listener, hconfig⟩
    exact hall p hp i config.server staging services hi
  · intro hall p hp i server staging services hi
    obtain ⟨listener, hlookup⟩ := (fits p hp).staging_iff.mp staging
    exact hall p.key _ hlookup i services hi

/-- While the precommits of a prepare succeed, the workers run what they ran before it. -/
theorem prepare_ok_iff (h : mgr.WorkersInStep)
    (hd : diff order mgr.onlineServices newServices = some patches) :
    (mgr.prepare outcomes patches mgr.workers).2 = .ok () ↔
      mgr.ServicesMade outcomes newServices := by
  obtain ⟨ps, hps, nodup, -⟩ := diff_fits order mgr.onlineServices newServices
  obtain rfl := Option.some.inj (hps.symm.trans hd)
  have fresh : ∀ {done rest : List (Patch LC SC)} {p : Patch LC SC},
      ps = done ++ p :: rest → p.key ∉ done.map Patch.key := by
    intro done rest p split hmem
    rw [split, List.map_append, List.map_cons] at nodup
    exact List.disjoint_of_nodup_append nodup hmem (by simp)
  have loop := dispatchUntilError_ok_iff outcomes.prepare mgr.prepareCommand
    (I := fun rest => Since mgr.workers fun before w => ∃ done, ps = done ++ rest ∧
      Prepared mgr.serverFactoryProvider done before w)
    (Q := fun p i => p.ServiceMade mgr outcomes i)
    (by
      rintro p rest i w hc ⟨before, hb, done, split, prepared⟩
      rw [prepareCommand_eq, Option.map_eq_none_iff] at hc
      exact ⟨before, hb, done ++ [p], by simp [split], prepared.skip hc (fresh split)⟩)
    (by
      rintro p rest cmd i w hc ⟨before, hb, done, split, prepared⟩ hok
      rw [prepareCommand_eq] at hc
      obtain ⟨server, hserver, rfl⟩ := Option.map_eq_some_iff.mp hc
      exact ⟨before, hb, done ++ [p], by simp [split],
        prepared.precommit hserver (fresh split) hok⟩)
    (by
      rintro p rest cmd i w hc ⟨before, hb, done, split, prepared⟩
      rw [prepareCommand_eq] at hc
      obtain ⟨server, hserver, rfl⟩ := Option.map_eq_some_iff.mp hc
      have running : mgr.running i = some before.getSvc := by
        simp [StaticFileConfigManager.running, hb]
      rw [precommit_ok_iff prepared.sound, prepared.committed]
      constructor
      · intro made server' hserver' services hservices
        obtain rfl := Option.some.inj (hserver.symm.trans hserver')
        obtain rfl := Option.some.inj (running.symm.trans hservices)
        exact made
      · exact fun made => made server hserver before.getSvc running)
    (since_self h fun w hw => ⟨[], rfl, hw.prepared⟩)
  rw [StaticFileConfigManager.prepare, loop, ← servicesMade_iff hd]
  refine ⟨fun all p hp i server staging services hi => ?_, fun all p hp _ i _ => all p hp i⟩
  have length : i < mgr.workers.length := by
    by_contra hge
    simp [StaticFileConfigManager.running, List.getElem?_eq_none (Nat.le_of_not_lt hge)] at hi
  have command : mgr.prepareCommand p ≠ none := by simp [prepareCommand_eq, staging]
  exact all p hp command i length server staging services hi

/-- A round that gets as far as reloading succeeds when all services can be built. -/
theorem reloadServices_ok_iff (h : mgr.WorkersInStep)
    {r : List (Worker F S L) × Except (AnyError SE LE) Unit}
    (hr : mgr.reloadServices order outcomes newServices = some r) :
    r.2 = .ok () ↔ mgr.ServicesMade outcomes newServices := by
  obtain ⟨patches, hd, -⟩ := diff_fits order mgr.onlineServices newServices
  rw [← prepare_ok_iff h hd]
  simp only [StaticFileConfigManager.reloadServices, hd] at hr
  split at hr
  · rename_i prepared hprepare
    split at hr
    · obtain rfl := Option.some.inj hr
      simp [hprepare]
    · cases hr
  · rename_i prepared e hprepare
    obtain rfl := Option.some.inj hr
    simp [hprepare]

end OneRound

/-! Rounds while the file does not change. -/

section Rounds
variable {content : List UInt8} {attempt : Attempt F LF S L SE LE LC SC IE PE}
  {result : ReloadResult SE LE IE PE}

/-- Whenever the round can read the file, it holds this content. -/
def Attempt.Reads (attempt : Attempt F LF S L SE LE LC SC IE PE) (content : List UInt8) : Prop :=
  ∀ latest, attempt.fileRead = .ok latest → latest = content

def ReloadResult.Idle (result : ReloadResult SE LE IE PE) : Prop :=
  result = .unchanged ∨ ∃ e, result = .readFailed e

theorem round_idle (online : mgr.onlineConfigContent = content) (reads : attempt.Reads content)
    (step : mgr.reloadFile attempt = some (mgr', result)) : mgr' = mgr ∧ result.Idle := by
  rw [StaticFileConfigManager.reloadFile] at step
  split at step
  · obtain ⟨rfl, rfl⟩ := Prod.mk.inj (Option.some.inj step)
    exact ⟨rfl, .inr ⟨_, rfl⟩⟩
  · rename_i latest hread
    rw [if_pos (online.trans (reads latest hread).symm)] at step
    obtain ⟨rfl, rfl⟩ := Prod.mk.inj (Option.some.inj step)
    exact ⟨rfl, .inl rfl⟩

/-- A round that finds a new file brings it online exactly when it accepts it. -/
theorem round_decided (h : mgr.WorkersInStep) (changed : mgr.onlineConfigContent ≠ content)
    (reads : attempt.Reads content) (step : mgr.reloadFile attempt = some (mgr', result)) :
    (mgr.Accepts attempt content ∧ result = .reloaded) ∨
      (¬ mgr.Accepts attempt content ∧ result.isErr = true) := by
  rw [StaticFileConfigManager.reloadFile] at step
  split at step
  · rename_i e hread
    obtain ⟨rfl, rfl⟩ := Prod.mk.inj (Option.some.inj step)
    refine .inr ⟨?_, rfl⟩
    rintro ⟨read, -⟩
    cases hread.symm.trans read
  · rename_i latest hread
    obtain rfl := reads latest hread
    rw [if_neg changed] at step
    split at step
    · rename_i e hparse
      obtain ⟨rfl, rfl⟩ := Prod.mk.inj (Option.some.inj step)
      refine .inr ⟨?_, rfl⟩
      rintro ⟨-, newServices, parsed, -⟩
      cases hparse.symm.trans parsed
    · rename_i newServices hparse
      split at step
      · cases step
      · rename_i workers e hreload
        obtain ⟨rfl, rfl⟩ := Prod.mk.inj (Option.some.inj step)
        refine .inr ⟨?_, rfl⟩
        rintro ⟨-, services, parsed, made⟩
        obtain rfl := Except.ok.inj (hparse.symm.trans parsed)
        cases (reloadServices_ok_iff h hreload).mpr made
      · rename_i workers hreload
        obtain ⟨rfl, rfl⟩ := Prod.mk.inj (Option.some.inj step)
        exact .inl ⟨⟨hread, newServices, hparse, (reloadServices_ok_iff h hreload).mp rfl⟩, rfl⟩

/-- Rounds that could not bring the file online have changed nothing. -/
structure Refused (mgr mgr' : StaticFileConfigManager F LF S L LC SC) (content : List UInt8)
    (rounds : List (Attempt F LF S L SE LE LC SC IE PE))
    (results : List (ReloadResult SE LE IE PE)) : Prop where
  refuses : ∀ attempt ∈ rounds, ¬ mgr.Accepts attempt content
  errors : ∀ result ∈ results, result.isErr = true
  running : mgr'.running = mgr.running
  services : mgr'.onlineServices = mgr.onlineServices
  online : mgr'.onlineConfigContent = mgr.onlineConfigContent

/-- The first round that accepts the file brings it online, and later rounds are idle. -/
def BroughtOnline (mgr mgr' : StaticFileConfigManager F LF S L LC SC) (content : List UInt8)
    (rounds : List (Attempt F LF S L SE LE LC SC IE PE))
    (results : List (ReloadResult SE LE IE PE)) : Prop :=
  ∃ before attempt after refused settled, rounds = before ++ attempt :: after ∧
    results = refused ++ .reloaded :: settled ∧ refused.length = before.length ∧
    (∀ earlier ∈ before, ¬ mgr.Accepts earlier content) ∧
    (∀ result ∈ refused, result.isErr = true) ∧
    mgr.Accepts attempt content ∧ attempt.Brings mgr' ∧
    ∀ result ∈ settled, result.Idle

theorem accepts_congr {later : StaticFileConfigManager F LF S L LC SC}
    (running : later.running = mgr.running)
    (provider : later.serverFactoryProvider = mgr.serverFactoryProvider) :
    later.Accepts attempt content ↔ mgr.Accepts attempt content := by
  simp only [StaticFileConfigManager.Accepts, StaticFileConfigManager.ServicesMade, running,
    provider]

theorem rounds_idle (online : mgr.onlineConfigContent = content)
    (reads : ∀ attempt ∈ rounds, attempt.Reads content)
    (watched : mgr.watch rounds = some (mgr', results)) :
    mgr' = mgr ∧ ∀ result ∈ results, result.Idle := by
  induction rounds generalizing results with
  | nil =>
      obtain ⟨rfl, rfl⟩ := Prod.mk.inj (Option.some.inj watched)
      exact ⟨rfl, by simp⟩
  | cons attempt rest ih =>
      obtain ⟨first, others⟩ := List.forall_mem_cons.mp reads
      rw [StaticFileConfigManager.watch] at watched
      split at watched
      · cases watched
      · rename_i next result hround
        obtain ⟨rfl, idle⟩ := round_idle online first hround
        obtain ⟨⟨last, later⟩, hrest, hout⟩ := Option.map_eq_some_iff.mp watched
        obtain ⟨rfl, rfl⟩ := Prod.mk.inj hout
        obtain ⟨rfl, idles⟩ := ih others hrest
        exact ⟨rfl, List.forall_mem_cons.mpr ⟨idle, idles⟩⟩

theorem rounds_decided (h : mgr.WorkersInStep) (changed : mgr.onlineConfigContent ≠ content)
    (reads : ∀ attempt ∈ rounds, attempt.Reads content)
    (watched : mgr.watch rounds = some (mgr', results)) :
    Refused mgr mgr' content rounds results ∨ BroughtOnline mgr mgr' content rounds results := by
  induction rounds generalizing mgr results with
  | nil =>
      obtain ⟨rfl, rfl⟩ := Prod.mk.inj (Option.some.inj watched)
      exact .inl ⟨by simp, by simp, rfl, rfl, rfl⟩
  | cons attempt rest ih =>
      obtain ⟨first, others⟩ := List.forall_mem_cons.mp reads
      rw [StaticFileConfigManager.watch] at watched
      split at watched
      · cases watched
      · rename_i next result hround
        obtain ⟨⟨last, later⟩, hrest, hout⟩ := Option.map_eq_some_iff.mp watched
        obtain ⟨rfl, rfl⟩ := Prod.mk.inj hout
        have step : reloadStep mgr (attempt, result) next := hround
        obtain ⟨inStep, -, provider, brings, keeps⟩ := reloadStep_inStep h step
        rcases round_decided h changed first hround with ⟨accepts, rfl⟩ | ⟨refuses, err⟩
        · have online := brings rfl
          obtain ⟨rfl, idles⟩ := rounds_idle
            (Except.ok.inj (online.1.symm.trans accepts.1)) others hrest
          exact .inr ⟨[], attempt, rest, [], later, rfl, rfl, rfl, by simp, by simp, accepts,
            online, idles⟩
        · have ne : result ≠ .reloaded := by
            rintro rfl
            cases err
          obtain ⟨running, services, content_same⟩ := keeps ne
          have same : ∀ {attempt : Attempt F LF S L SE LE LC SC IE PE},
              next.Accepts attempt content ↔ mgr.Accepts attempt content :=
            accepts_congr running provider
          rcases ih inStep (content_same ▸ changed) others hrest with refused | online
          · exact .inl ⟨List.forall_mem_cons.mpr ⟨refuses,
                fun a ha => mt same.mpr (refused.refuses a ha)⟩,
              List.forall_mem_cons.mpr ⟨err, refused.errors⟩, refused.running.trans running,
              refused.services.trans services, refused.online.trans content_same⟩
          · obtain ⟨before, brought, after, refused, settled, rfl, rfl, length, earlier, errors,
              accepts, brings, idles⟩ := online
            exact .inr ⟨attempt :: before, brought, after, result :: refused, settled, rfl, rfl,
              by simp [length],
              List.forall_mem_cons.mpr ⟨refuses, fun a ha => mt same.mpr (earlier a ha)⟩,
              List.forall_mem_cons.mpr ⟨err, errors⟩, same.mp accepts, brings, idles⟩

theorem watch_returns (h : mgr.WorkersInStep)
    (listeners : ∀ attempt ∈ rounds, attempt.ListenersSucceed) :
    ∃ out, mgr.watch rounds = some out := by
  induction rounds generalizing mgr with
  | nil => exact ⟨_, rfl⟩
  | cons attempt rest ih =>
      obtain ⟨first, others⟩ := List.forall_mem_cons.mp listeners
      obtain ⟨⟨next, result⟩, hround⟩ := reloadFile_returns h first
      have step : reloadStep mgr (attempt, result) next := hround
      obtain ⟨out, hrest⟩ := ih (reloadStep_inStep h step).1 others
      exact ⟨(out.1, result :: out.2), by simp [StaticFileConfigManager.watch, hround, hrest]⟩

end Rounds

/-- Watching a file that does not change, after any start, as long as no worker is lost. If the
file is online nothing happens any more, also when the files it refers to have changed. If it is
not, the first round in which every worker can build all its services brings its servers online,
and no other round does anything; the rounds before it, or all of them, leave what runs as it was.
No round panics while listeners can be made. Where the servers listen is not part of this. -/
theorem watch_settles {threads : Nat} {listenerFactoryProvider : LC → LF}
    {serverFactoryProvider : SC → F} {first : Attempt F LF S L SE LE LC SC IE PE}
    {past : List (Attempt F LF S L SE LE LC SC IE PE)}
    {pastResults : List (ReloadResult SE LE IE PE)}
    (started : (StaticFileConfigManager.new threads listenerFactoryProvider
      serverFactoryProvider).loadAndWatch first past = some (.ok (mgr, pastResults)))
    {content : List UInt8} (reads : ∀ attempt ∈ rounds, attempt.Reads content) :
    ((∀ attempt ∈ rounds, attempt.ListenersSucceed) → ∃ out, mgr.watch rounds = some out) ∧
    ∀ mgr' results, mgr.watch rounds = some (mgr', results) →
      (∀ w ∈ mgr'.workers, ∀ n, (w.getSvc n).map (·.factory) =
        (mgr'.onlineServices.lookup n).map fun config => serverFactoryProvider config.server) ∧
      (mgr.onlineConfigContent = content → mgr' = mgr ∧ ∀ result ∈ results, result.Idle) ∧
      (mgr.onlineConfigContent ≠ content →
        Refused mgr mgr' content rounds results ∨
          BroughtOnline mgr mgr' content rounds results) := by
  obtain ⟨performed, run⟩ := loadAndWatch_run started
  have inStep := (inStep_run run).1
  refine ⟨watch_returns inStep, fun mgr' results watched => ⟨fun w hw n => ?_, ?_, ?_⟩⟩
  · obtain ⟨watching, -, provider⟩ := inStep_run (run.append (watch_run watched).1)
    obtain ⟨i, hi⟩ := List.getElem?_of_mem hw
    rw [← provider]
    exact (watching i w hi).committed n
  · exact fun online => rounds_idle online reads watched
  · exact fun changed => rounds_decided inStep changed reads watched

/-- The second site is prepared on both workers in the second round. -/
theorem second_site_watched :
    let mgr : StaticFileConfigManager Nat Nat Nat Nat Nat Nat := .new 2 id id
    let rounds := [attemptOf 2 secondSite secondWorkerFails, attemptOf 2 secondSite allAnswer,
      attemptOf 2 secondSite secondWorkerFails]
    ∃ watching last results,
      mgr.loadAndWatch (attemptOf 1 firstSite allAnswer) [] = some (.ok (watching, [])) ∧
      watching.watch rounds = some (last, results) ∧
      BroughtOnline watching last [2] rounds results := by
  have started : (StaticFileConfigManager.new 2 id id :
      StaticFileConfigManager Nat Nat Nat Nat Nat Nat).loadAndWatch
        (attemptOf 1 firstSite allAnswer) [] = some (.ok (_, [])) := rfl
  have reads : ∀ attempt ∈ [attemptOf 2 secondSite secondWorkerFails,
      attemptOf 2 secondSite allAnswer, attemptOf 2 secondSite secondWorkerFails],
      attempt.Reads [2] := by
    intro attempt hmem latest hread
    simp only [List.mem_cons, List.not_mem_nil, or_false] at hmem
    rcases hmem with rfl | rfl | rfl <;> exact (Except.ok.inj hread).symm
  obtain ⟨-, settles⟩ := watch_settles started reads
  obtain ⟨-, -, decided⟩ := settles _ _ rfl
  refine ⟨_, _, _, started, rfl, (decided (by decide)).resolve_left fun refused => ?_⟩
  exact absurd refused.online (by decide)

end Monolake.Config
