import Monolake.Config.ReloadLinearized
import Monolake.Config.Watch
import Monolake.Orchestrator.ServePairing

/-!
What clients are served while the manager and its threads interleave. Under a name is offered
the server of the online config, or while a new one is being committed, that of the new one; no
connection is handed a service that was made for a file that could not be prepared.
-/
namespace Monolake.Config

universe u
open Foundation Orchestrator ServiceExecutor

variable {F LF S L SE LE LC SC IE PE : Type u}

/-- Under each name the worker has what one of the two maps says. -/
structure Deploys (serverFactory : SC → F) (oldServices newServices : ServiceConfigMap LC SC)
    (w : Worker F S L) : Prop where
  sound : w.Sound
  deployed : ∀ n,
    (w.getSvc n).map (·.factory) =
      (oldServices.lookup n).map (fun config => serverFactory config.server) ∨
    (w.getSvc n).map (·.factory) =
      (newServices.lookup n).map fun config => serverFactory config.server

section
variable {serverFactory : SC → F} {oldServices newServices services : ServiceConfigMap LC SC}
  {mgr : StaticFileConfigManager F LF S L LC SC} {r : Reloading SE LE LC SC IE PE}
  {ws : List (Worker F S L)} {w : Worker F S L}

theorem InStep.deploys (h : InStep serverFactory services w) :
    Deploys serverFactory services services w :=
  ⟨h.sound, fun n => .inl (h.committed n)⟩

theorem Committing.deploys {rest : List (Patch LC SC)}
    (h : Committing serverFactory oldServices newServices rest w) :
    Deploys serverFactory oldServices newServices w := by
  refine ⟨h.sound, fun n => ?_⟩
  by_cases hn : n ∈ rest.map Patch.key
  · obtain ⟨p, hp, rfl⟩ := List.mem_map.mp hn
    exact .inl (h.committed p hp)
  · exact .inr (h.settled n hn)

/-- A dispatch that does not touch what is deployed. -/
theorem Deploys.same (h : Deploys serverFactory oldServices newServices w) {w' : Worker F S L}
    (sound : w'.Sound) (same : w'.getSvc = w.getSvc) :
    Deploys serverFactory oldServices newServices w' :=
  ⟨sound, fun n => by rw [same]; exact h.deployed n⟩

/-- Until the commit begins, the workers that are left run what is online. -/
theorem Reloading.Progress.deploys (live : mgr.LiveInStep) (begun : r.Begun mgr)
    (progress : r.Progress mgr ws) (uncommitted : r.stage ≠ .committing) :
    EachLive (fun _ => Deploys mgr.serverFactoryProvider mgr.onlineServices mgr.onlineServices)
      ws := by
  obtain ⟨losses, outcomes, done, split, reached⟩ := progress
  obtain ⟨patches, diffed, nodup, -⟩ := diff_fits r.file.order mgr.onlineServices r.newServices
  obtain rfl := Option.some.inj (begun.diffed.symm.trans diffed)
  have since : ∀ {rest : List (Patch LC SC)} {i : Nat} {w : Worker F S L},
      SinceInStep mgr mgr.workers (Staging rest) i w →
        Deploys mgr.serverFactoryProvider mgr.onlineServices mgr.onlineServices w := by
    rintro rest i w ⟨before, -, inStep, staging⟩
    exact inStep.deploys.same staging.sound staging.committed
  cases hstage : r.stage with
  | preparing =>
      rw [Reloading.Reached, hstage] at reached
      have nodup' : (done.map Patch.key).Nodup := by
        rw [split, List.map_append] at nodup
        exact nodup.of_append_left
      have staged := (prepareLosing_stages losses outcomes live nodup').1 (by rw [reached])
      rw [reached] at staged
      intro i w hw alive
      obtain ⟨before, hb, inStep, prepared⟩ := staged i w hw alive
      exact since ⟨before, hb, inStep, prepared.toStaging⟩
  | aborting e =>
      rw [Reloading.Reached, hstage] at reached
      obtain ⟨prepared, failed, rfl⟩ := reached
      have staged := (prepareLosing_stages losses outcomes live nodup).2 (by rw [failed]; simp)
      rw [failed, split] at staged
      intro i w hw alive
      exact since (abortLosing_restores losses outcomes staged i w hw alive)
  | committing => exact absurd hstage uncommitted

/-- During the commit the workers that are left have settled the patches that are done. -/
theorem Reloading.Progress.committing (live : mgr.LiveInStep) (begun : r.Begun mgr)
    (progress : r.Progress mgr ws) (stage : r.stage = .committing) :
    EachLive (fun _ => Committing mgr.serverFactoryProvider mgr.onlineServices r.newServices
      r.rest) ws := by
  obtain ⟨losses, outcomes, done, split, reached⟩ := progress
  obtain ⟨patches, diffed, nodup, fits, keys⟩ :=
    diff_fits r.file.order mgr.onlineServices r.newServices
  obtain rfl := Option.some.inj (begun.diffed.symm.trans diffed)
  rw [Reloading.Reached, stage] at reached
  obtain ⟨prepared, ready, settled⟩ := reached
  have staged := (prepareLosing_stages losses outcomes live nodup).1 (by rw [ready])
  rw [ready] at staged
  have committing : EachLive (fun _ => Committing mgr.serverFactoryProvider mgr.onlineServices
      r.newServices (done ++ r.rest)) prepared := by
    intro i w hw alive
    obtain ⟨before, -, inStep, all⟩ := staged i w hw alive
    rw [← split]
    exact all.committing inStep nodup fits keys
  have left := commitLosing_settles losses outcomes committing (by rw [settled])
  rwa [settled] at left

end

/-! The threads during a dispatch. -/

section
variable {s : ReloadSystem F LF S L SE LE LC SC IE PE}
  {mgr : StaticFileConfigManager F LF S L LC SC} {task : ReloadTask F LF SE LE LC SC IE PE}
  {oldServices newServices : ServiceConfigMap LC SC} {serverFactory : SC → F}
  {ws : List (Worker F S L)} {w : Worker F S L} {p : Patch LC SC} {rest : List (Patch LC SC)}
  {stage : Stage SE LE} {cmd : ServiceCommand F LF}

/-- Before the commit, the command for a patch does not touch what is deployed. -/
theorem Deploys.asked (h : Deploys serverFactory oldServices newServices w)
    (asks : task.command stage p = some cmd) (uncommitted : stage ≠ .committing)
    (env : Factories F LF S L SE LE) :
    Deploys serverFactory oldServices newServices (w.dispatch env cmd).1 := by
  refine h.same (h.sound.dispatch cmd) ?_
  by_cases ok : (w.dispatch env cmd).2 = .ok ()
  · cases stage with
    | preparing =>
        cases p with
        | insert key _ _ | update key _ =>
            obtain rfl := Option.some.inj asks
            exact (h.sound.precommit ok).1
        | delete key => cases asks
    | aborting e =>
        cases p with
        | insert key _ _ | update key _ =>
            obtain rfl := Option.some.inj asks
            exact (h.sound.abort key).1
        | delete key => cases asks
    | committing => exact absurd rfl uncommitted
  · exact (h.sound.dispatch_error ok).1

/-- A command of the commit settles the patch, or changes nothing. -/
theorem Committing.asked
    (h : Committing mgr.serverFactoryProvider oldServices newServices (p :: rest) w)
    (asks : mgr.commitCommand p = some cmd) (env : Factories F LF S L SE LE) :
    Deploys mgr.serverFactoryProvider oldServices newServices (w.dispatch env cmd).1 := by
  by_cases ok : (w.dispatch env cmd).2 = .ok ()
  · exact (h.step asks ok).deploys
  · exact h.deploys.same (h.sound.dispatch cmd) (h.sound.dispatch_error ok).1

end

/-! The services of all connections. -/

/-- The slots and the connections of an executor have services with this property only. -/
structure Provided (P : BuiltService F S → Prop) (ex : ServiceExecutor F S L) : Prop where
  discipline : SlotDiscipline ex
  slots : ∀ svc ∈ ex.slots, P svc
  connections : ∀ c ∈ ex.connections, P c.service

section
variable {P Q : BuiltService F S → Prop} {ex ex' : ServiceExecutor F S L}

theorem Provided.new : Provided P (.new : ServiceExecutor F S L) :=
  ⟨.new, by simp [ServiceExecutor.new], by simp [ServiceExecutor.new]⟩

theorem Provided.mono (h : Provided P ex) (later : ∀ svc, P svc → Q svc) : Provided Q ex :=
  ⟨h.discipline, fun svc hsvc => later svc (h.slots svc hsvc),
    fun c hc => later _ (h.connections c hc)⟩

theorem Provided.served (h : Provided P ex) {loop : Nat} {selected : Selected}
    (step : serve ex loop selected = some ex') : Provided P ex' := by
  refine ⟨serve_discipline step h.discipline, ?_, ?_⟩ <;>
    obtain ⟨lp, -, -, ⟨-, -, rfl⟩ | ⟨-, rfl⟩ | ⟨e, -, rfl⟩ | ⟨a, svc, -, hsvc, rfl⟩⟩ :=
      serve_cases step
  · exact h.slots
  · exact h.slots
  · exact h.slots
  · exact h.slots
  · exact h.connections
  · exact h.connections
  · exact h.connections
  · intro c hc
    rcases List.mem_append.mp hc with hc | hc
    · exact h.connections c hc
    · obtain rfl := List.mem_singleton.mp hc
      exact h.slots svc (List.mem_of_getElem? hsvc)

/-- The command puts the staged service of this name in place. -/
def Promotes (cmd : ServiceCommand F LF) (name : Name) : Prop :=
  cmd = .update name ∨ ∃ lf, cmd = .commit name lf

theorem Provided.executed (h : Provided P ex) {env : Factories F LF S L SE LE}
    {cmd : ServiceCommand F LF} {result : Except (CommandError SE LE) Unit}
    {call : Option (FactoryCall F S)} (step : execute env ex cmd = ⟨ex', result, call⟩)
    (staged_only : ∀ name factory lf, cmd ≠ .prepareAndCommit name factory lf)
    (staged : ∀ name svc, Promotes cmd name → ex.stagedSvc name = some svc → P svc) :
    Provided P ex' := by
  have discipline := execute_discipline step h.discipline
  cases result with
  | error e =>
      obtain ⟨same, -⟩ := execute_error step
      rw [same] at discipline ⊢
      exact ⟨discipline, h.slots, h.connections⟩
  | ok =>
      have slots_same : ex'.slots = ex.slots → ex'.connections = ex.connections →
          Provided P ex' := fun slots connections =>
        ⟨discipline, slots ▸ h.slots, connections ▸ h.connections⟩
      cases execute_ok step with
      | precommit _ _ becomes _ | abort becomes _ | remove becomes _ =>
          exact slots_same becomes.slots_eq becomes.connections_eq
      | @update name hdr svc _ committed promoted becomes _ =>
          refine ⟨discipline, ?_, becomes.connections_eq ▸ h.connections⟩
          rw [becomes.slots_eq]
          intro svc' hsvc
          rcases List.mem_or_eq_of_mem_set hsvc with hsvc | rfl
          · exact h.slots svc' hsvc
          · exact staged name _ (.inl rfl) promoted
      | @commit name lf svc listener _ promoted deployed _ =>
          refine ⟨discipline, ?_, deployed.connections_eq ▸ h.connections⟩
          rw [deployed.slots_eq]
          intro svc' hsvc
          rcases List.mem_append.mp hsvc with hsvc | hsvc
          · exact h.slots svc' hsvc
          · obtain rfl := List.mem_singleton.mp hsvc
            exact staged name _ (.inr ⟨lf, rfl⟩) promoted
      | @prepareAndCommit name factory lf => exact absurd rfl (staged_only name factory lf)

end

/-- The sites of a file that was loaded, or is being committed. -/
def Loaded (tr : List (SystemEvent F LF S L SE LE LC SC IE PE))
    (phase : TaskPhase SE LE LC SC IE PE) (services : ServiceConfigMap LC SC) : Prop :=
  ∃ file content, file.fileRead = .ok content ∧ file.parseServiceConfig content = .ok services ∧
    ((file, .reloaded) ∈ attempts tr ∨
      (∃ r, phase = .reloading r ∧ r.stage = .committing ∧ r.file = file) ∨
      phase = .panicked file)

/-- The service was made for one of these sites. -/
def MadeFor (serverFactory : SC → F) (loaded : ServiceConfigMap LC SC → Prop)
    (svc : BuiltService F S) : Prop :=
  ∃ services name config, loaded services ∧ services.lookup name = some config ∧
    svc.factory = serverFactory config.server

section
variable {s s' : ReloadSystem F LF S L SE LE LC SC IE PE}
  {mgr : StaticFileConfigManager F LF S L LC SC} {ws : List (Worker F S L)}
  {tr : List (SystemEvent F LF S L SE LE LC SC IE PE)}
  {e : SystemEvent F LF S L SE LE LC SC IE PE} {services : ServiceConfigMap LC SC}

/-- What has been loaded stays loaded, and a commit ends so or in a panic. -/
theorem Loaded.later (h : Loaded tr s.task.phase services) (step : SystemStep s e s') :
    Loaded (tr ++ [e]) s'.task.phase services := by
  obtain ⟨file, content, read, parsed, when⟩ := h
  refine ⟨file, content, read, parsed, ?_⟩
  rcases when with loaded | ⟨r, reloading, stage, rfl⟩ | panicked
  · refine .inl ?_
    rw [attempts_append]
    exact List.mem_append_left _ loaded
  · have same : ∀ r', s.task.phase = .reloading r' → r' = r := fun r' phase =>
      TaskPhase.reloading.inj (phase.symm.trans reloading)
    cases step with
    | ended idle | began idle | diffPanicked idle => cases idle.symm.trans reloading
    | skipped phase next none =>
        obtain rfl := same _ phase
        exact .inr (.inl ⟨_, rfl, stage, rfl⟩)
    | asked | moved => exact .inr (.inl ⟨r, reloading, stage, rfl⟩)
    | @answered r' patch rest cmd results threads phase next some step =>
        obtain rfl := same _ phase
        refine .inr ?_
        simp only [ReloadTask.enter, Reloading.answered, stage]
        cases resultGroupErr results with
        | error e => exact .inr rfl
        | ok => exact .inl ⟨_, rfl, rfl, rfl⟩
    | prepared phase preparing =>
        obtain rfl := same _ phase
        cases stage.symm.trans preparing
    | aborted phase aborting =>
        obtain rfl := same _ phase
        cases stage.symm.trans aborting
    | committed phase =>
        obtain rfl := same _ phase
        refine .inl ?_
        rw [attempts_append]
        exact List.mem_append_right _ (.head _)
  · cases step with
    | ended idle | began idle | diffPanicked idle => cases idle.symm.trans panicked
    | skipped phase | answered phase | prepared phase | aborted phase | committed phase =>
        cases phase.symm.trans panicked
    | asked | moved => exact .inr (.inr panicked)

/-- Only a commit puts staged services in place. -/
theorem ReloadTask.promotes {task : ReloadTask F LF SE LE LC SC IE PE} {stage : Stage SE LE}
    {p : Patch LC SC} {cmd : ServiceCommand F LF} (asks : task.command stage p = some cmd) :
    (∀ name factory lf, cmd ≠ .prepareAndCommit name factory lf) ∧
      ∀ name, Promotes cmd name → stage = .committing ∧ p.key = name := by
  cases stage with
  | preparing | aborting =>
      cases p with
      | insert | update =>
          obtain rfl := Option.some.inj asks
          exact ⟨by simp, by simp [Promotes]⟩
      | delete => cases asks
  | committing =>
      cases p with
      | insert | update | delete =>
          obtain rfl := Option.some.inj asks
          exact ⟨by simp, by simp [Promotes, Patch.key]⟩

/-- What the manager lets a thread put in place is of the file that is being committed. -/
theorem Mirrored.promoted (h : Mirrored mgr ws s) (live : mgr.LiveInStep) {i : Nat}
    {thread : WorkerThread F LF S L} (hthread : s.threads.workers[i]? = some thread)
    {task : ServiceCommandTask F LF} (busy : thread.upd = some task) :
    (∀ name factory lf, task.cmd ≠ .prepareAndCommit name factory lf) ∧
      ∀ name svc, Promotes task.cmd name → thread.workerController.stagedSvc name = some svc →
        MadeFor s.task.serverFactoryProvider (Loaded tr s.task.phase) svc := by
  obtain ⟨w, hw, tracked⟩ := h.tracks.worker hthread
  obtain ⟨cmd, results, rx, awaiting, -, -, owes⟩ := tracked.busy fun w' stands => by
    have free := stands.free
    simp [busy] at free
  obtain rfl : task = ⟨cmd, rx⟩ := by
    have owed : thread.rx = some [] ∧ task = ⟨cmd, rx⟩ := by simpa [busy] using owes.task
    exact owed.2
  obtain ⟨r, patch, rest, phase, next, asks⟩ := h.asks cmd (by rw [awaiting]; rfl)
  obtain ⟨staged_only, committing⟩ := ReloadTask.promotes asks
  refine ⟨staged_only, fun name svc promotes staged => ?_⟩
  obtain ⟨stage, rfl⟩ := committing name promotes
  have standing := h.phase
  rw [phase] at standing
  obtain ⟨begun, progress⟩ := standing
  have settling := progress.committing live begun stage i w hw owes.alive
  have first : patch ∈ r.rest := by simp [next]
  have made := settling.staged patch first
  have seen : w.stagedSvc = thread.workerController.stagedSvc := by
    rw [Worker.stagedSvc, owes.executor]
    rfl
  rw [seen, staged, Option.map_some] at made
  obtain ⟨server, hserver, made⟩ := Option.map_eq_some_iff.mp made.symm
  obtain ⟨listener, hconfig⟩ := (settling.fits patch first).staging_iff.mp hserver
  refine ⟨r.newServices, patch.key, _, ?_, hconfig, ?_⟩
  · exact ⟨r.file, r.latestContent, begun.fileRead, begun.parsed,
      .inr (.inl ⟨r, phase, stage, rfl⟩)⟩
  · rw [← h.servers]
    exact made.symm

theorem SystemStep.threads_cases (step : SystemStep s e s') :
    s'.task.serverFactoryProvider = s.task.serverFactoryProvider ∧
      (s'.threads = s.threads ∨ ∃ event, ManagerStep s.threads event s'.threads) := by
  cases step with
  | ended | began | diffPanicked | skipped | prepared | aborted | committed =>
      exact ⟨rfl, .inl rfl⟩
  | asked phase next some step | answered phase next some step | moved step =>
      exact ⟨rfl, .inr ⟨_, step⟩⟩

/-- What the threads have in their slots and connections comes from files that were loaded. -/
def ReloadSystem.Served (tr : List (SystemEvent F LF S L SE LE LC SC IE PE))
    (s : ReloadSystem F LF S L SE LE LC SC IE PE) : Prop :=
  ∀ thread ∈ s.threads.workers,
    Provided (MadeFor s.task.serverFactoryProvider (Loaded tr s.task.phase))
      thread.workerController

theorem SystemStep.served (mirrored : Mirrored mgr ws s) (live : mgr.LiveInStep)
    (h : s.Served tr) (step : SystemStep s e s') : s'.Served (tr ++ [e]) := by
  obtain ⟨provider, threads⟩ := step.threads_cases
  have later : ∀ svc : BuiltService F S,
      MadeFor s.task.serverFactoryProvider (Loaded tr s.task.phase) svc →
        MadeFor s'.task.serverFactoryProvider (Loaded (tr ++ [e]) s'.task.phase) svc := by
    rintro svc ⟨services, name, config, loaded, hconfig, made⟩
    exact ⟨services, name, config, loaded.later step, hconfig, by rw [provider]; exact made⟩
  intro thread' hthread'
  rcases threads with same | ⟨event, moved⟩
  · exact (h thread' (same ▸ hthread')).mono later
  · obtain ⟨i, hi⟩ := List.getElem?_of_mem hthread'
    obtain ⟨thread, hthread, did⟩ := moved.thread_cases hi
    have before := h thread (List.mem_of_getElem? hthread)
    refine Provided.mono ?_ later
    rcases did with same | ⟨task, env, result, call, busy, executed⟩ | ⟨loop, selected, served⟩
    · rw [same]
      exact before
    · obtain ⟨staged_only, staged⟩ := mirrored.promoted live hthread busy
      exact before.executed executed staged_only staged
    · exact before.served served

end

end Monolake.Config
