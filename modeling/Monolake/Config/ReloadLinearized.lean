import Monolake.Config.ReloadTask

/-!
Attempts that run while the threads go on, as attempts of a manager that loses workers. What
the workers answer in one dispatch is an outcome of its patch; as a key has only one patch,
the outcomes of the dispatches make up those of an attempt.
-/
namespace Monolake.Config

universe u
open Foundation Orchestrator

variable {F LF S L SE LE LC SC IE PE : Type u}

/-! The loops, patch by patch. -/

section Loops
variable {gone gone' : Name → Nat → Bool} {env env' : Name → Nat → Factories F LF S L SE LE}
  {command : Patch LC SC → Option (ServiceCommand F LF)} {patches done rest : List (Patch LC SC)}
  {p : Patch LC SC} {workers ws ws' : List (Worker F S L)}

theorem losingUntilError_congr
    (same : ∀ p ∈ patches, gone p.key = gone' p.key ∧ env p.key = env' p.key) :
    losingUntilError gone env command patches workers =
      losingUntilError gone' env' command patches workers := by
  induction patches generalizing workers with
  | nil => rfl
  | cons p rest ih =>
      obtain ⟨⟨hgone, henv⟩, others⟩ := List.forall_mem_cons.mp same
      simp only [losingUntilError, hgone, henv, ih others]

theorem losingUntilError_append (rest : List (Patch LC SC)) :
    losingUntilError gone env command (done ++ rest) workers =
      match losingUntilError gone env command done workers with
      | (ws, .error e) => (ws, .error e)
      | (ws, .ok ()) => losingUntilError gone env command rest ws := by
  induction done generalizing workers with
  | nil => rfl
  | cons p done ih =>
      rw [List.cons_append, losingUntilError, losingUntilError]
      cases command p with
      | none => exact ih
      | some cmd =>
          dsimp only
          cases resultGroupErr (dispatchLosing (gone p.key) (env p.key) cmd workers).2 with
          | error e => rfl
          | ok => exact ih

/-- One patch more, which no outcome has been said of. -/
theorem losingUntilError_snoc (ran : losingUntilError gone env command done workers = (ws, .ok ()))
    {cmd : ServiceCommand F LF} (some : command p = some cmd)
    (fresh : p.key ∉ done.map Patch.key) {lost : Nat → Bool}
    {factories : Nat → Factories F LF S L SE LE} {results : List (CommandResult SE LE)}
    (dispatched : dispatchLosing lost factories cmd ws = (ws', results)) :
    losingUntilError (Function.update gone p.key lost) (Function.update env p.key factories)
      command (done ++ [p]) workers = (ws', resultGroupErr results) := by
  have before : losingUntilError (Function.update gone p.key lost)
      (Function.update env p.key factories) command done workers = (ws, .ok ()) := by
    rw [← ran]
    refine losingUntilError_congr fun q hq => ?_
    have other : q.key ≠ p.key := fun heq => fresh (heq ▸ List.mem_map_of_mem hq)
    exact ⟨Function.update_of_ne other .., Function.update_of_ne other ..⟩
  simp only [losingUntilError_append, before, losingUntilError, some, Function.update_self,
    dispatched]
  cases resultGroupErr results <;> rfl

theorem losingUntilError_skip (ran : losingUntilError gone env command done workers = (ws, .ok ()))
    (none : command p = none) :
    losingUntilError gone env command (done ++ [p]) workers = (ws, .ok ()) := by
  simp only [losingUntilError_append, ran, losingUntilError, none]

/-- The loop of `abort`, for the patch that is next. -/
theorem abortLosing_cons (task : ReloadTask F LF SE LE LC SC IE PE) (e : AnyError SE LE)
    (losses : Losses) (outcomes : Outcomes F LF S L SE LE) (p : Patch LC SC)
    (rest : List (Patch LC SC)) (ws : List (Worker F S L)) :
    StaticFileConfigManager.abortLosing losses outcomes (p :: rest) ws =
      StaticFileConfigManager.abortLosing losses outcomes rest
        (match task.command (.aborting e) p with
        | none => ws
        | some cmd => (dispatchLosing (losses.abort p.key) (outcomes.abort p.key) cmd ws).1) := by
  cases p <;> rfl

theorem abortLosing_append {losses : Losses} {outcomes : Outcomes F LF S L SE LE}
    (rest : List (Patch LC SC)) :
    StaticFileConfigManager.abortLosing losses outcomes (done ++ rest) ws =
      StaticFileConfigManager.abortLosing losses outcomes rest
        (StaticFileConfigManager.abortLosing losses outcomes done ws) := by
  induction done generalizing ws with
  | nil => rfl
  | cons p done ih => cases p <;> exact ih

theorem abortLosing_congr {losses losses' : Losses} {outcomes outcomes' : Outcomes F LF S L SE LE}
    (same : ∀ p ∈ patches, losses.abort p.key = losses'.abort p.key ∧
      outcomes.abort p.key = outcomes'.abort p.key) :
    StaticFileConfigManager.abortLosing losses outcomes patches ws =
      StaticFileConfigManager.abortLosing losses' outcomes' patches ws := by
  induction patches generalizing ws with
  | nil => rfl
  | cons p rest ih =>
      obtain ⟨⟨hlosses, houtcomes⟩, others⟩ := List.forall_mem_cons.mp same
      cases p with
      | insert key _ _ | update key _ =>
          simp only [Patch.key] at hlosses houtcomes
          simp only [StaticFileConfigManager.abortLosing, hlosses, houtcomes, ih others]
      | delete key => exact ih others

theorem abortLosing_snoc {task : ReloadTask F LF SE LE LC SC IE PE} {e : AnyError SE LE}
    {losses : Losses} {outcomes : Outcomes F LF S L SE LE}
    (ran : StaticFileConfigManager.abortLosing losses outcomes done workers = ws)
    {cmd : ServiceCommand F LF} (some : task.command (.aborting e) p = some cmd)
    (fresh : p.key ∉ done.map Patch.key) {lost : Nat → Bool}
    {factories : Nat → Factories F LF S L SE LE} {results : List (CommandResult SE LE)}
    (dispatched : dispatchLosing lost factories cmd ws = (ws', results)) :
    StaticFileConfigManager.abortLosing
      { losses with abort := Function.update losses.abort p.key lost }
      { outcomes with abort := Function.update outcomes.abort p.key factories }
      (done ++ [p]) workers = ws' := by
  have before : StaticFileConfigManager.abortLosing
      { losses with abort := Function.update losses.abort p.key lost }
      { outcomes with abort := Function.update outcomes.abort p.key factories }
      done workers = ws := by
    rw [← ran]
    refine abortLosing_congr fun q hq => ?_
    have other : q.key ≠ p.key := fun heq => fresh (heq ▸ List.mem_map_of_mem hq)
    exact ⟨Function.update_of_ne other .., Function.update_of_ne other ..⟩
  rw [abortLosing_append, before, abortLosing_cons task e]
  simp only [some, Function.update_self, dispatched]
  rfl

end Loops

/-! The manager without threads that has come as far as the task. -/

section
variable {s s' : ReloadSystem F LF S L SE LE LC SC IE PE}
  {mgr : StaticFileConfigManager F LF S L LC SC} {r : Reloading SE LE LC SC IE PE}
  {ws : List (Worker F S L)}

/-- What `reload_file` has done before `reload_services`. -/
structure Reloading.Begun (r : Reloading SE LE LC SC IE PE)
    (mgr : StaticFileConfigManager F LF S L LC SC) : Prop where
  fileRead : r.file.fileRead = .ok r.latestContent
  changed : mgr.onlineConfigContent ≠ r.latestContent
  parsed : r.file.parseServiceConfig r.latestContent = .ok r.newServices
  diffed : diff r.file.order mgr.onlineServices r.newServices = some r.patches

/-- With these losses and outcomes the attempt has come to the workers `ws`. -/
def Reloading.Reached (r : Reloading SE LE LC SC IE PE)
    (mgr : StaticFileConfigManager F LF S L LC SC) (losses : Losses)
    (outcomes : Outcomes F LF S L SE LE) (done : List (Patch LC SC))
    (ws : List (Worker F S L)) : Prop :=
  match r.stage with
  | .preparing =>
      losingUntilError losses.prepare outcomes.prepare mgr.prepareCommand done mgr.workers =
        (ws, .ok ())
  | .aborting e => ∃ prepared,
      losingUntilError losses.prepare outcomes.prepare mgr.prepareCommand r.patches mgr.workers =
        (prepared, .error e) ∧
      StaticFileConfigManager.abortLosing losses outcomes done prepared = ws
  | .committing => ∃ prepared,
      losingUntilError losses.prepare outcomes.prepare mgr.prepareCommand r.patches mgr.workers =
        (prepared, .ok ()) ∧
      losingUntilError losses.commit outcomes.commit mgr.commitCommand done prepared =
        (ws, .ok ())

def Reloading.Progress (r : Reloading SE LE LC SC IE PE)
    (mgr : StaticFileConfigManager F LF S L LC SC) (ws : List (Worker F S L)) : Prop :=
  ∃ (losses : Losses) (outcomes : Outcomes F LF S L SE LE) (done : List (Patch LC SC)),
    r.patches = done ++ r.rest ∧ r.Reached mgr losses outcomes done ws

def TaskPhase.Stands (mgr : StaticFileConfigManager F LF S L LC SC) (ws : List (Worker F S L)) :
    TaskPhase SE LE LC SC IE PE → Prop
  | .idle => ws = mgr.workers
  | .reloading r => r.Begun mgr ∧ r.Progress mgr ws
  | .panicked file => ∃ (losses : Losses) (outcomes : Outcomes F LF S L SE LE),
      mgr.reloadFileLosing losses (file.with outcomes) = none

/-- The task awaits `dispatch_service_command` for its next patch. -/
def ReloadTask.Asks (task : ReloadTask F LF SE LE LC SC IE PE) (cmd : ServiceCommand F LF) :
    Prop :=
  ∃ r patch rest, task.phase = .reloading r ∧ r.rest = patch :: rest ∧
    task.command r.stage patch = some cmd

structure Mirrored (mgr : StaticFileConfigManager F LF S L LC SC) (ws : List (Worker F S L))
    (s : ReloadSystem F LF S L SE LE LC SC IE PE) : Prop where
  content : mgr.onlineConfigContent = s.task.onlineConfigContent
  services : mgr.onlineServices = s.task.onlineServices
  listeners : mgr.listenerFactoryProvider = s.task.listenerFactoryProvider
  servers : mgr.serverFactoryProvider = s.task.serverFactoryProvider
  tracks : Tracks s.threads ws
  asks : ∀ cmd, s.threads.phase.command = some cmd → s.task.Asks cmd
  phase : s.task.phase.Stands mgr ws

end

/-! What `reload_file` does without its workers. -/

section Begin
variable {mgr : StaticFileConfigManager F LF S L LC SC}
  {task : ReloadTask F LF SE LE LC SC IE PE} {file : FileAttempt LC SC IE PE}
  (content : mgr.onlineConfigContent = task.onlineConfigContent)
  (services : mgr.onlineServices = task.onlineServices)

include content in
theorem begin_ended {result : ReloadResult SE LE IE PE}
    (ends : task.begin file = some (.inl result)) (losses : Losses)
    (outcomes : Outcomes F LF S L SE LE) :
    mgr.reloadFileLosing losses (file.with outcomes) = some (mgr, result) := by
  rw [ReloadTask.begin, ← content] at ends
  simp only [StaticFileConfigManager.reloadFileLosing, FileAttempt.with]
  cases hread : file.fileRead with
  | error e => simpa [hread] using ends
  | ok latestContent =>
      simp only [hread] at ends ⊢
      split at ends
      · rename_i unchanged
        simpa [unchanged] using ends
      · rename_i changed
        cases hparse : file.parseServiceConfig latestContent with
        | error e => simpa [hparse, changed] using ends
        | ok newServices => simp [hparse] at ends

include content services in
theorem begin_begun {r : Reloading SE LE LC SC IE PE} (begins : task.begin file = some (.inr r)) :
    r.file = file ∧ r.stage = .preparing ∧ r.rest = r.patches ∧ r.Begun mgr := by
  rw [ReloadTask.begin, ← content, ← services] at begins
  split at begins
  · simp at begins
  · rename_i latestContent hread
    split at begins
    · simp at begins
    · rename_i changed
      split at begins
      · simp at begins
      · rename_i newServices hparse
        obtain ⟨patches, hdiff, same⟩ := Option.map_eq_some_iff.mp begins
        obtain rfl := Sum.inr.inj same
        exact ⟨rfl, rfl, rfl, hread, changed, hparse, hdiff⟩

include content services in
theorem begin_panicked (panics : task.begin file = none) (losses : Losses)
    (outcomes : Outcomes F LF S L SE LE) :
    mgr.reloadFileLosing losses (file.with outcomes) = none := by
  rw [ReloadTask.begin, ← content, ← services] at panics
  split at panics
  · simp at panics
  · rename_i latestContent hread
    split at panics
    · simp at panics
    · rename_i changed
      split at panics
      · simp at panics
      · rename_i newServices hparse
        have hdiff := Option.map_eq_none_iff.mp panics
        simp only [StaticFileConfigManager.reloadFileLosing, FileAttempt.with, hread, changed,
          hparse, StaticFileConfigManager.reloadServicesLosing, hdiff, if_false]

end Begin

/-! One patch. -/

namespace Reloading
variable {mgr : StaticFileConfigManager F LF S L LC SC} {r : Reloading SE LE LC SC IE PE}
  {task : ReloadTask F LF SE LE LC SC IE PE} {ws ws' : List (Worker F S L)}
  {p : Patch LC SC} {done rest : List (Patch LC SC)} {losses : Losses}
  {outcomes : Outcomes F LF S L SE LE}

theorem Begun.fresh (h : r.Begun mgr) (split : r.patches = done ++ p :: rest) :
    p.key ∉ done.map Patch.key := by
  obtain ⟨patches, diffed, nodup, -⟩ := diff_fits r.file.order mgr.onlineServices r.newServices
  obtain rfl := Option.some.inj (h.diffed.symm.trans diffed)
  intro before
  rw [split, List.map_append, List.map_cons] at nodup
  exact List.disjoint_of_nodup_append nodup before (by simp)

theorem Begun.moved (h : r.Begun mgr) (stage : Stage SE LE) (rest : List (Patch LC SC)) :
    { r with stage, rest }.Begun mgr :=
  ⟨h.fileRead, h.changed, h.parsed, h.diffed⟩

/-- A prepare that has failed is followed by the abort of all patches. -/
theorem Begun.prepareFailed (h : r.Begun mgr) {prepared : List (Worker F S L)}
    {e : AnyError SE LE}
    (ran : losingUntilError losses.prepare outcomes.prepare mgr.prepareCommand r.patches
      mgr.workers = (prepared, .error e)) :
    mgr.reloadFileLosing losses (r.file.with outcomes) =
      some ({ mgr with
        workers := StaticFileConfigManager.abortLosing losses outcomes r.patches prepared },
        .prepareFailed e) := by
  simp only [StaticFileConfigManager.reloadFileLosing, FileAttempt.with, h.fileRead,
    if_neg h.changed, h.parsed, StaticFileConfigManager.reloadServicesLosing, h.diffed, ran]

theorem Begun.reloaded (h : r.Begun mgr) {prepared committed : List (Worker F S L)}
    (ran : losingUntilError losses.prepare outcomes.prepare mgr.prepareCommand r.patches
      mgr.workers = (prepared, .ok ()))
    (done : losingUntilError losses.commit outcomes.commit mgr.commitCommand r.patches prepared =
      (committed, .ok ())) :
    mgr.reloadFileLosing losses (r.file.with outcomes) =
      some ({ mgr with
        workers := committed, onlineConfigContent := r.latestContent,
        onlineServices := r.newServices }, .reloaded) := by
  simp only [StaticFileConfigManager.reloadFileLosing, FileAttempt.with, h.fileRead,
    if_neg h.changed, h.parsed, StaticFileConfigManager.reloadServicesLosing, h.diffed, ran, done]

theorem Begun.commitFailed (h : r.Begun mgr) {prepared left : List (Worker F S L)}
    {e : AnyError SE LE}
    (ran : losingUntilError losses.prepare outcomes.prepare mgr.prepareCommand r.patches
      mgr.workers = (prepared, .ok ()))
    (failed : losingUntilError losses.commit outcomes.commit mgr.commitCommand r.patches prepared =
      (left, .error e)) :
    mgr.reloadFileLosing losses (r.file.with outcomes) = none := by
  simp only [StaticFileConfigManager.reloadFileLosing, FileAttempt.with, h.fileRead,
    if_neg h.changed, h.parsed, StaticFileConfigManager.reloadServicesLosing, h.diffed, ran, failed]

variable (listeners : mgr.listenerFactoryProvider = task.listenerFactoryProvider)
  (servers : mgr.serverFactoryProvider = task.serverFactoryProvider)

include servers in
theorem prepareCommand_of (p : Patch LC SC) :
    mgr.prepareCommand p = task.command .preparing p := by
  cases p <;> simp [StaticFileConfigManager.prepareCommand, ReloadTask.command, servers]

include listeners in
theorem commitCommand_of (p : Patch LC SC) :
    mgr.commitCommand p = task.command .committing p := by
  cases p <;> simp [StaticFileConfigManager.commitCommand, ReloadTask.command, listeners]

include listeners servers in
/-- The workers were asked for one patch more, which has outcomes of its own. -/
theorem Progress.answered (begun : r.Begun mgr) (progress : r.Progress mgr ws)
    (next : r.rest = p :: rest) {cmd : ServiceCommand F LF}
    (some : task.command r.stage p = some cmd) {lost : Nat → Bool}
    {factories : Nat → Factories F LF S L SE LE} {results : List (CommandResult SE LE)}
    (dispatched : dispatchLosing lost factories cmd ws = (ws', results)) :
    (r.answered rest results).Stands mgr ws' := by
  obtain ⟨losses, outcomes, done, split, reached⟩ := progress
  rw [next] at split
  have fresh := begun.fresh split
  have split' : r.patches = (done ++ [p]) ++ rest := by simpa using split
  rw [Reloading.answered]
  cases hstage : r.stage with
  | preparing =>
      simp only [hstage] at some
      rw [Reached, hstage] at reached
      have ran := losingUntilError_snoc reached ((prepareCommand_of servers p).trans some) fresh
        dispatched
      let losses' := { losses with prepare := Function.update losses.prepare p.key lost }
      let outcomes' := { outcomes with prepare := Function.update outcomes.prepare p.key factories }
      cases hgroup : resultGroupErr results with
      | error e =>
          refine ⟨begun.moved _ _, losses', outcomes', [], rfl, ws', ?_, rfl⟩
          dsimp only [losses', outcomes']
          rw [split', losingUntilError_append, ran, hgroup]
      | ok =>
          rw [hgroup] at ran
          exact ⟨begun.moved _ _, losses', outcomes', done ++ [p], split', ran⟩
  | aborting e =>
      simp only [hstage] at some
      rw [Reached, hstage] at reached
      obtain ⟨prepared, failed, ran⟩ := reached
      have aborted := abortLosing_snoc ran some fresh dispatched
      let losses' := { losses with abort := Function.update losses.abort p.key lost }
      let outcomes' := { outcomes with abort := Function.update outcomes.abort p.key factories }
      exact ⟨begun.moved _ _, losses', outcomes', done ++ [p], split', prepared, failed, aborted⟩
  | committing =>
      simp only [hstage] at some
      rw [Reached, hstage] at reached
      obtain ⟨prepared, ready, ran⟩ := reached
      have committed := losingUntilError_snoc ran ((commitCommand_of listeners p).trans some) fresh
        dispatched
      let losses' := { losses with commit := Function.update losses.commit p.key lost }
      let outcomes' := { outcomes with commit := Function.update outcomes.commit p.key factories }
      cases hgroup : resultGroupErr results with
      | error e =>
          have failed : losingUntilError losses'.commit outcomes'.commit mgr.commitCommand r.patches
              prepared = (ws', .error e) := by
            rw [split', losingUntilError_append, committed, hgroup]
          exact ⟨losses', outcomes', begun.commitFailed ready failed⟩
      | ok =>
          rw [hgroup] at committed
          exact ⟨begun.moved _ _, losses', outcomes', done ++ [p], split', prepared, ready,
            committed⟩

include servers in
/-- A patch that asks for nothing. -/
theorem Progress.skipped (progress : r.Progress mgr ws) (next : r.rest = p :: rest)
    (none : task.command r.stage p = none) : { r with rest }.Progress mgr ws := by
  obtain ⟨losses, outcomes, done, split, reached⟩ := progress
  rw [next] at split
  refine ⟨losses, outcomes, done ++ [p], by simpa using split, ?_⟩
  rw [Reached] at reached ⊢
  cases hstage : r.stage with
  | preparing =>
      simp only [hstage] at none reached ⊢
      exact losingUntilError_skip reached ((prepareCommand_of servers p).trans none)
  | aborting e =>
      simp only [hstage] at none reached ⊢
      obtain ⟨prepared, failed, ran⟩ := reached
      refine ⟨prepared, failed, ?_⟩
      rw [abortLosing_append, ran, abortLosing_cons task e]
      simp only [none]
      rfl
  | committing =>
      simp only [hstage] at none
      cases p <;> simp [ReloadTask.command] at none

end Reloading

/-! One step, and runs of steps. -/

section
variable {s s' : ReloadSystem F LF S L SE LE LC SC IE PE}
  {mgr : StaticFileConfigManager F LF S L LC SC} {ws : List (Worker F S L)}

/-- An attempt of the manager without threads, as one that returns. -/
def LosingAttempt.returned (performed : LosingAttempt F LF S L SE LE LC SC IE PE) :
    FileAttempt LC SC IE PE × ReloadResult SE LE IE PE :=
  (performed.1.file, performed.2.2)

theorem Mirrored.start (workerThreads : Nat) (listenerFactoryProvider : LC → LF)
    (serverFactoryProvider : SC → F) :
    Mirrored (.new workerThreads listenerFactoryProvider serverFactoryProvider)
      (List.replicate workerThreads .start)
      (.start workerThreads listenerFactoryProvider serverFactoryProvider :
        ReloadSystem F LF S L SE LE LC SC IE PE) :=
  ⟨rfl, rfl, rfl, rfl, .start workerThreads,
    fun cmd asked => absurd asked (Option.some_ne_none cmd).symm, rfl⟩

/-- The task goes on without the threads. -/
theorem Mirrored.entered (h : Mirrored mgr ws s) (nothing : ∀ cmd, ¬ s.task.Asks cmd)
    {phase : TaskPhase SE LE LC SC IE PE} (stands : phase.Stands mgr ws) :
    Mirrored mgr ws (s.enter phase) :=
  ⟨h.content, h.services, h.listeners, h.servers, h.tracks,
    fun cmd asked => absurd (h.asks cmd asked) (nothing cmd), stands⟩

theorem ReloadTask.done_asks_nothing {task : ReloadTask F LF SE LE LC SC IE PE}
    {r : Reloading SE LE LC SC IE PE} (phase : task.phase = .reloading r) (done : r.rest = []) :
    ∀ cmd, ¬ task.Asks cmd := by
  rintro cmd ⟨r', patch, rest, phase', next, -⟩
  obtain rfl := TaskPhase.reloading.inj (phase.symm.trans phase')
  simp [done] at next

theorem ReloadTask.asks_nothing {task : ReloadTask F LF SE LE LC SC IE PE}
    {r : Reloading SE LE LC SC IE PE} {patch : Patch LC SC} {rest : List (Patch LC SC)}
    (phase : task.phase = .reloading r) (next : r.rest = patch :: rest)
    (none : task.command r.stage patch = none) : ∀ cmd, ¬ task.Asks cmd := by
  rintro cmd ⟨r', patch', rest', phase', next', some⟩
  obtain rfl := TaskPhase.reloading.inj (phase.symm.trans phase')
  obtain ⟨rfl, -⟩ := List.cons.inj (next.symm.trans next')
  simp [none] at some

theorem SystemStep.mirrored [Inhabited (Factories F LF S L SE LE)]
    {e : SystemEvent F LF S L SE LE LC SC IE PE} (h : Mirrored mgr ws s)
    (step : SystemStep s e s') :
    ∃ (performed : List (LosingAttempt F LF S L SE LE LC SC IE PE)) (mgr' : _)
      (ws' : List (Worker F S L)), Run losingStep mgr performed mgr' ∧
      performed.map LosingAttempt.returned = attempts [e] ∧ Mirrored mgr' ws' s' := by
  let outcomes : Outcomes F LF S L SE LE :=
    { prepare := fun _ _ => default, commit := fun _ _ => default, abort := fun _ _ => default }
  have standing := h.phase
  have idle_asks : s.task.phase = .idle → ∀ cmd, ¬ s.task.Asks cmd := by
    rintro idle cmd ⟨r, patch, rest, phase, -⟩
    simp [idle] at phase
  cases step with
  | @ended file result idle ends =>
      have performed : losingStep mgr (file.with outcomes, Losses.none, result) mgr :=
        begin_ended h.content ends .none outcomes
      exact ⟨_, mgr, ws, .single performed, rfl, h⟩
  | @began file r idle begins =>
      obtain ⟨rfl, stage, rest, begun⟩ := begin_begun h.content h.services begins
      rw [idle] at standing
      have progress : r.Progress mgr ws := by
        refine ⟨.none, outcomes, [], by rw [rest]; rfl, ?_⟩
        rw [Reloading.Reached, stage, (standing : ws = mgr.workers)]
        rfl
      exact ⟨[], mgr, ws, .nil, rfl, h.entered (idle_asks idle) ⟨begun, progress⟩⟩
  | diffPanicked idle panics =>
      have panicked := begin_panicked h.content h.services panics .none outcomes
      exact ⟨[], mgr, ws, .nil, rfl, h.entered (idle_asks idle) ⟨.none, outcomes, panicked⟩⟩
  | @skipped r patch rest phase next none =>
      rw [phase] at standing
      obtain ⟨begun, progress⟩ := standing
      exact ⟨[], mgr, ws, .nil, rfl, h.entered (ReloadTask.asks_nothing phase next none)
        ⟨begun.moved _ _, progress.skipped h.servers next none⟩⟩
  | @asked r patch rest cmd threads phase next some step =>
      have tracks := step.keeps_track h.tracks (by simp)
      refine ⟨[], mgr, ws, .nil, rfl, h.content, h.services, h.listeners, h.servers, tracks, ?_,
        standing⟩
      intro cmd' asked
      cases step with
      | dispatch idle =>
          obtain rfl : cmd = cmd' := Option.some.inj asked
          exact ⟨r, patch, rest, phase, next, some⟩
  | @answered r patch rest cmd results threads phase next some step =>
      rw [phase] at standing
      obtain ⟨begun, progress⟩ := standing
      cases step with
      | returned feeding all =>
          obtain ⟨lost, factories, ws', dispatched, tracks⟩ := h.tracks.returned feeding all
          have answered := progress.answered h.listeners h.servers begun next some dispatched
          exact ⟨[], mgr, ws', .nil, rfl, h.content, h.services, h.listeners, h.servers, tracks,
            fun cmd' asked => absurd asked (Option.some_ne_none cmd').symm, answered⟩
  | @prepared r phase stage done =>
      rw [phase] at standing
      obtain ⟨begun, losses, outcomes, prepared, split, reached⟩ := standing
      rw [done, List.append_nil] at split
      rw [Reloading.Reached, stage, ← split] at reached
      exact ⟨[], mgr, ws, .nil, rfl, h.entered (ReloadTask.done_asks_nothing phase done)
        ⟨begun.moved _ _, losses, outcomes, [], rfl, ws, reached, rfl⟩⟩
  | @aborted r e phase stage done =>
      rw [phase] at standing
      obtain ⟨begun, losses, outcomes, aborted, split, reached⟩ := standing
      rw [done, List.append_nil] at split
      rw [Reloading.Reached, stage, ← split] at reached
      obtain ⟨prepared, failed, rfl⟩ := reached
      have performed : losingStep mgr (r.file.with outcomes, losses, .prepareFailed e) _ :=
        begun.prepareFailed failed
      exact ⟨_, _, _, .single performed, rfl, h.content, h.services, h.listeners, h.servers,
        h.tracks, fun cmd asked => absurd (h.asks cmd asked)
          (ReloadTask.done_asks_nothing phase done cmd), rfl⟩
  | @committed r phase stage done =>
      rw [phase] at standing
      obtain ⟨begun, losses, outcomes, committed, split, reached⟩ := standing
      rw [done, List.append_nil] at split
      rw [Reloading.Reached, stage, ← split] at reached
      obtain ⟨prepared, ready, reached⟩ := reached
      have performed : losingStep mgr (r.file.with outcomes, losses, .reloaded) _ :=
        begun.reloaded ready reached
      exact ⟨_, _, ws, .single performed, rfl, rfl, rfl, h.listeners, h.servers,
        h.tracks, fun cmd asked => absurd (h.asks cmd asked)
          (ReloadTask.done_asks_nothing phase done cmd), rfl⟩
  | moved step meanwhile =>
      have tracks := step.keeps_track h.tracks fun cmd results => (meanwhile cmd).2 results
      refine ⟨[], mgr, ws, .nil, rfl, h.content, h.services, h.listeners, h.servers, tracks,
        fun cmd asked => ?_, standing⟩
      exact h.asks cmd ((step.command_kept meanwhile).symm.trans asked)

theorem mirrored_run [Inhabited (Factories F LF S L SE LE)] {workerThreads : Nat}
    {listenerFactoryProvider : LC → LF} {serverFactoryProvider : SC → F}
    {tr : List (SystemEvent F LF S L SE LE LC SC IE PE)}
    (run : Run SystemStep (.start workerThreads listenerFactoryProvider serverFactoryProvider)
      tr s) :
    ∃ (performed : List (LosingAttempt F LF S L SE LE LC SC IE PE)) (mgr : _)
      (ws : List (Worker F S L)),
      Run losingStep (.new workerThreads listenerFactoryProvider serverFactoryProvider) performed
        mgr ∧ performed.map LosingAttempt.returned = attempts tr ∧ Mirrored mgr ws s := by
  induction run with
  | nil => exact ⟨[], _, _, .nil, rfl, .start ..⟩
  | snoc _ step ih =>
      obtain ⟨performed, mgr, ws, run, same, mirrored⟩ := ih
      obtain ⟨more, mgr', ws', run', same', mirrored'⟩ := step.mirrored mirrored
      refine ⟨performed ++ more, mgr', ws', run.append run', ?_, mirrored'⟩
      rw [List.map_append, attempts_append, same, same']

/-- However the manager and its worker threads interleave, whatever connections are accepted
meanwhile, and whichever threads panic: between two attempts the threads are where the same
attempts lead that each are one step, with the same results, and with workers lost in between.
The manager has panicked only where that one panics. -/
theorem reloads_linearized [Inhabited (Factories F LF S L SE LE)] {workerThreads : Nat}
    {listenerFactoryProvider : LC → LF} {serverFactoryProvider : SC → F}
    {tr : List (SystemEvent F LF S L SE LE LC SC IE PE)}
    (run : Run SystemStep (.start workerThreads listenerFactoryProvider serverFactoryProvider)
      tr s) :
    ∃ (performed : List (LosingAttempt F LF S L SE LE LC SC IE PE)) (mgr : _),
      Run losingStep (.new workerThreads listenerFactoryProvider serverFactoryProvider) performed
        mgr ∧ performed.map LosingAttempt.returned = attempts tr ∧
      mgr.onlineConfigContent = s.task.onlineConfigContent ∧
      mgr.onlineServices = s.task.onlineServices ∧
      (s.task.phase = .idle → ∃ gone : Nat → Bool, s.threads.workers.map WorkerThread.observed =
        mgr.workers.mapIdx fun i w => w.lose (gone i)) ∧
      ∀ file, s.task.phase = .panicked file → ∃ (losses : Losses)
        (outcomes : Outcomes F LF S L SE LE),
        mgr.reloadFileLosing losses (file.with outcomes) = none := by
  obtain ⟨performed, mgr, ws, run, same, mirrored⟩ := mirrored_run run
  have standing := mirrored.phase
  refine ⟨performed, mgr, run, same, mirrored.content, mirrored.services, fun idle => ?_,
    fun file panicked => ?_⟩
  · rw [idle] at standing
    obtain rfl : ws = mgr.workers := standing
    refine mirrored.tracks.observed ?_
    cases phase : s.threads.phase with
    | returned => rfl
    | feeding cmd results | awaiting cmd results rx =>
        have asks := mirrored.asks cmd (by rw [phase]; rfl)
        obtain ⟨r, patch, rest, reloading, -⟩ := asks
        simp [idle] at reloading
  · rwa [panicked] at standing

end

def fileOf (content : UInt8) (services : ServiceConfigMap Nat Nat) : FileAttempt Nat Nat Nat Nat :=
  { fileRead := .ok [content], parseServiceConfig := fun _ => .ok services, order := inOrder }

/-- A site is brought online, and a client connects before the manager knows of it. -/
theorem reload_with_connection :
    ∃ (tr : List (SystemEvent Nat Nat Nat Nat Nat Nat Nat Nat Nat Nat))
      (s : ReloadSystem Nat Nat Nat Nat Nat Nat Nat Nat Nat Nat),
      Run SystemStep (.start 1 id id) tr s ∧
      attempts tr = [(fileOf 1 firstSite, .reloaded)] ∧
      (s.threads.workers.map fun thread => thread.workerController.connections) =
        [[⟨0, ⟨0, 7, 7⟩⟩]] ∧
      ∃ (performed : List (LosingAttempt Nat Nat Nat Nat Nat Nat Nat Nat Nat Nat)) (mgr : _),
        Run losingStep (.new 1 id id) performed mgr ∧
        performed.map LosingAttempt.returned = [(fileOf 1 firstSite, .reloaded)] ∧
        mgr.onlineServices = firstSite := by
  let _ : Inhabited (Factories Nat Nat Nat Nat Nat Nat) := ⟨answering⟩
  have began : Run SystemStep
      (.start 1 id id : ReloadSystem Nat Nat Nat Nat Nat Nat Nat Nat Nat Nat)
      [.began (fileOf 1 firstSite)] _ := .single (.began rfl rfl)
  have asked := began.snoc (.asked rfl rfl rfl (.dispatch rfl))
  have fed := asked.snoc (.moved (.fed rfl rfl rfl (Nat.zero_le _)) (by simp))
  have taken := fed.snoc (.moved (.taken (i := 0) rfl rfl rfl) (by simp))
  have execution : threadStep (.new : ServiceExecutor Nat Nat Nat)
      (.executed answering (.precommit "web" 7) (.ok ()) _) _ := rfl
  have built := taken.snoc (.moved (.executed (i := 0) rfl rfl rfl execution) (by simp))
  have prepared := (built.snoc (.moved (.received rfl rfl) (by simp))).snoc
    (.answered rfl rfl rfl (.returned rfl rfl))
  have committing := (prepared.snoc (.prepared rfl rfl rfl)).snoc
    (.asked rfl rfl rfl (.dispatch rfl))
  have fed_again := committing.snoc (.moved (.fed rfl rfl rfl (Nat.zero_le _)) (by simp))
  have taken_again := fed_again.snoc (.moved (.taken (i := 0) rfl rfl rfl) (by simp))
  have deployment : threadStep (execute answering (.new : ServiceExecutor Nat Nat Nat)
      (.precommit "web" 7 : ServiceCommand Nat Nat)).executor
      (.executed answering (.commit "web" 80) (.ok ()) none) _ := rfl
  have deployed := taken_again.snoc (.moved (.executed (i := 0) rfl rfl rfl deployment) (by simp))
  have connected := deployed.snoc (.moved (.served (i := 0) rfl rfl
    (show threadStep _ (.served 0 (.accept (some (.ok ())))) _ from rfl)) (by simp))
  have committed := (connected.snoc (.moved (.received rfl rfl) (by simp))).snoc
    (.answered rfl rfl rfl (.returned rfl rfl))
  have run := committed.snoc (.committed rfl rfl rfl)
  obtain ⟨performed, mgr, atomic, same, -, services, -⟩ := reloads_linearized run
  exact ⟨_, _, run, rfl, rfl, performed, mgr, atomic, same, services⟩

end Monolake.Config
