import Monolake.Config.LostWorkers

/-!
The manager as it is between two awaits. `reload_file` asks the worker threads one command
after the other; whenever it awaits an answer the threads go on: they execute the command,
accept connections, panic.
-/
namespace Monolake.Config

universe u
open Foundation Orchestrator

variable {F LF S L SE LE LC SC IE PE : Type u}

/-- What an attempt meets before it asks the first worker. -/
structure FileAttempt (LC SC IE PE : Type u) where
  fileRead : Except IE (List UInt8)
  parseServiceConfig : List UInt8 → Except PE (ServiceConfigMap LC SC)
  order : IterationOrder

/-- The attempt, when the factories of the workers answer like this. -/
def FileAttempt.with (file : FileAttempt LC SC IE PE) (outcomes : Outcomes F LF S L SE LE) :
    Attempt F LF S L SE LE LC SC IE PE :=
  { fileRead := file.fileRead, parseServiceConfig := file.parseServiceConfig
    order := file.order, outcomes }

def Attempt.file (attempt : Attempt F LF S L SE LE LC SC IE PE) : FileAttempt LC SC IE PE :=
  { fileRead := attempt.fileRead, parseServiceConfig := attempt.parseServiceConfig
    order := attempt.order }

/-- The loop of `reload_services` that is running. -/
inductive Stage (SE LE : Type u) where
  | preparing
  | aborting (e : AnyError SE LE)
  | committing

/-- A call of `reload_services`. The patches `rest` are still to be done in this stage. -/
structure Reloading (SE LE LC SC IE PE : Type u) where
  file : FileAttempt LC SC IE PE
  latestContent : List UInt8
  newServices : ServiceConfigMap LC SC
  patches : List (Patch LC SC)
  stage : Stage SE LE
  rest : List (Patch LC SC)

inductive TaskPhase (SE LE LC SC IE PE : Type u) where
  | idle
  | reloading (r : Reloading SE LE LC SC IE PE)
  | panicked (file : FileAttempt LC SC IE PE)

/-- The manager without its workers. -/
structure ReloadTask (F LF SE LE LC SC IE PE : Type u) where
  onlineConfigContent : List UInt8
  onlineServices : ServiceConfigMap LC SC
  listenerFactoryProvider : LC → LF
  serverFactoryProvider : SC → F
  phase : TaskPhase SE LE LC SC IE PE

namespace ReloadTask
variable (task : ReloadTask F LF SE LE LC SC IE PE)

def new (listenerFactoryProvider : LC → LF) (serverFactoryProvider : SC → F) :
    ReloadTask F LF SE LE LC SC IE PE :=
  { onlineConfigContent := [], onlineServices := ∅, listenerFactoryProvider,
    serverFactoryProvider, phase := .idle }

/-- `reload_file` up to its first dispatch, if it comes to `reload_services`. `none` is a
panic in `diff`. -/
def begin (file : FileAttempt LC SC IE PE) :
    Option (ReloadResult SE LE IE PE ⊕ Reloading SE LE LC SC IE PE) :=
  match file.fileRead with
  | .error e => some (.inl (.readFailed e))
  | .ok latestContent =>
      if task.onlineConfigContent = latestContent then some (.inl .unchanged)
      else
        match file.parseServiceConfig latestContent with
        | .error e => some (.inl (.parseFailed e))
        | .ok newServices =>
            (diff file.order task.onlineServices newServices).map fun patches =>
              .inr { file, latestContent, newServices, patches, stage := .preparing,
                     rest := patches }

/-- What the loop of a stage dispatches for a patch. -/
def command : Stage SE LE → Patch LC SC → Option (ServiceCommand F LF)
  | .preparing, .insert key _ serverConfig | .preparing, .update key serverConfig =>
      some (.precommit key (task.serverFactoryProvider serverConfig))
  | .preparing, .delete _ => none
  | .aborting _, .insert key _ _ | .aborting _, .update key _ => some (.abort key)
  | .aborting _, .delete _ => none
  | .committing, .insert key listenerConfig _ =>
      some (.commit key (task.listenerFactoryProvider listenerConfig))
  | .committing, .update key _ => some (.update key)
  | .committing, .delete key => some (.remove key)

def enter (phase : TaskPhase SE LE LC SC IE PE) : ReloadTask F LF SE LE LC SC IE PE :=
  { task with phase }

/-- `reload_file` after `reload_services` has returned `Ok`. -/
def replace (r : Reloading SE LE LC SC IE PE) : ReloadTask F LF SE LE LC SC IE PE :=
  { task with onlineConfigContent := r.latestContent, onlineServices := r.newServices
              phase := .idle }

end ReloadTask

/-- The results of the workers have come for the patch before `rest`. -/
def Reloading.answered (r : Reloading SE LE LC SC IE PE) (rest : List (Patch LC SC))
    (results : List (CommandResult SE LE)) : TaskPhase SE LE LC SC IE PE :=
  match r.stage with
  | .preparing =>
      match resultGroupErr results with
      | .error e => .reloading { r with stage := .aborting e, rest := r.patches }
      | .ok () => .reloading { r with rest }
  | .aborting _ => .reloading { r with rest }  -- errors are discarded
  | .committing =>
      match resultGroupErr results with
      | .error _ => .panicked r.file  -- `expect("config reload failed at commit stage")`
      | .ok () => .reloading { r with rest }

structure ReloadSystem (F LF S L SE LE LC SC IE PE : Type u) where
  task : ReloadTask F LF SE LE LC SC IE PE
  threads : WorkerManager F LF S L SE LE

inductive SystemEvent (F LF S L SE LE LC SC IE PE : Type u) where
  /-- `reload_file` has returned. -/
  | performed (file : FileAttempt LC SC IE PE) (result : ReloadResult SE LE IE PE)
  /-- It has come to `reload_services`. -/
  | began (file : FileAttempt LC SC IE PE)
  | panicked (file : FileAttempt LC SC IE PE)
  | skipped
  /-- All services are prepared, and the commit begins. -/
  | committing
  | threads (event : ManagerEvent F LF S L SE LE)

namespace ReloadSystem
variable (s : ReloadSystem F LF S L SE LE LC SC IE PE)

def start (workerThreads : Nat) (listenerFactoryProvider : LC → LF)
    (serverFactoryProvider : SC → F) : ReloadSystem F LF S L SE LE LC SC IE PE :=
  { task := .new listenerFactoryProvider serverFactoryProvider, threads := .start workerThreads }

def enter (phase : TaskPhase SE LE LC SC IE PE) : ReloadSystem F LF S L SE LE LC SC IE PE :=
  { s with task := s.task.enter phase }

end ReloadSystem

inductive SystemStep (s : ReloadSystem F LF S L SE LE LC SC IE PE) :
    SystemEvent F LF S L SE LE LC SC IE PE → ReloadSystem F LF S L SE LE LC SC IE PE → Prop
  | ended {file result} (idle : s.task.phase = .idle)
      (ends : s.task.begin file = some (.inl result)) :
      SystemStep s (.performed file result) s
  | began {file r} (idle : s.task.phase = .idle) (begins : s.task.begin file = some (.inr r)) :
      SystemStep s (.began file) (s.enter (.reloading r))
  | diffPanicked {file} (idle : s.task.phase = .idle) (panics : s.task.begin file = none) :
      SystemStep s (.panicked file) (s.enter (.panicked file))
  | skipped {r patch rest} (phase : s.task.phase = .reloading r) (next : r.rest = patch :: rest)
      (none : s.task.command r.stage patch = none) :
      SystemStep s .skipped (s.enter (.reloading { r with rest }))
  | asked {r patch rest cmd threads} (phase : s.task.phase = .reloading r)
      (next : r.rest = patch :: rest) (some : s.task.command r.stage patch = some cmd)
      (step : ManagerStep s.threads (.dispatch cmd) threads) :
      SystemStep s (.threads (.dispatch cmd)) { s with threads }
  | answered {r patch rest cmd results threads} (phase : s.task.phase = .reloading r)
      (next : r.rest = patch :: rest) (some : s.task.command r.stage patch = some cmd)
      (step : ManagerStep s.threads (.returned cmd results) threads) :
      SystemStep s (.threads (.returned cmd results))
        { task := s.task.enter (r.answered rest results), threads }
  | prepared {r} (phase : s.task.phase = .reloading r) (stage : r.stage = .preparing)
      (done : r.rest = []) :
      SystemStep s .committing
        (s.enter (.reloading { r with stage := .committing, rest := r.patches }))
  | aborted {r e} (phase : s.task.phase = .reloading r) (stage : r.stage = .aborting e)
      (done : r.rest = []) :
      SystemStep s (.performed r.file (.prepareFailed e)) (s.enter .idle)
  | committed {r} (phase : s.task.phase = .reloading r) (stage : r.stage = .committing)
      (done : r.rest = []) :
      SystemStep s (.performed r.file .reloaded) { s with task := s.task.replace r }
  /-- The manager is not called and does not return, but the threads may move at any time. -/
  | moved {event threads} (step : ManagerStep s.threads event threads)
      (meanwhile : ∀ cmd, event ≠ .dispatch cmd ∧ ∀ results, event ≠ .returned cmd results) :
      SystemStep s (.threads event) { s with threads }

/-- The attempts that have returned, with their results. -/
def attempts (tr : List (SystemEvent F LF S L SE LE LC SC IE PE)) :
    List (FileAttempt LC SC IE PE × ReloadResult SE LE IE PE) :=
  tr.filterMap fun
    | .performed file result => some (file, result)
    | _ => none

@[simp] theorem attempts_append (tr tr' : List (SystemEvent F LF S L SE LE LC SC IE PE)) :
    attempts (tr ++ tr') = attempts tr ++ attempts tr' := List.filterMap_append

end Monolake.Config
