import Monolake.Orchestrator.Serve
import Monolake.Orchestrator.WorkerManager

/-!
The worker manager and the threads of its workers, with what is between them: a queue of
tasks for each thread, and a oneshot channel for the result of each task. The manager
feeds a command to one worker after the other and awaits each result before it goes on.
Meanwhile the threads serve their connections, and each of them can panic.
-/
namespace Monolake.Orchestrator

universe u
variable {F LF S L SE LE : Type u}

/-- What a worker sends back, or the channels say. -/
abbrev CommandResult (SE LE : Type u) := Except (AnyError SE LE) Unit

/-- A oneshot channel, as the side that awaits it finds it. -/
inductive Oneshot (α : Type u) where
  | pending
  | sent (value : α)
  /-- The sender was dropped without a value. -/
  | canceled

/-- `result` addresses the channel whose sender the task holds. -/
structure ServiceCommandTask (F LF : Type u) where
  cmd : ServiceCommand F LF
  result : Nat

/-- A thread in `ServiceExecutor::run`: the tasks in its queue, and the one it executes.
There is no queue once the thread has panicked. -/
structure WorkerThread (F LF S L : Type u) where
  workerController : ServiceExecutor F S L
  rx : Option (List (ServiceCommandTask F LF))
  upd : Option (ServiceCommandTask F LF)

/-- Where `dispatch_service_command` is. The results so far are those of the first
workers, one for each. -/
inductive DispatchPhase (F LF SE LE : Type u) where
  | returned
  | feeding (cmd : ServiceCommand F LF) (results : List (CommandResult SE LE))
  | awaiting (cmd : ServiceCommand F LF) (results : List (CommandResult SE LE))
      (rx : Nat)

structure WorkerManager (F LF S L SE LE : Type u) where
  workers : List (WorkerThread F LF S L)
  oneshots : List (Oneshot (CommandResult SE LE))
  phase : DispatchPhase F LF SE LE

inductive ManagerEvent (F LF S L SE LE : Type u) where
  | dispatch (cmd : ServiceCommand F LF)
  | fed (worker : Nat)
  | feedFailed (worker : Nat)
  /-- The answer of `rx.await`. -/
  | answered (worker : Nat) (result : CommandResult SE LE)
  | returned (cmd : ServiceCommand F LF) (results : List (CommandResult SE LE))
  | taken (worker : Nat)
  | thread (worker : Nat) (event : Event F LF S L SE LE)
  | panicked (worker : Nat)

/-- `channel(128)`: a sender may feed while at most this many tasks are in the queue. -/
def channelBuffer : Nat := 128

/-- Dropping a task drops the sender of its result. -/
def dropTasks (oneshots : List (Oneshot (CommandResult SE LE)))
    (tasks : List (ServiceCommandTask F LF)) : List (Oneshot (CommandResult SE LE)) :=
  tasks.foldl (fun oneshots task => oneshots.set task.result .canceled) oneshots

namespace WorkerThread

def start : WorkerThread F LF S L := { workerController := .new, rx := some [], upd := none }

/-- The thread unwinds, and drops its queue. -/
def unwind (thread : WorkerThread F LF S L) : WorkerThread F LF S L :=
  { thread with rx := none, upd := none }

end WorkerThread

namespace WorkerManager

/-- The manager once its threads are spawned. -/
def start (workerThreads : Nat) : WorkerManager F LF S L SE LE :=
  { workers := List.replicate workerThreads .start, oneshots := [], phase := .returned }

def enter (s : WorkerManager F LF S L SE LE) (phase : DispatchPhase F LF SE LE) :
    WorkerManager F LF S L SE LE :=
  { s with phase }

/-- A thread has moved, and this is what the oneshot channels are after that. -/
def moved (s : WorkerManager F LF S L SE LE) (worker : Nat) (thread : WorkerThread F LF S L)
    (oneshots : List (Oneshot (CommandResult SE LE))) : WorkerManager F LF S L SE LE :=
  { s with workers := s.workers.set worker thread, oneshots }

end WorkerManager

inductive ManagerStep (s : WorkerManager F LF S L SE LE) :
    ManagerEvent F LF S L SE LE → WorkerManager F LF S L SE LE → Prop
  | dispatch {cmd} (phase : s.phase = .returned) :
      ManagerStep s (.dispatch cmd) (s.enter (.feeding cmd []))
  | fed {cmd results thread queue} (phase : s.phase = .feeding cmd results)
      (worker : s.workers[results.length]? = some thread) (opened : thread.rx = some queue)
      (room : queue.length ≤ channelBuffer) :
      ManagerStep s (.fed results.length)
        ((s.moved results.length
          { thread with rx := some (queue ++ [⟨cmd, s.oneshots.length⟩]) }
          (s.oneshots ++ [.pending])).enter (.awaiting cmd results s.oneshots.length))
  | feedFailed {cmd results thread} (phase : s.phase = .feeding cmd results)
      (worker : s.workers[results.length]? = some thread) (closed : thread.rx = none) :
      ManagerStep s (.feedFailed results.length)
        (s.enter (.feeding cmd (results ++ [.error .channelClosed])))
  | received {cmd results rx result} (phase : s.phase = .awaiting cmd results rx)
      (sent : s.oneshots[rx]? = some (.sent result)) :
      ManagerStep s (.answered results.length result)
        (s.enter (.feeding cmd (results ++ [result])))
  | canceled {cmd results rx} (phase : s.phase = .awaiting cmd results rx)
      (dropped : s.oneshots[rx]? = some .canceled) :
      ManagerStep s (.answered results.length (.error .channelClosed))
        (s.enter (.feeding cmd (results ++ [.error .channelClosed])))
  | returned {cmd results} (phase : s.phase = .feeding cmd results)
      (all : results.length = s.workers.length) :
      ManagerStep s (.returned cmd results) (s.enter .returned)
  | taken {i thread task queue} (worker : s.workers[i]? = some thread)
      (next : thread.rx = some (task :: queue)) (free : thread.upd = none) :
      ManagerStep s (.taken i)
        (s.moved i { thread with rx := some queue, upd := some task } s.oneshots)
  | executed {i thread task queue env result call controller}
      (worker : s.workers[i]? = some thread) (alive : thread.rx = some queue)
      (busy : thread.upd = some task)
      (step : threadStep thread.workerController (.executed env task.cmd result call) controller) :
      ManagerStep s (.thread i (.executed env task.cmd result call))
        (s.moved i { thread with workerController := controller, upd := none }
          (s.oneshots.set task.result (.sent (result.mapError .command))))
  | served {i thread queue loop selected controller} (worker : s.workers[i]? = some thread)
      (alive : thread.rx = some queue)
      (step : threadStep thread.workerController (.served loop selected : Event F LF S L SE LE)
        controller) :
      ManagerStep s (.thread i (.served loop selected))
        (s.moved i { thread with workerController := controller } s.oneshots)
  | panicked {i thread queue} (worker : s.workers[i]? = some thread)
      (alive : thread.rx = some queue) :
      ManagerStep s (.panicked i)
        (s.moved i thread.unwind (dropTasks s.oneshots (thread.upd.toList ++ queue)))

/-! The manager without threads: every dispatch is one step, and workers are lost between
dispatches only. -/

inductive BroadcastEvent (F LF S L SE LE : Type u) where
  | lost (gone : Nat → Bool)
  | dispatched (env : Nat → Factories F LF S L SE LE) (cmd : ServiceCommand F LF)
      (results : List (CommandResult SE LE))

def broadcastStep (workers : List (Worker F S L)) :
    BroadcastEvent F LF S L SE LE → List (Worker F S L) → Prop
  | .lost gone, workers' =>
      workers' = workers.mapIdx fun i w => { w with alive := w.alive && !gone i }
  | .dispatched env cmd results, workers' =>
      dispatchServiceCommand env cmd workers = (workers', results)

/-- The commands dispatched, with what their dispatches returned. -/
def returns (tr : List (ManagerEvent F LF S L SE LE)) :
    List (ServiceCommand F LF × List (CommandResult SE LE)) :=
  tr.filterMap fun
    | .returned cmd results => some (cmd, results)
    | _ => none

def broadcasts (tr : List (BroadcastEvent F LF S L SE LE)) :
    List (ServiceCommand F LF × List (CommandResult SE LE)) :=
  tr.filterMap fun
    | .dispatched _ cmd results => some (cmd, results)
    | .lost _ => none

@[simp] theorem returns_append (tr tr' : List (ManagerEvent F LF S L SE LE)) :
    returns (tr ++ tr') = returns tr ++ returns tr' := List.filterMap_append

@[simp] theorem broadcasts_append (tr tr' : List (BroadcastEvent F LF S L SE LE)) :
    broadcasts (tr ++ tr') = broadcasts tr ++ broadcasts tr' := List.filterMap_append

/-! What a command does not see of its thread. -/

/-- The executor as if its loops had not taken anything yet. -/
def ServiceExecutor.unserved (ex : ServiceExecutor F S L) : ServiceExecutor F S L :=
  { ex with loops := ex.loops.map fun lp => { lp with running := true }, connections := [] }

/-- A thread as its manager knows it. -/
def WorkerThread.observed (thread : WorkerThread F LF S L) : Worker F S L :=
  { executor := thread.workerController.unserved, alive := thread.rx.isSome }

namespace ServiceExecutor
variable (ex : ServiceExecutor F S L) (name : Name)

theorem unserved_updateWithPrecommittedSvc :
    ex.unserved.updateWithPrecommittedSvc name =
      ((ex.updateWithPrecommittedSvc name).1.unserved, (ex.updateWithPrecommittedSvc name).2) := by
  have sites : ex.unserved.sites name = ex.sites name := rfl
  simp only [updateWithPrecommittedSvc, sites]
  cases ex.sites name with
  | none => rfl
  | some sh =>
      obtain ⟨committed, staged⟩ := sh
      cases committed with
      | none => rfl
      | some hdr => cases staged <;> rfl

theorem unserved_deployStagedService :
    ex.unserved.deployStagedService name =
      ((ex.deployStagedService name).1.unserved, (ex.deployStagedService name).2) := by
  have sites : ex.unserved.sites name = ex.sites name := rfl
  simp only [deployStagedService, sites]
  cases ex.sites name with
  | none => rfl
  | some sh =>
      obtain ⟨committed, staged⟩ := sh
      cases staged with
      | none => rfl
      | some svc => cases committed <;> rfl

theorem unserved_remove :
    ex.unserved.remove name = ((ex.remove name).1.unserved, (ex.remove name).2) := by
  have sites : ex.unserved.sites name = ex.sites name := rfl
  simp only [remove, sites]
  cases ex.sites name with
  | none => rfl
  | some sh =>
      obtain ⟨committed, staged⟩ := sh
      cases committed <;> rfl

theorem unserved_abort :
    ex.unserved.abort name = ((ex.abort name).1.unserved, (ex.abort name).2) := by
  have sites : ex.unserved.sites name = ex.sites name := rfl
  simp only [abort, sites]
  cases ex.sites name <;> rfl

theorem unserved_deployAndServe (listener : L) :
    (deployAndServe ex.unserved name listener : _ × Except (CommandError SE LE) Unit) =
      ((deployAndServe ex name listener : _ × Except (CommandError SE LE) Unit).1.unserved,
        (deployAndServe ex name listener).2) := by
  simp only [deployAndServe, unserved_deployStagedService]
  rcases ex.deployStagedService name with ⟨ex', e | ⟨hdr, stop⟩⟩
  · rfl
  · simp [unserved, spawnServe]

end ServiceExecutor

open ServiceExecutor

/-- Connections make no difference to a command, and it none to them. -/
theorem execute_unserved (env : Factories F LF S L SE LE) (ex : ServiceExecutor F S L)
    (cmd : ServiceCommand F LF) :
    execute env ex.unserved cmd =
      ⟨(execute env ex cmd).executor.unserved, (execute env ex cmd).result,
        (execute env ex cmd).call⟩ := by
  cases cmd with
  | precommit name factory =>
      have current : ex.unserved.getSvc name = ex.getSvc name := rfl
      simp only [execute, current]
      cases env.makeViaRef factory ((ex.getSvc name).map (·.value)) <;> rfl
  | update name => simp only [execute, unserved_updateWithPrecommittedSvc]
  | commit name lf =>
      simp only [execute]
      cases env.makeListener lf with
      | error e => rfl
      | ok listener => simp only [unserved_deployAndServe]
  | prepareAndCommit name factory lf =>
      simp only [execute]
      cases env.makeViaRef factory none with
      | error e => rfl
      | ok value =>
          cases env.makeListener lf with
          | error e => rfl
          | ok listener =>
              exact congrArg
                (fun out : _ × Except (CommandError SE LE) Unit => Execution.mk out.1 out.2 _)
                (unserved_deployAndServe
                  ((ex.built factory value).1.precommitSvc name (ex.built factory value).2) name
                  listener)
  | abort name => simp only [execute, unserved_abort]
  | remove name => simp only [execute, unserved_remove]

theorem unserved_stopLoop (ex : ServiceExecutor F S L) (i : Nat) :
    (ex.stopLoop i).unserved = ex.unserved := by
  have same : (ex.loops.modify i fun lp => { lp with running := false }).map
        (fun lp => { lp with running := true }) =
      ex.loops.map fun lp => { lp with running := true } := by
    apply List.ext_getElem?
    intro j
    rw [List.getElem?_map, List.getElem?_map, List.getElem?_modify]
    cases ex.loops[j]? <;> simp [apply_ite]
  simp [unserved, stopLoop, same]

theorem serve_unserved {ex ex' : ServiceExecutor F S L} {loop : Nat} {selected : Selected}
    (h : serve ex loop selected = some ex') : ex'.unserved = ex.unserved := by
  obtain ⟨lp, -, -, ⟨-, -, rfl⟩ | ⟨-, rfl⟩ | ⟨e, -, rfl⟩ | ⟨a, svc, -, -, rfl⟩⟩ := serve_cases h
  · exact unserved_stopLoop ex loop
  · exact unserved_stopLoop ex loop
  · rfl
  · rfl

/-- What a step does to one thread. -/
theorem ManagerStep.thread_cases {s s' : WorkerManager F LF S L SE LE}
    {e : ManagerEvent F LF S L SE LE} (step : ManagerStep s e s') {i : Nat}
    {thread' : WorkerThread F LF S L} (h : s'.workers[i]? = some thread') :
    ∃ thread, s.workers[i]? = some thread ∧
      (thread'.workerController = thread.workerController ∨
      (∃ (task : ServiceCommandTask F LF) (env : Factories F LF S L SE LE) (result : _) (call : _),
        thread.upd = some task ∧ execute env thread.workerController task.cmd =
          ⟨thread'.workerController, result, call⟩) ∨
      ∃ loop selected,
        serve thread.workerController loop selected = some thread'.workerController) := by
  have moved : ∀ {j : Nat} {t : WorkerThread F LF S L},
      (s.workers.set j t)[i]? = some thread' →
        (i = j ∧ t = thread') ∨ s.workers[i]? = some thread' := by
    intro j t ht
    by_cases hij : j = i
    · subst hij
      have hlt : j < s.workers.length := by
        have hlt := (List.getElem?_eq_some_iff.mp ht).1
        rwa [List.length_set] at hlt
      rw [List.getElem?_set_self hlt] at ht
      exact .inl ⟨rfl, Option.some.inj ht⟩
    · rw [List.getElem?_set_ne hij] at ht
      exact .inr ht
  cases step with
  | dispatch | feedFailed | received | canceled | returned => exact ⟨thread', h, .inl rfl⟩
  | fed phase worker opened room =>
      rcases moved h with ⟨rfl, rfl⟩ | h
      · exact ⟨_, worker, .inl rfl⟩
      · exact ⟨_, h, .inl rfl⟩
  | taken worker next free =>
      rcases moved h with ⟨rfl, rfl⟩ | h
      · exact ⟨_, worker, .inl rfl⟩
      · exact ⟨_, h, .inl rfl⟩
  | @executed j thread task queue env result call controller worker alive busy step =>
      rcases moved h with ⟨rfl, rfl⟩ | h
      · exact ⟨_, worker, .inr (.inl ⟨task, env, result, call, busy, step⟩)⟩
      · exact ⟨_, h, .inl rfl⟩
  | @served j thread queue loop selected controller worker alive step =>
      rcases moved h with ⟨rfl, rfl⟩ | h
      · exact ⟨_, worker, .inr (.inr ⟨loop, selected, step⟩)⟩
      · exact ⟨_, h, .inl rfl⟩
  | panicked worker alive =>
      rcases moved h with ⟨rfl, rfl⟩ | h
      · exact ⟨_, worker, .inl rfl⟩
      · exact ⟨_, h, .inl rfl⟩

end Monolake.Orchestrator
