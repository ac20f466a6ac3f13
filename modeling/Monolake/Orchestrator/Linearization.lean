import Monolake.Orchestrator.Channels

/-!
The threads and channels implement the atomic broadcast. A dispatch that returns can be
thought of as one step that asks all workers at once: what the manager reports for a
worker is what that worker did, or that its thread was lost before it could do it.
-/
namespace Monolake.Orchestrator

universe u
open Foundation ServiceExecutor

variable {F LF S L SE LE : Type u}

/-- A thread that has nothing to execute, and the worker it stands for. A thread can have
panicked since. -/
structure Stands (thread : WorkerThread F LF S L) (w : Worker F S L) : Prop where
  free : thread.upd = none
  queue : thread.rx = none ∨ thread.rx = some [] ∧ w.alive = true
  executor : w.executor = thread.workerController.unserved

/-- A worker for which a closed channel is reported had been lost before. -/
def lostBefore : CommandResult SE LE → Bool
  | .error .channelClosed => true
  | _ => false

def Worker.lose (w : Worker F S L) (gone : Bool) : Worker F S L :=
  { w with alive := w.alive && !gone }

section
variable {cmd : ServiceCommand F LF}

theorem lose_false (w : Worker F S L) : w.lose false = w := by
  cases w
  simp [Worker.lose]

theorem dispatch_alive (w : Worker F S L) (env : Factories F LF S L SE LE) :
    (w.dispatch env cmd).1.alive = w.alive := by
  rw [Worker.dispatch]
  split <;> rfl

/-- A worker that is left after the dispatch was not lost before it. -/
theorem lose_dispatch_alive {w : Worker F S L} {g : Bool} {env : Factories F LF S L SE LE}
    (alive : ((w.lose g).dispatch env cmd).1.alive = true) : w.alive = true ∧ w.lose g = w := by
  rw [dispatch_alive] at alive
  simp only [Worker.lose, Bool.and_eq_true, Bool.not_eq_true'] at alive
  obtain ⟨alive, rfl⟩ := alive
  exact ⟨alive, lose_false w⟩

end

/-- The thread has done what is reported of its worker. -/
def Asked (cmd : ServiceCommand F LF) (result : CommandResult SE LE)
    (thread : WorkerThread F LF S L) (w : Worker F S L) : Prop :=
  ∃ (env : Factories F LF S L SE LE) (w' : Worker F S L),
    (w.lose (lostBefore result)).dispatch env cmd = (w', result) ∧ Stands thread w'

/-- The thread has this task and no other. -/
structure Owes (task : ServiceCommandTask F LF) (thread : WorkerThread F LF S L)
    (w : Worker F S L) : Prop where
  alive : w.alive = true
  executor : w.executor = thread.workerController.unserved
  task : thread.rx = some [task] ∧ thread.upd = none ∨ thread.rx = some [] ∧ thread.upd = some task

/-- What the oneshot channel that is awaited says about the thread. -/
def Awaited (cmd : ServiceCommand F LF) (rx : Nat) (thread : WorkerThread F LF S L)
    (w : Worker F S L) : Oneshot (CommandResult SE LE) → Prop
  | .pending => Owes ⟨cmd, rx⟩ thread w
  | .sent result => Asked cmd result thread w
  | .canceled => thread.rx = none ∧ Stands thread w

/-- A thread and its worker as the last dispatch found it. -/
def Tracked (phase : DispatchPhase F LF SE LE)
    (oneshots : List (Oneshot (CommandResult SE LE))) (i : Nat)
    (thread : WorkerThread F LF S L) (w : Worker F S L) : Prop :=
  match phase with
  | .returned => Stands thread w
  | .feeding cmd results =>
      match results[i]? with
      | some result => Asked cmd result thread w
      | none => Stands thread w
  | .awaiting cmd results rx =>
      match results[i]? with
      | some result => Asked cmd result thread w
      | none =>
          if i = results.length then ∃ o, oneshots[rx]? = some o ∧ Awaited cmd rx thread w o
          else Stands thread w

def DispatchPhase.Within (workers : Nat) : DispatchPhase F LF SE LE → Prop
  | .returned => True
  | .feeding _ results => results.length ≤ workers
  | .awaiting _ results _ => results.length < workers

structure Tracks (s : WorkerManager F LF S L SE LE) (ws : List (Worker F S L)) : Prop where
  length : s.workers.length = ws.length
  within : s.phase.Within s.workers.length
  each : ∀ i thread w, s.workers[i]? = some thread → ws[i]? = some w →
    Tracked s.phase s.oneshots i thread w

theorem Stands.unwind {thread : WorkerThread F LF S L} {w : Worker F S L}
    (h : Stands thread w) : Stands thread.unwind w :=
  ⟨rfl, .inl rfl, h.executor⟩

/-- A worker whose thread is lost can be lost before it is asked. -/
theorem Stands.refused [Inhabited (Factories F LF S L SE LE)] {thread : WorkerThread F LF S L}
    {w : Worker F S L} (h : Stands thread w) (closed : thread.rx = none)
    (cmd : ServiceCommand F LF) :
    Asked cmd (.error .channelClosed : CommandResult SE LE) thread w := by
  refine ⟨default, w.lose true, ?_, h.free, .inl closed, h.executor⟩
  simp [Worker.dispatch, Worker.lose, lostBefore]

/-- The task is executed: the thread has done what it sends back. -/
theorem Owes.executed {task : ServiceCommandTask F LF} {thread : WorkerThread F LF S L}
    {w : Worker F S L} (h : Owes task thread w) (idle : thread.rx = some [])
    {env : Factories F LF S L SE LE} {result : Except (CommandError SE LE) Unit}
    {call : Option (FactoryCall F S)} {controller : ServiceExecutor F S L}
    (step : threadStep thread.workerController (.executed env task.cmd result call) controller) :
    Asked task.cmd (result.mapError .command)
      { thread with workerController := controller, upd := none } w := by
  have ran : execute env thread.workerController task.cmd = ⟨controller, result, call⟩ := step
  have kept : lostBefore (result.mapError .command : CommandResult SE LE) = false := by
    cases result <;> rfl
  refine ⟨env, { w with executor := controller.unserved }, ?_, rfl, .inr ⟨idle, h.alive⟩, rfl⟩
  simp only [Worker.dispatch, Worker.lose, kept, Bool.not_false, Bool.and_true, h.alive, if_true,
    h.executor, execute_unserved, ran]

theorem Asked.mono {cmd : ServiceCommand F LF} {result : CommandResult SE LE}
    {thread thread' : WorkerThread F LF S L} {w : Worker F S L} (h : Asked cmd result thread w)
    (stands : ∀ w', Stands thread w' → Stands thread' w') : Asked cmd result thread' w := by
  obtain ⟨env, w', ran, h⟩ := h
  exact ⟨env, w', ran, stands w' h⟩

/-- The worker whose result is awaited. -/
def DispatchPhase.awaited : DispatchPhase F LF SE LE → Option Nat
  | .awaiting _ results _ => some results.length
  | _ => none

/-- The command that the manager waits for. -/
def DispatchPhase.command : DispatchPhase F LF SE LE → Option (ServiceCommand F LF)
  | .returned => none
  | .feeding cmd _ | .awaiting cmd _ _ => some cmd

/-- It changes when the manager dispatches the next one, or a dispatch returns. -/
theorem ManagerStep.command_kept {s s' : WorkerManager F LF S L SE LE}
    {e : ManagerEvent F LF S L SE LE} (step : ManagerStep s e s')
    (meanwhile : ∀ cmd, e ≠ .dispatch cmd ∧ ∀ results, e ≠ .returned cmd results) :
    s'.phase.command = s.phase.command := by
  cases step with
  | dispatch phase => exact absurd rfl (meanwhile _).1
  | returned phase all => exact absurd rfl ((meanwhile _).2 _)
  | fed phase | feedFailed phase | received phase | canceled phase =>
      simp [WorkerManager.enter, DispatchPhase.command, phase]
  | taken | executed | served | panicked => rfl

section
variable {phase : DispatchPhase F LF SE LE}
  {oneshots oneshots' : List (Oneshot (CommandResult SE LE))} {i : Nat}
  {thread thread' : WorkerThread F LF S L} {w : Worker F S L}

theorem tracked_awaited {cmd : ServiceCommand F LF}
    {results : List (CommandResult SE LE)} {rx : Nat}
    {o : Oneshot (CommandResult SE LE)} (ho : oneshots[rx]? = some o)
    (h : Awaited cmd rx thread w o) :
    Tracked (.awaiting cmd results rx) oneshots results.length thread w := by
  simp only [Tracked, List.getElem?_eq_none (Nat.le_refl _), if_pos]
  exact ⟨o, ho, h⟩

/-- Only for the worker that is awaited do the oneshot channels matter. -/
theorem Tracked.elsewhere (h : Tracked phase oneshots i thread w)
    (other : phase.awaited ≠ some i) : Tracked phase oneshots' i thread w := by
  cases phase with
  | returned => exact h
  | feeding cmd results => exact h
  | awaiting cmd results rx =>
      simp only [Tracked] at h ⊢
      split at h
      · exact h
      · have hi : i ≠ results.length := fun hi => other (congrArg some hi.symm)
        rw [if_neg hi] at h ⊢
        exact h

/-- A thread with a task is the one that is awaited, and the task is for it. -/
theorem Tracked.busy (h : Tracked phase oneshots i thread w) (busy : ∀ w', ¬ Stands thread w') :
    ∃ cmd results rx, phase = .awaiting cmd results rx ∧ i = results.length ∧
      oneshots[rx]? = some .pending ∧ Owes ⟨cmd, rx⟩ thread w := by
  have unasked : ∀ cmd (result : CommandResult SE LE), ¬ Asked cmd result thread w := by
    rintro cmd result ⟨env, w', -, stands⟩
    exact busy w' stands
  cases phase with
  | returned => exact absurd h (busy w)
  | feeding cmd results =>
      simp only [Tracked] at h
      split at h
      · exact absurd h (unasked _ _)
      · exact absurd h (busy w)
  | awaiting cmd results rx =>
      simp only [Tracked] at h
      split at h
      · exact absurd h (unasked _ _)
      · split at h
        · rename_i hi
          obtain ⟨o, ho, awaited⟩ := h
          cases o with
          | pending => exact ⟨cmd, results, rx, rfl, hi, ho, awaited⟩
          | sent result => exact absurd awaited (unasked _ _)
          | canceled => exact absurd awaited.2 (busy w)
        · exact absurd h (busy w)

/-- A thread that has not panicked is as its worker was found, or has executed the command that
the manager waits for. -/
theorem Tracked.did (h : Tracked phase oneshots i thread w) (running : thread.rx ≠ none) :
    w.alive = true ∧ (w.executor = thread.workerController.unserved ∨
      ∃ (cmd : ServiceCommand F LF) (env : Factories F LF S L SE LE), phase.command = some cmd ∧
        (w.dispatch env cmd).1.executor = thread.workerController.unserved) := by
  have stood : ∀ {w}, Stands thread w → w.alive = true ∧
      w.executor = thread.workerController.unserved := fun stands =>
    ⟨(stands.queue.resolve_left running).2, stands.executor⟩
  have asked : ∀ {cmd} {result : CommandResult SE LE}, Asked cmd result thread w →
      w.alive = true ∧ ∃ env : Factories F LF S L SE LE,
        (w.dispatch env cmd).1.executor = thread.workerController.unserved := by
    rintro cmd result ⟨env, w', ran, stands⟩
    obtain ⟨alive, same⟩ := stood stands
    have left : w' = ((w.lose (lostBefore result)).dispatch env cmd).1 := by rw [ran]
    rw [left] at alive same
    obtain ⟨alive, kept⟩ := lose_dispatch_alive alive
    rw [kept] at same
    exact ⟨alive, env, same⟩
  cases phase with
  | returned => exact (stood h).imp_right .inl
  | feeding cmd results =>
      simp only [Tracked] at h
      split at h
      · obtain ⟨alive, env, same⟩ := asked h
        exact ⟨alive, .inr ⟨cmd, env, rfl, same⟩⟩
      · exact (stood h).imp_right .inl
  | awaiting cmd results rx =>
      simp only [Tracked] at h
      split at h
      · obtain ⟨alive, env, same⟩ := asked h
        exact ⟨alive, .inr ⟨cmd, env, rfl, same⟩⟩
      · split at h
        · obtain ⟨o, -, awaited⟩ := h
          cases o with
          | pending => exact ⟨awaited.alive, .inl awaited.executor⟩
          | sent result =>
              obtain ⟨alive, env, same⟩ := asked awaited
              exact ⟨alive, .inr ⟨cmd, env, rfl, same⟩⟩
          | canceled => exact absurd awaited.1 running
        · exact (stood h).imp_right .inl

/-- What a thread does on its own leaves it what it stands for. -/
theorem Tracked.mono (h : Tracked phase oneshots i thread w)
    (stands : ∀ w', Stands thread w' → Stands thread' w')
    (closed : thread.rx = none → thread'.rx = none)
    (owes : ∀ task, Owes task thread w → Owes task thread' w) :
    Tracked phase oneshots i thread' w := by
  cases phase with
  | returned => exact stands w h
  | feeding cmd results =>
      simp only [Tracked] at h ⊢
      split at h
      · exact h.mono stands
      · exact stands w h
  | awaiting cmd results rx =>
      simp only [Tracked] at h ⊢
      split at h
      · exact h.mono stands
      · split at h
        · rename_i hi
          rw [if_pos hi]
          obtain ⟨o, ho, awaited⟩ := h
          refine ⟨o, ho, ?_⟩
          cases o with
          | pending => exact owes _ awaited
          | sent result => exact Asked.mono awaited stands
          | canceled => exact ⟨closed awaited.1, stands w awaited.2⟩
        · rename_i hi
          rw [if_neg hi]
          exact stands w h

end

namespace Tracks
variable {s : WorkerManager F LF S L SE LE} {ws : List (Worker F S L)}

theorem start (workerThreads : Nat) :
    Tracks (.start workerThreads : WorkerManager F LF S L SE LE)
      (List.replicate workerThreads .start) := by
  refine ⟨by simp [WorkerManager.start], trivial, fun i thread w hthread hw => ?_⟩
  rw [List.eq_of_mem_replicate (List.mem_of_getElem? hthread),
    List.eq_of_mem_replicate (List.mem_of_getElem? hw)]
  exact ⟨rfl, .inr ⟨rfl, rfl⟩, rfl⟩

theorem worker (h : Tracks s ws) {i : Nat} {thread : WorkerThread F LF S L}
    (hthread : s.workers[i]? = some thread) :
    ∃ w, ws[i]? = some w ∧ Tracked s.phase s.oneshots i thread w := by
  have hlt := (List.getElem?_eq_some_iff.mp hthread).1
  rw [h.length] at hlt
  have hw : ws[i]? = some ws[i] := List.getElem?_eq_getElem hlt
  exact ⟨_, hw, h.each i thread _ hthread hw⟩

/-- A step of the manager alone. -/
theorem enter (h : Tracks s ws) {phase : DispatchPhase F LF SE LE}
    (within : phase.Within s.workers.length)
    (each : ∀ i thread w, s.workers[i]? = some thread → Tracked s.phase s.oneshots i thread w →
      Tracked phase s.oneshots i thread w) :
    Tracks (s.enter phase) ws :=
  ⟨h.length, within, fun i thread w ht hw => each i thread w ht (h.each i thread w ht hw)⟩

/-- A step of one thread. -/
theorem moved (h : Tracks s ws) {i : Nat} {thread thread' : WorkerThread F LF S L}
    {oneshots : List (Oneshot (CommandResult SE LE))}
    (worker : s.workers[i]? = some thread)
    (self : ∀ w, Tracked s.phase s.oneshots i thread w → Tracked s.phase oneshots i thread' w)
    (others : oneshots = s.oneshots ∨ s.phase.awaited = some i) :
    Tracks (s.moved i thread' oneshots) ws := by
  refine ⟨?_, ?_, fun j t w ht hw => ?_⟩
  · rw [← h.length]
    exact List.length_set
  · have within := h.within
    rwa [← List.length_set (i := i) (a := thread')] at within
  · change (s.workers.set i thread')[j]? = some t at ht
    by_cases hij : i = j
    · subst hij
      rw [List.getElem?_set_self (List.getElem?_eq_some_iff.mp worker).1] at ht
      obtain rfl := Option.some.inj ht
      exact self w (h.each i thread w worker hw)
    · rw [List.getElem?_set_ne hij] at ht
      have before := h.each j t w ht hw
      rcases others with rfl | awaited
      · exact before
      · exact before.elsewhere fun hj => hij (Option.some.inj (awaited.symm.trans hj))

end Tracks

section
variable {s s' : WorkerManager F LF S L SE LE} {ws : List (Worker F S L)}

/-- One answer more: it is what has become of the worker. -/
theorem Tracks.answered (h : Tracks s ws) {cmd : ServiceCommand F LF}
    {results : List (CommandResult SE LE)} {result : CommandResult SE LE}
    (unreturned : s.phase = .feeding cmd results ∨ ∃ rx, s.phase = .awaiting cmd results rx)
    (worker : results.length < s.workers.length)
    (asked : ∀ thread w, s.workers[results.length]? = some thread →
      Tracked s.phase s.oneshots results.length thread w → Asked cmd result thread w) :
    Tracks (s.enter (.feeding cmd (results ++ [result]))) ws := by
  have within : results.length + 1 ≤ s.workers.length := worker
  refine h.enter (by simpa [DispatchPhase.Within] using within) fun i thread w ht tracked => ?_
  simp only [Tracked, List.getElem?_append]
  by_cases hi : i < results.length
  · rw [if_pos hi, List.getElem?_eq_getElem hi]
    rcases unreturned with phase | ⟨rx, phase⟩ <;>
      simpa [Tracked, phase, List.getElem?_eq_getElem hi] using tracked
  · rw [if_neg hi]
    by_cases last : i = results.length
    · subst last
      simpa using asked thread w ht tracked
    · have beyond : [result][i - results.length]? = none :=
        List.getElem?_eq_none (by simp only [List.length_singleton]; omega)
      have unasked : results[i]? = none := List.getElem?_eq_none (by omega)
      rw [beyond]
      rcases unreturned with phase | ⟨rx, phase⟩
      · simpa [Tracked, phase, unasked] using tracked
      · simpa [Tracked, phase, unasked, last] using tracked

/-- A worker is fed: its queue was empty, and the task in it is now awaited. -/
theorem Tracks.fed (h : Tracks s ws) {cmd : ServiceCommand F LF}
    {results : List (CommandResult SE LE)} {thread : WorkerThread F LF S L}
    {queue : List (ServiceCommandTask F LF)} (phase : s.phase = .feeding cmd results)
    (worker : s.workers[results.length]? = some thread) (opened : thread.rx = some queue) :
    Tracks ((s.moved results.length
      { thread with rx := some (queue ++ [⟨cmd, s.oneshots.length⟩]) }
      (s.oneshots ++ [.pending])).enter (.awaiting cmd results s.oneshots.length)) ws := by
  refine ⟨?_, ?_, fun i t w ht hw => ?_⟩
  · rw [← h.length]
    exact List.length_set
  · simpa [WorkerManager.moved, WorkerManager.enter, DispatchPhase.Within] using
      (List.getElem?_eq_some_iff.mp worker).1
  · change (s.workers.set results.length _)[i]? = some t at ht
    by_cases hi : results.length = i
    · subst hi
      rw [List.getElem?_set_self (List.getElem?_eq_some_iff.mp worker).1] at ht
      obtain rfl := Option.some.inj ht
      have stands : Stands thread w := by
        simpa [Tracked, phase] using h.each _ thread w worker hw
      obtain ⟨rfl, alive⟩ : queue = [] ∧ w.alive = true := by simpa [opened] using stands.queue
      exact tracked_awaited List.getElem?_concat_length
        ⟨alive, stands.executor, .inl ⟨rfl, stands.free⟩⟩
    · rw [List.getElem?_set_ne hi] at ht
      have before := h.each i t w ht hw
      simp only [phase, Tracked] at before
      simp only [WorkerManager.enter, Tracked, if_neg (Ne.symm hi)]
      exact before

/-- A thread panics: the task that it has is answered by its closed channel. -/
theorem Tracks.panicked (h : Tracks s ws) {i : Nat} {thread : WorkerThread F LF S L}
    {queue : List (ServiceCommandTask F LF)} (worker : s.workers[i]? = some thread)
    (alive : thread.rx = some queue) :
    Tracks (s.moved i thread.unwind (dropTasks s.oneshots (thread.upd.toList ++ queue))) ws := by
  obtain ⟨w, -, tracked⟩ := h.worker worker
  by_cases idle : ∃ w', Stands thread w'
  · obtain ⟨w', stands⟩ := idle
    obtain ⟨rfl, -⟩ : queue = [] ∧ w'.alive = true := by simpa [alive] using stands.queue
    rw [stands.free]
    refine h.moved worker (fun w tracked => ?_) (.inl rfl)
    refine tracked.mono (fun _ stands => stands.unwind) (fun _ => rfl) fun task owes => ?_
    have task := owes.task
    simp [alive, stands.free] at task
  · have busy := not_exists.mp idle
    obtain ⟨cmd, results, rx, phase, rfl, pending, owes⟩ := tracked.busy busy
    have dropped : dropTasks s.oneshots (thread.upd.toList ++ queue) =
        s.oneshots.set rx .canceled := by
      rcases owes.task with ⟨queued, free⟩ | ⟨queued, taken⟩
      · obtain rfl := Option.some.inj (alive.symm.trans queued)
        rw [free]
        rfl
      · obtain rfl := Option.some.inj (alive.symm.trans queued)
        rw [taken]
        rfl
    rw [dropped]
    refine h.moved worker (fun w tracked => ?_) (.inr (by rw [phase]; rfl))
    obtain ⟨cmd', results', rx', phase', -, -, owes⟩ := tracked.busy busy
    have canceled : (s.oneshots.set rx .canceled)[rx]? = some .canceled :=
      List.getElem?_set_self (List.getElem?_eq_some_iff.mp pending).1
    rw [phase]
    exact tracked_awaited canceled ⟨rfl, rfl, .inl rfl, owes.executor⟩

/-- What is to be thought of a worker when its dispatch has returned. -/
def Accounts (cmd : ServiceCommand F LF) (result : CommandResult SE LE) (gone : Bool)
    (env : Factories F LF S L SE LE) (thread : WorkerThread F LF S L) (w : Worker F S L) : Prop :=
  ∃ w', (w.lose gone).dispatch env cmd = (w', result) ∧ Stands thread w'

/-- What is reported tells which workers were lost; how the factories of the others have
answered is found worker by worker. -/
theorem Tracks.accounts [Inhabited (Factories F LF S L SE LE)] (h : Tracks s ws)
    {cmd : ServiceCommand F LF} {results : List (CommandResult SE LE)}
    (phase : s.phase = .feeding cmd results) :
    ∃ (gone : Nat → Bool) (env : Nat → Factories F LF S L SE LE), ∀ (i : Nat) result thread w,
      results[i]? = some result → s.workers[i]? = some thread → ws[i]? = some w →
      Accounts cmd result (gone i) (env i) thread w := by
  have each : ∀ i : Nat, ∃ (gone : Bool) (env : Factories F LF S L SE LE), ∀ result thread w,
      results[i]? = some result → s.workers[i]? = some thread → ws[i]? = some w →
      Accounts cmd result gone env thread w := by
    intro i
    by_cases asked : ∃ result thread w, results[i]? = some result ∧
        s.workers[i]? = some thread ∧ ws[i]? = some w
    · obtain ⟨result, thread, w, hresult, hthread, hw⟩ := asked
      have tracked := h.each i thread w hthread hw
      simp only [phase, Tracked, hresult] at tracked
      obtain ⟨env, w', ran, stands⟩ := tracked
      refine ⟨lostBefore result, env, fun result' thread' w₁ hresult' hthread' hw₁ => ?_⟩
      obtain rfl := Option.some.inj (hresult.symm.trans hresult')
      obtain rfl := Option.some.inj (hthread.symm.trans hthread')
      obtain rfl := Option.some.inj (hw.symm.trans hw₁)
      exact ⟨w', ran, stands⟩
    · exact ⟨false, default, fun result thread w hresult hthread hw =>
        absurd ⟨result, thread, w, hresult, hthread, hw⟩ asked⟩
  choose gone env each using each
  exact ⟨gone, env, each⟩

theorem dispatch_results_getElem? (env : Nat → Factories F LF S L SE LE)
    (cmd : ServiceCommand F LF) (workers : List (Worker F S L)) (i : Nat) :
    (dispatchServiceCommand env cmd workers).2[i]? =
      workers[i]?.map fun w => (w.dispatch (env i) cmd).2 := by
  simp [dispatchServiceCommand, Function.comp_def]

/-- A dispatch that returns: the workers whose channels were closed are lost, and then all
are asked at once. -/
theorem Tracks.returned [Inhabited (Factories F LF S L SE LE)] (h : Tracks s ws)
    {cmd : ServiceCommand F LF} {results : List (CommandResult SE LE)}
    (phase : s.phase = .feeding cmd results) (all : results.length = s.workers.length) :
    ∃ (gone : Nat → Bool) (env : Nat → Factories F LF S L SE LE) (ws' : List (Worker F S L)),
      dispatchServiceCommand env cmd (ws.mapIdx fun i w => w.lose (gone i)) = (ws', results) ∧
      Tracks (s.enter .returned) ws' := by
  obtain ⟨gone, env, accounts⟩ := h.accounts phase
  let left : List (Worker F S L) := ws.mapIdx fun i w => w.lose (gone i)
  have left_at : ∀ i, left[i]? = ws[i]?.map fun w : Worker F S L => w.lose (gone i) := fun i =>
    List.getElem?_mapIdx
  have answers : (dispatchServiceCommand env cmd left).2 = results := by
    apply List.ext_getElem?
    intro i
    rw [dispatch_results_getElem?, left_at, Option.map_map]
    cases hw : ws[i]? with
    | none =>
        rw [List.getElem?_eq_none_iff, ← h.length, ← all] at hw
        rw [List.getElem?_eq_none hw]
        rfl
    | some w =>
        have hlt := (List.getElem?_eq_some_iff.mp hw).1
        rw [← h.length] at hlt
        have ht := List.getElem?_eq_getElem hlt
        rw [← all] at hlt
        have hr := List.getElem?_eq_getElem hlt
        obtain ⟨w', ran, -⟩ := accounts i _ _ w hr ht hw
        rw [hr]
        exact congrArg (fun out => some out.2) ran
  refine ⟨gone, env, (dispatchServiceCommand env cmd left).1, Prod.ext rfl answers, ?_, trivial,
    fun i thread w' ht hw' => ?_⟩
  · rw [dispatch_length, List.length_mapIdx]
    exact h.length
  · rw [dispatch_getElem?, left_at, Option.map_map] at hw'
    obtain ⟨w, hw, rfl⟩ := Option.map_eq_some_iff.mp hw'
    have hlt : i < s.workers.length := (List.getElem?_eq_some_iff.mp ht).1
    rw [← all] at hlt
    obtain ⟨w', ran, stands⟩ := accounts i _ thread w (List.getElem?_eq_getElem hlt) ht hw
    have same : ((w.lose (gone i)).dispatch (env i) cmd).1 = w' := congrArg Prod.fst ran
    change Stands thread ((w.lose (gone i)).dispatch (env i) cmd).1
    rwa [same]

/-- Every step of the threads and channels but the return of a dispatch leaves the workers
as the last dispatch found them. -/
theorem ManagerStep.keeps_track [Inhabited (Factories F LF S L SE LE)]
    {e : ManagerEvent F LF S L SE LE} (h : Tracks s ws) (step : ManagerStep s e s')
    (unreturned : ∀ cmd results, e ≠ .returned cmd results) : Tracks s' ws := by
  cases step with
  | returned phase all => exact absurd rfl (unreturned _ _)
  | dispatch phase =>
      refine h.enter (Nat.zero_le _) fun i thread w _ tracked => ?_
      simpa [Tracked, phase] using tracked
  | fed phase worker opened room => exact h.fed phase worker opened
  | @feedFailed cmd results thread phase worker closed =>
      have hlt := (List.getElem?_eq_some_iff.mp worker).1
      refine h.answered (.inl phase) hlt fun t w ht tracked => ?_
      obtain rfl := Option.some.inj (worker.symm.trans ht)
      have stands : Stands thread w := by simpa [Tracked, phase] using tracked
      exact stands.refused closed cmd
  | @received cmd results rx result phase sent =>
      have hlt : results.length < s.workers.length := by
        simpa [phase, DispatchPhase.Within] using h.within
      refine h.answered (.inr ⟨rx, phase⟩) hlt fun t w ht tracked => ?_
      obtain ⟨o, ho, awaited⟩ : ∃ o, s.oneshots[rx]? = some o ∧ Awaited cmd rx t w o := by
        simpa [Tracked, phase] using tracked
      obtain rfl := Option.some.inj (sent.symm.trans ho)
      exact awaited
  | @canceled cmd results rx phase dropped =>
      have hlt : results.length < s.workers.length := by
        simpa [phase, DispatchPhase.Within] using h.within
      refine h.answered (.inr ⟨rx, phase⟩) hlt fun t w ht tracked => ?_
      obtain ⟨o, ho, awaited⟩ : ∃ o, s.oneshots[rx]? = some o ∧ Awaited cmd rx t w o := by
        simpa [Tracked, phase] using tracked
      obtain rfl := Option.some.inj (dropped.symm.trans ho)
      exact awaited.2.refused awaited.1 cmd
  | @taken i thread task queue worker next free =>
      refine h.moved worker (fun w tracked => ?_) (.inl rfl)
      have busy : ∀ w', ¬ Stands thread w' := fun w' stands => by
        have queue := stands.queue
        simp [next] at queue
      obtain ⟨cmd, results, rx, phase, rfl, pending, owes⟩ := tracked.busy busy
      have owed : task = ⟨cmd, rx⟩ ∧ queue = [] := by simpa [next, free] using owes.task
      rw [phase]
      refine tracked_awaited pending ⟨owes.alive, owes.executor, .inr ⟨?_, ?_⟩⟩
      · exact congrArg some owed.2
      · exact congrArg some owed.1
  | @executed i thread task queue env result call controller worker alive busy step =>
      have unfree : ∀ w', ¬ Stands thread w' := fun w' stands => by
        have free := stands.free
        simp [busy] at free
      obtain ⟨w, -, tracked⟩ := h.worker worker
      obtain ⟨cmd, results, rx, phase, rfl, pending, owes⟩ := tracked.busy unfree
      obtain ⟨idle, rfl⟩ : thread.rx = some [] ∧ task = ⟨cmd, rx⟩ := by
        simpa [busy] using owes.task
      refine h.moved worker (fun w tracked => ?_) (.inr (by rw [phase]; rfl))
      obtain ⟨cmd', results', rx', phase', -, -, owes⟩ := tracked.busy unfree
      obtain ⟨rfl, rfl, rfl⟩ : cmd = cmd' ∧ results = results' ∧ rx = rx' := by
        simpa [phase] using phase'
      have answered : (s.oneshots.set rx (.sent (result.mapError .command)))[rx]? =
          some (.sent (result.mapError .command)) :=
        List.getElem?_set_self (List.getElem?_eq_some_iff.mp pending).1
      rw [phase]
      exact tracked_awaited answered (owes.executed idle step)
  | @served i thread queue loop selected controller worker alive step =>
      refine h.moved worker (fun w tracked => ?_) (.inl rfl)
      have same := serve_unserved step
      refine tracked.mono (fun w' stands => ⟨stands.free, stands.queue, ?_⟩) id fun task owes =>
        ⟨owes.alive, ?_, owes.task⟩
      · exact stands.executor.trans same.symm
      · exact owes.executor.trans same.symm
  | @panicked i thread queue worker alive =>
      exact h.panicked worker alive

theorem ManagerStep.tracks [Inhabited (Factories F LF S L SE LE)]
    {e : ManagerEvent F LF S L SE LE} (h : Tracks s ws) (step : ManagerStep s e s') :
    ∃ abs ws', Run broadcastStep ws abs ws' ∧ broadcasts abs = returns [e] ∧ Tracks s' ws' := by
  by_cases unreturned : ∀ cmd results, e ≠ .returned cmd results
  · have nothing : returns [e] = [] := by
      cases e with
      | returned cmd results => exact absurd rfl (unreturned cmd results)
      | _ => rfl
    exact ⟨[], ws, .nil, nothing.symm, step.keeps_track h unreturned⟩
  · push Not at unreturned
    obtain ⟨cmd, results, rfl⟩ := unreturned
    cases step with
    | returned phase all =>
        obtain ⟨gone, env, ws', ran, tracks⟩ := h.returned phase all
        exact ⟨[.lost gone, .dispatched env cmd results], ws', .cons rfl (.single ran), rfl, tracks⟩

theorem tracks_run [Inhabited (Factories F LF S L SE LE)] {workerThreads : Nat}
    {tr : List (ManagerEvent F LF S L SE LE)} (h : Run ManagerStep (.start workerThreads) tr s) :
    ∃ abs ws, Run broadcastStep (List.replicate workerThreads .start) abs ws ∧
      broadcasts abs = returns tr ∧ Tracks s ws := by
  induction h with
  | nil => exact ⟨[], _, .nil, rfl, .start workerThreads⟩
  | snoc _ step ih =>
      obtain ⟨abs, ws, run, same, tracks⟩ := ih
      obtain ⟨abs', ws', run', same', tracks'⟩ := step.tracks tracks
      refine ⟨abs ++ abs', ws', run.append run', ?_, tracks'⟩
      rw [broadcasts_append, returns_append, same, same']

/-- Between dispatches the threads show the workers, but for those that were lost since. -/
theorem Tracks.observed (h : Tracks s ws) (idle : s.phase = .returned) :
    ∃ gone : Nat → Bool,
      s.workers.map WorkerThread.observed = ws.mapIdx fun i w => w.lose (gone i) := by
  refine ⟨fun i => (s.workers[i]?.map fun thread => thread.rx.isNone).getD false, ?_⟩
  apply List.ext_getElem?
  intro i
  rw [List.getElem?_map, List.getElem?_mapIdx]
  cases ht : s.workers[i]? with
  | none =>
      rw [List.getElem?_eq_none_iff, h.length] at ht
      rw [List.getElem?_eq_none ht]
      rfl
  | some thread =>
      obtain ⟨w, hw, tracked⟩ := h.worker ht
      rw [idle] at tracked
      obtain ⟨free, queue, executor⟩ := (tracked : Stands thread w)
      rw [hw]
      simp only [Option.map_some]
      refine congrArg some ?_
      rcases queue with closed | ⟨opened, alive⟩
      · simp [WorkerThread.observed, Worker.lose, ht, closed, executor]
      · simp [WorkerThread.observed, Worker.lose, ht, opened, executor, alive]

/-- Whatever the threads do meanwhile, and however many of them panic: when no dispatch is
in progress, the manager and its threads are where atomic dispatches lead, with the same
commands and the same results, and with workers lost in between. -/
theorem broadcast_linearized [Inhabited (Factories F LF S L SE LE)] {workerThreads : Nat}
    {tr : List (ManagerEvent F LF S L SE LE)} (h : Run ManagerStep (.start workerThreads) tr s)
    (idle : s.phase = .returned) :
    ∃ abs, Run broadcastStep (List.replicate workerThreads .start) abs
      (s.workers.map WorkerThread.observed) ∧ broadcasts abs = returns tr := by
  obtain ⟨abs, ws, run, same, tracks⟩ := tracks_run h
  obtain ⟨gone, observed⟩ := tracks.observed idle
  have lost : broadcastStep ws (.lost gone : BroadcastEvent F LF S L SE LE)
      (s.workers.map WorkerThread.observed) := observed
  refine ⟨abs ++ [.lost gone], run.append (.single lost), ?_⟩
  rw [broadcasts_append, same]
  exact List.append_nil _

end

/-- Two workers: the first builds the service, the second panics over it. -/
theorem broadcast_linearized_panic :
    ∃ (tr : List (ManagerEvent Nat Nat Nat Nat Nat Nat))
      (s : WorkerManager Nat Nat Nat Nat Nat Nat),
      Run ManagerStep (.start 2) tr s ∧
      returns tr = [(.precommit "web" 7, [.ok (), .error .channelClosed])] ∧
      ∃ abs, Run broadcastStep (List.replicate 2 .start) abs
        (s.workers.map WorkerThread.observed) ∧ broadcasts abs = returns tr := by
  let _ : Inhabited (Factories Nat Nat Nat Nat Nat Nat) := ⟨answering⟩
  have started : Run ManagerStep (.start 2 : WorkerManager Nat Nat Nat Nat Nat Nat)
      [.dispatch (.precommit "web" 7)] _ := .single (.dispatch rfl)
  have asked := (started.snoc (.fed rfl rfl rfl (Nat.zero_le _))).snoc (.taken (i := 0) rfl rfl rfl)
  have execution : threadStep (.new : ServiceExecutor Nat Nat Nat)
      (.executed answering (.precommit "web" 7) (.ok ()) _) _ := rfl
  have built := asked.snoc (.executed (i := 0) rfl rfl rfl execution)
  have answered := built.snoc (.received rfl rfl)
  have asked_again := answered.snoc (.fed rfl rfl rfl (Nat.zero_le _))
  have taken := asked_again.snoc (.taken (i := 1) rfl rfl rfl)
  have lost := (taken.snoc (.panicked (i := 1) rfl rfl)).snoc (.canceled rfl rfl)
  have run := lost.snoc (.returned rfl rfl)
  exact ⟨_, _, run, rfl, broadcast_linearized run rfl⟩

end Monolake.Orchestrator
