import Monolake.Orchestrator.Linearization

/-!
Every dispatch returns. A measure bounds the steps that are left of it, whatever the threads
do and whether they panic; and there is always such a step, since no queue is ever full and
no oneshot channel is left without a sender.
-/
namespace Monolake.Orchestrator

universe u
open Foundation ServiceExecutor

variable {F LF S L SE LE : Type u}

/-- The steps that belong to a dispatch, at the manager or at a thread. -/
def drives : ManagerEvent F LF S L SE LE → Bool
  | .fed _ | .feedFailed _ | .answered _ _ | .returned _ _ | .taken _ => true
  | .thread _ (.executed _ _ _ _) => true
  | .thread _ (.served _ _) | .dispatch _ | .panicked _ => false

def isDispatch : ManagerEvent F LF S L SE LE → Bool
  | .dispatch _ => true
  | _ => false

/-- How many steps at most until the result of a task is received. -/
def answerSteps (thread : Option (WorkerThread F LF S L)) :
    Option (Oneshot (CommandResult SE LE)) → Nat
  | some .pending => if (thread.bind (·.upd)).isSome then 2 else 3
  | _ => 1

/-- How many steps at most until the dispatch returns: four for each worker that has not been
fed. -/
def WorkerManager.remaining (s : WorkerManager F LF S L SE LE) : Nat :=
  match s.phase with
  | .returned => 0
  | .feeding _ results => 4 * (s.workers.length - results.length) + 1
  | .awaiting _ results rx =>
      4 * (s.workers.length - (results.length + 1)) + 1 +
        answerSteps s.workers[results.length]? s.oneshots[rx]?

/-- What the tasks of a thread come to. -/
def WorkerThread.tasks (thread : WorkerThread F LF S L) : List (ServiceCommandTask F LF) :=
  thread.upd.toList ++ thread.rx.getD []

theorem Stands.no_tasks {thread : WorkerThread F LF S L} {w : Worker F S L}
    (h : Stands thread w) : thread.tasks = [] := by
  rcases h.queue with closed | ⟨opened, -⟩
  · simp [WorkerThread.tasks, h.free, closed]
  · simp [WorkerThread.tasks, h.free, opened]

theorem Owes.one_task {task : ServiceCommandTask F LF} {thread : WorkerThread F LF S L}
    {w : Worker F S L} (h : Owes task thread w) : thread.tasks = [task] := by
  rcases h.task with ⟨queued, free⟩ | ⟨queued, taken⟩
  · simp [WorkerThread.tasks, queued, free]
  · simp [WorkerThread.tasks, queued, taken]

theorem answerSteps_pos (thread : Option (WorkerThread F LF S L))
    (o : Option (Oneshot (CommandResult SE LE))) : 1 ≤ answerSteps thread o := by
  unfold answerSteps
  split
  · split <;> omega
  · exact Nat.le_refl 1

theorem answerSteps_le (thread : Option (WorkerThread F LF S L))
    (o : Option (Oneshot (CommandResult SE LE))) : answerSteps thread o ≤ 3 := by
  unfold answerSteps
  split
  · split <;> omega
  · omega

section
variable {s s' : WorkerManager F LF S L SE LE} {ws : List (Worker F S L)}

/-- A thread has a task only while the dispatch awaits its result. -/
theorem Tracks.tasks (h : Tracks s ws) {i : Nat} {thread : WorkerThread F LF S L}
    (worker : s.workers[i]? = some thread) :
    thread.tasks = [] ∨ ∃ cmd results rx w, s.phase = .awaiting cmd results rx ∧
      i = results.length ∧ s.oneshots[rx]? = some .pending ∧ Owes ⟨cmd, rx⟩ thread w := by
  obtain ⟨w, -, tracked⟩ := h.worker worker
  by_cases idle : ∃ w', Stands thread w'
  · obtain ⟨w', stands⟩ := idle
    exact .inl stands.no_tasks
  · obtain ⟨cmd, results, rx, phase, hi, pending, owes⟩ := tracked.busy (not_exists.mp idle)
    exact .inr ⟨cmd, results, rx, w, phase, hi, pending, owes⟩

theorem Tracks.tasks_le_one (h : Tracks s ws) {thread : WorkerThread F LF S L}
    (mem : thread ∈ s.workers) : thread.tasks.length ≤ 1 := by
  obtain ⟨i, worker⟩ := List.mem_iff_getElem?.mp mem
  rcases h.tasks worker with none | ⟨cmd, results, rx, w, -, -, -, owes⟩
  · simp [none]
  · simp [owes.one_task]

/-- The thread whose result is awaited. -/
theorem Tracks.awaited (h : Tracks s ws) {cmd : ServiceCommand F LF}
    {results : List (CommandResult SE LE)} {rx : Nat} (phase : s.phase = .awaiting cmd results rx) :
    ∃ thread w o, s.workers[results.length]? = some thread ∧ s.oneshots[rx]? = some o ∧
      Awaited cmd rx thread w o := by
  have hlt : results.length < s.workers.length := by
    simpa [phase, DispatchPhase.Within] using h.within
  have worker := List.getElem?_eq_getElem hlt
  obtain ⟨w, -, tracked⟩ := h.worker worker
  obtain ⟨o, ho, awaited⟩ : ∃ o, s.oneshots[rx]? = some o ∧ Awaited cmd rx _ w o := by
    simpa [Tracked, phase] using tracked
  exact ⟨_, w, o, worker, ho, awaited⟩

/-- No matter where a dispatch is, one of its steps can be taken. -/
theorem Tracks.drives [Inhabited (Factories F LF S L SE LE)] (h : Tracks s ws)
    (unreturned : s.phase ≠ .returned) :
    ∃ e s', Orchestrator.drives e = true ∧ ManagerStep s e s' := by
  cases phase : s.phase with
  | returned => exact absurd phase unreturned
  | feeding cmd results =>
      have within : results.length ≤ s.workers.length := by
        simpa [phase, DispatchPhase.Within] using h.within
      rcases Nat.lt_or_eq_of_le within with hlt | all
      · have worker := List.getElem?_eq_getElem hlt
        cases opened : (s.workers[results.length]).rx with
        | none => exact ⟨_, _, rfl, .feedFailed phase worker opened⟩
        | some queue =>
            have few := h.tasks_le_one (List.mem_of_getElem? worker)
            have room : queue.length ≤ channelBuffer := by
              simp only [WorkerThread.tasks, opened, Option.getD_some, List.length_append] at few
              simp only [channelBuffer]
              omega
            exact ⟨_, _, rfl, .fed phase worker opened room⟩
      · exact ⟨_, _, rfl, .returned phase all⟩
  | awaiting cmd results rx =>
      obtain ⟨thread, w, o, worker, ho, awaited⟩ := h.awaited phase
      cases o with
      | pending =>
          rcases awaited.task with ⟨queued, free⟩ | ⟨queued, taken⟩
          · exact ⟨_, _, rfl, .taken worker queued free⟩
          · have execution : threadStep thread.workerController (.executed default cmd
                (execute default thread.workerController cmd).result
                (execute default thread.workerController cmd).call : Event F LF S L SE LE)
                (execute default thread.workerController cmd).executor := rfl
            exact ⟨_, _, rfl, .executed worker queued taken execution⟩
      | sent result => exact ⟨_, _, rfl, .received phase ho⟩
      | canceled => exact ⟨_, _, rfl, .canceled phase ho⟩

section
variable {cmd : ServiceCommand F LF} {results : List (CommandResult SE LE)} {rx : Nat}

theorem WorkerManager.remaining_feeding (phase : s.phase = .feeding cmd results) :
    s.remaining = 4 * (s.workers.length - results.length) + 1 := by
  simp only [remaining, phase]

theorem WorkerManager.remaining_awaiting (phase : s.phase = .awaiting cmd results rx) :
    s.remaining = 4 * (s.workers.length - (results.length + 1)) + 1 +
      answerSteps s.workers[results.length]? s.oneshots[rx]? := by
  simp only [remaining, phase]

theorem WorkerManager.remaining_awaiting_le (phase : s.phase = .awaiting cmd results rx) :
    s.remaining ≤ 4 * (s.workers.length - (results.length + 1)) + 4 := by
  have few := answerSteps_le s.workers[results.length]? s.oneshots[rx]?
  rw [remaining_awaiting phase]
  omega

end

/-- Only what becomes of the awaited task counts. -/
theorem WorkerManager.remaining_moved {i : Nat} {thread : WorkerThread F LF S L}
    {oneshots : List (Oneshot (CommandResult SE LE))}
    (kept : ∀ cmd results rx, s.phase = .awaiting cmd results rx →
      answerSteps (s.workers.set i thread)[results.length]? oneshots[rx]? ≤
        answerSteps s.workers[results.length]? s.oneshots[rx]?) :
    (s.moved i thread oneshots).remaining ≤ s.remaining := by
  cases phase : s.phase with
  | returned => simp [remaining, moved, phase]
  | feeding cmd results => simp [remaining, moved, phase]
  | awaiting cmd results rx =>
      have kept := kept cmd results rx phase
      simp only [remaining, moved, phase, List.length_set]
      omega

/-- A thread that keeps its task, or has none, leaves the dispatch where it is. -/
theorem WorkerManager.remaining_same {i : Nat} {thread : WorkerThread F LF S L}
    (worker : s.workers[i]? = some thread) (thread' : WorkerThread F LF S L)
    (upd : thread'.upd = thread.upd) :
    (s.moved i thread' s.oneshots).remaining ≤ s.remaining := by
  refine remaining_moved fun cmd results rx _ => Nat.le_of_eq ?_
  have same : (s.workers.set i thread')[results.length]?.bind (·.upd) =
      s.workers[results.length]?.bind (·.upd) := by
    by_cases hi : i = results.length
    · rw [← hi, List.getElem?_set_self (List.getElem?_eq_some_iff.mp worker).1, worker]
      exact upd
    · rw [List.getElem?_set_ne hi]
  simp only [answerSteps, same]

/-- The thread whose result is awaited goes on with its task. -/
theorem WorkerManager.remaining_less {cmd : ServiceCommand F LF}
    {results : List (CommandResult SE LE)} {rx : Nat} {thread : WorkerThread F LF S L}
    (phase : s.phase = .awaiting cmd results rx)
    (worker : s.workers[results.length]? = some thread) (thread' : WorkerThread F LF S L)
    (oneshots : List (Oneshot (CommandResult SE LE)))
    (less : answerSteps (some thread') oneshots[rx]? < answerSteps (some thread) s.oneshots[rx]?) :
    (s.moved results.length thread' oneshots).remaining < s.remaining := by
  have moved : (s.workers.set results.length thread')[results.length]? = some thread' :=
    List.getElem?_set_self (List.getElem?_eq_some_iff.mp worker).1
  simp only [remaining, WorkerManager.moved, phase, List.length_set, moved, worker]
  omega

theorem Tracks.panicked_remaining (h : Tracks s ws) {i : Nat} {thread : WorkerThread F LF S L}
    {queue : List (ServiceCommandTask F LF)} (worker : s.workers[i]? = some thread)
    (alive : thread.rx = some queue) :
    (s.moved i thread.unwind
      (dropTasks s.oneshots (thread.upd.toList ++ queue))).remaining ≤ s.remaining := by
  have tasks : thread.upd.toList ++ queue = thread.tasks := by simp [WorkerThread.tasks, alive]
  rw [tasks]
  rcases h.tasks worker with free | ⟨cmd, results, rx, w, phase, rfl, pending, owes⟩
  · have upd : thread.upd = none := by simpa using (List.append_eq_nil_iff.mp free).1
    rw [free]
    exact WorkerManager.remaining_same worker thread.unwind upd.symm
  · rw [owes.one_task]
    refine WorkerManager.remaining_moved fun cmd' results' rx' phase' => ?_
    obtain ⟨rfl, rfl, rfl⟩ : cmd = cmd' ∧ results = results' ∧ rx = rx' := by
      simpa [phase] using phase'
    have canceled : (dropTasks s.oneshots [⟨cmd, rx⟩])[rx]? = some .canceled :=
      List.getElem?_set_self (List.getElem?_eq_some_iff.mp pending).1
    rw [canceled]
    exact answerSteps_pos _ _

/-- Each step that belongs to a dispatch uses up one of those that remain. -/
theorem ManagerStep.remaining {e : ManagerEvent F LF S L SE LE} (h : Tracks s ws)
    (step : ManagerStep s e s') :
    (drives e).toNat + s'.remaining ≤
      s.remaining + (isDispatch e).toNat * (4 * s.workers.length + 1) := by
  cases step with
  | dispatch phase =>
      simp [drives, isDispatch, WorkerManager.remaining, WorkerManager.enter, phase]
  | @fed cmd results thread queue phase worker opened room =>
      have hlt := (List.getElem?_eq_some_iff.mp worker).1
      let fed := (s.moved results.length
        { thread with rx := some (queue ++ [⟨cmd, s.oneshots.length⟩]) }
        (s.oneshots ++ [.pending])).enter (.awaiting cmd results s.oneshots.length)
      have few : fed.remaining ≤
          4 * ((s.workers.set results.length _).length - (results.length + 1)) + 4 :=
        WorkerManager.remaining_awaiting_le rfl
      rw [List.length_set] at few
      change 1 + fed.remaining ≤ _
      rw [WorkerManager.remaining_feeding phase]
      omega
  | feedFailed phase worker closed =>
      have hlt := (List.getElem?_eq_some_iff.mp worker).1
      rw [WorkerManager.remaining_feeding phase, WorkerManager.remaining_feeding rfl]
      simp [drives, isDispatch, WorkerManager.enter]
      omega
  | received phase sent =>
      rw [WorkerManager.remaining_awaiting phase, WorkerManager.remaining_feeding rfl, sent]
      simp [drives, isDispatch, WorkerManager.enter, answerSteps]
      omega
  | canceled phase dropped =>
      rw [WorkerManager.remaining_awaiting phase, WorkerManager.remaining_feeding rfl, dropped]
      simp [drives, isDispatch, WorkerManager.enter, answerSteps]
      omega
  | returned phase all =>
      rw [WorkerManager.remaining_feeding phase]
      simp [drives, isDispatch, WorkerManager.remaining, WorkerManager.enter]
  | @taken i thread task queue worker next free =>
      rcases h.tasks worker with idle | ⟨cmd, results, rx, w, phase, rfl, pending, owes⟩
      · simp [WorkerThread.tasks, next] at idle
      · have less := WorkerManager.remaining_less phase worker
          { thread with rx := some queue, upd := some task } s.oneshots
          (by simp [answerSteps, pending, free])
        simp only [drives, isDispatch, Bool.toNat_true, Bool.toNat_false]
        omega
  | @executed i thread task queue env result call controller worker alive busy execution =>
      rcases h.tasks worker with idle | ⟨cmd, results, rx, w, phase, rfl, pending, owes⟩
      · simp [WorkerThread.tasks, busy] at idle
      · obtain rfl : task = ⟨cmd, rx⟩ := by
          have one := owes.one_task
          simp only [WorkerThread.tasks, busy] at one
          exact (List.cons.inj one).1
        have sent : (s.oneshots.set rx (.sent (result.mapError .command)))[rx]? = _ :=
          List.getElem?_set_self (List.getElem?_eq_some_iff.mp pending).1
        have less := WorkerManager.remaining_less phase worker
          { thread with workerController := controller, upd := none }
          (s.oneshots.set rx (.sent (result.mapError .command)))
          (by rw [sent]; simp [answerSteps, pending, busy])
        simp only [drives, isDispatch, Bool.toNat_true, Bool.toNat_false]
        omega
  | @served i thread queue loop selected controller worker alive execution =>
      have kept := WorkerManager.remaining_same worker
        { thread with workerController := controller } rfl
      simpa [drives, isDispatch] using kept
  | panicked worker alive =>
      have kept := h.panicked_remaining worker alive
      simpa [drives, isDispatch] using kept

theorem ManagerStep.workers_length {e : ManagerEvent F LF S L SE LE}
    (step : ManagerStep s e s') : s'.workers.length = s.workers.length := by
  cases step <;> first | rfl | exact List.length_set

theorem Tracks.remaining_le (h : Tracks s ws) : s.remaining ≤ 4 * s.workers.length + 1 := by
  cases phase : s.phase with
  | returned => simp [WorkerManager.remaining, phase]
  | feeding cmd results =>
      rw [WorkerManager.remaining_feeding phase]
      omega
  | awaiting cmd results rx =>
      have hlt : results.length < s.workers.length := by
        simpa [phase, DispatchPhase.Within] using h.within
      have few := WorkerManager.remaining_awaiting_le phase
      omega

theorem workers_length_run {tr : List (ManagerEvent F LF S L SE LE)}
    (run : Run ManagerStep s tr s') : s'.workers.length = s.workers.length := by
  induction run with
  | nil => rfl
  | snoc _ step ih => exact step.workers_length.trans ih

/-- Until the next dispatch starts, each step that belongs to one is one less to go. -/
theorem drives_remaining [Inhabited (Factories F LF S L SE LE)] {workerThreads : Nat}
    {past tr : List (ManagerEvent F LF S L SE LE)}
    (reached : Run ManagerStep (.start workerThreads) past s) (run : Run ManagerStep s tr s')
    (alone : ∀ e ∈ tr, isDispatch e = false) :
    tr.countP drives + s'.remaining ≤ s.remaining := by
  induction run with
  | nil => simp
  | @snoc tr m e s' run step ih =>
      have before := ih fun e he => alone e (List.mem_append_left _ he)
      obtain ⟨abs, ws, -, -, tracks⟩ := tracks_run (reached.append run)
      have spent := step.remaining tracks
      rw [alone e (List.mem_append_right _ (List.mem_singleton_self e))] at spent
      have counted : [e].countP drives = (drives e).toNat := by
        cases hd : drives e <;> simp [hd]
      rw [List.countP_append, counted]
      simp only [Bool.toNat_false, Nat.zero_mul] at spent
      omega

/-- Every dispatch returns, in whatever order the steps come and however many threads panic.
Until another one starts there are at most four of its steps for each worker, and one more;
and as long as it has not returned there is such a step to take. No thread ever has two
tasks. -/
theorem dispatch_progress [Inhabited (Factories F LF S L SE LE)] {workerThreads : Nat}
    {past tr : List (ManagerEvent F LF S L SE LE)}
    (reached : Run ManagerStep (.start workerThreads) past s) (run : Run ManagerStep s tr s')
    (alone : ∀ e ∈ tr, isDispatch e = false) :
    tr.countP drives ≤ 4 * workerThreads + 1 ∧
      (s'.phase = .returned ∨ ∃ e s'', drives e = true ∧ ManagerStep s' e s'') ∧
      ∀ thread ∈ s'.workers, thread.tasks.length ≤ 1 := by
  obtain ⟨abs, ws, -, -, tracks⟩ := tracks_run reached
  obtain ⟨abs', ws', -, -, tracks'⟩ := tracks_run (reached.append run)
  have length : s.workers.length = workerThreads :=
    (workers_length_run reached).trans List.length_replicate
  have spent := drives_remaining reached run alone
  have all := tracks.remaining_le
  refine ⟨by omega, ?_, fun _ => tracks'.tasks_le_one⟩
  by_cases returned : s'.phase = .returned
  · exact .inl returned
  · exact .inr (tracks'.drives returned)

end

/-- A worker that panics over its task does not hold up the dispatch. -/
theorem dispatch_progress_panic :
    ∃ (tr : List (ManagerEvent Nat Nat Nat Nat Nat Nat))
      (s : WorkerManager Nat Nat Nat Nat Nat Nat),
      Run ManagerStep ((WorkerManager.start 1).enter (.feeding (.precommit "web" 7) [])) tr s ∧
      tr.countP drives ≤ 5 ∧ s.phase = .feeding (.precommit "web" 7) [.error .channelClosed] ∧
      ∃ e s', drives e = true ∧ ManagerStep s e s' := by
  let _ : Inhabited (Factories Nat Nat Nat Nat Nat Nat) := ⟨answering⟩
  have started : Run ManagerStep (.start 1 : WorkerManager Nat Nat Nat Nat Nat Nat)
      [.dispatch (.precommit "web" 7)] _ := .single (.dispatch rfl)
  have feeding : Run ManagerStep ((WorkerManager.start 1).enter
      (.feeding (.precommit "web" 7) []) : WorkerManager Nat Nat Nat Nat Nat Nat) [] _ := .nil
  have fed := feeding.snoc (.fed rfl rfl rfl (Nat.zero_le _))
  have taken := fed.snoc (.taken (i := 0) rfl rfl rfl)
  have lost := (taken.snoc (.panicked (i := 0) rfl rfl)).snoc (.canceled rfl rfl)
  obtain ⟨few, returned | more, -⟩ := dispatch_progress started lost (by simp [isDispatch])
  · cases returned
  · exact ⟨_, _, lost, few, rfl, more⟩

end Monolake.Orchestrator
