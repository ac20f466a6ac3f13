import Monolake.Config.ReloadLinearized
import Monolake.Orchestrator.DispatchProgress

/-!
Every reload ends. Each patch is dispatched at most once in the prepare and once in the commit
or the abort, and each of these dispatches returns.
-/
namespace Monolake.Config

universe u
open Foundation Orchestrator

variable {F LF S L SE LE LC SC IE PE : Type u}

/-- The steps that belong to an attempt, at the manager or at a thread. -/
def SystemEvent.drives : SystemEvent F LF S L SE LE LC SC IE PE → Bool
  | .performed _ _ | .skipped | .committing => true
  | .began _ | .panicked _ => false
  | .threads event => isDispatch event || Orchestrator.drives event

def SystemEvent.ends : SystemEvent F LF S L SE LE LC SC IE PE → Bool
  | .performed _ _ => true
  | _ => false

/-- How many steps at most for one patch: its dispatch is started, and returns. -/
def patchSteps (workers : Nat) : Nat := 4 * workers + 2

/-- How many steps at most for the patches that are left in this stage, and after it. -/
def Reloading.steps (workers : Nat) (r : Reloading SE LE LC SC IE PE)
    (left : List (Patch LC SC)) : Nat :=
  patchSteps workers * left.length +
    match r.stage with
    | .preparing => 1 + patchSteps workers * r.patches.length + 1
    | .aborting _ | .committing => 1

/-- How many steps at most until the attempt ends. While the manager waits for a dispatch, that
is for the patch that is next. -/
def ReloadSystem.remaining (s : ReloadSystem F LF S L SE LE LC SC IE PE) : Nat :=
  match s.task.phase with
  | .idle | .panicked _ => 0
  | .reloading r =>
      match s.threads.phase.command with
      | none => r.steps s.threads.workers.length r.rest
      | some _ => r.steps s.threads.workers.length r.rest.tail + s.threads.remaining

section
variable {s s' : ReloadSystem F LF S L SE LE LC SC IE PE} {r : Reloading SE LE LC SC IE PE}
  {mgr : StaticFileConfigManager F LF S L LC SC} {ws : List (Worker F S L)}

theorem Reloading.steps_cons (workers : Nat) (r : Reloading SE LE LC SC IE PE)
    (p : Patch LC SC) (left : List (Patch LC SC)) :
    r.steps workers (p :: left) = r.steps workers left + patchSteps workers := by
  rw [steps, steps, List.length_cons, Nat.mul_succ]
  omega

/-- An answer ends the dispatch, and at worst the abort of all patches is still to come. -/
theorem Reloading.answered_remaining (workers : Nat) (rest : List (Patch LC SC))
    (results : List (CommandResult SE LE)) {task : ReloadTask F LF SE LE LC SC IE PE}
    {threads : WorkerManager F LF S L SE LE} (quiet : threads.phase.command = none)
    (length : threads.workers.length = workers) :
    (⟨task.enter (r.answered rest results), threads⟩ :
      ReloadSystem F LF S L SE LE LC SC IE PE).remaining ≤ r.steps workers rest := by
  subst length
  rw [Reloading.answered]
  cases stage : r.stage with
  | preparing =>
      cases resultGroupErr results with
      | error e =>
          simp only [ReloadSystem.remaining, ReloadTask.enter, quiet, Reloading.steps, stage]
          omega
      | ok => simp [ReloadSystem.remaining, ReloadTask.enter, quiet, Reloading.steps, stage]
  | aborting e => simp [ReloadSystem.remaining, ReloadTask.enter, quiet, Reloading.steps, stage]
  | committing =>
      cases resultGroupErr results with
      | error e => simp [ReloadSystem.remaining, ReloadTask.enter]
      | ok => simp [ReloadSystem.remaining, ReloadTask.enter, quiet, Reloading.steps, stage]

theorem ReloadSystem.remaining_quiet (phase : s.task.phase = .reloading r)
    (quiet : s.threads.phase.command = none) :
    s.remaining = r.steps s.threads.workers.length r.rest := by
  simp only [ReloadSystem.remaining, phase, quiet]

/-- While the manager waits for a dispatch. -/
theorem ReloadSystem.remaining_waiting (phase : s.task.phase = .reloading r)
    {cmd : ServiceCommand F LF} (waits : s.threads.phase.command = some cmd) :
    s.remaining = r.steps s.threads.workers.length r.rest.tail + s.threads.remaining := by
  simp only [ReloadSystem.remaining, phase, waits]

theorem remaining_of_quiet {threads : WorkerManager F LF S L SE LE}
    (quiet : threads.phase.command = none) : threads.remaining = 0 := by
  cases phase : threads.phase with
  | returned => simp [WorkerManager.remaining, phase]
  | feeding cmd results | awaiting cmd results rx => simp [phase, DispatchPhase.command] at quiet

/-- Threads that go on while the manager does not. -/
theorem Mirrored.moved_remaining (h : Mirrored mgr ws s) {event : ManagerEvent F LF S L SE LE}
    {threads : WorkerManager F LF S L SE LE} (step : ManagerStep s.threads event threads)
    (meanwhile : ∀ cmd, event ≠ .dispatch cmd ∧ ∀ results, event ≠ .returned cmd results) :
    (SystemEvent.threads event : SystemEvent F LF S L SE LE LC SC IE PE).drives.toNat +
      ({ s with threads } : ReloadSystem F LF S L SE LE LC SC IE PE).remaining ≤ s.remaining := by
  have undispatched : isDispatch event = false := by
    cases event with
    | dispatch cmd => exact absurd rfl (meanwhile cmd).1
    | _ => rfl
  have spent := step.remaining h.tracks
  have length := step.workers_length
  have kept := step.command_kept meanwhile
  simp only [undispatched, Bool.toNat_false, Nat.zero_mul, Nat.add_zero] at spent
  simp only [SystemEvent.drives, undispatched, Bool.false_or]
  cases waits : s.threads.phase.command with
  | none =>
      have same : ({ s with threads } : ReloadSystem F LF S L SE LE LC SC IE PE).remaining =
          s.remaining := by
        simp only [ReloadSystem.remaining, length, kept, waits]
      rw [remaining_of_quiet waits] at spent
      omega
  | some cmd =>
      obtain ⟨r, patch, rest, phase, -⟩ := h.asks cmd waits
      rw [ReloadSystem.remaining_waiting phase waits,
        ReloadSystem.remaining_waiting (s := { s with threads }) phase (kept.trans waits), length]
      dsimp only
      omega

/-- Each step that belongs to the attempt uses up one of those that remain. -/
theorem SystemStep.remaining {e : SystemEvent F LF S L SE LE LC SC IE PE}
    (h : Mirrored mgr ws s) (busy : s.task.phase ≠ .idle) (step : SystemStep s e s') :
    e.drives.toNat + s'.remaining ≤ s.remaining := by
  have quiet : (∀ cmd, ¬ s.task.Asks cmd) → s.threads.phase.command = none := by
    intro nothing
    cases asked : s.threads.phase.command with
    | none => rfl
    | some cmd => exact absurd (h.asks cmd asked) (nothing cmd)
  cases step with
  | ended idle | began idle | diffPanicked idle => exact absurd idle busy
  | @skipped r patch rest phase next none =>
      have quiet := quiet (ReloadTask.asks_nothing phase next none)
      let left := s.enter (.reloading { r with rest })
      have remains : left.remaining = r.steps s.threads.workers.length rest :=
        ReloadSystem.remaining_quiet (s := left) rfl quiet
      rw [ReloadSystem.remaining_quiet phase quiet, next, Reloading.steps_cons, remains]
      simp only [SystemEvent.drives, Bool.toNat_true, patchSteps]
      omega
  | @asked r patch rest cmd threads phase next some step =>
      cases step with
      | dispatch idle =>
          have quiet : s.threads.phase.command = none := by rw [idle]; rfl
          let asked := { s with threads := s.threads.enter (.feeding cmd []) }
          have remains := ReloadSystem.remaining_waiting (s := asked) phase rfl
          rw [WorkerManager.remaining_feeding (s := asked.threads) rfl, next] at remains
          rw [ReloadSystem.remaining_quiet phase quiet, next, Reloading.steps_cons, remains]
          simp only [SystemEvent.drives, isDispatch, Bool.true_or, Bool.toNat_true, patchSteps,
            List.tail_cons, List.length_nil, asked, WorkerManager.enter]
          omega
  | @answered r patch rest cmd results threads phase next some step =>
      cases step with
      | returned feeding all =>
          have waits : s.threads.phase.command = Option.some cmd := by rw [feeding]; rfl
          rw [ReloadSystem.remaining_waiting phase waits, next, List.tail_cons,
            WorkerManager.remaining_feeding feeding]
          let answered : ReloadSystem F LF S L SE LE LC SC IE PE :=
            ⟨s.task.enter (r.answered rest results), s.threads.enter .returned⟩
          have left : answered.remaining ≤ r.steps s.threads.workers.length rest :=
            Reloading.answered_remaining _ rest results rfl rfl
          simp only [SystemEvent.drives, isDispatch, Orchestrator.drives, Bool.or_true,
            Bool.toNat_true]
          dsimp only [answered] at left
          omega
  | @prepared r phase stage done =>
      have quiet := quiet (ReloadTask.done_asks_nothing phase done)
      let ready := s.enter (.reloading { r with stage := .committing, rest := r.patches })
      have remains := ReloadSystem.remaining_quiet (s := ready) rfl quiet
      rw [ReloadSystem.remaining_quiet phase quiet, remains]
      simp only [SystemEvent.drives, Bool.toNat_true, Reloading.steps, stage, done,
        List.length_nil, ready, ReloadSystem.enter]
      omega
  | @aborted r e phase stage done =>
      have quiet := quiet (ReloadTask.done_asks_nothing phase done)
      rw [ReloadSystem.remaining_quiet phase quiet]
      simp [SystemEvent.drives, Reloading.steps, stage, done, ReloadSystem.remaining,
        ReloadSystem.enter, ReloadTask.enter]
  | @committed r phase stage done =>
      have quiet := quiet (ReloadTask.done_asks_nothing phase done)
      rw [ReloadSystem.remaining_quiet phase quiet]
      simp [SystemEvent.drives, Reloading.steps, stage, done, ReloadSystem.remaining,
        ReloadTask.replace]
  | moved step meanwhile => exact h.moved_remaining step meanwhile

/-- An attempt goes on until it returns. -/
theorem SystemStep.busy {e : SystemEvent F LF S L SE LE LC SC IE PE}
    (busy : s.task.phase ≠ .idle) (unended : e.ends = false) (step : SystemStep s e s') :
    s'.task.phase ≠ .idle := by
  cases step with
  | ended | aborted | committed => simp [SystemEvent.ends] at unended
  | began | diffPanicked | skipped | prepared =>
      simp [ReloadSystem.enter, ReloadTask.enter]
  | asked | moved => exact busy
  | @answered r patch rest cmd results threads phase next some step =>
      simp only [ReloadTask.enter, Reloading.answered]
      cases r.stage with
      | aborting e => simp
      | preparing | committing => cases resultGroupErr results <;> simp

theorem driving_remaining [Inhabited (Factories F LF S L SE LE)] {workerThreads : Nat}
    {listenerFactoryProvider : LC → LF} {serverFactoryProvider : SC → F}
    {past tr : List (SystemEvent F LF S L SE LE LC SC IE PE)}
    (reached : Run SystemStep (.start workerThreads listenerFactoryProvider serverFactoryProvider)
      past s) (busy : s.task.phase ≠ .idle) (run : Run SystemStep s tr s')
    (unended : ∀ e ∈ tr, e.ends = false) :
    tr.countP SystemEvent.drives + s'.remaining ≤ s.remaining ∧ s'.task.phase ≠ .idle := by
  induction run with
  | nil => exact ⟨by simp, busy⟩
  | @snoc tr m e s' run step ih =>
      obtain ⟨before, busy'⟩ := ih fun e he => unended e (List.mem_append_left _ he)
      obtain ⟨performed, mgr, ws, -, -, mirrored⟩ := mirrored_run (reached.append run)
      have spent := step.remaining mirrored busy'
      have counted : [e].countP SystemEvent.drives = e.drives.toNat := by
        cases hd : e.drives <;> simp [hd]
      rw [List.countP_append, counted]
      refine ⟨by omega, step.busy busy' (unended e ?_)⟩
      exact List.mem_append_right _ (List.mem_singleton_self e)

theorem Reloading.steps_le (workers : Nat) (r : Reloading SE LE LC SC IE PE)
    {left : List (Patch LC SC)} (fits : left.length ≤ r.patches.length) :
    r.steps workers left ≤ patchSteps workers * (2 * r.patches.length) + 2 := by
  have few : patchSteps workers * left.length ≤ patchSteps workers * r.patches.length :=
    Nat.mul_le_mul_left _ fits
  have twice : patchSteps workers * (2 * r.patches.length) =
      patchSteps workers * r.patches.length + patchSteps workers * r.patches.length := by
    rw [Nat.two_mul, Nat.mul_add]
  rw [steps]
  cases r.stage <;> dsimp only <;> omega

theorem Mirrored.remaining_le (h : Mirrored mgr ws s) (phase : s.task.phase = .reloading r) :
    s.remaining ≤ patchSteps s.threads.workers.length * (2 * r.patches.length) + 2 := by
  have standing := h.phase
  rw [phase] at standing
  obtain ⟨-, losses, outcomes, done, split, -⟩ := standing
  have fits : r.rest.length ≤ r.patches.length := by
    rw [split, List.length_append]
    exact Nat.le_add_left ..
  refine le_trans ?_ (r.steps_le s.threads.workers.length fits)
  cases waits : s.threads.phase.command with
  | none => exact Nat.le_of_eq (ReloadSystem.remaining_quiet phase waits)
  | some cmd =>
      obtain ⟨r', patch, rest, phase', next, -⟩ := h.asks cmd waits
      obtain rfl := TaskPhase.reloading.inj (phase.symm.trans phase')
      have dispatch := h.tracks.remaining_le
      rw [ReloadSystem.remaining_waiting phase waits, next, List.tail_cons, Reloading.steps_cons,
        patchSteps]
      omega

theorem SystemStep.workers_length {e : SystemEvent F LF S L SE LE LC SC IE PE}
    (step : SystemStep s e s') : s'.threads.workers.length = s.threads.workers.length := by
  cases step with
  | asked _ _ _ step | answered _ _ _ step | moved step => exact step.workers_length
  | _ => rfl

theorem threads_length_run {tr : List (SystemEvent F LF S L SE LE LC SC IE PE)}
    (run : Run SystemStep s tr s') :
    s'.threads.workers.length = s.threads.workers.length := by
  induction run with
  | nil => rfl
  | snoc _ step ih => exact step.workers_length.trans ih

/-- Wherever an attempt is, one of its steps can be taken. -/
theorem Mirrored.drives [Inhabited (Factories F LF S L SE LE)] (h : Mirrored mgr ws s)
    (phase : s.task.phase = .reloading r) :
    ∃ (e : SystemEvent F LF S L SE LE LC SC IE PE) (s' : _),
      e.drives = true ∧ SystemStep s e s' := by
  cases waits : s.threads.phase.command with
  | none =>
      have idle : s.threads.phase = .returned := by
        cases threads : s.threads.phase with
        | returned => rfl
        | feeding | awaiting => simp [threads, DispatchPhase.command] at waits
      cases next : r.rest with
      | nil =>
          cases stage : r.stage with
          | preparing => exact ⟨_, _, rfl, .prepared phase stage next⟩
          | aborting e => exact ⟨_, _, rfl, .aborted phase stage next⟩
          | committing => exact ⟨_, _, rfl, .committed phase stage next⟩
      | cons patch rest =>
          cases command : s.task.command r.stage patch with
          | none => exact ⟨_, _, rfl, .skipped phase next command⟩
          | some cmd => exact ⟨_, _, rfl, .asked phase next command (.dispatch idle)⟩
  | some cmd =>
      have unreturned : s.threads.phase ≠ .returned := by
        intro returned
        simp [returned, DispatchPhase.command] at waits
      obtain ⟨event, threads, driving, step⟩ := h.tracks.drives unreturned
      have drives : (SystemEvent.threads event : SystemEvent F LF S L SE LE LC SC IE PE).drives =
          true := by
        simp [SystemEvent.drives, driving]
      by_cases returns : ∃ cmd results, event = .returned cmd results
      · obtain ⟨cmd', results, rfl⟩ := returns
        cases step with
        | returned feeding all =>
            obtain rfl : cmd' = cmd := by simpa [feeding, DispatchPhase.command] using waits
            obtain ⟨r', patch, rest, phase', next, asked⟩ := h.asks _ waits
            exact ⟨_, _, drives, .answered phase' next asked (.returned feeding all)⟩
      · refine ⟨_, _, drives, .moved step fun cmd => ⟨?_, fun results heq => ?_⟩⟩
        · rintro rfl
          simp [Orchestrator.drives] at driving
        · exact returns ⟨cmd, results, heq⟩

/-- An attempt that has come to `reload_services` ends, in whatever order the steps come, and
however many connections are accepted and threads lost meanwhile. Until it returns at most so
many of its steps are taken, and as long as the manager has not panicked over it there is such a
step to take. -/
theorem reload_progress [Inhabited (Factories F LF S L SE LE)] {workerThreads : Nat}
    {listenerFactoryProvider : LC → LF} {serverFactoryProvider : SC → F}
    {past tr : List (SystemEvent F LF S L SE LE LC SC IE PE)}
    (reached : Run SystemStep (.start workerThreads listenerFactoryProvider serverFactoryProvider)
      past s) (phase : s.task.phase = .reloading r) (run : Run SystemStep s tr s')
    (unended : ∀ e ∈ tr, e.ends = false) :
    tr.countP SystemEvent.drives ≤ patchSteps workerThreads * (2 * r.patches.length) + 2 ∧
      ((∃ file, s'.task.phase = .panicked file) ∨
        ∃ (e : SystemEvent F LF S L SE LE LC SC IE PE) (s'' : _),
          e.drives = true ∧ SystemStep s' e s'') := by
  obtain ⟨performed, mgr, ws, -, -, mirrored⟩ := mirrored_run reached
  obtain ⟨performed', mgr', ws', -, -, mirrored'⟩ := mirrored_run (reached.append run)
  have busy : s.task.phase ≠ .idle := by simp [phase]
  obtain ⟨spent, busy'⟩ := driving_remaining reached busy run unended
  have most := mirrored.remaining_le phase
  rw [(threads_length_run reached).trans List.length_replicate] at most
  refine ⟨by omega, ?_⟩
  cases phase' : s'.task.phase with
  | idle => exact absurd phase' busy'
  | panicked file => exact .inl ⟨file, rfl⟩
  | reloading r' => exact .inr (mirrored'.drives phase')

end

/-- The only worker is lost over the first site, and the attempt still goes on. -/
theorem reload_progress_panic :
    ∃ (tr : List (SystemEvent Nat Nat Nat Nat Nat Nat Nat Nat Nat Nat))
      (s s' : ReloadSystem Nat Nat Nat Nat Nat Nat Nat Nat Nat Nat),
      Run SystemStep (.start 1 id id) [.began (fileOf 1 firstSite)] s ∧ Run SystemStep s tr s' ∧
      (s'.threads.workers.map fun thread => thread.rx.isSome) = [false] ∧
      tr.countP SystemEvent.drives ≤ 14 ∧
      ∃ (e : SystemEvent Nat Nat Nat Nat Nat Nat Nat Nat Nat Nat) (s'' : _),
        e.drives = true ∧ SystemStep s' e s'' := by
  let _ : Inhabited (Factories Nat Nat Nat Nat Nat Nat) := ⟨answering⟩
  have began : Run SystemStep
      (.start 1 id id : ReloadSystem Nat Nat Nat Nat Nat Nat Nat Nat Nat Nat)
      [.began (fileOf 1 firstSite)] _ := .single (.began rfl rfl)
  let patches : List (Patch Nat Nat) := [.insert "web" 80 7]
  let reloading : ReloadSystem Nat Nat Nat Nat Nat Nat Nat Nat Nat Nat :=
    (ReloadSystem.start 1 id id).enter (.reloading
      { file := fileOf 1 firstSite, latestContent := [1], newServices := firstSite, patches
        stage := .preparing, rest := patches })
  have asked : Run SystemStep reloading _ _ := .single (.asked rfl rfl rfl (.dispatch rfl))
  have fed := asked.snoc (.moved (.fed rfl rfl rfl (Nat.zero_le _)) (by simp))
  have lost := fed.snoc (.moved (.panicked (i := 0) rfl rfl) (by simp))
  obtain ⟨few, ⟨file, panicked⟩ | more⟩ :=
    reload_progress began rfl lost (by simp [SystemEvent.ends])
  · cases panicked
  · exact ⟨_, _, _, began, lost, rfl, few, more⟩

end Monolake.Config
