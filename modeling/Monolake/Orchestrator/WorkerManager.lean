import Monolake.Orchestrator.ExecutorRefinement

/-!
The worker manager broadcasts each command to every worker in turn, collects
all results, and reports the first error of the group.
-/
namespace Monolake.Orchestrator

universe u
variable {F LF S L SE LE : Type u}

open ServiceExecutor

/-- A result sent back as `AnyError`: the command failed, or its channel did. -/
inductive AnyError (SE LE : Type u) where
  | command (e : CommandError SE LE)
  | channelClosed

/-- A worker thread and whether it still receives commands. -/
structure Worker (F S L : Type u) where
  executor : ServiceExecutor F S L
  alive : Bool

def Worker.start : Worker F S L := { executor := .new, alive := true }

/-- One round of the loop in `dispatch_service_command`. -/
def Worker.dispatch (w : Worker F S L) (env : Factories F LF S L SE LE)
    (cmd : ServiceCommand F LF) : Worker F S L × Except (AnyError SE LE) Unit :=
  if w.alive then
    let r := execute env w.executor cmd
    ({ w with executor := r.executor }, r.result.mapError .command)
  else (w, .error .channelClosed)

/-- The factories of each worker answer on their own: `env i` is worker `i`'s. -/
def dispatchServiceCommand (env : Nat → Factories F LF S L SE LE) (cmd : ServiceCommand F LF)
    (workers : List (Worker F S L)) : List (Worker F S L) × List (Except (AnyError SE LE) Unit) :=
  let out := workers.mapIdx fun i w => w.dispatch (env i) cmd
  (out.map (·.1), out.map (·.2))

/-- `ResultGroup::err`. -/
def resultGroupErr {ε : Type u} : List (Except ε Unit) → Except ε Unit
  | [] => .ok ()
  | .ok _ :: rest => resultGroupErr rest
  | .error e :: _ => .error e

theorem resultGroupErr_ok_iff {ε : Type u} (rs : List (Except ε Unit)) :
    resultGroupErr rs = .ok () ↔ ∀ r ∈ rs, r = .ok () := by
  induction rs with
  | nil => simp [resultGroupErr]
  | cons r rs ih => cases r <;> simp [resultGroupErr, ih]

/-- A property of each worker, which may depend on its position. -/
def Each (P : Nat → Worker F S L → Prop) (workers : List (Worker F S L)) : Prop :=
  ∀ i w, workers[i]? = some w → P i w

section Dispatch
variable {env : Nat → Factories F LF S L SE LE} {cmd : ServiceCommand F LF}
  {workers : List (Worker F S L)} {P Q : Nat → Worker F S L → Prop}

theorem dispatch_getElem? (i : Nat) :
    (dispatchServiceCommand env cmd workers).1[i]? =
      workers[i]?.map fun w => (w.dispatch (env i) cmd).1 := by
  simp [dispatchServiceCommand, Function.comp_def]

theorem dispatch_length : (dispatchServiceCommand env cmd workers).1.length = workers.length := by
  simp [dispatchServiceCommand]

theorem dispatch_each (h : Each P workers)
    (keeps : ∀ i w, P i w → Q i (w.dispatch (env i) cmd).1) :
    Each Q (dispatchServiceCommand env cmd workers).1 := by
  intro i w hw
  rw [dispatch_getElem?] at hw
  obtain ⟨before, hb, rfl⟩ := Option.map_eq_some_iff.mp hw
  exact keeps i before (h i before hb)

/-- The group reports success exactly when every worker did. -/
theorem dispatch_err_iff :
    resultGroupErr (dispatchServiceCommand env cmd workers).2 = .ok () ↔
      Each (fun i w => (w.dispatch (env i) cmd).2 = .ok ()) workers := by
  rw [resultGroupErr_ok_iff]
  constructor
  · intro h i w hw
    refine h _ (List.mem_map.mpr ⟨w.dispatch (env i) cmd, ?_, rfl⟩)
    exact List.mem_of_getElem? (by rw [List.getElem?_mapIdx, hw]; rfl)
  · intro h r hr
    obtain ⟨out, hout, rfl⟩ := List.mem_map.mp hr
    obtain ⟨i, hi, rfl⟩ := List.mem_iff_getElem.mp hout
    rw [List.getElem_mapIdx]
    exact h i _ (List.getElem?_eq_getElem (by simpa using hi))

end Dispatch

/-! What one worker does with each command, in terms of its deployment. -/

section OneWorker
variable {env : Factories F LF S L SE LE} {w : Worker F S L}

def Worker.getSvc (w : Worker F S L) : Name → Option (BuiltService F S) := w.executor.getSvc

def Worker.stagedSvc (w : Worker F S L) : Name → Option (BuiltService F S) :=
  w.executor.stagedSvc

/-- A live worker whose slots are in order. -/
structure Worker.Sound (w : Worker F S L) : Prop where
  alive : w.alive = true
  discipline : SlotDiscipline w.executor

theorem Worker.start_sound : (Worker.start : Worker F S L).Sound := ⟨rfl, .new⟩

theorem Worker.Sound.dispatch_eq (h : w.Sound) (cmd : ServiceCommand F LF) :
    w.dispatch env cmd = ({ w with executor := (execute env w.executor cmd).executor },
      (execute env w.executor cmd).result.mapError .command) := by
  simp [Worker.dispatch, h.alive]

theorem Worker.Sound.dispatch (h : w.Sound) (cmd : ServiceCommand F LF) :
    (w.dispatch env cmd).1.Sound := by
  rw [h.dispatch_eq]
  exact ⟨h.alive, execute_discipline (execute_result rfl) h.discipline⟩

theorem Worker.Sound.result_ok (h : w.Sound) {cmd : ServiceCommand F LF}
    (hok : (w.dispatch env cmd).2 = .ok ()) : (execute env w.executor cmd).result = .ok () := by
  rw [h.dispatch_eq] at hok
  exact mapError_eq_ok hok

theorem Worker.Sound.done (h : w.Sound) {cmd : ServiceCommand F LF}
    (hok : (w.dispatch env cmd).2 = .ok ()) :
    ∃ call, Done w.executor cmd call (w.dispatch env cmd).1.executor := by
  have hresult := h.result_ok hok
  rw [h.dispatch_eq]
  exact ⟨_, execute_ok (execute_result hresult)⟩

/-- A command that reports an error has changed no service. -/
theorem Worker.Sound.dispatch_error (h : w.Sound) {cmd : ServiceCommand F LF}
    (herr : (w.dispatch env cmd).2 ≠ .ok ()) :
    (w.dispatch env cmd).1.getSvc = w.getSvc ∧
      (w.dispatch env cmd).1.stagedSvc = w.stagedSvc := by
  rw [h.dispatch_eq] at herr ⊢
  cases hr : (execute env w.executor cmd).result with
  | ok => simp [hr, Except.mapError] at herr
  | error e =>
      have := execute_error_deployment (execute_result hr)
      exact ⟨congrArg (·.deployed) this, congrArg (·.staged) this⟩

theorem Worker.Sound.precommit (h : w.Sound) {n : Name} {factory : F}
    (hok : (w.dispatch env (.precommit n factory : ServiceCommand F LF)).2 = .ok ()) :
    let w' := (w.dispatch env (.precommit n factory)).1
    w'.getSvc = w.getSvc ∧ ∃ svc, svc.factory = factory ∧
      w'.stagedSvc = Function.update w.stagedSvc n (some svc) := by
  obtain ⟨call, done⟩ := h.done hok
  cases done with
  | precommit _ made_by hb _ =>
      exact ⟨SlotDiscipline.getSvc_same hb.committed_eq hb.slots_eq, _, made_by, hb.staged_eq⟩

/-- `Update` and `Commit` move the staged service in place. -/
theorem Worker.Sound.promote (h : w.Sound) {n : Name} {cmd : ServiceCommand F LF}
    (hcmd : cmd = .update n ∨ ∃ lf, cmd = .commit n lf)
    (hok : (w.dispatch env cmd).2 = .ok ()) :
    let w' := (w.dispatch env cmd).1
    ∃ svc, w.stagedSvc n = some svc ∧ w'.getSvc = Function.update w.getSvc n (some svc) ∧
      w'.stagedSvc = Function.update w.stagedSvc n none := by
  obtain ⟨call, done⟩ := h.done hok
  rcases hcmd with rfl | ⟨lf, rfl⟩
  · cases done with
    | update committed staged hb _ =>
        exact ⟨_, staged,
          h.discipline.getSvc_update committed hb.committed_eq hb.slots_eq, hb.staged_eq⟩
  · cases done with
    | commit staged hd _ =>
        exact ⟨_, staged, h.discipline.getSvc_deployed hd, hd.staged_eq⟩

theorem Worker.Sound.remove (h : w.Sound) {n : Name}
    (hok : (w.dispatch env (.remove n : ServiceCommand F LF)).2 = .ok ()) :
    let w' := (w.dispatch env (.remove n : ServiceCommand F LF)).1
    w'.getSvc = Function.update w.getSvc n none ∧
      w'.stagedSvc = Function.update w.stagedSvc n none := by
  obtain ⟨call, done⟩ := h.done hok
  cases done with
  | remove hb _ =>
      exact ⟨SlotDiscipline.getSvc_remove hb.committed_eq hb.slots_eq, hb.staged_eq⟩

/-- `Abort` clears the staged service whether or not it finds a site. -/
theorem Worker.Sound.abort (h : w.Sound) (n : Name) :
    let w' := (w.dispatch env (.abort n : ServiceCommand F LF)).1
    w'.getSvc = w.getSvc ∧ w'.stagedSvc = Function.update w.stagedSvc n none := by
  by_cases hok : (w.dispatch env (.abort n : ServiceCommand F LF)).2 = .ok ()
  · obtain ⟨call, done⟩ := h.done hok
    cases done with
    | abort hb _ =>
        exact ⟨SlotDiscipline.getSvc_same hb.committed_eq hb.slots_eq, hb.staged_eq⟩
  · obtain ⟨hg, hs⟩ := h.dispatch_error hok
    refine ⟨hg, ?_⟩
    have absent : w.executor.sites n = none := by
      rw [h.dispatch_eq] at hok
      cases hsite : w.executor.sites n with
      | none => rfl
      | some sh => simp [execute, ServiceExecutor.abort, hsite, Except.mapError] at hok
    rw [hs, eq_comm, Function.update_eq_self_iff]
    simp [Worker.stagedSvc, ServiceExecutor.stagedSvc, absent]

/-! What the commands of the commit stage need in order to succeed. -/

theorem Worker.Sound.update_ready (h : w.Sound) {n : Name} {old svc : BuiltService F S}
    (committed : w.getSvc n = some old) (staged : w.stagedSvc n = some svc) :
    (w.dispatch env (.update n : ServiceCommand F LF)).2 = .ok () := by
  obtain ⟨hdr, hn⟩ := ServiceExecutor.committed_of_getSvc committed
  rw [h.dispatch_eq]
  simp [execute, updateWithPrecommittedSvc_ready hn staged, Except.mapError]

theorem Worker.Sound.remove_ready (h : w.Sound) {n : Name} {old : BuiltService F S}
    (committed : w.getSvc n = some old) :
    (w.dispatch env (.remove n : ServiceCommand F LF)).2 = .ok () := by
  obtain ⟨hdr, hn⟩ := ServiceExecutor.committed_of_getSvc committed
  rw [h.dispatch_eq]
  simp [execute, ServiceExecutor.remove_ready hn, Except.mapError]

theorem Worker.Sound.commit_ready (h : w.Sound) {n : Name} {lf : LF} {listener : L}
    {svc : BuiltService F S} (staged : w.stagedSvc n = some svc)
    (hl : env.makeListener lf = .ok listener) :
    (w.dispatch env (.commit n lf)).2 = .ok () := by
  rw [h.dispatch_eq]
  simp [execute, hl, deployAndServe_ready staged, Except.mapError]

/-- The listener is made inside `Commit`, so a success means it was made. -/
theorem Worker.Sound.commit_listener (h : w.Sound) {n : Name} {lf : LF}
    (hok : (w.dispatch env (.commit n lf)).2 = .ok ()) :
    ∃ listener, env.makeListener lf = .ok listener := by
  have := h.result_ok hok
  cases hl : env.makeListener lf with
  | ok listener => exact ⟨listener, rfl⟩
  | error e => simp [execute, hl] at this

end OneWorker

end Monolake.Orchestrator
