import Monolake.Config.HotReload
import Monolake.Orchestrator.Linearization

/-!
Attempts while workers are lost. A worker can be lost before any dispatch of an attempt;
what it is asked from then on fails. The workers that are left stay in step with the online
services, but once a worker is lost no configuration that has a service can be loaded.
-/
namespace Monolake.Config

universe u
open Foundation Orchestrator

variable {F LF S L SE LE LC SC IE PE : Type u}

/-- Which workers are lost right before the dispatch for a patch with this key, in each
stage. -/
structure Losses where
  prepare : Name → Nat → Bool
  commit : Name → Nat → Bool
  abort : Name → Nat → Bool

/-- A dispatch before which some workers are lost. -/
def dispatchLosing (gone : Nat → Bool) (env : Nat → Factories F LF S L SE LE)
    (cmd : ServiceCommand F LF) (workers : List (Worker F S L)) :
    List (Worker F S L) × List (CommandResult SE LE) :=
  dispatchServiceCommand env cmd (workers.mapIdx fun i w => w.lose (gone i))

/-- `dispatchUntilError`, where workers are lost meanwhile. -/
def losingUntilError (gone : Name → Nat → Bool) (env : Name → Nat → Factories F LF S L SE LE)
    (command : Patch LC SC → Option (ServiceCommand F LF)) :
    List (Patch LC SC) → List (Worker F S L) →
      List (Worker F S L) × Except (AnyError SE LE) Unit
  | [], workers => (workers, .ok ())
  | patch :: rest, workers =>
      match command patch with
      | none => losingUntilError gone env command rest workers
      | some cmd =>
          let (workers, results) := dispatchLosing (gone patch.key) (env patch.key) cmd workers
          match resultGroupErr results with
          | .error e => (workers, .error e)
          | .ok () => losingUntilError gone env command rest workers

namespace StaticFileConfigManager
variable (mgr : StaticFileConfigManager F LF S L LC SC)

def abortLosing (losses : Losses) (outcomes : Outcomes F LF S L SE LE) :
    List (Patch LC SC) → List (Worker F S L) → List (Worker F S L)
  | [], workers => workers
  | .insert key _ _ :: rest, workers | .update key _ :: rest, workers =>
      abortLosing losses outcomes rest
        (dispatchLosing (losses.abort key) (outcomes.abort key) (.abort key) workers).1
  | .delete _ :: rest, workers => abortLosing losses outcomes rest workers

def reloadServicesLosing (losses : Losses) (order : IterationOrder)
    (outcomes : Outcomes F LF S L SE LE) (newServices : ServiceConfigMap LC SC) :
    Option (List (Worker F S L) × Except (AnyError SE LE) Unit) :=
  match diff order mgr.onlineServices newServices with
  | none => none
  | some patches =>
      match losingUntilError losses.prepare outcomes.prepare mgr.prepareCommand patches
          mgr.workers with
      | (workers, .ok ()) =>
          match losingUntilError losses.commit outcomes.commit mgr.commitCommand patches
              workers with
          | (workers, .ok ()) => some (workers, .ok ())
          | (_, .error _) => none  -- `expect("config reload failed at commit stage")`
      | (workers, .error e) => some (abortLosing losses outcomes patches workers, .error e)

def reloadFileLosing (losses : Losses) (attempt : Attempt F LF S L SE LE LC SC IE PE) :
    Option (StaticFileConfigManager F LF S L LC SC × ReloadResult SE LE IE PE) :=
  match attempt.fileRead with
  | .error e => some (mgr, .readFailed e)
  | .ok latestContent =>
      if mgr.onlineConfigContent = latestContent then some (mgr, .unchanged)
      else
        match attempt.parseServiceConfig latestContent with
        | .error e => some (mgr, .parseFailed e)
        | .ok newServices =>
            match mgr.reloadServicesLosing losses attempt.order attempt.outcomes newServices with
            | none => none
            | some (workers, .error e) => some ({ mgr with workers }, .prepareFailed e)
            | some (workers, .ok ()) =>
                some ({ mgr with
                  workers, onlineConfigContent := latestContent, onlineServices := newServices },
                  .reloaded)

end StaticFileConfigManager

/-- The labels of a run: what an attempt met, who was lost meanwhile, and its result. -/
abbrev LosingAttempt (F LF S L SE LE LC SC IE PE : Type u) :=
  Attempt F LF S L SE LE LC SC IE PE × Losses × ReloadResult SE LE IE PE

def losingStep (mgr : StaticFileConfigManager F LF S L LC SC)
    (performed : LosingAttempt F LF S L SE LE LC SC IE PE)
    (mgr' : StaticFileConfigManager F LF S L LC SC) : Prop :=
  mgr.reloadFileLosing performed.2.1 performed.1 = some (mgr', performed.2.2)

/-- Nobody is lost. -/
def Losses.none : Losses :=
  { prepare := fun _ _ => false, commit := fun _ _ => false, abort := fun _ _ => false }

/-! Without losses these are the attempts of a manager that keeps its workers. -/

section
variable (env : Name → Nat → Factories F LF S L SE LE)
  (command : Patch LC SC → Option (ServiceCommand F LF))

theorem dispatchLosing_none (env : Nat → Factories F LF S L SE LE) (cmd : ServiceCommand F LF)
    (workers : List (Worker F S L)) :
    dispatchLosing (fun _ => false) env cmd workers = dispatchServiceCommand env cmd workers := by
  have kept : (workers.mapIdx fun _ w => w.lose false) = workers := by
    simp only [lose_false]
    exact List.mapIdx_eq_iff.mpr fun i => by simp
  rw [dispatchLosing, kept]

theorem losingUntilError_none (patches : List (Patch LC SC)) (workers : List (Worker F S L)) :
    losingUntilError (fun _ _ => false) env command patches workers =
      dispatchUntilError env command patches workers := by
  induction patches generalizing workers with
  | nil => rfl
  | cons p rest ih =>
      rw [losingUntilError, dispatchUntilError]
      cases command p with
      | none => exact ih workers
      | some cmd =>
          dsimp only
          rw [dispatchLosing_none]
          cases resultGroupErr (dispatchServiceCommand (env p.key) cmd workers).2 with
          | error e => rfl
          | ok => exact ih _

theorem abortLosing_none (outcomes : Outcomes F LF S L SE LE) (patches : List (Patch LC SC))
    (workers : List (Worker F S L)) :
    StaticFileConfigManager.abortLosing .none outcomes patches workers =
      StaticFileConfigManager.abort outcomes patches workers := by
  induction patches generalizing workers with
  | nil => rfl
  | cons p rest ih =>
      cases p with
      | insert key _ _ | update key _ =>
          have kept := dispatchLosing_none (outcomes.abort key)
            (.abort key : ServiceCommand F LF) workers
          rw [StaticFileConfigManager.abortLosing, StaticFileConfigManager.abort, ← ih]
          exact congrArg (fun out : _ × List (CommandResult SE LE) =>
            StaticFileConfigManager.abortLosing .none outcomes rest out.1) kept
      | delete key => exact ih workers

theorem reloadFileLosing_none (mgr : StaticFileConfigManager F LF S L LC SC)
    (attempt : Attempt F LF S L SE LE LC SC IE PE) :
    mgr.reloadFileLosing .none attempt = mgr.reloadFile attempt := by
  have services : ∀ order (outcomes : Outcomes F LF S L SE LE) newServices,
      mgr.reloadServicesLosing .none order outcomes newServices =
        mgr.reloadServices order outcomes newServices := by
    intro order outcomes newServices
    rw [StaticFileConfigManager.reloadServicesLosing, StaticFileConfigManager.reloadServices]
    cases diff order mgr.onlineServices newServices with
    | none => rfl
    | some patches =>
        have prepare : losingUntilError Losses.none.prepare outcomes.prepare mgr.prepareCommand
            patches mgr.workers = mgr.prepare outcomes patches mgr.workers :=
          losingUntilError_none outcomes.prepare mgr.prepareCommand patches mgr.workers
        have commit : ∀ workers, losingUntilError Losses.none.commit outcomes.commit
            mgr.commitCommand patches workers = mgr.commit outcomes patches workers :=
          losingUntilError_none outcomes.commit mgr.commitCommand patches
        dsimp only
        rw [prepare]
        rcases mgr.prepare outcomes patches mgr.workers with ⟨workers, e | _⟩
        · exact congrArg (fun ws => some (ws, Except.error e))
            (abortLosing_none outcomes patches workers)
        · dsimp only
          rcases committed : mgr.commit outcomes patches workers with ⟨ws, e | _⟩ <;>
            simp only [commit, committed]
  rw [StaticFileConfigManager.reloadFileLosing, StaticFileConfigManager.reloadFile]
  cases attempt.fileRead with
  | error e => rfl
  | ok content =>
      dsimp only
      split
      · rfl
      · cases attempt.parseServiceConfig content with
        | error e => rfl
        | ok newServices =>
            dsimp only
            rcases reloaded : mgr.reloadServices attempt.order attempt.outcomes newServices with
              _ | ⟨workers, e | _⟩ <;> simp only [services, reloaded]

end

/-! One dispatch. -/

section
variable {gone : Nat → Bool} {env : Nat → Factories F LF S L SE LE}
  {cmd : ServiceCommand F LF} {workers : List (Worker F S L)}

/-- A property of the workers that are left. -/
def EachLive (P : Nat → Worker F S L → Prop) : List (Worker F S L) → Prop :=
  Each fun i w => w.alive = true → P i w

theorem dispatch_lost {w : Worker F S L} (lost : w.alive = false)
    (env : Factories F LF S L SE LE) : w.dispatch env cmd = (w, .error .channelClosed) := by
  simp [Worker.dispatch, lost]

/-- In the broadcast of the threads and channels: workers are lost, and the command is
dispatched. -/
theorem dispatchLosing_broadcast :
    Run broadcastStep workers
      [.lost gone, .dispatched env cmd (dispatchLosing gone env cmd workers).2]
      (dispatchLosing gone env cmd workers).1 :=
  .cons rfl (.single rfl)

theorem dispatchLosing_getElem? (i : Nat) :
    (dispatchLosing gone env cmd workers).1[i]? =
      workers[i]?.map fun w => ((w.lose (gone i)).dispatch (env i) cmd).1 := by
  rw [dispatchLosing, dispatch_getElem?, List.getElem?_mapIdx, Option.map_map]
  rfl

theorem dispatchLosing_each {P Q : Nat → Worker F S L → Prop} (h : EachLive P workers)
    (keeps : ∀ i w, P i w → Q i (w.dispatch (env i) cmd).1) :
    EachLive Q (dispatchLosing gone env cmd workers).1 := by
  intro i w hw alive
  rw [dispatchLosing_getElem?] at hw
  obtain ⟨before, hb, rfl⟩ := Option.map_eq_some_iff.mp hw
  obtain ⟨left, same⟩ := lose_dispatch_alive alive
  rw [same]
  exact keeps i before (h i before hb left)

/-- The group reports success only when nobody is lost and every worker did. -/
theorem dispatchLosing_ok (hok : resultGroupErr (dispatchLosing gone env cmd workers).2 = .ok ()) :
    Each (fun i w => w.alive = true ∧ w.lose (gone i) = w ∧
      (w.dispatch (env i) cmd).2 = .ok ()) workers := by
  intro i w hw
  have lost : (workers.mapIdx fun i w => w.lose (gone i))[i]? = some (w.lose (gone i)) := by
    rw [List.getElem?_mapIdx, hw]
    rfl
  have succeeded : ((w.lose (gone i)).dispatch (env i) cmd).2 = .ok () :=
    dispatch_err_iff.mp hok i _ lost
  have alive : ((w.lose (gone i)).dispatch (env i) cmd).1.alive = true := by
    rw [dispatch_alive]
    by_contra dead
    rw [dispatch_lost (Bool.eq_false_iff.mpr dead)] at succeeded
    cases succeeded
  obtain ⟨left, same⟩ := lose_dispatch_alive alive
  rw [same] at succeeded
  exact ⟨left, same, succeeded⟩

theorem dispatchLosing_ok_iff :
    resultGroupErr (dispatchLosing gone env cmd workers).2 = .ok () ↔
      Each (fun i w => w.alive = true ∧ gone i = false ∧ (w.dispatch (env i) cmd).2 = .ok ())
        workers := by
  constructor
  · intro hok i w hw
    obtain ⟨alive, same, succeeded⟩ := dispatchLosing_ok hok i w hw
    have kept := congrArg Worker.alive same
    simp only [Worker.lose, alive, Bool.true_and, Bool.not_eq_true'] at kept
    exact ⟨alive, kept, succeeded⟩
  · intro all
    refine dispatch_err_iff.mpr fun i w hw => ?_
    rw [List.getElem?_mapIdx] at hw
    obtain ⟨before, hb, rfl⟩ := Option.map_eq_some_iff.mp hw
    obtain ⟨-, kept, succeeded⟩ := all i before hb
    rwa [kept, lose_false]

end

/-! The dispatching loop. -/

section Loop
variable (gone : Name → Nat → Bool) (env : Name → Nat → Factories F LF S L SE LE)
  (command : Patch LC SC → Option (ServiceCommand F LF))

/-- The rule of `dispatchUntilError`, for the workers that are left. -/
theorem losingUntilError_rule {I : List (Patch LC SC) → Nat → Worker F S L → Prop}
    {J : Nat → Worker F S L → Prop}
    (skip : ∀ p rest i w, command p = none → I (p :: rest) i w → I rest i w)
    (step : ∀ p rest cmd i w, command p = some cmd → I (p :: rest) i w →
      (w.dispatch (env p.key i) cmd).2 = .ok () → I rest i (w.dispatch (env p.key i) cmd).1)
    (fail : ∀ p rest cmd i w, command p = some cmd → I (p :: rest) i w →
      J i (w.dispatch (env p.key i) cmd).1)
    {patches : List (Patch LC SC)} {workers : List (Worker F S L)}
    (h : EachLive (I patches) workers) :
    let out := losingUntilError gone env command patches workers
    (out.2 = .ok () → EachLive (I []) out.1) ∧ (out.2 ≠ .ok () → EachLive J out.1) := by
  induction patches generalizing workers with
  | nil => exact ⟨fun _ => h, fun hne => absurd rfl hne⟩
  | cons p rest ih =>
      cases hc : command p with
      | none =>
          simp only [losingUntilError, hc]
          exact ih fun i w hw alive => skip p rest i w hc (h i w hw alive)
      | some cmd =>
          simp only [losingUntilError, hc]
          split
          · refine ⟨fun hok => absurd hok (by simp), fun _ => ?_⟩
            exact dispatchLosing_each h fun i w => fail p rest cmd i w hc
          · rename_i hgroup
            have each := dispatchLosing_ok hgroup
            refine ih fun i w hw alive => ?_
            rw [dispatchLosing_getElem?] at hw
            obtain ⟨before, hb, rfl⟩ := Option.map_eq_some_iff.mp hw
            obtain ⟨left, same, succeeded⟩ := each i before hb
            rw [same]
            exact step p rest cmd i before hc (h i before hb left) succeeded

/-- The loop succeeds when nobody is lost and every command does. -/
theorem losingUntilError_ok_iff {I : List (Patch LC SC) → Nat → Worker F S L → Prop}
    {Q : Patch LC SC → Nat → Prop}
    (skip : ∀ p rest i w, command p = none → I (p :: rest) i w → I rest i w)
    (step : ∀ p rest cmd i w, command p = some cmd → I (p :: rest) i w →
      (w.dispatch (env p.key i) cmd).2 = .ok () → I rest i (w.dispatch (env p.key i) cmd).1)
    (ready : ∀ p rest cmd i w, command p = some cmd → I (p :: rest) i w →
      ((w.dispatch (env p.key i) cmd).2 = .ok () ↔ Q p i))
    {patches : List (Patch LC SC)} {workers : List (Worker F S L)}
    (h : EachLive (I patches) workers) :
    (losingUntilError gone env command patches workers).2 = .ok () ↔
      ∀ p ∈ patches, command p ≠ none →
        Each (fun i w => w.alive = true ∧ gone p.key i = false ∧ Q p i) workers := by
  induction patches generalizing workers with
  | nil => simp [losingUntilError]
  | cons p rest ih =>
      cases hc : command p with
      | none =>
          simp only [losingUntilError, hc]
          rw [ih fun i w hw alive => skip p rest i w hc (h i w hw alive)]
          simp [hc]
      | some cmd =>
          have group : resultGroupErr (dispatchLosing (gone p.key) (env p.key) cmd workers).2 =
                .ok () ↔
              Each (fun i w => w.alive = true ∧ gone p.key i = false ∧ Q p i) workers := by
            rw [dispatchLosing_ok_iff]
            refine forall₃_congr fun i w hw => and_congr_right fun alive => ?_
            rw [ready p rest cmd i w hc (h i w hw alive)]
          simp only [losingUntilError, hc]
          split
          · rename_i e hgroup
            refine ⟨fun hok => absurd hok (by simp), fun hall => ?_⟩
            have succeeded := group.mpr (hall p (by simp) (by simp [hc]))
            simp [hgroup] at succeeded
          · rename_i hgroup
            have each := dispatchLosing_ok hgroup
            have after : ∀ i, (dispatchLosing (gone p.key) (env p.key) cmd workers).1[i]? =
                workers[i]?.map fun w : Worker F S L => (w.dispatch (env p.key i) cmd).1 := by
              intro i
              rw [dispatchLosing_getElem?]
              refine Option.map_congr fun w hw => ?_
              rw [(each i w hw).2.1]
            have same : ∀ q, Each (fun i w => w.alive = true ∧ gone q.key i = false ∧ Q q i)
                  (dispatchLosing (gone p.key) (env p.key) cmd workers).1 ↔
                Each (fun i w => w.alive = true ∧ gone q.key i = false ∧ Q q i) workers := by
              intro q
              refine forall_congr' fun i => ?_
              rw [after]
              cases workers[i]? with
              | none => simp
              | some w => simp [dispatch_alive]
            rw [ih, List.forall_mem_cons]
            · simp only [same]
              exact ⟨fun hall => ⟨fun _ => group.mp hgroup, hall⟩, And.right⟩
            · intro i w hw alive
              rw [after] at hw
              obtain ⟨before, hb, rfl⟩ := Option.map_eq_some_iff.mp hw
              obtain ⟨left, -, succeeded⟩ := each i before hb
              exact step p rest cmd i before hc (h i before hb left) succeeded

/-- With a worker that is lost the loop fails, unless there is nothing to dispatch. -/
theorem losingUntilError_lost {patches : List (Patch LC SC)} {workers : List (Worker F S L)}
    {w : Worker F S L} (hw : w ∈ workers) (lost : w.alive = false) {p : Patch LC SC}
    (hp : p ∈ patches) (hc : command p ≠ none) :
    (losingUntilError gone env command patches workers).2 ≠ .ok () := by
  induction patches with
  | nil => simp at hp
  | cons q rest ih =>
      rw [losingUntilError]
      split
      · rename_i none
        rcases List.mem_cons.mp hp with rfl | hp
        · exact absurd none hc
        · exact ih hp
      · dsimp only
        split
        · simp
        · rename_i hgroup
          obtain ⟨i, hi⟩ := List.mem_iff_getElem?.mp hw
          obtain ⟨alive, -⟩ := dispatchLosing_ok hgroup i w hi
          simp [lost] at alive

theorem losingUntilError_nothing {patches : List (Patch LC SC)} (workers : List (Worker F S L))
    (none : ∀ p ∈ patches, command p = none) :
    losingUntilError gone env command patches workers = (workers, .ok ()) := by
  induction patches with
  | nil => rfl
  | cons p rest ih =>
      obtain ⟨hp, hrest⟩ := List.forall_mem_cons.mp none
      rw [losingUntilError, hp]
      exact ih hrest

end Loop

/-! The three stages. -/

section Stages
variable {mgr : StaticFileConfigManager F LF S L LC SC} (losses : Losses)
  {oldServices newServices : ServiceConfigMap LC SC} (outcomes : Outcomes F LF S L SE LE)
  {patches : List (Patch LC SC)} {workers : List (Worker F S L)}

/-- The workers that are left have an earlier state that was in step. -/
def SinceInStep (mgr : StaticFileConfigManager F LF S L LC SC) (earlier : List (Worker F S L))
    (R : Worker F S L → Worker F S L → Prop) : Nat → Worker F S L → Prop :=
  Since earlier fun before w =>
    InStep mgr.serverFactoryProvider mgr.onlineServices before ∧ R before w

theorem prepareLosing_stages
    (h : EachLive (fun _ => InStep mgr.serverFactoryProvider mgr.onlineServices) workers)
    (nodup : (patches.map Patch.key).Nodup) :
    let out := losingUntilError losses.prepare outcomes.prepare mgr.prepareCommand patches workers
    (out.2 = .ok () →
      EachLive (SinceInStep mgr workers (Prepared mgr.serverFactoryProvider patches)) out.1) ∧
    (out.2 ≠ .ok () → EachLive (SinceInStep mgr workers (Staging patches)) out.1) := by
  let I : List (Patch LC SC) → Nat → Worker F S L → Prop := fun rest =>
    SinceInStep mgr workers fun before w => ∃ done, patches = done ++ rest ∧
      Prepared mgr.serverFactoryProvider done before w
  have fresh : ∀ {done rest : List (Patch LC SC)} {p : Patch LC SC},
      patches = done ++ p :: rest → p.key ∉ done.map Patch.key := by
    intro done rest p split hmem
    rw [split, List.map_append, List.map_cons] at nodup
    exact List.disjoint_of_nodup_append nodup hmem (by simp)
  have start : EachLive (I patches) workers := fun i w hw alive =>
    ⟨w, hw, h i w hw alive, [], rfl, (h i w hw alive).prepared⟩
  obtain ⟨succeeded, failed⟩ := losingUntilError_rule losses.prepare outcomes.prepare
    mgr.prepareCommand
    (J := SinceInStep mgr workers (Staging patches))
    (by
      rintro p rest i w hc ⟨before, hb, inStep, done, split, prepared⟩
      rw [prepareCommand_eq, Option.map_eq_none_iff] at hc
      exact ⟨before, hb, inStep, done ++ [p], by simp [split], prepared.skip hc (fresh split)⟩)
    (by
      rintro p rest cmd i w hc ⟨before, hb, inStep, done, split, prepared⟩ hok
      rw [prepareCommand_eq] at hc
      obtain ⟨server, hserver, rfl⟩ := Option.map_eq_some_iff.mp hc
      exact ⟨before, hb, inStep, done ++ [p], by simp [split],
        prepared.precommit hserver (fresh split) hok⟩)
    (by
      rintro p rest cmd i w hc ⟨before, hb, inStep, done, split, prepared⟩
      rw [prepareCommand_eq] at hc
      obtain ⟨server, hserver, rfl⟩ := Option.map_eq_some_iff.mp hc
      have staging : Staging (done ++ [p] ++ rest) before (w.dispatch (outcomes.prepare p.key i)
          (.precommit p.key (mgr.serverFactoryProvider server))).1 :=
        (prepared.toStaging.precommit hserver).mono
      exact ⟨before, hb, inStep, by simpa [split] using staging⟩)
    start
  refine ⟨fun hok i w hw alive => ?_, failed⟩
  obtain ⟨before, hb, inStep, done, split, prepared⟩ := succeeded hok i w hw alive
  exact ⟨before, hb, inStep, by simpa [split] using prepared⟩

theorem abortLosing_restores {earlier : List (Worker F S L)} {rest : List (Patch LC SC)}
    (h : EachLive (SinceInStep mgr earlier (Staging (patches ++ rest))) workers) :
    EachLive (SinceInStep mgr earlier (Staging rest))
      (StaticFileConfigManager.abortLosing losses outcomes patches workers) := by
  induction patches generalizing workers with
  | nil => exact h
  | cons p patches ih =>
      cases p with
      | insert key _ _ | update key _ =>
          refine ih (dispatchLosing_each h ?_)
          rintro i w ⟨before, hb, inStep, staging⟩
          exact ⟨before, hb, inStep, staging.abort⟩
      | delete key =>
          refine ih fun i w hw alive => ?_
          obtain ⟨before, hb, inStep, staging⟩ := h i w hw alive
          exact ⟨before, hb, inStep, staging.skip rfl⟩

theorem commitLosing_settles {rest : List (Patch LC SC)}
    (h : EachLive (fun _ => Committing mgr.serverFactoryProvider oldServices newServices
      (patches ++ rest)) workers)
    (hok : (losingUntilError losses.commit outcomes.commit mgr.commitCommand patches
      workers).2 = .ok ()) :
    EachLive (fun _ => Committing mgr.serverFactoryProvider oldServices newServices rest)
      (losingUntilError losses.commit outcomes.commit mgr.commitCommand patches workers).1 :=
  (losingUntilError_rule losses.commit outcomes.commit mgr.commitCommand
    (J := fun _ _ => True)
    (I := fun left _ =>
      Committing mgr.serverFactoryProvider oldServices newServices (left ++ rest))
    (fun p left i w hc => by cases p <;> simp [StaticFileConfigManager.commitCommand] at hc)
    (fun p left cmd i w hc hw => hw.step hc)
    (fun _ _ _ _ _ _ _ => trivial) h).1 hok

end Stages

/-! One attempt, and runs of attempts. -/

section
variable {mgr mgr' : StaticFileConfigManager F LF S L LC SC} {losses : Losses}
  {newServices : ServiceConfigMap LC SC} {order : IterationOrder}
  {outcomes : Outcomes F LF S L SE LE} {workers : List (Worker F S L)}

/-- The workers that are left are in step with the online services. -/
def StaticFileConfigManager.LiveInStep (mgr : StaticFileConfigManager F LF S L LC SC) : Prop :=
  EachLive (fun _ => InStep mgr.serverFactoryProvider mgr.onlineServices) mgr.workers

/-- The workers that are left run what they ran. -/
def KeepsRunning (earlier : List (Worker F S L)) : List (Worker F S L) → Prop :=
  EachLive (Since earlier fun before w => w.getSvc = before.getSvc)

/-- A complete prepare leaves the workers that are left ready for the commit of the diff. -/
theorem prepareLosing_committing (h : mgr.LiveInStep) {patches : List (Patch LC SC)}
    {prepared : List (Worker F S L)}
    (hd : diff order mgr.onlineServices newServices = some patches)
    (hprepare : losingUntilError losses.prepare outcomes.prepare mgr.prepareCommand patches
      mgr.workers = (prepared, .ok ())) :
    EachLive (fun _ => Committing mgr.serverFactoryProvider mgr.onlineServices newServices patches)
      prepared := by
  obtain ⟨ps, hps, nodup, fits, keys⟩ := diff_fits order mgr.onlineServices newServices
  obtain rfl := Option.some.inj (hps.symm.trans hd)
  have ready := (prepareLosing_stages losses outcomes h nodup).1 (by rw [hprepare])
  rw [hprepare] at ready
  intro i w hw alive
  obtain ⟨before, -, inStep, done⟩ := ready i w hw alive
  exact done.committing inStep nodup fits keys

theorem reloadServicesLosing_ok (h : mgr.LiveInStep)
    (hr : mgr.reloadServicesLosing losses order outcomes newServices = some (workers, .ok ())) :
    EachLive (fun _ => InStep mgr.serverFactoryProvider newServices) workers := by
  obtain ⟨patches, hd, -⟩ := diff_fits order mgr.onlineServices newServices
  simp only [StaticFileConfigManager.reloadServicesLosing, hd] at hr
  split at hr
  · rename_i prepared hprepare
    split at hr
    · rename_i committed hcommit
      obtain ⟨rfl, -⟩ := Prod.mk.inj (Option.some.inj hr)
      have committing := prepareLosing_committing h hd hprepare
      rw [← List.append_nil patches] at committing
      have settled := commitLosing_settles losses outcomes committing (by rw [hcommit])
      rw [hcommit] at settled
      exact fun i w hw alive => (settled i w hw alive).inStep
    · cases hr
  · simp at hr

theorem reloadServicesLosing_error (h : mgr.LiveInStep) {e : AnyError SE LE}
    (hr : mgr.reloadServicesLosing losses order outcomes newServices = some (workers, .error e)) :
    EachLive (fun _ => InStep mgr.serverFactoryProvider mgr.onlineServices) workers ∧
      KeepsRunning mgr.workers workers := by
  obtain ⟨patches, hd, nodup, fits, keys⟩ := diff_fits order mgr.onlineServices newServices
  simp only [StaticFileConfigManager.reloadServicesLosing, hd] at hr
  split at hr
  · split at hr
    · simp at hr
    · cases hr
  · rename_i prepared e' hprepare
    obtain ⟨rfl, -⟩ := Prod.mk.inj (Option.some.inj hr)
    have staged := (prepareLosing_stages losses outcomes h nodup).2 (by rw [hprepare]; simp)
    rw [hprepare, ← List.append_nil patches] at staged
    have restored := abortLosing_restores losses outcomes staged
    refine ⟨fun i w hw alive => ?_, fun i w hw alive => ?_⟩
    · obtain ⟨before, -, inStep, staging⟩ := restored i w hw alive
      exact staging.inStep inStep
    · obtain ⟨before, hb, -, staging⟩ := restored i w hw alive
      exact ⟨before, hb, staging.committed⟩

/-- One attempt: who is left stays in step, and either the file is online or nothing has
changed. -/
theorem losingStep_inStep (h : mgr.LiveInStep)
    {performed : LosingAttempt F LF S L SE LE LC SC IE PE} (hstep : losingStep mgr performed mgr') :
    mgr'.LiveInStep ∧ mgr'.serverFactoryProvider = mgr.serverFactoryProvider ∧
      (performed.2.2 ≠ .reloaded → KeepsRunning mgr.workers mgr'.workers ∧
        mgr'.onlineServices = mgr.onlineServices ∧
        mgr'.onlineConfigContent = mgr.onlineConfigContent) := by
  obtain ⟨attempt, losses, result⟩ := performed
  have same : KeepsRunning mgr.workers mgr.workers := fun i w hw _ => ⟨w, hw, rfl⟩
  simp only [losingStep, StaticFileConfigManager.reloadFileLosing] at hstep
  split at hstep
  · obtain ⟨rfl, rfl⟩ := Prod.mk.inj (Option.some.inj hstep)
    exact ⟨h, rfl, fun _ => ⟨same, rfl, rfl⟩⟩
  · split at hstep
    · obtain ⟨rfl, rfl⟩ := Prod.mk.inj (Option.some.inj hstep)
      exact ⟨h, rfl, fun _ => ⟨same, rfl, rfl⟩⟩
    · split at hstep
      · obtain ⟨rfl, rfl⟩ := Prod.mk.inj (Option.some.inj hstep)
        exact ⟨h, rfl, fun _ => ⟨same, rfl, rfl⟩⟩
      · split at hstep
        · cases hstep
        · rename_i workers e hreload
          obtain ⟨rfl, rfl⟩ := Prod.mk.inj (Option.some.inj hstep)
          obtain ⟨inStep, keeps⟩ := reloadServicesLosing_error h hreload
          exact ⟨inStep, rfl, fun _ => ⟨keeps, rfl, rfl⟩⟩
        · rename_i workers hreload
          obtain ⟨rfl, rfl⟩ := Prod.mk.inj (Option.some.inj hstep)
          have settled := reloadServicesLosing_ok h hreload
          exact ⟨settled, rfl, fun hne => absurd rfl hne⟩

theorem liveInStep_run {threads : Nat} {listenerFactoryProvider : LC → LF}
    {serverFactoryProvider : SC → F} {performed : List (LosingAttempt F LF S L SE LE LC SC IE PE)}
    (hrun : Run losingStep (.new threads listenerFactoryProvider serverFactoryProvider)
      performed mgr) :
    mgr.LiveInStep ∧ mgr.serverFactoryProvider = serverFactoryProvider := by
  refine hrun.invariant (I := fun m => m.LiveInStep ∧
      m.serverFactoryProvider = serverFactoryProvider) ?_
    ⟨fun i w hw _ => new_inStep threads _ _ i w hw, rfl⟩
  intro a l b inv hstep
  obtain ⟨inStep, provider, -⟩ := losingStep_inStep inv.1 hstep
  exact ⟨inStep, provider.trans inv.2⟩

/-- A configuration with a service asks every worker to precommit. -/
theorem reloadServicesLosing_lost (losses : Losses) (order : IterationOrder)
    (outcomes : Outcomes F LF S L SE LE) {w : Worker F S L} (hw : w ∈ mgr.workers)
    (lost : w.alive = false) {key : Name} (hkey : key ∈ newServices) :
    ∃ workers e, mgr.reloadServicesLosing losses order outcomes newServices =
      some (workers, .error e) := by
  obtain ⟨patches, hd, -, fits, keys⟩ := diff_fits order mgr.onlineServices newServices
  obtain ⟨p, hp, rfl⟩ := List.mem_map.mp ((keys key).mpr (.inr hkey))
  have stages : mgr.prepareCommand p ≠ none := by
    have fit := fits p hp
    cases p with
    | insert | update => exact Option.some_ne_none _
    | delete => exact absurd hkey fit.2
  have failed := losingUntilError_lost losses.prepare outcomes.prepare mgr.prepareCommand hw lost
    hp stages
  simp only [StaticFileConfigManager.reloadServicesLosing, hd]
  split
  · rename_i hprepare
    exact absurd (by rw [hprepare]) failed
  · exact ⟨_, _, rfl⟩

/-- One without services asks nobody before the commit. -/
theorem reloadServicesLosing_emptied (losses : Losses) (order : IterationOrder)
    (outcomes : Outcomes F LF S L SE LE) {w : Worker F S L} (hw : w ∈ mgr.workers)
    (lost : w.alive = false) (empty : ∀ key, key ∉ newServices) {key : Name}
    (hkey : key ∈ mgr.onlineServices) :
    mgr.reloadServicesLosing losses order outcomes newServices = none := by
  obtain ⟨patches, hd, -, fits, keys⟩ := diff_fits order mgr.onlineServices newServices
  obtain ⟨p, hp, rfl⟩ := List.mem_map.mp ((keys key).mpr (.inl hkey))
  have unstaged : ∀ q ∈ patches, mgr.prepareCommand q = none := fun q hq => by
    have fit := fits q hq
    cases q with
    | insert key _ _ => exact absurd (AList.lookup_isSome.mp (by simp [fit.2])) (empty key)
    | update key _ =>
        obtain ⟨listener, config⟩ := fit.2
        exact absurd (AList.lookup_isSome.mp (by simp [config])) (empty key)
    | delete => rfl
  have removes : mgr.commitCommand p ≠ none := by
    cases p <;> exact Option.some_ne_none _
  have failed := losingUntilError_lost losses.commit outcomes.commit mgr.commitCommand hw lost
    hp removes
  simp only [StaticFileConfigManager.reloadServicesLosing, hd,
    losingUntilError_nothing losses.prepare outcomes.prepare mgr.prepareCommand _ unstaged]
  split
  · rename_i hcommit
    exact absurd (by rw [hcommit]) failed
  · rfl

/-- Workers may be lost at any time. After any attempts, every worker that is left runs, under
the online names and no others, services built from their online configs, and nothing is
staged. Once a worker is lost, no new file that has a service can be loaded: the attempt fails
in its prepare stage and leaves what is running as it was. A file without services, when
services are online, makes the manager panic. -/
theorem hot_reload_despite_losses {threads : Nat} {listenerFactoryProvider : LC → LF}
    {serverFactoryProvider : SC → F} {performed : List (LosingAttempt F LF S L SE LE LC SC IE PE)}
    (hrun : Run losingStep (.new threads listenerFactoryProvider serverFactoryProvider)
      performed mgr) :
    (∀ w ∈ mgr.workers, w.alive = true →
      (∀ n, (∃ svc, w.getSvc n = some svc) ↔ n ∈ mgr.onlineServices) ∧
      (∀ n svc config, w.getSvc n = some svc → mgr.onlineServices.lookup n = some config →
        svc.factory = serverFactoryProvider config.server) ∧
      ∀ n, w.stagedSvc n = none) ∧
    ∀ (losses : Losses) (attempt : Attempt F LF S L SE LE LC SC IE PE) content newServices,
      attempt.fileRead = .ok content → mgr.onlineConfigContent ≠ content →
      attempt.parseServiceConfig content = .ok newServices →
      (∃ w ∈ mgr.workers, w.alive = false) →
      ((∃ key, key ∈ newServices) →
        ∃ mgr' e, mgr.reloadFileLosing losses attempt = some (mgr', .prepareFailed e) ∧
          KeepsRunning mgr.workers mgr'.workers ∧ mgr'.onlineServices = mgr.onlineServices) ∧
      ((∀ key, key ∉ newServices) → (∃ key, key ∈ mgr.onlineServices) →
        mgr.reloadFileLosing losses attempt = none) := by
  obtain ⟨inStep, provider⟩ := liveInStep_run hrun
  refine ⟨fun w hw alive => ?_, ?_⟩
  · obtain ⟨i, hi⟩ := List.getElem?_of_mem hw
    have worker := inStep i w hi alive
    refine ⟨fun n => ?_, fun n svc config hsvc hconfig => ?_, worker.nothing_staged⟩
    · rw [← Option.isSome_iff_exists, ← AList.lookup_isSome,
        ← Option.isSome_map (f := (·.factory)), worker.committed, Option.isSome_map]
    · have := worker.committed n
      rw [hsvc, hconfig, provider] at this
      exact Option.some.inj this
  · rintro losses attempt content newServices hread changed hparse ⟨w, hw, lost⟩
    constructor
    · rintro ⟨key, hkey⟩
      obtain ⟨workers, e, hreload⟩ := reloadServicesLosing_lost losses attempt.order
        attempt.outcomes hw lost hkey
      have step : mgr.reloadFileLosing losses attempt =
          some ({ mgr with workers }, .prepareFailed e) := by
        simp only [StaticFileConfigManager.reloadFileLosing, hread, if_neg changed, hparse, hreload]
      exact ⟨_, e, step, (reloadServicesLosing_error inStep hreload).2, rfl⟩
    · rintro empty ⟨key, hkey⟩
      have hreload := reloadServicesLosing_emptied losses attempt.order attempt.outcomes hw lost
        empty hkey
      simp only [StaticFileConfigManager.reloadFileLosing, hread, if_neg changed, hparse, hreload]

end

/-- The second worker is lost before the next prepare. -/
def secondWorkerLost : Losses := { Losses.none with prepare := fun _ i => i = 1 }

/-- A reload of two workers, one of which is lost in the next attempt. After that no file with
a service is loaded. -/
theorem reload_then_lost_worker :
    ∃ (mgr : StaticFileConfigManager Nat Nat Nat Nat Nat Nat),
      Run losingStep (.new 2 id id)
        [(attemptOf 1 firstSite allAnswer, .none, .reloaded),
          (attemptOf 2 secondSite allAnswer, secondWorkerLost, .prepareFailed .channelClosed)] mgr ∧
      ∃ mgr' e, mgr.reloadFileLosing .none (attemptOf 2 secondSite allAnswer) =
          some (mgr', .prepareFailed e) ∧
        KeepsRunning mgr.workers mgr'.workers ∧ mgr'.onlineServices = firstSite := by
  have run : Run losingStep (.new 2 id id)
      [(attemptOf 1 firstSite allAnswer, .none, .reloaded),
        (attemptOf 2 secondSite allAnswer, secondWorkerLost, .prepareFailed .channelClosed)] _ :=
    .cons rfl (.single rfl)
  obtain ⟨-, next⟩ := hot_reload_despite_losses run
  obtain ⟨stuck, -⟩ := next .none (attemptOf 2 secondSite allAnswer) [2] secondSite rfl
    (by decide) rfl ⟨_, .tail _ (.head _), rfl⟩
  exact ⟨_, run, stuck ⟨"web", by decide⟩⟩

end Monolake.Config
