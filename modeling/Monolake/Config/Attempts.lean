import Monolake.Config.Reload
import Monolake.Foundation.Runs

/-!
Whole attempts. Whatever an attempt meets, a manager that is left after it has
every worker in step with its online services; the only panic is a commit that
fails, and only a listener can make it fail.
-/
namespace Monolake.Config

universe u
open Foundation Orchestrator

variable {F LF S L SE LE LC SC IE PE : Type u}

theorem dispatchUntilError_length {env : Name → Nat → Factories F LF S L SE LE}
    {command : Patch LC SC → Option (ServiceCommand F LF)} (patches : List (Patch LC SC))
    (workers : List (Worker F S L)) :
    (dispatchUntilError env command patches workers).1.length = workers.length := by
  induction patches generalizing workers with
  | nil => rfl
  | cons p rest ih =>
      rw [dispatchUntilError]
      split
      · exact ih workers
      · dsimp only
        split
        · exact dispatch_length
        · exact (ih _).trans dispatch_length

/-! The three stages over all workers. -/

section Stages
variable {mgr : StaticFileConfigManager F LF S L LC SC}
  {oldServices newServices : ServiceConfigMap LC SC} {outcomes : Outcomes F LF S L SE LE}
  {patches : List (Patch LC SC)} {workers : List (Worker F S L)}

/-- The workers are related, position by position, to those of an earlier moment. -/
def Since (earlier : List (Worker F S L)) (R : Worker F S L → Worker F S L → Prop) :
    Nat → Worker F S L → Prop :=
  fun i w => ∃ before, earlier[i]? = some before ∧ R before w

theorem since_self {R : Worker F S L → Worker F S L → Prop} {P : Worker F S L → Prop}
    (h : Each (fun _ => P) workers) (refl : ∀ w, P w → R w w) :
    Each (Since workers R) workers :=
  fun i w hw => ⟨w, hw, refl w (h i w hw)⟩

theorem prepareCommand_eq (p : Patch LC SC) :
    mgr.prepareCommand p =
      p.staging.map fun server => .precommit p.key (mgr.serverFactoryProvider server) := by
  cases p <;> rfl

/-- A prepare that succeeds has staged every patch on every worker, and one that
fails has staged some of them on some workers. -/
theorem prepare_stages
    (h : Each (fun _ => InStep mgr.serverFactoryProvider oldServices) workers)
    (nodup : (patches.map Patch.key).Nodup) :
    let out := mgr.prepare outcomes patches workers
    (out.2 = .ok () →
      Each (Since workers (Prepared mgr.serverFactoryProvider patches)) out.1) ∧
    (out.2 ≠ .ok () → Each (Since workers (Staging patches)) out.1) := by
  let I : List (Patch LC SC) → Nat → Worker F S L → Prop := fun rest =>
    Since workers fun before w => ∃ done, patches = done ++ rest ∧
      Prepared mgr.serverFactoryProvider done before w
  have fresh : ∀ {done rest : List (Patch LC SC)} {p : Patch LC SC},
      patches = done ++ p :: rest → p.key ∉ done.map Patch.key := by
    intro done rest p split hmem
    rw [split, List.map_append, List.map_cons] at nodup
    exact List.disjoint_of_nodup_append nodup hmem (by simp)
  have start : Each (I patches) workers :=
    since_self h fun w hw => ⟨[], rfl, hw.prepared⟩
  obtain ⟨succeeded, failed⟩ := dispatchUntilError_rule outcomes.prepare mgr.prepareCommand
    (J := Since workers (Staging patches))
    (by
      rintro p rest i w hc ⟨before, hb, done, split, prepared⟩
      rw [prepareCommand_eq, Option.map_eq_none_iff] at hc
      exact ⟨before, hb, done ++ [p], by simp [split], prepared.skip hc (fresh split)⟩)
    (by
      rintro p rest cmd i w hc ⟨before, hb, done, split, prepared⟩ hok
      rw [prepareCommand_eq] at hc
      obtain ⟨server, hserver, rfl⟩ := Option.map_eq_some_iff.mp hc
      exact ⟨before, hb, done ++ [p], by simp [split],
        prepared.precommit hserver (fresh split) hok⟩)
    (by
      rintro p rest cmd i w hc ⟨before, hb, done, split, prepared⟩
      rw [prepareCommand_eq] at hc
      obtain ⟨server, hserver, rfl⟩ := Option.map_eq_some_iff.mp hc
      have staging : Staging (done ++ [p] ++ rest) before (w.dispatch (outcomes.prepare p.key i)
          (.precommit p.key (mgr.serverFactoryProvider server))).1 :=
        (prepared.toStaging.precommit hserver).mono
      exact ⟨before, hb, by simpa [split] using staging⟩)
    start
  refine ⟨fun hok i w hw => ?_, failed⟩
  obtain ⟨before, hb, done, split, prepared⟩ := succeeded hok i w hw
  exact ⟨before, hb, by simpa [split] using prepared⟩

/-- The abort takes everything back, whatever the workers answer. -/
theorem abort_restores {earlier : List (Worker F S L)}
    (h : Each (Since earlier (Staging patches)) workers) :
    Each (Since earlier (Staging ([] : List (Patch LC SC))))
      (StaticFileConfigManager.abort outcomes patches workers) := by
  induction patches generalizing workers with
  | nil => exact h
  | cons p rest ih =>
      cases p with
      | insert key _ _ | update key _ =>
          refine ih (dispatch_each h ?_)
          rintro i w ⟨before, hb, staging⟩
          exact ⟨before, hb, staging.abort⟩
      | delete key =>
          refine ih ?_
          intro i w hw
          obtain ⟨before, hb, staging⟩ := h i w hw
          exact ⟨before, hb, staging.skip rfl⟩

theorem abort_length (patches : List (Patch LC SC)) (workers : List (Worker F S L)) :
    (StaticFileConfigManager.abort outcomes patches workers).length = workers.length := by
  induction patches generalizing workers with
  | nil => rfl
  | cons p rest ih =>
      cases p with
      | insert _ _ _ | update _ _ => exact (ih _).trans dispatch_length
      | delete _ => exact ih workers

theorem commit_settles
    (h : Each (fun _ => Committing mgr.serverFactoryProvider oldServices newServices patches)
      workers)
    (hok : (mgr.commit outcomes patches workers).2 = .ok ()) :
    Each (fun _ => InStep mgr.serverFactoryProvider newServices)
      (mgr.commit outcomes patches workers).1 := by
  have settled := (dispatchUntilError_rule outcomes.commit mgr.commitCommand (J := fun _ _ => True)
    (I := fun rest _ => Committing mgr.serverFactoryProvider oldServices newServices rest)
    (fun p rest i w hc => by cases p <;> simp [StaticFileConfigManager.commitCommand] at hc)
    (fun p rest cmd i w hc hw => hw.step hc)
    (fun _ _ _ _ _ _ _ => trivial) h).1 hok
  exact fun i w hw => (settled i w hw).inStep

theorem commit_ok_iff
    (h : Each (fun _ => Committing mgr.serverFactoryProvider oldServices newServices patches)
      workers) :
    (mgr.commit outcomes patches workers).2 = .ok () ↔
      ∀ p ∈ patches, ∀ i < workers.length, p.ListenerMade mgr (outcomes.commit p.key i) := by
  have commands : ∀ p : Patch LC SC, mgr.commitCommand p ≠ none := by
    intro p
    cases p <;> simp [StaticFileConfigManager.commitCommand]
  have loop := dispatchUntilError_ok_iff outcomes.commit mgr.commitCommand
    (I := fun rest _ => Committing mgr.serverFactoryProvider oldServices newServices rest)
    (Q := fun p i => p.ListenerMade mgr (outcomes.commit p.key i))
    (fun p rest i w hc => absurd hc (commands p))
    (fun p rest cmd i w hc hw => hw.step hc)
    (fun p rest cmd i w hc hw => hw.ready hc) h
  rw [StaticFileConfigManager.commit, loop]
  exact ⟨fun hall p hp => hall p hp (commands p), fun hall p hp _ => hall p hp⟩

end Stages

/-! One attempt on a manager whose workers are in step. -/

namespace StaticFileConfigManager

/-- Every worker is in step with the online services. -/
def WorkersInStep (mgr : StaticFileConfigManager F LF S L LC SC) : Prop :=
  Each (fun _ => InStep mgr.serverFactoryProvider mgr.onlineServices) mgr.workers

/-- What every worker runs, by position. -/
def running (mgr : StaticFileConfigManager F LF S L LC SC) (i : Nat) :
    Option (Name → Option (BuiltService F S)) :=
  mgr.workers[i]?.map Worker.getSvc

/-- Each worker can make the listener of each name that `newServices` adds. -/
def ListenersMade (mgr : StaticFileConfigManager F LF S L LC SC)
    (outcomes : Outcomes F LF S L SE LE) (newServices : ServiceConfigMap LC SC) : Prop :=
  ∀ key config, key ∉ mgr.onlineServices → newServices.lookup key = some config →
    ∀ i < mgr.workers.length, ∃ l,
      (outcomes.commit key i).makeListener (mgr.listenerFactoryProvider config.listener) = .ok l

end StaticFileConfigManager

section OneAttempt
variable {mgr mgr' : StaticFileConfigManager F LF S L LC SC}
  {newServices : ServiceConfigMap LC SC} {patches : List (Patch LC SC)}
  {order : IterationOrder} {outcomes : Outcomes F LF S L SE LE}

theorem new_inStep (threads : Nat) (listenerFactoryProvider : LC → LF)
    (serverFactoryProvider : SC → F) :
    (StaticFileConfigManager.new threads listenerFactoryProvider serverFactoryProvider :
      StaticFileConfigManager F LF S L LC SC).WorkersInStep := by
  intro i w hw
  obtain ⟨-, rfl⟩ := List.mem_replicate.mp (List.mem_of_getElem? hw)
  exact ⟨Worker.start_sound, fun _ => rfl, fun _ => rfl⟩

/-- Over the patches of a diff, only inserted names ask for a listener. -/
theorem listenersMade_iff (hd : diff order mgr.onlineServices newServices = some patches) :
    (∀ p ∈ patches, ∀ i < mgr.workers.length, p.ListenerMade mgr (outcomes.commit p.key i)) ↔
      mgr.ListenersMade outcomes newServices := by
  obtain ⟨ps, hps, -, fits, keys⟩ := diff_fits order mgr.onlineServices newServices
  obtain rfl := Option.some.inj (hps.symm.trans hd)
  constructor
  · intro hall key config hnew hconfig i hi
    have hmem := (keys key).mpr (.inr (AList.lookup_isSome.mp (by simp [hconfig])))
    obtain ⟨p, hp, rfl⟩ := List.mem_map.mp hmem
    have hfit := fits p hp
    have hmade := hall p hp i hi
    cases p with
    | insert key listener server =>
        obtain rfl := Option.some.inj (hfit.2.symm.trans hconfig)
        exact hmade
    | update key server => exact absurd hfit.1 hnew
    | delete key => exact absurd hfit.1 hnew
  · intro hall p hp i hi
    have hfit := fits p hp
    cases p with
    | insert key listener server => exact hall key ⟨listener, server⟩ hfit.1 hfit.2 i hi
    | update key server => trivial
    | delete key => trivial

/-- A complete prepare leaves every worker ready for the commit of the diff. -/
theorem prepare_committing (h : mgr.WorkersInStep)
    (hd : diff order mgr.onlineServices newServices = some patches)
    (hok : (mgr.prepare outcomes patches mgr.workers).2 = .ok ()) :
    Each (fun _ =>
        Committing mgr.serverFactoryProvider mgr.onlineServices newServices patches)
      (mgr.prepare outcomes patches mgr.workers).1 := by
  obtain ⟨ps, hps, nodup, fits, keys⟩ := diff_fits order mgr.onlineServices newServices
  obtain rfl := Option.some.inj (hps.symm.trans hd)
  intro i w hw
  obtain ⟨before, hb, prepared⟩ := (prepare_stages h nodup).1 hok i w hw
  exact prepared.committing (h i before hb) nodup fits keys

/-- A prepare that stops leaves nothing behind once it is aborted. -/
theorem prepare_aborted (h : mgr.WorkersInStep)
    (hd : diff order mgr.onlineServices newServices = some patches)
    (herr : (mgr.prepare outcomes patches mgr.workers).2 ≠ .ok ()) :
    Each (Since mgr.workers fun before w => w.getSvc = before.getSvc ∧
        InStep mgr.serverFactoryProvider mgr.onlineServices w)
      (StaticFileConfigManager.abort outcomes patches
        (mgr.prepare outcomes patches mgr.workers).1) := by
  obtain ⟨ps, hps, nodup, -⟩ := diff_fits order mgr.onlineServices newServices
  obtain rfl := Option.some.inj (hps.symm.trans hd)
  intro i w hw
  obtain ⟨before, hb, staging⟩ := abort_restores ((prepare_stages h nodup).2 herr) i w hw
  exact ⟨before, hb, staging.committed, staging.inStep (h i before hb)⟩

/-- The commit that follows a complete prepare depends on the listeners only. -/
theorem commit_after_prepare (h : mgr.WorkersInStep)
    (hd : diff order mgr.onlineServices newServices = some patches)
    (hok : (mgr.prepare outcomes patches mgr.workers).2 = .ok ()) :
    (mgr.commit outcomes patches (mgr.prepare outcomes patches mgr.workers).1).2 = .ok () ↔
      mgr.ListenersMade outcomes newServices := by
  rw [commit_ok_iff (prepare_committing h hd hok), ← listenersMade_iff hd]
  simp only [StaticFileConfigManager.prepare, dispatchUntilError_length]

end OneAttempt

end Monolake.Config
