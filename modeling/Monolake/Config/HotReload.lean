import Monolake.Config.Attempts

/-!
Runs of attempts. After each of them every worker is in step with the online
services, and an attempt that does not reload leaves everything as it was.
-/
namespace Monolake.Config

universe u
open Foundation Orchestrator

variable {F LF S L SE LE LC SC IE PE : Type u}
  {mgr mgr' : StaticFileConfigManager F LF S L LC SC}
  {newServices : ServiceConfigMap LC SC} {order : IterationOrder}
  {outcomes : Outcomes F LF S L SE LE} {workers : List (Worker F S L)}

theorem reloadServices_ok (h : mgr.WorkersInStep)
    (hr : mgr.reloadServices order outcomes newServices = some (workers, .ok ())) :
    Each (fun _ => InStep mgr.serverFactoryProvider newServices) workers ∧
      workers.length = mgr.workers.length := by
  obtain ⟨patches, hd, -⟩ := diff_fits order mgr.onlineServices newServices
  simp only [StaticFileConfigManager.reloadServices, hd] at hr
  split at hr
  · rename_i prepared hprepare
    split at hr
    · rename_i committed hcommit
      obtain ⟨rfl, -⟩ := Prod.mk.inj (Option.some.inj hr)
      have ready := prepare_committing h hd (by rw [hprepare])
      rw [hprepare] at ready
      have settled := commit_settles ready (by rw [hcommit])
      have prepared_length := congrArg (·.1.length) hprepare
      have committed_length := congrArg (·.1.length) hcommit
      simp only [StaticFileConfigManager.prepare, StaticFileConfigManager.commit,
        dispatchUntilError_length] at prepared_length committed_length
      rw [hcommit] at settled
      exact ⟨settled, by omega⟩
    · cases hr
  · simp at hr

theorem reloadServices_error (h : mgr.WorkersInStep) {e : AnyError SE LE}
    (hr : mgr.reloadServices order outcomes newServices = some (workers, .error e)) :
    Each (Since mgr.workers fun before w => w.getSvc = before.getSvc ∧
        InStep mgr.serverFactoryProvider mgr.onlineServices w) workers ∧
      workers.length = mgr.workers.length := by
  obtain ⟨patches, hd, -⟩ := diff_fits order mgr.onlineServices newServices
  simp only [StaticFileConfigManager.reloadServices, hd] at hr
  split at hr
  · split at hr
    · simp at hr
    · cases hr
  · rename_i prepared e' hprepare
    obtain ⟨rfl, -⟩ := Prod.mk.inj (Option.some.inj hr)
    have aborted := prepare_aborted h hd (by rw [hprepare]; simp)
    have prepared_length := congrArg (·.1.length) hprepare
    simp only [StaticFileConfigManager.prepare, dispatchUntilError_length] at prepared_length
    rw [hprepare] at aborted
    exact ⟨aborted, by rw [abort_length, prepared_length]⟩

/-- The panic at the commit stage is out of reach while listeners can be made. -/
theorem reloadServices_returns (h : mgr.WorkersInStep)
    (listeners : mgr.ListenersMade outcomes newServices) :
    ∃ r, mgr.reloadServices order outcomes newServices = some r := by
  obtain ⟨patches, hd, -⟩ := diff_fits order mgr.onlineServices newServices
  simp only [StaticFileConfigManager.reloadServices, hd]
  split
  · rename_i prepared hprepare
    have hok := (commit_after_prepare h hd (by rw [hprepare])).mpr listeners
    rw [hprepare] at hok
    split
    · exact ⟨_, rfl⟩
    · rename_i hcommit
      simp [hcommit] at hok
  · exact ⟨_, rfl⟩

/-- The services an attempt brings online: those its file describes. -/
def Attempt.Brings (attempt : Attempt F LF S L SE LE LC SC IE PE)
    (mgr : StaticFileConfigManager F LF S L LC SC) : Prop :=
  attempt.fileRead = .ok mgr.onlineConfigContent ∧
    attempt.parseServiceConfig mgr.onlineConfigContent = .ok mgr.onlineServices

/-- One attempt: workers stay in step, and either the file is online or nothing
has changed. -/
theorem reloadStep_inStep (h : mgr.WorkersInStep)
    {performed : Attempt F LF S L SE LE LC SC IE PE × ReloadResult SE LE IE PE}
    (hstep : reloadStep mgr performed mgr') :
    mgr'.WorkersInStep ∧ mgr'.workers.length = mgr.workers.length ∧
      mgr'.serverFactoryProvider = mgr.serverFactoryProvider ∧
      (performed.2 = .reloaded → performed.1.Brings mgr') ∧
      (performed.2 ≠ .reloaded → mgr'.running = mgr.running ∧
        mgr'.onlineServices = mgr.onlineServices ∧
        mgr'.onlineConfigContent = mgr.onlineConfigContent) := by
  obtain ⟨attempt, result⟩ := performed
  simp only [reloadStep, StaticFileConfigManager.reloadFile] at hstep
  split at hstep
  · obtain ⟨rfl, rfl⟩ := Prod.mk.inj (Option.some.inj hstep)
    exact ⟨h, rfl, rfl, by simp, fun _ => ⟨rfl, rfl, rfl⟩⟩
  · rename_i latestContent hread
    split at hstep
    · obtain ⟨rfl, rfl⟩ := Prod.mk.inj (Option.some.inj hstep)
      exact ⟨h, rfl, rfl, by simp, fun _ => ⟨rfl, rfl, rfl⟩⟩
    · split at hstep
      · obtain ⟨rfl, rfl⟩ := Prod.mk.inj (Option.some.inj hstep)
        exact ⟨h, rfl, rfl, by simp, fun _ => ⟨rfl, rfl, rfl⟩⟩
      · rename_i newServices hparse
        split at hstep
        · cases hstep
        · rename_i workers e hreload
          obtain ⟨rfl, rfl⟩ := Prod.mk.inj (Option.some.inj hstep)
          obtain ⟨restored, length⟩ := reloadServices_error h hreload
          refine ⟨fun i w hw => ?_, length, rfl, by simp, fun _ => ⟨?_, rfl, rfl⟩⟩
          · obtain ⟨before, -, -, inStep⟩ := restored i w hw
            exact inStep
          · funext i
            change workers[i]?.map Worker.getSvc = mgr.workers[i]?.map Worker.getSvc
            cases hw : workers[i]? with
            | none =>
                rw [List.getElem?_eq_none_iff, length] at hw
                rw [List.getElem?_eq_none_iff.mpr hw]
            | some w =>
                obtain ⟨before, hb, same, -⟩ := restored i w hw
                simp [hb, same]
        · rename_i workers hreload
          obtain ⟨rfl, rfl⟩ := Prod.mk.inj (Option.some.inj hstep)
          obtain ⟨settled, length⟩ := reloadServices_ok h hreload
          exact ⟨settled, length, rfl, fun _ => ⟨hread, hparse⟩, fun hne => absurd rfl hne⟩

theorem inStep_run {threads : Nat} {listenerFactoryProvider : LC → LF}
    {serverFactoryProvider : SC → F}
    {performed : List (Attempt F LF S L SE LE LC SC IE PE × ReloadResult SE LE IE PE)}
    (hrun : Run reloadStep (.new threads listenerFactoryProvider serverFactoryProvider)
      performed mgr) :
    mgr.WorkersInStep ∧ mgr.workers.length = threads ∧
      mgr.serverFactoryProvider = serverFactoryProvider := by
  refine hrun.invariant (I := fun m => m.WorkersInStep ∧ m.workers.length = threads ∧
      m.serverFactoryProvider = serverFactoryProvider) ?_
    ⟨new_inStep threads _ _, by simp [StaticFileConfigManager.new], rfl⟩
  intro a l b inv hstep
  obtain ⟨inStep, length, provider, -⟩ := reloadStep_inStep inv.1 hstep
  exact ⟨inStep, length.trans inv.2.1, provider.trans inv.2.2⟩

/-- Every listener factory of every worker succeeds when asked in this attempt. -/
def Attempt.ListenersSucceed (attempt : Attempt F LF S L SE LE LC SC IE PE) : Prop :=
  ∀ key i listenerFactory, ∃ l,
    (attempt.outcomes.commit key i).makeListener listenerFactory = .ok l

theorem reloadFile_returns (h : mgr.WorkersInStep)
    {attempt : Attempt F LF S L SE LE LC SC IE PE} (listeners : attempt.ListenersSucceed) :
    ∃ out, mgr.reloadFile attempt = some out := by
  rw [StaticFileConfigManager.reloadFile]
  split
  · exact ⟨_, rfl⟩
  · split
    · exact ⟨_, rfl⟩
    · split
      · exact ⟨_, rfl⟩
      · rename_i newServices hparse
        have made : mgr.ListenersMade attempt.outcomes newServices := fun key config _ _ i _ =>
          listeners key i (mgr.listenerFactoryProvider config.listener)
        have returns : ∃ r, mgr.reloadServices attempt.order attempt.outcomes newServices =
          some r := reloadServices_returns h made
        obtain ⟨r, hr⟩ := returns
        rw [hr]
        rcases r with ⟨workers, _ | _⟩
        · exact ⟨_, rfl⟩
        · exact ⟨_, rfl⟩

/-- After any attempts, whatever the files, the factories and the iteration
orders were: on every worker the committed names are the online ones, each
service built from the online config of its name, and nothing is staged. As long
as listeners can be made the next attempt returns, and unless it brings its file
online it changes neither what the workers run nor what is online. -/
theorem hot_reload_in_step {threads : Nat} {listenerFactoryProvider : LC → LF}
    {serverFactoryProvider : SC → F}
    {performed : List (Attempt F LF S L SE LE LC SC IE PE × ReloadResult SE LE IE PE)}
    (hrun : Run reloadStep (.new threads listenerFactoryProvider serverFactoryProvider)
      performed mgr) :
    mgr.workers.length = threads ∧
    (∀ w ∈ mgr.workers,
      (∀ n, (∃ svc, w.getSvc n = some svc) ↔ n ∈ mgr.onlineServices) ∧
      (∀ n svc config, w.getSvc n = some svc → mgr.onlineServices.lookup n = some config →
        svc.factory = serverFactoryProvider config.server) ∧
      ∀ n, w.stagedSvc n = none) ∧
    ∀ attempt : Attempt F LF S L SE LE LC SC IE PE, attempt.ListenersSucceed →
      ∃ mgr' result, mgr.reloadFile attempt = some (mgr', result) ∧
        (result = .reloaded → attempt.Brings mgr') ∧
        (result ≠ .reloaded → mgr'.running = mgr.running ∧
          mgr'.onlineServices = mgr.onlineServices ∧
          mgr'.onlineConfigContent = mgr.onlineConfigContent) := by
  obtain ⟨inStep, length, provider⟩ := inStep_run hrun
  refine ⟨length, fun w hw => ?_, fun attempt listeners => ?_⟩
  · obtain ⟨i, hi⟩ := List.getElem?_of_mem hw
    have worker := inStep i w hi
    refine ⟨fun n => ?_, fun n svc config hsvc hconfig => ?_, worker.nothing_staged⟩
    · rw [← Option.isSome_iff_exists, ← AList.lookup_isSome,
        ← Option.isSome_map (f := (·.factory)), worker.committed, Option.isSome_map]
    · have := worker.committed n
      rw [hsvc, hconfig, provider] at this
      exact Option.some.inj this
  · obtain ⟨⟨mgr', result⟩, hstep⟩ := reloadFile_returns inStep listeners
    have step : reloadStep mgr (attempt, result) mgr' := hstep
    obtain ⟨-, -, -, brings, keeps⟩ := reloadStep_inStep inStep step
    exact ⟨mgr', result, hstep, brings, keeps⟩

/-- One site brought online on two workers. -/
def firstSite : ServiceConfigMap Nat Nat := AList.singleton "web" ⟨80, 7⟩

def secondSite : ServiceConfigMap Nat Nat := firstSite.insert "api" ⟨81, 8⟩

def inOrder : IterationOrder := { arrange := id, perm := fun _ => .rfl }

/-- Every factory answers, on every worker. -/
def allAnswer : Outcomes Nat Nat Nat Nat Nat Nat :=
  { prepare := fun _ _ => answering, commit := fun _ _ => answering,
    abort := fun _ _ => answering }

def attemptOf (content : UInt8) (services : ServiceConfigMap Nat Nat)
    (outcomes : Outcomes Nat Nat Nat Nat Nat Nat) :
    Attempt Nat Nat Nat Nat Nat Nat Nat Nat Nat Nat :=
  { fileRead := .ok [content], parseServiceConfig := fun _ => .ok services,
    order := inOrder, outcomes }

/-- The second worker cannot build the service of the second site. -/
def secondWorkerFails : Outcomes Nat Nat Nat Nat Nat Nat :=
  { allAnswer with
    prepare := fun key i =>
      if key = "api" ∧ i = 1 then { answering with makeViaRef := fun _ _ => .error 0 }
      else answering }

/-- One reload of two workers, and then one whose prepare stops at the second
worker of its last key: both workers still run what they ran. -/
theorem reload_then_failed_prepare :
    ∃ (mgr mgr' : StaticFileConfigManager Nat Nat Nat Nat Nat Nat) (e : AnyError Nat Nat),
      Run reloadStep (.new 2 id id) [(attemptOf 1 firstSite allAnswer, .reloaded)] mgr ∧
      mgr.workers.length = 2 ∧ "web" ∈ mgr.onlineServices ∧
      mgr.reloadFile (attemptOf 2 secondSite secondWorkerFails) =
        some (mgr', .prepareFailed e) ∧
      mgr'.running = mgr.running := by
  have run : Run reloadStep (.new 2 id id)
      [(attemptOf 1 firstSite allAnswer, .reloaded)] _ := .single rfl
  obtain ⟨length, -, next⟩ := hot_reload_in_step run
  obtain ⟨mgr', result, hstep, -, keeps⟩ :=
    next (attemptOf 2 secondSite secondWorkerFails) fun _ _ factory => ⟨factory, rfl⟩
  obtain ⟨rfl, rfl⟩ := Prod.mk.inj (Option.some.inj (Eq.trans (Eq.symm hstep) rfl))
  exact ⟨_, _, _, run, length, by decide, rfl, (keeps (by simp)).1⟩

end Monolake.Config
