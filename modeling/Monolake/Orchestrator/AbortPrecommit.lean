import Monolake.Orchestrator.SiteOperations

/-!
What a precommit and an abort of the same name leave behind, as far as later
commands can tell. The serials by which built services are numbered are the
model's own and are left out of the comparison.
-/
namespace Monolake.Orchestrator

universe u
variable {F LF S L SE LE : Type u}

/-- The results of a sequence of commands, and the executor after it. -/
def runCommands (ex : ServiceExecutor F S L) :
    List (Factories F LF S L SE LE × ServiceCommand F LF) →
      ServiceExecutor F S L × List (Except (CommandError SE LE) Unit)
  | [] => (ex, [])
  | (env, cmd) :: cmds =>
      let execution := execute env ex cmd
      let (ex, results) := runCommands execution.executor cmds
      (ex, execution.result :: results)

/-- The committed service of a name, with the factory it came from. -/
def ServiceExecutor.committedSvc (ex : ServiceExecutor F S L) (name : Name) : Option (F × S) :=
  (ex.getSvc name).map fun svc => (svc.factory, svc.value)

/-- No sequence of commands tells the two apart. -/
def Indistinguishable (LF SE LE : Type u) (ex ex' : ServiceExecutor F S L) : Prop :=
  ∀ cmds : List (Factories F LF S L SE LE × ServiceCommand F LF),
    (runCommands ex cmds).2 = (runCommands ex' cmds).2 ∧
      ∀ name, (runCommands ex cmds).1.committedSvc name =
        (runCommands ex' cmds).1.committedSvc name

/-! Executors without numbers. -/

def BuiltService.unnumbered (svc : BuiltService F S) : BuiltService F S :=
  { svc with serial := 0 }

def ServiceDeploymentContainer.unnumbered (sh : ServiceDeploymentContainer F S) :
    ServiceDeploymentContainer F S :=
  { sh with precommittedService := sh.precommittedService.map (·.unnumbered) }

namespace ServiceExecutor

/-- Commands do not look at the connections either. -/
def unnumbered (ex : ServiceExecutor F S L) : ServiceExecutor F S L :=
  { sites := fun name => (ex.sites name).map (·.unnumbered)
    slots := ex.slots.map (·.unnumbered)
    channels := ex.channels
    loops := ex.loops
    connections := []
    builds := 0 }

variable (ex : ServiceExecutor F S L) (name : Name)

theorem unnumbered_site :
    ex.unnumbered.sites name = (ex.sites name).map (·.unnumbered) := rfl

theorem unnumbered_putSite (sh : Option (ServiceDeploymentContainer F S)) :
    (ex.putSite name sh).unnumbered = ex.unnumbered.putSite name (sh.map (·.unnumbered)) := by
  simp only [unnumbered, putSite, mk.injEq, and_true]
  funext m
  by_cases h : m = name
  · subst h
    simp
  · simp [h]

theorem unnumbered_dropSlotContainer (hdr : Option ServiceSlotContainer) :
    (ex.dropSlotContainer hdr).unnumbered = ex.unnumbered.dropSlotContainer hdr := by
  cases hdr <;> rfl

theorem unnumbered_slotUpdateSvc (slot : Nat) (svc : BuiltService F S) :
    (ex.slotUpdateSvc slot svc).unnumbered = ex.unnumbered.slotUpdateSvc slot svc.unnumbered := by
  simp [unnumbered, slotUpdateSvc, List.map_set]

theorem unnumbered_createSlotContainer (handler : BuiltService F S) :
    ex.unnumbered.createSlotContainer handler.unnumbered =
      ((ex.createSlotContainer handler).1.unnumbered, (ex.createSlotContainer handler).2) := by
  simp [unnumbered, createSlotContainer]

theorem unnumbered_updateWithPrecommittedSvc :
    ex.unnumbered.updateWithPrecommittedSvc name =
      ((ex.updateWithPrecommittedSvc name).1.unnumbered,
        (ex.updateWithPrecommittedSvc name).2) := by
  cases hs : ex.sites name with
  | none => simp [updateWithPrecommittedSvc, unnumbered_site, hs]
  | some sh =>
      obtain ⟨committed, staged⟩ := sh
      cases committed with
      | none =>
          simp [updateWithPrecommittedSvc, unnumbered_site, hs,
            ServiceDeploymentContainer.unnumbered]
      | some hdr =>
          cases staged <;>
            simp [updateWithPrecommittedSvc, unnumbered_site, hs, unnumbered_putSite,
              ServiceDeploymentContainer.unnumbered, unnumbered_slotUpdateSvc]

theorem unnumbered_deployStagedService :
    ex.unnumbered.deployStagedService name =
      ((ex.deployStagedService name).1.unnumbered, (ex.deployStagedService name).2) := by
  cases hs : ex.sites name with
  | none => simp [deployStagedService, unnumbered_site, hs]
  | some sh =>
      obtain ⟨committed, staged⟩ := sh
      cases staged with
      | none =>
          simp [deployStagedService, unnumbered_site, hs, ServiceDeploymentContainer.unnumbered,
            unnumbered_putSite]
      | some svc =>
          have taken := unnumbered_putSite ex name (some ⟨committed, none⟩)
          have created :=
            unnumbered_createSlotContainer (ex.putSite name (some ⟨committed, none⟩)) svc
          simp only [ServiceDeploymentContainer.unnumbered, Option.map_some,
            Option.map_none] at taken
          simp only [deployStagedService, unnumbered_site, hs, Option.map_some,
            ServiceDeploymentContainer.unnumbered]
          rw [← taken, created, unnumbered_dropSlotContainer, unnumbered_putSite]
          rfl

theorem unnumbered_remove :
    ex.unnumbered.remove name = ((ex.remove name).1.unnumbered, (ex.remove name).2) := by
  cases hs : ex.sites name with
  | none => simp [remove, unnumbered_site, hs]
  | some sh =>
      simp [remove, unnumbered_site, hs, unnumbered_putSite, unnumbered_dropSlotContainer,
        ServiceDeploymentContainer.unnumbered]

theorem unnumbered_abort :
    ex.unnumbered.abort name = ((ex.abort name).1.unnumbered, (ex.abort name).2) := by
  cases hs : ex.sites name with
  | none => simp [abort, unnumbered_site, hs]
  | some sh =>
      simp [abort, unnumbered_site, hs, unnumbered_putSite, ServiceDeploymentContainer.unnumbered]

theorem unnumbered_precommitSvc (svc : BuiltService F S) :
    (ex.precommitSvc name svc).unnumbered = ex.unnumbered.precommitSvc name svc.unnumbered := by
  simp only [precommitSvc, unnumbered_putSite, unnumbered_site]
  cases ex.sites name <;> rfl

/-- The number of services built so far is forgotten. -/
theorem unnumbered_built (factory : F) (value : S) :
    (ex.built factory value).1.unnumbered = ex.unnumbered ∧
      (ex.built factory value).2.unnumbered = ⟨0, factory, value⟩ :=
  ⟨rfl, rfl⟩

theorem unnumbered_getSvc :
    ex.unnumbered.getSvc name = (ex.getSvc name).map (·.unnumbered) := by
  simp only [getSvc, committedAt, unnumbered, slotGetSvc]
  cases ex.sites name with
  | none => rfl
  | some sh =>
      obtain ⟨committed, staged⟩ := sh
      cases committed with
      | none => rfl
      | some hdr => simp [ServiceDeploymentContainer.unnumbered]

theorem unnumbered_deployAndServe (listener : L) :
    (deployAndServe ex.unnumbered name listener : _ × Except (CommandError SE LE) Unit) =
      ((deployAndServe ex name listener : _ × Except (CommandError SE LE) Unit).1.unnumbered,
        (deployAndServe ex name listener).2) := by
  simp only [deployAndServe, unnumbered_deployStagedService]
  rcases ex.deployStagedService name with ⟨ex', e | ⟨hdr, stop⟩⟩ <;> rfl

theorem unnumbered_unnumbered : ex.unnumbered.unnumbered = ex.unnumbered := by
  have service : (BuiltService.unnumbered ∘ BuiltService.unnumbered : BuiltService F S → _) =
      BuiltService.unnumbered := rfl
  simp only [unnumbered, List.map_map, Option.map_map, mk.injEq, and_true]
  refine ⟨?_, by rw [service]⟩
  funext m
  cases ex.sites m with
  | none => rfl
  | some sh => simp [ServiceDeploymentContainer.unnumbered, service]

/-- Services built and staged alike, whatever their numbers. -/
theorem unnumbered_stage (factory : F) (value : S) :
    ((ex.unnumbered.built factory value).1.precommitSvc name
        (ex.unnumbered.built factory value).2).unnumbered =
      ((ex.built factory value).1.precommitSvc name (ex.built factory value).2).unnumbered := by
  rw [unnumbered_precommitSvc, unnumbered_precommitSvc, (unnumbered_built ..).1,
    (unnumbered_built ..).1, (unnumbered_built ..).2, (unnumbered_built ..).2,
    unnumbered_unnumbered]

theorem deployAndServe_congr {ex ex' : ServiceExecutor F S L} (h : ex.unnumbered = ex'.unnumbered)
    (name : Name) (listener : L) :
    (deployAndServe ex name listener : _ × Except (CommandError SE LE) Unit).2 =
        (deployAndServe ex' name listener).2 ∧
      (deployAndServe ex name listener : _ × Except (CommandError SE LE) Unit).1.unnumbered =
        (deployAndServe ex' name listener :
          _ × Except (CommandError SE LE) Unit).1.unnumbered := by
  have same : (deployAndServe ex.unnumbered name listener :
      _ × Except (CommandError SE LE) Unit) = _ := unnumbered_deployAndServe ex name listener
  rw [h, unnumbered_deployAndServe] at same
  exact ⟨(congrArg Prod.snd same).symm, (congrArg Prod.fst same).symm⟩

end ServiceExecutor

open ServiceExecutor

section
variable (env : Factories F LF S L SE LE) (ex : ServiceExecutor F S L)

/-- Numbers make no difference to a command. -/
theorem execute_unnumbered (cmd : ServiceCommand F LF) :
    (execute env ex.unnumbered cmd).result = (execute env ex cmd).result ∧
      (execute env ex.unnumbered cmd).executor.unnumbered =
        (execute env ex cmd).executor.unnumbered := by
  cases cmd with
  | precommit name factory =>
      have current : (ex.unnumbered.getSvc name).map (·.value) =
          (ex.getSvc name).map (·.value) := by
        rw [unnumbered_getSvc, Option.map_map]
        rfl
      simp only [execute, current]
      cases env.makeViaRef factory ((ex.getSvc name).map (·.value)) with
      | error e => exact ⟨rfl, unnumbered_unnumbered ex⟩
      | ok value =>
          exact ⟨rfl, unnumbered_stage ex name factory value⟩
  | update name =>
      simp only [execute, unnumbered_updateWithPrecommittedSvc, unnumbered_unnumbered, and_self]
  | commit name lf =>
      simp only [execute]
      cases env.makeListener lf with
      | error e => exact ⟨rfl, unnumbered_unnumbered ex⟩
      | ok listener =>
          simp only [unnumbered_deployAndServe, unnumbered_unnumbered, and_self]
  | prepareAndCommit name factory lf =>
      simp only [execute]
      cases env.makeViaRef factory none with
      | error e => exact ⟨rfl, unnumbered_unnumbered ex⟩
      | ok value =>
          cases env.makeListener lf with
          | error e => exact ⟨rfl, unnumbered_unnumbered ex⟩
          | ok listener =>
              exact deployAndServe_congr (unnumbered_stage ex name factory value) name listener
  | abort name =>
      simp only [execute, unnumbered_abort, unnumbered_unnumbered, and_self]
  | remove name =>
      simp only [execute, unnumbered_remove, unnumbered_unnumbered, and_self]

theorem execute_congr {ex ex' : ServiceExecutor F S L} (h : ex.unnumbered = ex'.unnumbered)
    (cmd : ServiceCommand F LF) :
    (execute env ex cmd).result = (execute env ex' cmd).result ∧
      (execute env ex cmd).executor.unnumbered = (execute env ex' cmd).executor.unnumbered := by
  obtain ⟨result, executor⟩ := execute_unnumbered env ex cmd
  obtain ⟨result', executor'⟩ := execute_unnumbered env ex' cmd
  rw [h] at result executor
  exact ⟨result.symm.trans result', executor.symm.trans executor'⟩

theorem committedSvc_congr {ex ex' : ServiceExecutor F S L} (h : ex.unnumbered = ex'.unnumbered)
    (name : Name) : ex.committedSvc name = ex'.committedSvc name := by
  have forget : ∀ ex : ServiceExecutor F S L,
      ex.committedSvc name = ex.unnumbered.committedSvc name := by
    intro ex
    rw [committedSvc, committedSvc, unnumbered_getSvc, Option.map_map]
    rfl
  rw [forget ex, forget ex', h]

end

theorem indistinguishable_of_unnumbered {ex ex' : ServiceExecutor F S L}
    (h : ex.unnumbered = ex'.unnumbered) : Indistinguishable LF SE LE ex ex' := by
  intro cmds
  induction cmds generalizing ex ex' with
  | nil => exact ⟨rfl, committedSvc_congr h⟩
  | cons entry cmds ih =>
      obtain ⟨env, cmd⟩ := entry
      obtain ⟨result, executor⟩ := execute_congr env h cmd
      obtain ⟨results, committed⟩ := ih executor
      exact ⟨congrArg₂ List.cons result results, committed⟩

section
variable {env env' : Factories F LF S L SE LE} {ex ex' : ServiceExecutor F S L} {name : Name}
  {factory : F} {call : Option (FactoryCall F S)}

theorem precommit_executor (h : execute env ex (.precommit name factory) = ⟨ex', .ok (), call⟩) :
    ∃ value, ex' = (ex.built factory value).1.precommitSvc name (ex.built factory value).2 := by
  simp only [execute] at h
  split at h
  · simp at h
  · exact ⟨_, ((Execution.mk.injEq ..).mp h).1.symm⟩

/-- A site with nothing staged is as before. -/
theorem abort_precommit_site {sh : ServiceDeploymentContainer F S} (hs : ex.sites name = some sh)
    (unstaged : ex.stagedSvc name = none) (svc : BuiltService F S) :
    ((ex.precommitSvc name svc).abort name).1 = ex := by
  have none_staged : sh.precommittedService = none := by simpa [stagedSvc, hs] using unstaged
  have restored : Function.update ex.sites name (some sh) = ex.sites := by
    rw [Function.update_eq_self_iff, hs]
  obtain ⟨committed, staged⟩ := sh
  subst none_staged
  simp [precommitSvc, abort, putSite, hs, restored]

/-- The site that a precommit makes outlives the abort. -/
theorem abort_precommit_leaves (ex : ServiceExecutor F S L) (name : Name)
    (svc : BuiltService F S) : ((ex.precommitSvc name svc).abort name).1.sites name ≠ none := by
  simp [precommitSvc, abort, putSite]

/-- The command that tells a name with an empty site from one without. -/
theorem abort_result : (execute env ex (.abort name)).result =
    if ex.sites name = none then .error .siteNotExist else .ok () := by
  simp only [execute, abort]
  cases ex.sites name <;> rfl

/-- With nothing staged under a name: a precommit that is aborted cannot be told
from none at all exactly when the name has a site already. -/
theorem abort_undoes_precommit_iff (unstaged : ex.stagedSvc name = none)
    (h : execute env ex (.precommit name factory) = ⟨ex', .ok (), call⟩) :
    Indistinguishable LF SE LE (execute env' ex' (.abort name)).executor ex ↔
      ex.sites name ≠ none := by
  obtain ⟨value, rfl⟩ := precommit_executor h
  constructor
  · intro same absent
    have result := (same [(env, .abort name)]).1
    have left : (execute env' ((ex.built factory value).1.precommitSvc name
        (ex.built factory value).2) (.abort name)).executor.sites name ≠ none :=
      abort_precommit_leaves _ name _
    simp only [runCommands, abort_result, if_neg left, if_pos absent] at result
    cases result
  · intro site
    obtain ⟨sh, hs⟩ := Option.ne_none_iff_exists'.mp site
    have built_site : (ex.built factory value).1.sites name = some sh := hs
    have undone := abort_precommit_site built_site unstaged (ex.built factory value).2
    have forgotten := congrArg unnumbered undone
    exact indistinguishable_of_unnumbered forgotten

end

/-- Factories that always answer. -/
def anyFactories : Factories Unit Unit Unit Unit Unit Unit :=
  { makeViaRef := fun _ _ => .ok (), makeListener := fun _ => .ok () }

/-- A site that is online is as before. -/
theorem online_site_restored :
    let ex : ServiceExecutor Unit Unit Unit :=
      (execute anyFactories .new (.prepareAndCommit "web" () ())).executor
    Indistinguishable Unit Unit Unit (execute anyFactories
      (execute anyFactories ex (.precommit "web" ())).executor (.abort "web")).executor ex := by
  intro ex
  have precommitted : execute anyFactories ex (.precommit "web" ()) =
      ⟨(execute anyFactories ex (.precommit "web" ())).executor, .ok (), _⟩ := rfl
  exact (abort_undoes_precommit_iff rfl precommitted).mpr nofun

/-- On a fresh executor, an abort fails; after a precommit and an abort of that
name it succeeds. -/
theorem aborted_name_remains :
    let ex : ServiceExecutor Unit Unit Unit := .new
    ex.stagedSvc "web" = none ∧
    (execute anyFactories ex (.precommit "web" ())).result = .ok () ∧
    ¬ Indistinguishable Unit Unit Unit (execute anyFactories
      (execute anyFactories ex (.precommit "web" ())).executor (.abort "web")).executor ex := by
  intro ex
  refine ⟨rfl, rfl, fun same => ?_⟩
  have result := (same [(anyFactories, .abort "web")]).1
  cases result

end Monolake.Orchestrator
