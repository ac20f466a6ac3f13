import Monolake.Orchestrator.Deployment
import Monolake.Orchestrator.SlotDiscipline

/-!
The service executor refines two-stage deployment. Successful commands are the
events of the deployment history, failed commands and rounds of the serve loops
are none; the committed and the staged service of every name are then those the
history determines, in every interleaving.
-/
namespace Monolake.Orchestrator

universe u
variable {F LF S L SE LE : Type u}

open Foundation ServiceExecutor

def ServiceExecutor.deployment (ex : ServiceExecutor F S L) :
    Deployment Name (BuiltService F S) :=
  { deployed := ex.getSvc, staged := ex.stagedSvc }

/-- The deployment event of a command that succeeded with the given factory call. -/
def commandChange : ServiceCommand F LF → Option (FactoryCall F S) →
    Option (Change Name (BuiltService F S))
  | .precommit n _, some ⟨_, some svc⟩ => some (.stage n svc)
  | .update n, _ | .commit n _, _ => some (.promote n)
  | .prepareAndCommit n _ _, some ⟨_, some svc⟩ => some (.install n svc)
  | .abort n, _ => some (.discard n)
  | .remove n, _ => some (.withdraw n)
  | _, _ => none

def changeOf : Event F LF S L SE LE → Option (Change Name (BuiltService F S))
  | .executed _ cmd (.ok _) call => commandChange cmd call
  | .executed _ _ (.error _) _ | .served _ _ => none

def changes (tr : List (Event F LF S L SE LE)) : List (Change Name (BuiltService F S)) :=
  tr.filterMap changeOf

theorem changes_snoc (tr : List (Event F LF S L SE LE)) (ev : Event F LF S L SE LE) :
    changes (tr ++ [ev]) = changes tr ++ (changeOf ev).toList := by
  cases h : changeOf ev <;> simp [changes, h]

variable {ex ex' : ServiceExecutor F S L}

theorem Done.deployment_eq {cmd : ServiceCommand F LF} {call : Option (FactoryCall F S)}
    (h : Done ex cmd call ex') (inv : SlotDiscipline ex) :
    ∃ c, commandChange cmd call = some c ∧ c.name = cmd.name ∧
      ex'.deployment = ex.deployment.apply c := by
  cases h with
  | precommit _ _ hb _ =>
      refine ⟨_, rfl, rfl, Deployment.ext ?_ hb.staged_eq⟩
      exact SlotDiscipline.getSvc_same hb.committed_eq hb.slots_eq
  | update committed staged hb _ =>
      refine ⟨_, rfl, rfl, Deployment.ext ?_ hb.staged_eq⟩
      change _ = Function.update ex.getSvc _ (ex.stagedSvc _)
      rw [staged]
      exact inv.getSvc_update committed hb.committed_eq hb.slots_eq
  | commit staged hd _ =>
      refine ⟨_, rfl, rfl, Deployment.ext ?_ hd.staged_eq⟩
      change _ = Function.update ex.getSvc _ (ex.stagedSvc _)
      rw [staged]
      exact inv.getSvc_deployed hd
  | prepareAndCommit _ _ hd _ =>
      exact ⟨_, rfl, rfl, Deployment.ext (inv.getSvc_deployed hd) hd.staged_eq⟩
  | abort hb _ =>
      refine ⟨_, rfl, rfl, Deployment.ext ?_ hb.staged_eq⟩
      exact SlotDiscipline.getSvc_same hb.committed_eq hb.slots_eq
  | remove hb _ =>
      refine ⟨_, rfl, rfl, Deployment.ext ?_ hb.staged_eq⟩
      exact SlotDiscipline.getSvc_remove hb.committed_eq hb.slots_eq

/-- A service that a successful command introduces carries the next serial. -/
theorem Done.introduces {cmd : ServiceCommand F LF} {call : Option (FactoryCall F S)}
    (h : Done ex cmd call ex') {c : Change Name (BuiltService F S)}
    (hc : commandChange cmd call = some c) :
    (∀ svc, c.introduces = some svc → svc.serial = ex.builds ∧ ex'.builds = ex.builds + 1) ∧
      ex.builds ≤ ex'.builds := by
  cases h <;> obtain rfl := Option.some.inj hc <;> simp_all [Change.introduces]

theorem execute_error_deployment {env : Factories F LF S L SE LE} {cmd : ServiceCommand F LF}
    {e : CommandError SE LE} {call : Option (FactoryCall F S)}
    (h : execute env ex cmd = ⟨ex', .error e, call⟩) : ex'.deployment = ex.deployment := by
  rw [(execute_error h).1]
  rfl

theorem serve_deployment {i : Nat} {selected : Selected}
    (h : serve ex i selected = some ex') :
    ex'.deployment = ex.deployment ∧ ex'.builds = ex.builds := by
  obtain ⟨lp, -, -, ⟨-, -, rfl⟩ | ⟨-, rfl⟩ | ⟨e, -, rfl⟩ | ⟨a, svc, -, -, rfl⟩⟩ := serve_cases h <;>
    exact ⟨rfl, rfl⟩

/-- What holds between the history of a run and the state it reached. -/
structure Refines (tr : List (Event F LF S L SE LE)) (ex : ServiceExecutor F S L) : Prop where
  discipline : SlotDiscipline ex
  deployment : ex.deployment = Deployment.after (changes tr)
  serials_nodup : (identsIntroduced BuiltService.serial (changes tr)).Nodup
  serials_lt : ∀ x ∈ identsIntroduced BuiltService.serial (changes tr), x < ex.builds

theorem refines_new : Refines ([] : List (Event F LF S L SE LE)) ServiceExecutor.new where
  discipline := .new
  deployment := rfl
  serials_nodup := List.nodup_nil
  serials_lt := by simp [changes, identsIntroduced]

theorem refines_step {tr : List (Event F LF S L SE LE)} {ev : Event F LF S L SE LE}
    (inv : Refines tr ex) (h : threadStep ex ev ex') : Refines (tr ++ [ev]) ex' := by
  have discipline := threadStep_discipline inv.discipline h
  have silent : changeOf ev = none → ex'.deployment = ex.deployment →
      ex.builds ≤ ex'.builds → Refines (tr ++ [ev]) ex' := by
    intro hev hd hb
    have same : changes (tr ++ [ev]) = changes tr := by simp [changes_snoc, hev]
    refine ⟨discipline, by rw [hd, same, inv.deployment], by rw [same]; exact inv.serials_nodup, ?_⟩
    rw [same]
    exact fun x hx => Nat.lt_of_lt_of_le (inv.serials_lt x hx) hb
  cases ev with
  | served i selected =>
      obtain ⟨hd, hb⟩ := serve_deployment h
      exact silent rfl hd (Nat.le_of_eq hb.symm)
  | executed env cmd result call =>
      cases result with
      | error e => exact silent rfl (execute_error_deployment h) (execute_error h).2
      | ok =>
          have done := execute_ok h
          obtain ⟨c, hc, -, hd⟩ := done.deployment_eq inv.discipline
          obtain ⟨hserial, hle⟩ := done.introduces hc
          have hchanges : changes (tr ++ [.executed env cmd (.ok ()) call]) =
              changes tr ++ [c] := by
            simp [changes_snoc, changeOf, hc]
          refine ⟨discipline, ?_, ?_, ?_⟩
          · rw [hchanges, Deployment.after_snoc, ← inv.deployment, hd]
          · rw [hchanges, identsIntroduced_snoc]
            cases hi : c.introduces with
            | none => simpa using inv.serials_nodup
            | some svc =>
                simp only [Option.map_some, Option.toList_some, List.nodup_append,
                  List.mem_singleton]
                refine ⟨inv.serials_nodup, List.nodup_singleton _, ?_⟩
                rintro x hx y rfl rfl
                exact Nat.lt_irrefl _ ((hserial svc hi).1 ▸ inv.serials_lt _ hx)
          · intro x hx
            rw [hchanges, identsIntroduced_snoc] at hx
            rcases List.mem_append.mp hx with hx | hx
            · exact Nat.lt_of_lt_of_le (inv.serials_lt x hx) hle
            · obtain ⟨svc, hi, rfl⟩ := Option.map_eq_some_iff.mp (Option.mem_toList.mp hx)
              have := hserial svc hi
              omega

theorem refines_run {tr : List (Event F LF S L SE LE)} (h : Run threadStep .new tr ex) :
    Refines tr ex :=
  h.history refines_new fun _ _ _ _ _ inv hstep => refines_step inv hstep

theorem Refines.getSvc {tr : List (Event F LF S L SE LE)} (h : Refines tr ex) (n : Name) :
    ex.getSvc n = installedIn (changes tr) n := by
  rw [← after_deployed, ← h.deployment]
  rfl

theorem Refines.stagedSvc {tr : List (Event F LF S L SE LE)} (h : Refines tr ex) (n : Name) :
    ex.stagedSvc n = stagedIn (changes tr) n := by
  rw [← after_staged, ← h.deployment]
  rfl

/-- A command leaves the deployed and the staged service of other names alone. -/
theorem execute_frame {env : Factories F LF S L SE LE} {cmd : ServiceCommand F LF}
    {result : Except (CommandError SE LE) Unit} {call : Option (FactoryCall F S)}
    (h : execute env ex cmd = ⟨ex', result, call⟩) (inv : SlotDiscipline ex)
    {m : Name} (hm : m ≠ cmd.name) :
    ex'.getSvc m = ex.getSvc m ∧ ex'.stagedSvc m = ex.stagedSvc m := by
  cases result with
  | error e =>
      have hd := execute_error_deployment h
      exact ⟨congrFun (congrArg (·.deployed) hd) m, congrFun (congrArg (·.staged) hd) m⟩
  | ok =>
      obtain ⟨c, -, hname, hd⟩ := (execute_ok h).deployment_eq inv
      have := ex.deployment.apply_of_ne c (hname ▸ hm)
      rw [← hd] at this
      exact this

/-- What a successful `Commit` or `Update` needs and does. -/
theorem execute_promotes {env : Factories F LF S L SE LE} {cmd : ServiceCommand F LF}
    {call : Option (FactoryCall F S)} (h : execute env ex cmd = ⟨ex', .ok (), call⟩)
    (inv : SlotDiscipline ex) {n : Name}
    (hcmd : cmd = .update n ∨ ∃ lf, cmd = .commit n lf) :
    ∃ svc, ex.stagedSvc n = some svc ∧ ex'.getSvc n = some svc := by
  have done := execute_ok h
  have promoted : ∀ svc, ex.stagedSvc n = some svc → commandChange cmd call = some (.promote n) →
      ex'.getSvc n = some svc := by
    intro svc staged hc
    obtain ⟨c, hc', -, hd⟩ := done.deployment_eq inv
    obtain rfl := Option.some.inj (hc.symm.trans hc')
    have := congrFun (congrArg (·.deployed) hd) n
    simpa [Deployment.apply, ServiceExecutor.deployment, staged] using this
  rcases hcmd with rfl | ⟨lf, rfl⟩
  · cases done with
    | update _ staged _ _ => exact ⟨_, staged, promoted _ staged rfl⟩
  · cases done with
    | commit staged _ _ => exact ⟨_, staged, promoted _ staged rfl⟩

/-- `Precommit` shows its factory the committed service, and stages what that
factory makes of it. -/
theorem execute_precommit_call {env : Factories F LF S L SE LE} {n : Name} {factory : F}
    {result : Except (CommandError SE LE) Unit} {call : Option (FactoryCall F S)}
    (h : execute env ex (.precommit n factory) = ⟨ex', result, call⟩) :
    ∃ made, call = some ⟨ex.getSvc n, made⟩ ∧
      made.map (·.value) =
        (env.makeViaRef factory ((ex.getSvc n).map (·.value))).toOption := by
  simp only [execute] at h
  split at h
  · rename_i hmake
    exact ⟨none, ((Execution.mk.injEq ..).mp h).2.2.symm, by rw [hmake]; rfl⟩
  · rename_i hmake
    exact ⟨_, ((Execution.mk.injEq ..).mp h).2.2.symm, by rw [hmake]; rfl⟩

/-- In every run, whatever the factories answer and however serve rounds are
interleaved: the committed and staged services are those of the history; each
built service is deployed at most once; and each command promotes exactly the
staged service, shows its factory exactly the committed one, and touches only
its own name. -/
theorem serviceExecutor_refines_deployment {tr : List (Event F LF S L SE LE)}
    (h : Run threadStep .new tr ex) :
    (∀ n, ex.getSvc n = installedIn (changes tr) n) ∧
    (∀ n, ex.stagedSvc n = stagedIn (changes tr) n) ∧
    (identsInstalled BuiltService.serial (changes tr)).Nodup ∧
    ∀ past env cmd result call rest, tr = past ++ .executed env cmd result call :: rest →
      ∃ a b, Run threadStep .new past a ∧ execute env a cmd = ⟨b, result, call⟩ ∧
        Run threadStep b rest ex ∧
        (result = .ok () → ∀ n, (cmd = .update n ∨ ∃ lf, cmd = .commit n lf) →
          ∃ svc, stagedIn (changes past) n = some svc ∧ b.getSvc n = some svc) ∧
        (∀ n factory, cmd = .precommit n factory →
          ∃ made, call = some ⟨installedIn (changes past) n, made⟩ ∧
            made.map (·.value) = (env.makeViaRef factory
              ((installedIn (changes past) n).map (·.value))).toOption) ∧
        ∀ m, m ≠ cmd.name → b.getSvc m = a.getSvc m ∧ b.stagedSvc m = a.stagedSvc m := by
  have refines := refines_run h
  refine ⟨refines.getSvc, refines.stagedSvc,
    (installed_at_most_once refines.serials_nodup).nodup, ?_⟩
  rintro past env cmd result call rest rfl
  obtain ⟨a, b, hpast, hstep, hrest⟩ := h.split
  have before := refines_run hpast
  refine ⟨a, b, hpast, hstep, hrest, ?_, ?_, fun m => execute_frame hstep before.discipline⟩
  · rintro rfl n hcmd
    obtain ⟨svc, hs, hg⟩ := execute_promotes hstep before.discipline hcmd
    exact ⟨svc, before.stagedSvc n ▸ hs, hg⟩
  · rintro n factory rfl
    simpa only [before.getSvc] using execute_precommit_call hstep

/-- Factories that always answer, with the factory itself as the service. -/
def answering : Factories Nat Nat Nat Nat Nat Nat :=
  { makeViaRef := fun factory _ => .ok factory, makeListener := .ok }

/-- A site committed and then updated, with both readings of its service. -/
theorem commit_then_update_refines :
    ∃ (tr : List (Event Nat Nat Nat Nat Nat Nat)) (ex : ServiceExecutor Nat Nat Nat),
      Run threadStep .new tr ex ∧ ex.getSvc "web" = some ⟨1, 8, 8⟩ ∧
        installedIn (changes tr) "web" = some ⟨1, 8, 8⟩ := by
  have run : Run threadStep (.new : ServiceExecutor Nat Nat Nat)
      [.executed answering (.precommit "web" 7) _ _, .executed answering (.commit "web" 80) _ _,
        .executed answering (.precommit "web" 8) _ _, .executed answering (.update "web") _ _] _ :=
    .cons rfl (.cons rfl (.cons rfl (.cons rfl .nil)))
  have committed := (serviceExecutor_refines_deployment run).1 "web"
  exact ⟨_, _, run, by decide, committed.symm.trans (by decide)⟩

end Monolake.Orchestrator
