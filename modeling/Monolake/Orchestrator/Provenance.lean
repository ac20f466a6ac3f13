import Monolake.Orchestrator.WorkerManager

/-!
Where services come from. What an executor stages or has put in a slot was made by the factory
it is known by, in some command before.
-/
namespace Monolake.Orchestrator

universe u
variable {F LF S L SE LE : Type u} {ex : ServiceExecutor F S L} {P : BuiltService F S → Prop}

/-- All the services that the executor holds have the property. -/
structure ServiceExecutor.Holds (P : BuiltService F S → Prop) (ex : ServiceExecutor F S L) :
    Prop where
  slots : ∀ svc ∈ ex.slots, P svc
  staged : ∀ n svc, ex.stagedSvc n = some svc → P svc

theorem ServiceExecutor.Holds.new : (ServiceExecutor.new : ServiceExecutor F S L).Holds P where
  slots := by simp [ServiceExecutor.new]
  staged := by simp [ServiceExecutor.new, ServiceExecutor.stagedSvc]

theorem ServiceExecutor.Holds.getSvc (h : ex.Holds P) {n : Name} {svc : BuiltService F S}
    (committed : ex.getSvc n = some svc) : P svc := by
  obtain ⟨hdr, -, hslot⟩ := Option.bind_eq_some_iff.mp committed
  exact h.slots svc (List.mem_of_getElem? hslot)

theorem staged_update {staged : Name → Option (BuiltService F S)}
    (h : ∀ n svc, staged n = some svc → P svc) (name : Name) {put : Option (BuiltService F S)}
    (hput : ∀ svc, put = some svc → P svc) :
    ∀ n svc, Function.update staged name put n = some svc → P svc := by
  intro n svc hsvc
  by_cases hname : n = name
  · subst hname
    rw [Function.update_self] at hsvc
    exact hput svc hsvc
  · rw [Function.update_of_ne hname] at hsvc
    exact h n svc hsvc

theorem ServiceExecutor.Holds.deployed (h : ex.Holds P) {ex' : ServiceExecutor F S L} {name : Name}
    {svc : BuiltService F S} {listener : L}
    (deployed : ServiceExecutor.Deployed ex name svc listener ex') (new : P svc) : ex'.Holds P where
  slots := by
    rw [deployed.slots_eq]
    intro svc' hsvc
    rcases List.mem_append.mp hsvc with hsvc | hsvc
    · exact h.slots svc' hsvc
    · obtain rfl := List.mem_singleton.mp hsvc
      exact new
  staged := deployed.staged_eq ▸ staged_update h.staged name (by simp)

section
variable {env : Factories F LF S L SE LE} {cmd : ServiceCommand F LF}

/-- The service of a factory call is what the factory answered. -/
theorem execute_call_made {old : Option (BuiltService F S)} {svc : BuiltService F S}
    (h : (execute env ex cmd).call = some ⟨old, some svc⟩) :
    ∃ shown, env.makeViaRef svc.factory shown = .ok svc.value := by
  cases cmd with
  | precommit name factory =>
      simp only [execute] at h
      split at h
      · cases h
      · rename_i value made
        cases h
        exact ⟨_, made⟩
  | prepareAndCommit name factory lf =>
      simp only [execute] at h
      split at h
      · cases h
      · rename_i value made
        split at h <;> (cases h; exact ⟨_, made⟩)
  | commit name lf =>
      simp only [execute] at h
      split at h <;> cases h
  | update name | abort name | remove name => cases h

theorem Done.holds {ex' : ServiceExecutor F S L} {call : Option (FactoryCall F S)}
    (done : Done ex cmd call ex') (h : ex.Holds P)
    (made : ∀ old svc, call = some ⟨old, some svc⟩ → P svc) : ex'.Holds P := by
  have gone : ∀ svc : BuiltService F S, none = some svc → P svc := by simp
  cases done with
  | precommit serial made_by becomes builds =>
      have new := made _ _ rfl
      exact ⟨becomes.slots_eq ▸ h.slots,
        becomes.staged_eq ▸ staged_update h.staged _ fun svc put => by cases put; exact new⟩
  | update committed staged becomes builds =>
      refine ⟨?_, becomes.staged_eq ▸ staged_update h.staged _ gone⟩
      rw [becomes.slots_eq]
      intro svc hsvc
      rcases List.mem_or_eq_of_mem_set hsvc with hsvc | rfl
      · exact h.slots svc hsvc
      · exact h.staged _ _ staged
  | commit staged deployed builds => exact h.deployed deployed (h.staged _ _ staged)
  | prepareAndCommit serial made_by deployed builds => exact h.deployed deployed (made _ _ rfl)
  | abort becomes builds =>
      exact ⟨becomes.slots_eq ▸ h.slots, becomes.staged_eq ▸ staged_update h.staged _ gone⟩
  | remove becomes builds =>
      exact ⟨becomes.slots_eq ▸ h.slots, becomes.staged_eq ▸ staged_update h.staged _ gone⟩

/-- Commands put nothing into an executor but what its factories make. -/
theorem execute_holds (h : ex.Holds P)
    (made : ∀ serial factory shown value, env.makeViaRef factory shown = .ok value →
      P ⟨serial, factory, value⟩) (cmd : ServiceCommand F LF) :
    (execute env ex cmd).executor.Holds P := by
  cases hresult : (execute env ex cmd).result with
  | error e =>
      obtain ⟨same, -⟩ := execute_error (execute_result hresult)
      rw [same]
      exact ⟨h.slots, h.staged⟩
  | ok =>
      refine (execute_ok (execute_result hresult)).holds h fun old svc hcall => ?_
      obtain ⟨shown, hmade⟩ := execute_call_made hcall
      exact made svc.serial svc.factory shown svc.value hmade

end

end Monolake.Orchestrator
