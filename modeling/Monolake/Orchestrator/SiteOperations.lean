import Mathlib.Data.List.Basic
import Monolake.Orchestrator.Serve

/-!
What each operation of the executor does to the committed containers, the
staged services, the slot cells and the stop channels, when it succeeds and
when it fails. Everything proved later about commands goes through these.
-/
namespace Monolake.Orchestrator

universe u
variable {F LF S L SE LE : Type u}

namespace ServiceExecutor

section Fields
variable (ex : ServiceExecutor F S L) (name : Name)

@[simp] theorem committedAt_putSite (sh : Option (ServiceDeploymentContainer F S)) :
    (ex.putSite name sh).committedAt =
      Function.update ex.committedAt name (sh.bind (·.committedService)) := by
  funext m
  by_cases h : m = name
  · subst h; simp [committedAt, putSite]
  · simp [committedAt, putSite, h]

@[simp] theorem stagedSvc_putSite (sh : Option (ServiceDeploymentContainer F S)) :
    (ex.putSite name sh).stagedSvc =
      Function.update ex.stagedSvc name (sh.bind (·.precommittedService)) := by
  funext m
  by_cases h : m = name
  · subst h; simp [stagedSvc, putSite]
  · simp [stagedSvc, putSite, h]

@[simp] theorem slots_putSite (sh : Option (ServiceDeploymentContainer F S)) :
    (ex.putSite name sh).slots = ex.slots := rfl

@[simp] theorem channels_putSite (sh : Option (ServiceDeploymentContainer F S)) :
    (ex.putSite name sh).channels = ex.channels := rfl

@[simp] theorem loops_putSite (sh : Option (ServiceDeploymentContainer F S)) :
    (ex.putSite name sh).loops = ex.loops := rfl

@[simp] theorem connections_putSite (sh : Option (ServiceDeploymentContainer F S)) :
    (ex.putSite name sh).connections = ex.connections := rfl

@[simp] theorem builds_putSite (sh : Option (ServiceDeploymentContainer F S)) :
    (ex.putSite name sh).builds = ex.builds := rfl

end Fields

/-- Committed containers, staged services, slot cells, stop channels and serve
loops of `ex'`; connections are those of `ex`. -/
structure Becomes (ex ex' : ServiceExecutor F S L)
    (committed : Name → Option ServiceSlotContainer)
    (staged : Name → Option (BuiltService F S)) (slots : List (BuiltService F S))
    (channels : List Bool) (loops : List (ServeLoop L)) : Prop where
  committed_eq : ex'.committedAt = committed
  staged_eq : ex'.stagedSvc = staged
  slots_eq : ex'.slots = slots
  channels_eq : ex'.channels = channels
  loops_eq : ex'.loops = loops
  connections_eq : ex'.connections = ex.connections

/-- The receivers left alive once the given container is dropped. -/
def dropReceiver (channels : List Bool) : Option ServiceSlotContainer → List Bool
  | none => channels
  | some hdr => channels.set hdr.stop false

theorem dropSlotContainer_eq (ex : ServiceExecutor F S L) (hdr : Option ServiceSlotContainer) :
    ex.dropSlotContainer hdr = { ex with channels := dropReceiver ex.channels hdr } := by
  cases hdr <;> rfl

/-- A successful deployment under `name`: the new container gets the next slot
and the next channel, and the loop spawned for it gets both. -/
def Deployed (ex : ServiceExecutor F S L) (name : Name) (svc : BuiltService F S)
    (listener : L) (ex' : ServiceExecutor F S L) : Prop :=
  Becomes ex ex'
    (Function.update ex.committedAt name (some ⟨ex.slots.length, ex.channels.length⟩))
    (Function.update ex.stagedSvc name none)
    (ex.slots ++ [svc])
    (dropReceiver (ex.channels ++ [true]) (ex.committedAt name))
    (ex.loops ++ [⟨name, listener, ex.slots.length, ex.channels.length, true⟩])

variable {ex ex' : ServiceExecutor F S L} {name : Name}

theorem precommitSvc_becomes (ex : ServiceExecutor F S L) (name : Name)
    (svc : BuiltService F S) :
    Becomes ex (ex.precommitSvc name svc) ex.committedAt
      (Function.update ex.stagedSvc name (some svc)) ex.slots ex.channels ex.loops := by
  refine ⟨?_, by simp [precommitSvc], rfl, rfl, rfl, rfl⟩
  simp only [precommitSvc, committedAt_putSite, Option.bind_some]
  rw [Function.update_eq_self_iff]
  cases h : ex.sites name <;> simp [committedAt, h, ServiceDeploymentContainer.new]

/-- Deploying what was staged just before is deploying from the state before. -/
theorem Deployed.of_staging {mid : ServiceExecutor F S L} {staged : BuiltService F S}
    {svc : BuiltService F S} {listener : L} (hd : Deployed mid name svc listener ex')
    (hs : Becomes ex mid ex.committedAt (Function.update ex.stagedSvc name (some staged))
      ex.slots ex.channels ex.loops) : Deployed ex name svc listener ex' := by
  unfold Deployed at hd ⊢
  rw [hs.committed_eq, hs.staged_eq, hs.slots_eq, hs.channels_eq, hs.loops_eq,
    Function.update_idem] at hd
  exact ⟨hd.committed_eq, hd.staged_eq, hd.slots_eq, hd.channels_eq, hd.loops_eq,
    hd.connections_eq.trans hs.connections_eq⟩

theorem take_none_eq {sh : ServiceDeploymentContainer F S} (hs : ex.sites name = some sh)
    (hp : sh.precommittedService = none) :
    ex.putSite name (some { sh with precommittedService := none }) = ex := by
  have : ({ sh with precommittedService := none } : ServiceDeploymentContainer F S) = sh := by
    cases sh; simp_all
  rw [this, ← hs, putSite, Function.update_eq_self]

theorem updateWithPrecommittedSvc_error {e : ServiceCommandError}
    (h : ex.updateWithPrecommittedSvc name = (ex', .error e)) : ex' = ex := by
  unfold updateWithPrecommittedSvc at h
  split at h
  · simp_all
  · split at h
    · simp_all
    · split at h
      · rename_i sh hs _ _ _ _ hp
        rw [take_none_eq hs hp] at h
        exact (Prod.mk.inj h).1.symm
      · simp at h

theorem updateWithPrecommittedSvc_ok
    (h : ex.updateWithPrecommittedSvc name = (ex', .ok ())) :
    ∃ hdr svc, ex.committedAt name = some hdr ∧ ex.stagedSvc name = some svc ∧
      Becomes ex ex' ex.committedAt (Function.update ex.stagedSvc name none)
        (ex.slots.set hdr.slot svc) ex.channels ex.loops ∧ ex'.builds = ex.builds := by
  unfold updateWithPrecommittedSvc at h
  split at h
  · simp at h
  · rename_i sh hs
    split at h
    · simp at h
    · rename_i hdr hc
      split at h
      · simp at h
      · rename_i svc hp
        obtain rfl := (Prod.mk.inj h).1
        have hcommitted : ex.committedAt name = some hdr := by simp [committedAt, hs, hc]
        refine ⟨hdr, svc, hcommitted, by simp [stagedSvc, hs, hp],
          ⟨?_, ?_, rfl, rfl, rfl, rfl⟩, rfl⟩
        · change (ex.putSite name _).committedAt = _
          simp [hc, ← hcommitted]
        · change (ex.putSite name _).stagedSvc = _
          simp

/-- What `Update` needs in order to succeed. -/
theorem updateWithPrecommittedSvc_ready {hdr : ServiceSlotContainer} {svc : BuiltService F S}
    (hc : ex.committedAt name = some hdr) (hp : ex.stagedSvc name = some svc) :
    (ex.updateWithPrecommittedSvc name).2 = .ok () := by
  obtain ⟨sh, hs, hc⟩ := Option.bind_eq_some_iff.mp hc
  have hp : sh.precommittedService = some svc := by simpa [stagedSvc, hs] using hp
  simp [updateWithPrecommittedSvc, hs, hc, hp]

theorem deployStagedService_error {e : ServiceCommandError}
    (h : ex.deployStagedService name = (ex', .error e)) : ex' = ex := by
  unfold deployStagedService at h
  split at h
  · simp_all
  · split at h
    · rename_i hs _ hp
      rw [take_none_eq hs hp] at h
      exact (Prod.mk.inj h).1.symm
    · simp at h

theorem deployStagedService_ok {hdr stop : Nat}
    (h : ex.deployStagedService name = (ex', .ok (hdr, stop))) (listener : L) :
    ∃ svc, ex.stagedSvc name = some svc ∧
      Deployed ex name svc listener (ex'.spawnServe name listener hdr stop) ∧
      ex'.builds = ex.builds := by
  unfold deployStagedService at h
  split at h
  · simp at h
  · rename_i sh hs
    split at h
    · simp at h
    · rename_i svc hp
      simp only [createSlotContainer, dropSlotContainer_eq, Prod.mk.injEq, Except.ok.injEq] at h
      obtain ⟨rfl, rfl, rfl⟩ := h
      refine ⟨svc, by simp [stagedSvc, hs, hp], ⟨?_, ?_, rfl, ?_, rfl, rfl⟩, rfl⟩
      · change (ServiceExecutor.putSite _ name _).committedAt = _
        rw [committedAt_putSite]
        change Function.update (ex.putSite name _).committedAt name _ = _
        simp
      · change (ServiceExecutor.putSite _ name _).stagedSvc = _
        rw [stagedSvc_putSite]
        change Function.update (ex.putSite name _).stagedSvc name _ = _
        simp
      · simp [spawnServe, committedAt, hs]

/-- What a deployment needs in order to succeed. -/
theorem deployAndServe_ready {svc : BuiltService F S} (hp : ex.stagedSvc name = some svc)
    (listener : L) :
    (deployAndServe ex name listener : _ × Except (CommandError SE LE) Unit).2 = .ok () := by
  obtain ⟨sh, hs, hp⟩ := Option.bind_eq_some_iff.mp hp
  simp [deployAndServe, deployStagedService, hs, hp]

theorem deployAndServe_error {listener : L} {e : CommandError SE LE}
    (h : deployAndServe ex name listener = (ex', .error e)) : ex' = ex := by
  unfold deployAndServe at h
  split at h
  · rename_i hd
    obtain rfl := (Prod.mk.inj h).1
    exact deployStagedService_error hd
  · simp at h

theorem deployAndServe_ok {listener : L}
    (h : deployAndServe ex name listener = (ex', (.ok () : Except (CommandError SE LE) Unit))) :
    ∃ svc, ex.stagedSvc name = some svc ∧ Deployed ex name svc listener ex' ∧
      ex'.builds = ex.builds := by
  unfold deployAndServe at h
  split at h
  · simp at h
  · rename_i hd
    obtain rfl := (Prod.mk.inj h).1
    exact deployStagedService_ok hd listener

theorem remove_error {e : ServiceCommandError} (h : ex.remove name = (ex', .error e)) :
    ex' = ex := by
  unfold remove at h
  split at h
  · simp_all
  · simp at h

theorem remove_ok (h : ex.remove name = (ex', .ok ())) :
    Becomes ex ex' (Function.update ex.committedAt name none)
      (Function.update ex.stagedSvc name none) ex.slots
      (dropReceiver ex.channels (ex.committedAt name)) ex.loops ∧ ex'.builds = ex.builds := by
  unfold remove at h
  split at h
  · simp at h
  · rename_i sh hs
    obtain rfl := (Prod.mk.inj h).1
    rw [dropSlotContainer_eq]
    refine ⟨⟨?_, ?_, rfl, by simp [committedAt, hs], rfl, rfl⟩, rfl⟩
    · change (ex.putSite name none).committedAt = _
      simp
    · change (ex.putSite name none).stagedSvc = _
      simp

/-- What `Remove` needs in order to succeed. -/
theorem remove_ready {hdr : ServiceSlotContainer} (hc : ex.committedAt name = some hdr) :
    (ex.remove name).2 = .ok () := by
  obtain ⟨sh, hs, -⟩ := Option.bind_eq_some_iff.mp hc
  simp [remove, hs]

theorem abort_error {e : ServiceCommandError} (h : ex.abort name = (ex', .error e)) :
    ex' = ex ∧ ex.sites name = none := by
  unfold abort at h
  split at h
  · simp_all
  · simp at h

theorem abort_ok (h : ex.abort name = (ex', .ok ())) :
    Becomes ex ex' ex.committedAt (Function.update ex.stagedSvc name none) ex.slots
      ex.channels ex.loops ∧ ex'.builds = ex.builds := by
  unfold abort at h
  split at h
  · simp at h
  · rename_i sh hs
    obtain rfl := (Prod.mk.inj h).1
    refine ⟨⟨?_, by simp, rfl, rfl, rfl, rfl⟩, rfl⟩
    rw [committedAt_putSite, Function.update_eq_self_iff]
    simp [committedAt, hs]

end ServiceExecutor

open ServiceExecutor

/-- An execution as the triple of what it returned. -/
theorem execute_result {env : Factories F LF S L SE LE} {ex : ServiceExecutor F S L}
    {cmd : ServiceCommand F LF} {result : Except (CommandError SE LE) Unit}
    (h : (execute env ex cmd).result = result) :
    execute env ex cmd =
      ⟨(execute env ex cmd).executor, result, (execute env ex cmd).call⟩ := by
  rw [← h]

/-- Everything a successful command can do. -/
inductive Done (ex : ServiceExecutor F S L) :
    ServiceCommand F LF → Option (FactoryCall F S) → ServiceExecutor F S L → Prop
  | precommit {name : Name} {factory : F} {svc : BuiltService F S}
      {ex' : ServiceExecutor F S L}
      (serial : svc.serial = ex.builds) (made_by : svc.factory = factory)
      (becomes : Becomes ex ex' ex.committedAt (Function.update ex.stagedSvc name (some svc))
        ex.slots ex.channels ex.loops)
      (builds : ex'.builds = ex.builds + 1) :
      Done ex (.precommit name factory) (some ⟨ex.getSvc name, some svc⟩) ex'
  | update {name : Name} {hdr : ServiceSlotContainer} {svc : BuiltService F S}
      {ex' : ServiceExecutor F S L}
      (committed : ex.committedAt name = some hdr) (staged : ex.stagedSvc name = some svc)
      (becomes : Becomes ex ex' ex.committedAt (Function.update ex.stagedSvc name none)
        (ex.slots.set hdr.slot svc) ex.channels ex.loops)
      (builds : ex'.builds = ex.builds) :
      Done ex (.update name) none ex'
  | commit {name : Name} {lf : LF} {svc : BuiltService F S} {listener : L}
      {ex' : ServiceExecutor F S L}
      (staged : ex.stagedSvc name = some svc) (deployed : Deployed ex name svc listener ex')
      (builds : ex'.builds = ex.builds) :
      Done ex (.commit name lf) none ex'
  | prepareAndCommit {name : Name} {factory : F} {lf : LF} {svc : BuiltService F S}
      {listener : L} {ex' : ServiceExecutor F S L}
      (serial : svc.serial = ex.builds) (made_by : svc.factory = factory)
      (deployed : Deployed ex name svc listener ex')
      (builds : ex'.builds = ex.builds + 1) :
      Done ex (.prepareAndCommit name factory lf) (some ⟨none, some svc⟩) ex'
  | abort {name : Name} {ex' : ServiceExecutor F S L}
      (becomes : Becomes ex ex' ex.committedAt (Function.update ex.stagedSvc name none)
        ex.slots ex.channels ex.loops)
      (builds : ex'.builds = ex.builds) :
      Done ex (.abort name) none ex'
  | remove {name : Name} {ex' : ServiceExecutor F S L}
      (becomes : Becomes ex ex' (Function.update ex.committedAt name none)
        (Function.update ex.stagedSvc name none) ex.slots
        (dropReceiver ex.channels (ex.committedAt name)) ex.loops)
      (builds : ex'.builds = ex.builds) :
      Done ex (.remove name) none ex'

variable {env : Factories F LF S L SE LE} {ex ex' : ServiceExecutor F S L}
  {cmd : ServiceCommand F LF} {call : Option (FactoryCall F S)}

theorem mapError_eq_ok {ε δ α : Type*} {r : Except ε α} {f : ε → δ} {a : α}
    (h : r.mapError f = .ok a) : r = .ok a := by
  cases r with
  | error e => cases h
  | ok b => cases h; rfl

theorem mapError_eq_error {ε δ α : Type*} {r : Except ε α} {f : ε → δ} {e : δ}
    (h : r.mapError f = .error e) : ∃ e', r = .error e' := by
  cases r with
  | error e' => exact ⟨e', rfl⟩
  | ok b => cases h

/-- Staging a service that was built just before. -/
theorem stage_built (ex : ServiceExecutor F S L) (name : Name) (factory : F) (value : S) :
    Becomes ex ((ex.built factory value).1.precommitSvc name (ex.built factory value).2)
      ex.committedAt (Function.update ex.stagedSvc name (some (ex.built factory value).2))
      ex.slots ex.channels ex.loops := by
  obtain ⟨hc, hs, hsl, hch, hl, hcn⟩ :=
    precommitSvc_becomes (ex.built factory value).1 name (ex.built factory value).2
  exact ⟨hc, hs, hsl, hch, hl, hcn⟩

theorem execute_ok (h : execute env ex cmd = ⟨ex', .ok (), call⟩) : Done ex cmd call ex' := by
  cases cmd with
  | precommit name factory =>
      simp only [execute] at h
      split at h
      · simp at h
      · obtain ⟨rfl, -, rfl⟩ := (Execution.mk.injEq ..).mp h
        exact .precommit rfl rfl (stage_built ex name factory _) rfl
  | update name =>
      simp only [execute] at h
      obtain ⟨rfl, hr, rfl⟩ := (Execution.mk.injEq ..).mp h
      obtain ⟨hdr, svc, hc, hs, hb, hn⟩ :=
        updateWithPrecommittedSvc_ok (Prod.ext rfl (mapError_eq_ok hr))
      exact .update hc hs hb hn
  | commit name lf =>
      simp only [execute] at h
      split at h
      · simp at h
      · obtain ⟨rfl, hr, rfl⟩ := (Execution.mk.injEq ..).mp h
        obtain ⟨svc, hs, hd, hn⟩ := deployAndServe_ok (Prod.ext rfl hr)
        exact .commit hs hd hn
  | prepareAndCommit name factory lf =>
      simp only [execute] at h
      split at h
      · simp at h
      · rename_i value _
        split at h
        · simp at h
        · rename_i listener _
          obtain ⟨rfl, hr, rfl⟩ := (Execution.mk.injEq ..).mp h
          obtain ⟨svc, hs, hd, hn⟩ := deployAndServe_ok (Prod.ext rfl hr)
          have staging := stage_built ex name factory value
          rw [staging.staged_eq, Function.update_self] at hs
          obtain rfl := Option.some.inj hs
          exact .prepareAndCommit rfl rfl (hd.of_staging staging) hn
  | abort name =>
      simp only [execute] at h
      obtain ⟨rfl, hr, rfl⟩ := (Execution.mk.injEq ..).mp h
      obtain ⟨hb, hn⟩ := abort_ok (Prod.ext rfl (mapError_eq_ok hr))
      exact .abort hb hn
  | remove name =>
      simp only [execute] at h
      obtain ⟨rfl, hr, rfl⟩ := (Execution.mk.injEq ..).mp h
      obtain ⟨hb, hn⟩ := remove_ok (Prod.ext rfl (mapError_eq_ok hr))
      exact .remove hb hn

/-- Only the count of built services can differ after a failed command. -/
theorem execute_error {e : CommandError SE LE}
    (h : execute env ex cmd = ⟨ex', .error e, call⟩) :
    ex' = { ex with builds := ex'.builds } ∧ ex.builds ≤ ex'.builds := by
  suffices hs : ex' = ex ∨ ∃ factory value, ex' = (ex.built factory value).1 by
    rcases hs with rfl | ⟨_, _, rfl⟩
    · exact ⟨rfl, Nat.le_refl _⟩
    · exact ⟨rfl, Nat.le_succ _⟩
  cases cmd with
  | precommit name factory =>
      simp only [execute] at h
      split at h
      · exact .inl ((Execution.mk.injEq ..).mp h).1.symm
      · simp at h
  | update name =>
      simp only [execute] at h
      obtain ⟨rfl, hr, -⟩ := (Execution.mk.injEq ..).mp h
      obtain ⟨e', he⟩ := mapError_eq_error hr
      exact .inl (updateWithPrecommittedSvc_error (Prod.ext rfl he))
  | commit name lf =>
      simp only [execute] at h
      split at h
      · exact .inl ((Execution.mk.injEq ..).mp h).1.symm
      · obtain ⟨rfl, hr, -⟩ := (Execution.mk.injEq ..).mp h
        exact .inl (deployAndServe_error (Prod.ext rfl hr))
  | prepareAndCommit name factory lf =>
      simp only [execute] at h
      split at h
      · exact .inl ((Execution.mk.injEq ..).mp h).1.symm
      · rename_i value _
        split at h
        · exact .inr ⟨factory, value, ((Execution.mk.injEq ..).mp h).1.symm⟩
        · -- the service was staged just before, so the deployment cannot fail
          obtain ⟨-, hr, -⟩ := (Execution.mk.injEq ..).mp h
          have staged : ((ex.built factory value).1.precommitSvc name
              (ex.built factory value).2).stagedSvc name = some (ex.built factory value).2 := by
            simp [(precommitSvc_becomes _ _ _).staged_eq]
          rw [deployAndServe_ready staged] at hr
          cases hr
  | abort name =>
      simp only [execute] at h
      obtain ⟨rfl, hr, -⟩ := (Execution.mk.injEq ..).mp h
      obtain ⟨e', he⟩ := mapError_eq_error hr
      exact .inl (abort_error (Prod.ext rfl he)).1
  | remove name =>
      simp only [execute] at h
      obtain ⟨rfl, hr, -⟩ := (Execution.mk.injEq ..).mp h
      obtain ⟨e', he⟩ := mapError_eq_error hr
      exact .inl (remove_error (Prod.ext rfl he))

/-- A failed command leaves every site, every committed slot with its service and
every staged service as it was; it spawns no serve loop and notifies none. -/
theorem failed_command_changes_nothing {e : CommandError SE LE}
    (h : execute env ex cmd = ⟨ex', .error e, call⟩) :
    ex'.sites = ex.sites ∧ ex'.committedAt = ex.committedAt ∧ ex'.getSvc = ex.getSvc ∧
      ex'.slots = ex.slots ∧ ex'.stagedSvc = ex.stagedSvc ∧ ex'.loops = ex.loops ∧
      ∀ lp : ServeLoop L, ex'.Notified lp ↔ ex.Notified lp := by
  obtain ⟨same, -⟩ := execute_error h
  rw [same]
  exact ⟨rfl, rfl, rfl, rfl, rfl, rfl, fun lp => Iff.rfl⟩

/-- The listener of a staged service cannot be made. -/
theorem failed_commit_keeps_staged :
    let env : Factories Unit Unit Unit Unit Unit String :=
      { makeViaRef := fun _ _ => .ok (), makeListener := fun _ => .error "address in use" }
    let ex : ServiceExecutor Unit Unit Unit := (execute env .new (.precommit "web" ())).executor
    (execute env ex (.commit "web" ())).result = .error (.buildListener "address in use") ∧
      (execute env ex (.commit "web" ())).executor.stagedSvc "web" = some ⟨0, (), ()⟩ := by
  intro env ex
  have failed : (execute env ex (.commit "web" ())).result =
      .error (.buildListener "address in use") := rfl
  obtain ⟨-, -, -, -, staged, -⟩ := failed_command_changes_nothing (execute_result failed)
  exact ⟨failed, congrFun staged "web"⟩

end Monolake.Orchestrator
