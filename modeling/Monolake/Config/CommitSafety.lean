import Monolake.Config.LostWorkers

/-!
The commit that follows a complete prepare. Every worker has voted, but the listener of a new
name is only made in the commit itself, and a worker can be lost before its command.
-/
namespace Monolake.Config

universe u
open Foundation Orchestrator

variable {F LF S L SE LE LC SC IE PE : Type u}
  {mgr : StaticFileConfigManager F LF S L LC SC} {losses : Losses}
  {newServices : ServiceConfigMap LC SC} {order : IterationOrder}
  {outcomes : Outcomes F LF S L SE LE} {patches : List (Patch LC SC)}
  {prepared : List (Worker F S L)}

/-- What two-phase safety promises of a commit: every command succeeds on every
worker, the panic is not reached, and all workers that are left have the same committed
names. -/
def StaticFileConfigManager.CommitSafe (mgr : StaticFileConfigManager F LF S L LC SC)
    (losses : Losses) (order : IterationOrder) (outcomes : Outcomes F LF S L SE LE)
    (newServices : ServiceConfigMap LC SC) (patches : List (Patch LC SC))
    (prepared : List (Worker F S L)) : Prop :=
  let committed := losingUntilError losses.commit outcomes.commit mgr.commitCommand patches prepared
  committed.2 = .ok () ∧
  (∃ r, mgr.reloadServicesLosing losses order outcomes newServices = some r) ∧
  ∀ w ∈ committed.1, ∀ w' ∈ committed.1, w.alive = true → w'.alive = true →
    ∀ n, (w.getSvc n).isSome = (w'.getSvc n).isSome

/-- For every name that is online or new, every worker is there when the commit begins and is
not lost before its command for the name, and can make the listener of a name that is not
online yet. -/
def StaticFileConfigManager.CommitReady (mgr : StaticFileConfigManager F LF S L LC SC)
    (losses : Losses) (outcomes : Outcomes F LF S L SE LE)
    (newServices : ServiceConfigMap LC SC) (prepared : List (Worker F S L)) : Prop :=
  ∀ key, key ∈ mgr.onlineServices ∨ key ∈ newServices →
    ∀ i w, prepared[i]? = some w → w.alive = true ∧ losses.commit key i = false ∧
      (key ∉ mgr.onlineServices → ∀ config, newServices.lookup key = some config → ∃ l,
        (outcomes.commit key i).makeListener (mgr.listenerFactoryProvider config.listener) =
          .ok l)

/-- A patch of a diff asks for a listener when its name is not online. -/
theorem Patch.Fits.listenerMade_iff {p : Patch LC SC}
    (fit : p.Fits mgr.onlineServices newServices) (env : Factories F LF S L SE LE) :
    p.ListenerMade mgr env ↔ (p.key ∉ mgr.onlineServices → ∀ config,
      newServices.lookup p.key = some config →
        ∃ l, env.makeListener (mgr.listenerFactoryProvider config.listener) = .ok l) := by
  cases p with
  | insert key listener server =>
      obtain ⟨fresh, hlookup⟩ := fit
      constructor
      · intro made _ config hconfig
        obtain rfl := Option.some.inj (hlookup.symm.trans hconfig)
        exact made
      · exact fun made => made fresh _ hlookup
  | update key server => exact iff_of_true trivial fun fresh => absurd fit.1 fresh
  | delete key => exact iff_of_true trivial fun fresh => absurd fit.1 fresh

/-- After a complete prepare, the workers and the listeners decide the commit. -/
theorem commitLosing_ok_iff (h : mgr.LiveInStep)
    (hd : diff order mgr.onlineServices newServices = some patches)
    (hprepare : losingUntilError losses.prepare outcomes.prepare mgr.prepareCommand patches
      mgr.workers = (prepared, .ok ())) :
    (losingUntilError losses.commit outcomes.commit mgr.commitCommand patches prepared).2 =
        .ok () ↔
      mgr.CommitReady losses outcomes newServices prepared := by
  have committing := prepareLosing_committing h hd hprepare
  obtain ⟨ps, hps, -, fits, keys⟩ := diff_fits order mgr.onlineServices newServices
  obtain rfl := Option.some.inj (hps.symm.trans hd)
  have commands : ∀ p : Patch LC SC, mgr.commitCommand p ≠ none := by
    intro p
    cases p <;> exact Option.some_ne_none _
  rw [losingUntilError_ok_iff losses.commit outcomes.commit mgr.commitCommand
    (I := fun rest _ => Committing mgr.serverFactoryProvider mgr.onlineServices newServices rest)
    (Q := fun p i => p.ListenerMade mgr (outcomes.commit p.key i))
    (fun p rest i w hc => absurd hc (commands p))
    (fun p rest cmd i w hc hw => hw.step hc)
    (fun p rest cmd i w hc hw => hw.ready hc) committing]
  constructor
  · intro all key hkey i w hw
    obtain ⟨p, hp, rfl⟩ := List.mem_map.mp ((keys key).mpr hkey)
    obtain ⟨alive, kept, made⟩ := all p hp (commands p) i w hw
    exact ⟨alive, kept, ((fits p hp).listenerMade_iff _).mp made⟩
  · intro ready p hp _ i w hw
    have hkey := (keys p.key).mp (List.mem_map_of_mem hp)
    obtain ⟨alive, kept, made⟩ := ready p.key hkey i w hw
    exact ⟨alive, kept, ((fits p hp).listenerMade_iff _).mpr made⟩

/-- After any attempts, in which workers may have been lost: once a prepare has succeeded on
every worker, its commit is safe exactly when no worker is lost before it is done and every
worker can make the listener of every name that is new. -/
theorem commit_safe_iff {threads : Nat} {listenerFactoryProvider : LC → LF}
    {serverFactoryProvider : SC → F} {performed : List (LosingAttempt F LF S L SE LE LC SC IE PE)}
    (hrun : Run losingStep (.new threads listenerFactoryProvider serverFactoryProvider)
      performed mgr)
    (hd : diff order mgr.onlineServices newServices = some patches)
    (hprepare : losingUntilError losses.prepare outcomes.prepare mgr.prepareCommand patches
      mgr.workers = (prepared, .ok ())) :
    mgr.CommitSafe losses order outcomes newServices patches prepared ↔
      mgr.CommitReady losses outcomes newServices prepared := by
  have inStep := (liveInStep_run hrun).1
  have commit_iff := commitLosing_ok_iff inStep hd hprepare
  refine ⟨fun safe => commit_iff.mp safe.1, fun ready => ?_⟩
  have committed := commit_iff.mpr ready
  have committing := prepareLosing_committing inStep hd hprepare
  rw [← List.append_nil patches] at committing
  have settled := commitLosing_settles losses outcomes committing committed
  refine ⟨committed, ?_, ?_⟩
  · simp only [StaticFileConfigManager.reloadServicesLosing, hd, hprepare]
    split
    · exact ⟨_, rfl⟩
    · rename_i hcommit
      rw [hcommit] at committed
      cases committed
  · have names : ∀ w ∈ (losingUntilError losses.commit outcomes.commit mgr.commitCommand patches
        prepared).1, w.alive = true →
          ∀ n, (w.getSvc n).isSome = (newServices.lookup n).isSome := by
      intro w hw alive n
      obtain ⟨i, hi⟩ := List.getElem?_of_mem hw
      simpa only [Option.isSome_map] using
        congrArg Option.isSome ((settled i w hi alive).inStep.committed n)
    exact fun w hw w' hw' alive alive' n =>
      (names w hw alive n).trans (names w' hw' alive' n).symm

/-- The commit of a first site on two workers that are left and can both listen. -/
theorem first_site_commit_safe :
    ∃ patches prepared,
      StaticFileConfigManager.CommitSafe (.new 2 id id) .none inOrder allAnswer firstSite patches
        prepared := by
  have run : Run (ℓ := LosingAttempt Nat Nat Nat Nat Nat Nat Nat Nat Nat Nat) losingStep
      (.new 2 id id : StaticFileConfigManager Nat Nat Nat Nat Nat Nat) [] _ := .nil
  refine ⟨_, _, (commit_safe_iff run rfl rfl).mpr ?_⟩
  intro key _ i w hw
  refine ⟨?_, rfl, fun _ config _ => ⟨config.listener, rfl⟩⟩
  rcases i with _ | _ | i
  · exact Option.some.inj hw ▸ rfl
  · exact Option.some.inj hw ▸ rfl
  · cases hw

/-- The second worker finds the address of the listener taken. -/
def addressTaken : Outcomes Nat Nat Nat Nat Nat Nat :=
  { allAnswer with
    commit := fun _ i => if i = 1 then { answering with makeListener := .error } else answering }

/-- Both workers prepare the site; the first then deploys it, the second does
not, and the manager panics. Or both run it, the second is lost, and a file without sites asks
nobody before the commit; the first then removes it, and the manager panics. -/
theorem commit_stops_at_second_worker :
    (let mgr : StaticFileConfigManager Nat Nat Nat Nat Nat Nat := .new 2 id id
    ∃ patches prepared, diff inOrder mgr.onlineServices firstSite = some patches ∧
      losingUntilError Losses.none.prepare addressTaken.prepare mgr.prepareCommand patches
        mgr.workers = (prepared, .ok ()) ∧
      (losingUntilError Losses.none.commit addressTaken.commit mgr.commitCommand patches
        prepared).2 = .error (.command (.buildListener 80)) ∧
      mgr.reloadServicesLosing .none inOrder addressTaken firstSite = none ∧
      (losingUntilError Losses.none.commit addressTaken.commit mgr.commitCommand patches
        prepared).1.map (fun w => (w.getSvc "web").isSome) = [true, false] ∧
      ¬ mgr.CommitSafe .none inOrder addressTaken firstSite patches prepared) ∧
    ∃ (mgr : StaticFileConfigManager Nat Nat Nat Nat Nat Nat) (patches : _) (prepared : _),
      Run losingStep (.new 2 id id)
        [(attemptOf 1 firstSite allAnswer, .none, .reloaded),
          (attemptOf 2 secondSite allAnswer, secondWorkerLost, .prepareFailed .channelClosed)]
        mgr ∧
      diff inOrder mgr.onlineServices ∅ = some patches ∧
      losingUntilError Losses.none.prepare allAnswer.prepare mgr.prepareCommand patches
        mgr.workers = (prepared, .ok ()) ∧
      mgr.reloadServicesLosing .none inOrder allAnswer ∅ = none ∧
      ¬ mgr.CommitSafe .none inOrder allAnswer ∅ patches prepared := by
  refine ⟨⟨_, _, rfl, rfl, rfl, rfl, rfl, fun safe => ?_⟩, _, _, _,
    .cons rfl (.single rfl), rfl, rfl, rfl, fun safe => ?_⟩
  · cases safe.1
  · cases safe.1

end Monolake.Config
