import Monolake.Config.Manager

/-!
Hot reload keeps every worker in step with the online config. The patches of a
diff have distinct keys and fit the two maps; a prepare that stops anywhere
leaves only staged services behind, which the abort takes back; after a complete
prepare, each command of the commit finds what it needs except for the listener
it makes itself.
-/
namespace Monolake.Config

universe u
open Foundation Orchestrator

variable {F LF S L SE LE LC SC IE PE : Type u}

/-! Patches of a diff. -/

/-- What the two maps say about the key of a patch. -/
def Patch.Fits (oldServices newServices : ServiceConfigMap LC SC) : Patch LC SC → Prop
  | .insert key listener server =>
      key ∉ oldServices ∧ newServices.lookup key = some ⟨listener, server⟩
  | .update key server =>
      key ∈ oldServices ∧ ∃ listener, newServices.lookup key = some ⟨listener, server⟩
  | .delete key => key ∈ oldServices ∧ key ∉ newServices

variable {oldServices newServices : ServiceConfigMap LC SC}

theorem exists_lookup {services : ServiceConfigMap LC SC} {key : Name} (h : key ∈ services) :
    ∃ config, services.lookup key = some config :=
  Option.isSome_iff_exists.mp (AList.lookup_isSome.mpr h)

/-- `diff` meets only keys of one of the maps, so it does not panic. -/
theorem patchFor_fits {key : Name} (h : key ∈ oldServices ∨ key ∈ newServices) :
    ∃ patch, patchFor oldServices newServices key = some patch ∧ patch.key = key ∧
      patch.Fits oldServices newServices := by
  by_cases ho : key ∈ oldServices <;> by_cases hn : key ∈ newServices
  · obtain ⟨config, hc⟩ := exists_lookup hn
    exact ⟨.update key config.server, by simp [patchFor, ho, hn, hc], rfl, ho, config.listener, hc⟩
  · exact ⟨.delete key, by simp [patchFor, ho, hn], rfl, ho, hn⟩
  · obtain ⟨config, hc⟩ := exists_lookup hn
    exact ⟨.insert key config.listener config.server, by simp [patchFor, ho, hn, hc], rfl, ho, hc⟩
  · exact absurd h (by simp [ho, hn])

theorem mapM_patchFor {keys : List Name}
    (h : ∀ key ∈ keys, key ∈ oldServices ∨ key ∈ newServices) :
    ∃ patches, keys.mapM (patchFor oldServices newServices) = some patches ∧
      patches.map Patch.key = keys ∧ ∀ p ∈ patches, p.Fits oldServices newServices := by
  induction keys with
  | nil => exact ⟨[], rfl, rfl, by simp⟩
  | cons key keys ih =>
      obtain ⟨patch, hp, hkey, hfits⟩ := patchFor_fits (h key (by simp))
      obtain ⟨patches, hps, hkeys, hall⟩ := ih fun k hk => h k (by simp [hk])
      refine ⟨patch :: patches, by simp [hp, hps], by simp [hkey, hkeys], ?_⟩
      rintro p (_ | ⟨_, hmem⟩)
      · exact hfits
      · exact hall p hmem

/-- For every iteration order, the diff is a list of fitting patches, one for
each key of either map. -/
theorem diff_fits (order : IterationOrder) (oldServices newServices : ServiceConfigMap LC SC) :
    ∃ patches, diff order oldServices newServices = some patches ∧
      (patches.map Patch.key).Nodup ∧ (∀ p ∈ patches, p.Fits oldServices newServices) ∧
      ∀ key, key ∈ patches.map Patch.key ↔ key ∈ oldServices ∨ key ∈ newServices := by
  have perm := order.perm (allKeys oldServices newServices)
  have hmem : ∀ key, key ∈ order.arrange (allKeys oldServices newServices) ↔
      key ∈ oldServices ∨ key ∈ newServices := by
    intro key
    rw [perm.mem_iff, allKeys, List.mem_union_iff, AList.mem_keys, AList.mem_keys]
  obtain ⟨patches, hd, hkeys, hfits⟩ := mapM_patchFor fun key hk => (hmem key).mp hk
  refine ⟨patches, hd, ?_, hfits, fun key => by rw [hkeys, hmem]⟩
  rw [hkeys, perm.nodup_iff]
  exact newServices.keys_nodup.union _

/-! Rules for the dispatching loop of `prepare` and `commit`. -/

section Loop
variable (env : Name → Nat → Factories F LF S L SE LE)
  (command : Patch LC SC → Option (ServiceCommand F LF))
  {I : List (Patch LC SC) → Nat → Worker F S L → Prop} {J : Nat → Worker F S L → Prop}

/-- `I` is indexed by the patches still to do. Workers of a group that fails end
in `J`, whether or not they are the ones that failed. -/
theorem dispatchUntilError_rule
    (skip : ∀ p rest i w, command p = none → I (p :: rest) i w → I rest i w)
    (step : ∀ p rest cmd i w, command p = some cmd → I (p :: rest) i w →
      (w.dispatch (env p.key i) cmd).2 = .ok () → I rest i (w.dispatch (env p.key i) cmd).1)
    (fail : ∀ p rest cmd i w, command p = some cmd → I (p :: rest) i w →
      J i (w.dispatch (env p.key i) cmd).1)
    {patches : List (Patch LC SC)} {workers : List (Worker F S L)} (h : Each (I patches) workers) :
    let out := dispatchUntilError env command patches workers
    (out.2 = .ok () → Each (I []) out.1) ∧ (out.2 ≠ .ok () → Each J out.1) := by
  induction patches generalizing workers with
  | nil => exact ⟨fun _ => h, fun hne => absurd rfl hne⟩
  | cons p rest ih =>
      cases hc : command p with
      | none =>
          simp only [dispatchUntilError, hc]
          exact ih fun i w hw => skip p rest i w hc (h i w hw)
      | some cmd =>
          simp only [dispatchUntilError, hc]
          split
          · refine ⟨fun hok => absurd hok (by simp), fun _ => ?_⟩
            exact dispatch_each h fun i w => fail p rest cmd i w hc
          · rename_i hgroup
            have each := dispatch_err_iff.mp hgroup
            refine ih ?_
            intro i w hw
            rw [dispatch_getElem?] at hw
            obtain ⟨before, hb, rfl⟩ := Option.map_eq_some_iff.mp hw
            exact step p rest cmd i before hc (h i before hb) (each i before hb)

/-- The loop succeeds when every command does, and then every command did. -/
theorem dispatchUntilError_ok_iff {Q : Patch LC SC → Nat → Prop}
    (skip : ∀ p rest i w, command p = none → I (p :: rest) i w → I rest i w)
    (step : ∀ p rest cmd i w, command p = some cmd → I (p :: rest) i w →
      (w.dispatch (env p.key i) cmd).2 = .ok () → I rest i (w.dispatch (env p.key i) cmd).1)
    (ready : ∀ p rest cmd i w, command p = some cmd → I (p :: rest) i w →
      ((w.dispatch (env p.key i) cmd).2 = .ok () ↔ Q p i))
    {patches : List (Patch LC SC)} {workers : List (Worker F S L)} (h : Each (I patches) workers) :
    (dispatchUntilError env command patches workers).2 = .ok () ↔
      ∀ p ∈ patches, command p ≠ none → ∀ i < workers.length, Q p i := by
  induction patches generalizing workers with
  | nil => simp [dispatchUntilError]
  | cons p rest ih =>
      cases hc : command p with
      | none =>
          simp only [dispatchUntilError, hc]
          rw [ih fun i w hw => skip p rest i w hc (h i w hw)]
          simp [hc]
      | some cmd =>
          have group : resultGroupErr (dispatchServiceCommand (env p.key) cmd workers).2 = .ok () ↔
              ∀ i < workers.length, Q p i := by
            rw [dispatch_err_iff]
            constructor
            · intro each i hi
              have hw := List.getElem?_eq_getElem hi
              exact (ready p rest cmd i _ hc (h i _ hw)).mp (each i _ hw)
            · intro hq i w hw
              have hi := (List.getElem?_eq_some_iff.mp hw).1
              exact (ready p rest cmd i w hc (h i w hw)).mpr (hq i hi)
          simp only [dispatchUntilError, hc]
          split
          · rename_i e hgroup
            refine ⟨fun hok => absurd hok (by simp), fun hall => ?_⟩
            have := group.mpr (hall p (by simp) (by simp [hc]))
            simp [hgroup] at this
          · rename_i hgroup
            have each := dispatch_err_iff.mp hgroup
            rw [ih]
            · rw [dispatch_length, List.forall_mem_cons]
              exact ⟨fun hall => ⟨fun _ => group.mp hgroup, hall⟩, And.right⟩
            · intro i w hw
              rw [dispatch_getElem?] at hw
              obtain ⟨before, hb, rfl⟩ := Option.map_eq_some_iff.mp hw
              exact step p rest cmd i before hc (h i before hb) (each i before hb)

end Loop

/-! The states a worker goes through in one attempt. -/

section Phases
variable {serverFactory : SC → F} {services : ServiceConfigMap LC SC}

/-- A worker at rest: nothing staged, and under each name the service built from
the online config of that name. -/
structure InStep (serverFactory : SC → F) (services : ServiceConfigMap LC SC)
    (w : Worker F S L) : Prop where
  sound : w.Sound
  nothing_staged : ∀ n, w.stagedSvc n = none
  committed : ∀ n, (w.getSvc n).map (·.factory) =
    (services.lookup n).map fun config => serverFactory config.server

/-- The config a patch stages in the prepare stage. -/
def Patch.staging : Patch LC SC → Option SC
  | .insert _ _ server | .update _ server => some server
  | .delete _ => none

/-- Some precommits of `patches` may have happened; nothing else has. -/
structure Staging (patches : List (Patch LC SC)) (before w : Worker F S L) : Prop where
  sound : w.Sound
  committed : w.getSvc = before.getSvc
  staged_by : ∀ n, w.stagedSvc n ≠ none → ∃ p ∈ patches, p.key = n ∧ p.staging ≠ none

/-- All precommits of `done` have happened. -/
structure Prepared (serverFactory : SC → F) (done : List (Patch LC SC))
    (before w : Worker F S L) : Prop extends Staging done before w where
  staged : ∀ p ∈ done, (w.stagedSvc p.key).map (·.factory) = p.staging.map serverFactory

/-- The patches `rest` are still to be committed, every other name is settled. -/
structure Committing (serverFactory : SC → F) (oldServices newServices : ServiceConfigMap LC SC)
    (rest : List (Patch LC SC)) (w : Worker F S L) : Prop where
  sound : w.Sound
  nodup : (rest.map Patch.key).Nodup
  fits : ∀ p ∈ rest, p.Fits oldServices newServices
  staged : ∀ p ∈ rest, (w.stagedSvc p.key).map (·.factory) = p.staging.map serverFactory
  committed : ∀ p ∈ rest, (w.getSvc p.key).map (·.factory) =
    (oldServices.lookup p.key).map fun config => serverFactory config.server
  settled_staged : ∀ n, n ∉ rest.map Patch.key → w.stagedSvc n = none
  settled : ∀ n, n ∉ rest.map Patch.key → (w.getSvc n).map (·.factory) =
    (newServices.lookup n).map fun config => serverFactory config.server

theorem Committing.inStep {w : Worker F S L}
    (h : Committing serverFactory oldServices newServices [] w) :
    InStep serverFactory newServices w :=
  ⟨h.sound, fun n => h.settled_staged n (by simp), fun n => h.settled n (by simp)⟩

theorem InStep.prepared {w : Worker F S L} (h : InStep serverFactory services w) :
    Prepared serverFactory ([] : List (Patch LC SC)) w w where
  sound := h.sound
  committed := rfl
  staged_by := fun n hn => absurd (h.nothing_staged n) hn
  staged := by simp

theorem Staging.mono {done rest : List (Patch LC SC)} {before w : Worker F S L}
    (h : Staging done before w) : Staging (done ++ rest) before w where
  sound := h.sound
  committed := h.committed
  staged_by := by
    intro n hn
    obtain ⟨p, hp, hkey⟩ := h.staged_by n hn
    exact ⟨p, List.mem_append_left _ hp, hkey⟩

variable {env : Factories F LF S L SE LE}

/-- A precommit on one worker, successful or not, is part of the staging. -/
theorem Staging.precommit {done : List (Patch LC SC)} {before w : Worker F S L}
    {p : Patch LC SC} {server : SC} (h : Staging done before w)
    (hp : p.staging = some server) :
    Staging (done ++ [p]) before
      (w.dispatch env (.precommit p.key (serverFactory server) : ServiceCommand F LF)).1 := by
  by_cases hok : (w.dispatch env
      (.precommit p.key (serverFactory server) : ServiceCommand F LF)).2 = .ok ()
  · obtain ⟨hg, svc, -, hs⟩ := h.sound.precommit hok
    refine ⟨h.sound.dispatch _, hg.trans h.committed, ?_⟩
    intro n hn
    by_cases hname : n = p.key
    · exact ⟨p, by simp, hname.symm, by simp [hp]⟩
    · rw [hs, Function.update_of_ne hname] at hn
      obtain ⟨q, hq, hkey⟩ := h.staged_by n hn
      exact ⟨q, List.mem_append_left _ hq, hkey⟩
  · obtain ⟨hg, hs⟩ := h.sound.dispatch_error hok
    refine ⟨h.sound.dispatch _, hg.trans h.committed, ?_⟩
    intro n hn
    rw [hs] at hn
    obtain ⟨q, hq, hkey⟩ := h.staged_by n hn
    exact ⟨q, List.mem_append_left _ hq, hkey⟩

theorem Prepared.precommit {done : List (Patch LC SC)} {before w : Worker F S L}
    {p : Patch LC SC} {server : SC} (h : Prepared serverFactory done before w)
    (hp : p.staging = some server) (fresh : p.key ∉ done.map Patch.key)
    (hok : (w.dispatch env
      (.precommit p.key (serverFactory server) : ServiceCommand F LF)).2 = .ok ()) :
    Prepared serverFactory (done ++ [p]) before
      (w.dispatch env (.precommit p.key (serverFactory server) : ServiceCommand F LF)).1 where
  toStaging := h.toStaging.precommit hp
  staged := by
    obtain ⟨-, svc, hf, hs⟩ := h.sound.precommit hok
    intro q hq
    rw [hs]
    rcases List.mem_append.mp hq with hq | hq
    · have hne : q.key ≠ p.key := fun heq => fresh (heq ▸ List.mem_map_of_mem hq)
      rw [Function.update_of_ne hne]
      exact h.staged q hq
    · obtain rfl := List.mem_singleton.mp hq
      simp [hp, hf]

/-- A patch without a prepare command stages nothing, and nothing is staged
under its key. -/
theorem Prepared.skip {done : List (Patch LC SC)} {before w : Worker F S L} {p : Patch LC SC}
    (h : Prepared serverFactory done before w) (hp : p.staging = none)
    (fresh : p.key ∉ done.map Patch.key) :
    Prepared serverFactory (done ++ [p]) before w where
  toStaging := h.toStaging.mono
  staged := by
    intro q hq
    rcases List.mem_append.mp hq with hq | hq
    · exact h.staged q hq
    · obtain rfl := List.mem_singleton.mp hq
      have : w.stagedSvc q.key = none := by
        by_contra hne
        obtain ⟨r, hr, hkey, -⟩ := h.staged_by q.key hne
        exact fresh (hkey ▸ List.mem_map_of_mem hr)
      simp [this, hp]

/-- Aborting the key of a patch takes back what it may have staged. -/
theorem Staging.abort {rest : List (Patch LC SC)} {before w : Worker F S L} {p : Patch LC SC}
    (h : Staging (p :: rest) before w) :
    Staging rest before (w.dispatch env (.abort p.key : ServiceCommand F LF)).1 := by
  obtain ⟨hg, hs⟩ := h.sound.abort p.key
  refine ⟨h.sound.dispatch _, hg.trans h.committed, ?_⟩
  intro n hn
  rw [hs] at hn
  by_cases hname : n = p.key
  · simp [hname] at hn
  · rw [Function.update_of_ne hname] at hn
    obtain ⟨q, hq, hkey, hst⟩ := h.staged_by n hn
    rcases List.mem_cons.mp hq with rfl | hq
    · exact absurd hkey.symm hname
    · exact ⟨q, hq, hkey, hst⟩

theorem Staging.skip {rest : List (Patch LC SC)} {before w : Worker F S L} {p : Patch LC SC}
    (h : Staging (p :: rest) before w) (hp : p.staging = none) : Staging rest before w := by
  refine ⟨h.sound, h.committed, fun n hn => ?_⟩
  obtain ⟨q, hq, hkey, hst⟩ := h.staged_by n hn
  rcases List.mem_cons.mp hq with rfl | hq
  · exact absurd hp hst
  · exact ⟨q, hq, hkey, hst⟩

theorem Staging.inStep {before w : Worker F S L}
    (h : Staging ([] : List (Patch LC SC)) before w)
    (hb : InStep serverFactory services before) : InStep serverFactory services w where
  sound := h.sound
  nothing_staged := by
    intro n
    by_contra hne
    obtain ⟨q, hq, -⟩ := h.staged_by n hne
    simp at hq
  committed := by rw [h.committed]; exact hb.committed

/-- After a complete prepare everything the commit stage relies on is in place. -/
theorem Prepared.committing {patches : List (Patch LC SC)} {before w : Worker F S L}
    (h : Prepared serverFactory patches before w)
    (hb : InStep serverFactory oldServices before)
    (nodup : (patches.map Patch.key).Nodup)
    (fits : ∀ p ∈ patches, p.Fits oldServices newServices)
    (keys : ∀ key, key ∈ patches.map Patch.key ↔ key ∈ oldServices ∨ key ∈ newServices) :
    Committing serverFactory oldServices newServices patches w where
  sound := h.sound
  nodup := nodup
  fits := fits
  staged := h.staged
  committed := fun p _ => by rw [h.committed]; exact hb.committed p.key
  settled_staged := by
    intro n hn
    by_contra hne
    obtain ⟨p, hp, hkey, -⟩ := h.staged_by n hne
    exact hn (hkey ▸ List.mem_map_of_mem hp)
  settled := by
    intro n hn
    obtain ⟨ho, hnew⟩ := not_or.mp (mt (keys n).mpr hn)
    rw [h.committed, hb.committed, AList.lookup_eq_none.mpr ho, AList.lookup_eq_none.mpr hnew]

/-- Settling the first patch: its name gets what the new config says. -/
theorem Committing.advance {p : Patch LC SC} {rest : List (Patch LC SC)}
    {w w' : Worker F S L} {svc : Option (BuiltService F S)}
    (h : Committing serverFactory oldServices newServices (p :: rest) w) (sound : w'.Sound)
    (hg : w'.getSvc = Function.update w.getSvc p.key svc)
    (hs : w'.stagedSvc = Function.update w.stagedSvc p.key none)
    (hsvc : svc.map (·.factory) =
      (newServices.lookup p.key).map fun config => serverFactory config.server) :
    Committing serverFactory oldServices newServices rest w' := by
  obtain ⟨fresh, nodup⟩ := List.nodup_cons.mp h.nodup
  have other : ∀ q ∈ rest, q.key ≠ p.key := fun q hq heq =>
    fresh (heq ▸ List.mem_map_of_mem hq)
  refine ⟨sound, nodup, fun q hq => h.fits q (by simp [hq]), ?_, ?_, ?_, ?_⟩
  · intro q hq
    rw [hs, Function.update_of_ne (other q hq)]
    exact h.staged q (by simp [hq])
  · intro q hq
    rw [hg, Function.update_of_ne (other q hq)]
    exact h.committed q (by simp [hq])
  · intro n hn
    by_cases hname : n = p.key
    · simp [hs, hname]
    · rw [hs, Function.update_of_ne hname]
      exact h.settled_staged n (by simpa [hname] using hn)
  · intro n hn
    by_cases hname : n = p.key
    · subst hname
      simpa [hg] using hsvc
    · rw [hg, Function.update_of_ne hname]
      exact h.settled n (by simpa [hname] using hn)

end Phases

/-! The commands of the commit stage. -/

section CommitStage
variable {mgr : StaticFileConfigManager F LF S L LC SC}
  {oldServices newServices : ServiceConfigMap LC SC} {env : Factories F LF S L SE LE}

theorem Committing.step {p : Patch LC SC} {rest : List (Patch LC SC)} {w : Worker F S L}
    (h : Committing mgr.serverFactoryProvider oldServices newServices (p :: rest) w)
    {cmd : ServiceCommand F LF} (hcmd : mgr.commitCommand p = some cmd)
    (hok : (w.dispatch env cmd).2 = .ok ()) :
    Committing mgr.serverFactoryProvider oldServices newServices rest (w.dispatch env cmd).1 := by
  have fits := h.fits p (by simp)
  have staged := h.staged p (by simp)
  cases p with
  | insert key listener server =>
      obtain rfl := Option.some.inj hcmd
      obtain ⟨svc, hsvc, hg, hs⟩ := h.sound.promote (.inr ⟨_, rfl⟩) hok
      refine h.advance (h.sound.dispatch _) hg hs ?_
      simpa [Patch.key, Patch.staging, hsvc, fits.2] using staged
  | update key server =>
      obtain rfl := Option.some.inj hcmd
      obtain ⟨svc, hsvc, hg, hs⟩ := h.sound.promote (.inl rfl) hok
      obtain ⟨listener, hnew⟩ := fits.2
      refine h.advance (h.sound.dispatch _) hg hs ?_
      simpa [Patch.key, Patch.staging, hsvc, hnew] using staged
  | delete key =>
      obtain rfl := Option.some.inj hcmd
      obtain ⟨hg, hs⟩ := h.sound.remove hok
      refine h.advance (h.sound.dispatch _) hg hs ?_
      simp [Patch.key, AList.lookup_eq_none.mpr fits.2]

/-- The listener of an inserted key can be made; other patches need none. -/
def Patch.ListenerMade (mgr : StaticFileConfigManager F LF S L LC SC)
    (env : Factories F LF S L SE LE) : Patch LC SC → Prop
  | .insert _ listener _ => ∃ l, env.makeListener (mgr.listenerFactoryProvider listener) = .ok l
  | .update _ _ | .delete _ => True

/-- After a complete prepare, only the listener decides whether a command of the
commit stage succeeds. -/
theorem Committing.ready {p : Patch LC SC} {rest : List (Patch LC SC)} {w : Worker F S L}
    (h : Committing mgr.serverFactoryProvider oldServices newServices (p :: rest) w)
    {cmd : ServiceCommand F LF} (hcmd : mgr.commitCommand p = some cmd) :
    (w.dispatch env cmd).2 = .ok () ↔ p.ListenerMade mgr env := by
  have fits := h.fits p (by simp)
  have staged := h.staged p (by simp)
  have committed := h.committed p (by simp)
  cases p with
  | insert key listener server =>
      obtain rfl := Option.some.inj hcmd
      obtain ⟨svc, hsvc, -⟩ := Option.map_eq_some_iff.mp staged
      exact ⟨h.sound.commit_listener, fun ⟨l, hl⟩ => h.sound.commit_ready hsvc hl⟩
  | update key server =>
      obtain rfl := Option.some.inj hcmd
      obtain ⟨svc, hsvc, -⟩ := Option.map_eq_some_iff.mp staged
      obtain ⟨config, hconfig⟩ := exists_lookup fits.1
      simp only [Patch.key, hconfig, Option.map_some] at committed
      obtain ⟨old, hold, -⟩ := Option.map_eq_some_iff.mp committed
      exact iff_of_true (h.sound.update_ready hold hsvc) trivial
  | delete key =>
      obtain rfl := Option.some.inj hcmd
      obtain ⟨config, hconfig⟩ := exists_lookup fits.1
      simp only [Patch.key, hconfig, Option.map_some] at committed
      obtain ⟨old, hold, -⟩ := Option.map_eq_some_iff.mp committed
      exact iff_of_true (h.sound.remove_ready hold) trivial

end CommitStage

end Monolake.Config
