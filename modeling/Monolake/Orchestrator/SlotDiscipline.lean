import Monolake.Orchestrator.SiteOperations

/-!
The ownership invariant of a worker thread: every deployment makes one slot
cell, one stop channel and one serve loop, and a channel has a live receiver
exactly as long as some site keeps the container it was made with. From it the
committed service of each name is read off after each command.
-/
namespace Monolake.Orchestrator

universe u
variable {F LF S L SE LE : Type u}

open ServiceExecutor

theorem ServiceExecutor.committed_of_getSvc {ex : ServiceExecutor F S L} {n : Name}
    {svc : BuiltService F S} (h : ex.getSvc n = some svc) :
    ∃ hdr, ex.committedAt n = some hdr := by
  obtain ⟨hdr, hn, -⟩ := Option.bind_eq_some_iff.mp h
  exact ⟨hdr, hn⟩

structure SlotDiscipline (ex : ServiceExecutor F S L) : Prop where
  slots_length : ex.slots.length = ex.loops.length
  channels_length : ex.channels.length = ex.loops.length
  loop_own : ∀ (i : Nat) lp, ex.loops[i]? = some lp → lp.handler = i ∧ lp.stop = i
  committed_own : ∀ n hdr, ex.committedAt n = some hdr → hdr.stop = hdr.slot
  committed_alive : ∀ n hdr, ex.committedAt n = some hdr → ex.channels[hdr.slot]? = some true
  committed_loop : ∀ n hdr lp, ex.committedAt n = some hdr →
    ex.loops[hdr.slot]? = some lp → lp.spawnedFor = n
  alive_committed : ∀ (i : Nat), ex.channels[i]? = some true →
    ∃ n hdr, ex.committedAt n = some hdr ∧ hdr.slot = i

namespace SlotDiscipline
variable {ex ex' : ServiceExecutor F S L} {name : Name}

theorem new : SlotDiscipline (ServiceExecutor.new : ServiceExecutor F S L) := by
  constructor <;> simp [ServiceExecutor.new, committedAt]

theorem slot_lt (inv : SlotDiscipline ex) {n : Name} {hdr : ServiceSlotContainer}
    (h : ex.committedAt n = some hdr) : hdr.slot < ex.loops.length := by
  have := (List.getElem?_eq_some_iff.mp (inv.committed_alive n hdr h)).1
  rwa [inv.channels_length] at this

/-- Two names never share a slot cell: the loop that holds it has one name. -/
theorem slot_inj (inv : SlotDiscipline ex) {n m : Name} {h k : ServiceSlotContainer}
    (hn : ex.committedAt n = some h) (hm : ex.committedAt m = some k)
    (same : h.slot = k.slot) : n = m := by
  obtain ⟨lp, hlp⟩ : ∃ lp, ex.loops[h.slot]? = some lp :=
    ⟨_, List.getElem?_eq_getElem (inv.slot_lt hn)⟩
  rw [← inv.committed_loop n h lp hn hlp]
  exact inv.committed_loop m k lp hm (same ▸ hlp)

theorem getSvc_of_committed (inv : SlotDiscipline ex) {hdr : ServiceSlotContainer}
    (h : ex.committedAt name = some hdr) : ∃ svc, ex.getSvc name = some svc := by
  have hlt : hdr.slot < ex.slots.length := by
    rw [inv.slots_length]
    exact inv.slot_lt h
  exact ⟨ex.slots[hdr.slot], by simp [getSvc, h, slotGetSvc]⟩

/-- A step that leaves containers, channels and loops alone keeps the discipline,
whatever it stores in the slot cells. -/
theorem of_same (inv : SlotDiscipline ex) (hc : ex'.committedAt = ex.committedAt)
    (hs : ex'.slots.length = ex.slots.length) (hch : ex'.channels = ex.channels)
    (hl : ex'.loops = ex.loops) : SlotDiscipline ex' := by
  constructor
  · rw [hs, hl, inv.slots_length]
  · rw [hch, hl, inv.channels_length]
  · rw [hl]; exact inv.loop_own
  · rw [hc]; exact inv.committed_own
  · rw [hc, hch]; exact inv.committed_alive
  · rw [hc, hl]; exact inv.committed_loop
  · rw [hc, hch]; exact inv.alive_committed

/-- Dropping the container of `name` closes its own channel and no other. -/
theorem dropReceiver_get (inv : SlotDiscipline ex) (name : Name) (i : Nat) :
    (dropReceiver ex.channels (ex.committedAt name))[i]? =
      if ∃ hdr, ex.committedAt name = some hdr ∧ hdr.slot = i then some false
      else ex.channels[i]? := by
  cases h : ex.committedAt name with
  | none => simp [dropReceiver]
  | some hdr =>
      have hlt : hdr.slot < ex.channels.length := by
        rw [inv.channels_length]
        exact inv.slot_lt h
      by_cases hi : hdr.slot = i
      · subst hi
        simp [dropReceiver, inv.committed_own name hdr h, hlt]
      · simp [dropReceiver, inv.committed_own name hdr h, hi]

theorem remove (inv : SlotDiscipline ex)
    (h : Becomes ex ex' (Function.update ex.committedAt name none)
      (Function.update ex.stagedSvc name none) ex.slots
      (dropReceiver ex.channels (ex.committedAt name)) ex.loops) : SlotDiscipline ex' := by
  have keeps : ∀ n hdr, ex'.committedAt n = some hdr →
      n ≠ name ∧ ex.committedAt n = some hdr := by
    intro n hdr hn
    rw [h.committed_eq] at hn
    by_cases hname : n = name
    · simp [hname] at hn
    · exact ⟨hname, by simpa [hname] using hn⟩
  constructor
  · rw [h.slots_eq, h.loops_eq, inv.slots_length]
  · rw [h.channels_eq, h.loops_eq, ← inv.channels_length]
    cases ex.committedAt name <;> simp [dropReceiver]
  · rw [h.loops_eq]; exact inv.loop_own
  · exact fun n hdr hn => inv.committed_own n hdr (keeps n hdr hn).2
  · intro n hdr hn
    obtain ⟨hne, hn⟩ := keeps n hdr hn
    rw [h.channels_eq, inv.dropReceiver_get, if_neg]
    · exact inv.committed_alive n hdr hn
    · rintro ⟨k, hk, same⟩
      exact hne (inv.slot_inj hn hk same.symm)
  · intro n hdr lp hn hlp
    rw [h.loops_eq] at hlp
    exact inv.committed_loop n hdr lp (keeps n hdr hn).2 hlp
  · intro i hi
    rw [h.channels_eq, inv.dropReceiver_get] at hi
    split at hi
    · simp at hi
    · rename_i hne
      obtain ⟨n, hdr, hn, hslot⟩ := inv.alive_committed i hi
      refine ⟨n, hdr, ?_, hslot⟩
      rw [h.committed_eq, Function.update_of_ne, hn]
      rintro rfl
      exact hne ⟨hdr, hn, hslot⟩

/-- The channel table after a deployment: the new channel is alive, the one of
the container it replaces is closed. -/
theorem deployed_channel (inv : SlotDiscipline ex) (name : Name) (i : Nat) :
    (dropReceiver (ex.channels ++ [true]) (ex.committedAt name))[i]? =
      if i = ex.loops.length then some true
      else if ∃ hdr, ex.committedAt name = some hdr ∧ hdr.slot = i then some false
      else ex.channels[i]? := by
  have hsplit : dropReceiver (ex.channels ++ [true]) (ex.committedAt name) =
      dropReceiver ex.channels (ex.committedAt name) ++ [true] := by
    cases h : ex.committedAt name with
    | none => rfl
    | some hdr =>
        have hlt : hdr.stop < ex.channels.length := by
          rw [inv.committed_own name hdr h, inv.channels_length]
          exact inv.slot_lt h
        simp [dropReceiver, List.set_append_left _ _ hlt]
  have hlen : (dropReceiver ex.channels (ex.committedAt name)).length = ex.loops.length := by
    rw [← inv.channels_length]
    cases ex.committedAt name <;> simp [dropReceiver]
  rw [hsplit]
  by_cases hi : i = ex.loops.length
  · simp [hi, ← hlen]
  · rw [if_neg hi, ← inv.dropReceiver_get, List.getElem?_append]
    split
    · rfl
    · have : ¬ i < (dropReceiver ex.channels (ex.committedAt name)).length := by assumption
      rw [List.getElem?_eq_none (by simp; omega), List.getElem?_eq_none (by omega)]

theorem deployed (inv : SlotDiscipline ex) {svc : BuiltService F S} {listener : L}
    (h : Deployed ex name svc listener ex') : SlotDiscipline ex' := by
  have hN : ex'.committedAt name = some ⟨ex.loops.length, ex.loops.length⟩ := by
    rw [h.committed_eq, Function.update_self, inv.slots_length, inv.channels_length]
  have keeps : ∀ n hdr, ex'.committedAt n = some hdr → n ≠ name →
      ex.committedAt n = some hdr := by
    intro n hdr hn hne
    rw [h.committed_eq] at hn
    simpa [hne] using hn
  have hloop : ∀ (i : Nat) lp, ex'.loops[i]? = some lp →
      i < ex.loops.length ∧ ex.loops[i]? = some lp ∨
      i = ex.loops.length ∧ lp = ⟨name, listener, i, i, true⟩ := by
    intro i lp hlp
    rw [h.loops_eq, inv.slots_length, inv.channels_length, List.getElem?_append] at hlp
    split at hlp
    · exact .inl ⟨by assumption, hlp⟩
    · have hi : i = ex.loops.length := by
        have := (List.getElem?_eq_some_iff.mp hlp).1
        simp at this; omega
      subst hi
      exact .inr ⟨rfl, by simpa using hlp.symm⟩
  constructor
  · simp [h.slots_eq, h.loops_eq, inv.slots_length]
  · rw [h.channels_eq, h.loops_eq]
    cases ex.committedAt name <;> simp [dropReceiver, inv.channels_length]
  · intro i lp hlp
    rcases hloop i lp hlp with ⟨-, hlp⟩ | ⟨-, rfl⟩
    · exact inv.loop_own i lp hlp
    · exact ⟨rfl, rfl⟩
  · intro n hdr hn
    by_cases hname : n = name
    · subst hname
      rw [hN] at hn
      cases hn; rfl
    · exact inv.committed_own n hdr (keeps n hdr hn hname)
  · intro n hdr hn
    rw [h.channels_eq, inv.deployed_channel]
    by_cases hname : n = name
    · subst hname
      rw [hN] at hn
      cases hn; simp
    · have hold := keeps n hdr hn hname
      rw [if_neg (by have := inv.slot_lt hold; omega), if_neg]
      · exact inv.committed_alive n hdr hold
      · rintro ⟨k, hk, same⟩
        exact hname (inv.slot_inj hold hk same.symm)
  · intro n hdr lp hn hlp
    by_cases hname : n = name
    · subst hname
      rw [hN] at hn
      cases hn
      rcases hloop _ lp hlp with ⟨hlt, -⟩ | ⟨-, rfl⟩
      · exact absurd hlt (Nat.lt_irrefl _)
      · rfl
    · have hold := keeps n hdr hn hname
      rcases hloop _ lp hlp with ⟨-, hlp⟩ | ⟨heq, -⟩
      · exact inv.committed_loop n hdr lp hold hlp
      · have := inv.slot_lt hold
        omega
  · intro i hi
    rw [h.channels_eq, inv.deployed_channel] at hi
    split at hi
    · rename_i heq
      exact ⟨name, _, hN, heq.symm⟩
    · split at hi
      · simp at hi
      · rename_i hne
        obtain ⟨n, hdr, hn, hslot⟩ := inv.alive_committed i hi
        refine ⟨n, hdr, ?_, hslot⟩
        rw [h.committed_eq, Function.update_of_ne, hn]
        rintro rfl
        exact hne ⟨hdr, hn, hslot⟩

/-! What `getSvc` returns after each kind of change. -/

theorem getSvc_same (hc : ex'.committedAt = ex.committedAt) (hs : ex'.slots = ex.slots) :
    ex'.getSvc = ex.getSvc := by
  funext n
  simp only [getSvc, slotGetSvc, hc, hs]

theorem getSvc_update (inv : SlotDiscipline ex) {hdr : ServiceSlotContainer}
    {svc : BuiltService F S} (committed : ex.committedAt name = some hdr)
    (hc : ex'.committedAt = ex.committedAt) (hs : ex'.slots = ex.slots.set hdr.slot svc) :
    ex'.getSvc = Function.update ex.getSvc name (some svc) := by
  funext n
  by_cases hname : n = name
  · subst hname
    have hlt : hdr.slot < ex.slots.length := by
      rw [inv.slots_length]
      exact inv.slot_lt committed
    simp [getSvc, slotGetSvc, hc, hs, committed, hlt]
  · rw [Function.update_of_ne hname]
    simp only [getSvc, slotGetSvc, hc, hs]
    cases hn : ex.committedAt n with
    | none => rfl
    | some k =>
        have hne : hdr.slot ≠ k.slot := fun same =>
          hname (inv.slot_inj hn committed same.symm)
        simp [List.getElem?_set_ne hne]

theorem getSvc_deployed (inv : SlotDiscipline ex) {svc : BuiltService F S} {listener : L}
    (h : Deployed ex name svc listener ex') :
    ex'.getSvc = Function.update ex.getSvc name (some svc) := by
  funext n
  by_cases hname : n = name
  · subst hname
    simp [getSvc, slotGetSvc, h.committed_eq, h.slots_eq]
  · rw [Function.update_of_ne hname]
    simp only [getSvc, slotGetSvc, h.committed_eq, h.slots_eq, Function.update_of_ne hname]
    cases hn : ex.committedAt n with
    | none => rfl
    | some k =>
        have hlt : k.slot < ex.slots.length := by
          rw [inv.slots_length]
          exact inv.slot_lt hn
        simp [List.getElem?_append_left hlt]

theorem getSvc_remove (hc : ex'.committedAt = Function.update ex.committedAt name none)
    (hs : ex'.slots = ex.slots) : ex'.getSvc = Function.update ex.getSvc name none := by
  funext n
  by_cases hname : n = name
  · subst hname
    simp [getSvc, hc]
  · simp [getSvc, slotGetSvc, hc, hs, hname]

end SlotDiscipline

/-! Preservation by commands and by serve rounds. -/

variable {ex ex' : ServiceExecutor F S L}

theorem Done.discipline {cmd : ServiceCommand F LF} {call : Option (FactoryCall F S)}
    (h : Done ex cmd call ex') (inv : SlotDiscipline ex) : SlotDiscipline ex' := by
  cases h with
  | precommit _ _ hb _ | abort hb _ =>
      exact inv.of_same hb.committed_eq (by rw [hb.slots_eq]) hb.channels_eq hb.loops_eq
  | update _ _ hb _ =>
      exact inv.of_same hb.committed_eq (by simp [hb.slots_eq]) hb.channels_eq hb.loops_eq
  | commit _ hd _ | prepareAndCommit _ _ hd _ => exact inv.deployed hd
  | remove hb _ => exact inv.remove hb

theorem execute_discipline {env : Factories F LF S L SE LE} {cmd : ServiceCommand F LF}
    {result : Except (CommandError SE LE) Unit} {call : Option (FactoryCall F S)}
    (h : execute env ex cmd = ⟨ex', result, call⟩) (inv : SlotDiscipline ex) :
    SlotDiscipline ex' := by
  cases result with
  | error e =>
      rw [(execute_error h).1]
      exact inv.of_same rfl rfl rfl rfl
  | ok => exact (execute_ok h).discipline inv

/-- Everything a round of a serve loop can do. -/
theorem serve_cases {i : Nat} {selected : Selected} (h : serve ex i selected = some ex') :
    ∃ lp, ex.loops[i]? = some lp ∧ lp.running = true ∧
      ((selected = .cancellation ∧ ex.Notified lp ∧ ex' = ex.stopLoop i) ∨
       (selected = .accept none ∧ ex' = ex.stopLoop i) ∨
       (∃ e, selected = .accept (some (.error e)) ∧ ex' = ex) ∨
       (∃ a svc, selected = .accept (some (.ok a)) ∧ ex.slotGetSvc lp.handler = some svc ∧
          ex' = { ex with connections := ex.connections ++ [⟨i, svc⟩] })) := by
  unfold serve at h
  split at h
  · simp at h
  · rename_i lp hlp
    split at h
    · rename_i hrun
      refine ⟨lp, hlp, hrun, ?_⟩
      split at h
      · split at h
        · rename_i hnotified
          exact .inl ⟨rfl, hnotified, (Option.some.inj h).symm⟩
        · simp at h
      · exact .inr (.inl ⟨rfl, (Option.some.inj h).symm⟩)
      · exact .inr (.inr (.inl ⟨_, rfl, (Option.some.inj h).symm⟩))
      · obtain ⟨svc, hsvc, rfl⟩ := Option.map_eq_some_iff.mp h
        exact .inr (.inr (.inr ⟨_, svc, rfl, hsvc, rfl⟩))
    · simp at h

/-- Stopping a loop changes nothing else about it. -/
theorem stopLoop_loop {i j : Nat} {lp : ServeLoop L}
    (h : (ex.stopLoop i).loops[j]? = some lp) :
    ∃ before, ex.loops[j]? = some before ∧ lp.handler = before.handler ∧
      lp.stop = before.stop ∧ lp.spawnedFor = before.spawnedFor ∧
      (i ≠ j → lp.running = before.running) := by
  simp only [stopLoop, List.getElem?_modify] at h
  obtain ⟨before, hb, rfl⟩ := Option.map_eq_some_iff.mp h
  refine ⟨before, hb, ?_⟩
  by_cases hij : i = j <;> simp [hij]

theorem SlotDiscipline.stopLoop (inv : SlotDiscipline ex) (i : Nat) :
    SlotDiscipline (ex.stopLoop i) := by
  have hlen : (ex.stopLoop i).loops.length = ex.loops.length := by
    simp [ServiceExecutor.stopLoop]
  constructor
  · rw [hlen]; exact inv.slots_length
  · rw [hlen]; exact inv.channels_length
  · intro j lp h
    obtain ⟨before, hb, hh, hs, -, -⟩ := stopLoop_loop h
    rw [hh, hs]
    exact inv.loop_own j before hb
  · exact inv.committed_own
  · exact inv.committed_alive
  · intro n hdr lp hn h
    obtain ⟨before, hb, -, -, hname, -⟩ := stopLoop_loop h
    rw [hname]
    exact inv.committed_loop n hdr before hn hb
  · exact inv.alive_committed

theorem serve_discipline {i : Nat} {selected : Selected}
    (h : serve ex i selected = some ex') (inv : SlotDiscipline ex) : SlotDiscipline ex' := by
  obtain ⟨lp, -, -, ⟨-, -, rfl⟩ | ⟨-, rfl⟩ | ⟨e, -, rfl⟩ | ⟨a, svc, -, -, rfl⟩⟩ := serve_cases h
  · exact inv.stopLoop i
  · exact inv.stopLoop i
  · exact inv
  · exact inv.of_same rfl rfl rfl rfl

theorem threadStep_discipline {ev : Event F LF S L SE LE} (inv : SlotDiscipline ex)
    (h : threadStep ex ev ex') : SlotDiscipline ex' := by
  cases ev with
  | executed env cmd result call => exact execute_discipline h inv
  | served i selected => exact serve_discipline h inv

end Monolake.Orchestrator
