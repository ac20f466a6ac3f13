import Monolake.Orchestrator.ExecutorRefinement

/-!
Serve loops and deployed services stay paired. As long as no listener ends by
itself, the loops that have not been told to stop are one for each committed
name, each on the slot cell of its name's container; a connection accepted by
such a loop gets the service the history has installed under its name.
-/
namespace Monolake.Orchestrator

universe u
variable {F LF S L SE LE : Type u}

open Foundation ServiceExecutor

variable {ex ex' : ServiceExecutor F S L}

/-- A receiver that is gone stays gone. -/
theorem Done.closed_stays_closed {cmd : ServiceCommand F LF}
    {call : Option (FactoryCall F S)} (h : Done ex cmd call ex') (inv : SlotDiscipline ex)
    {i : Nat} (hi : ex.channels[i]? = some false) : ex'.channels[i]? = some false := by
  have hlt : i < ex.loops.length := by
    rw [← inv.channels_length]
    exact (List.getElem?_eq_some_iff.mp hi).1
  cases h with
  | precommit _ _ hb _ | update _ _ hb _ | abort hb _ => rwa [hb.channels_eq]
  | commit _ hd _ | prepareAndCommit _ _ hd _ =>
      rw [hd.channels_eq, inv.deployed_channel, if_neg (Nat.ne_of_lt hlt), hi, ite_self]
  | remove hb _ => rw [hb.channels_eq, inv.dropReceiver_get, hi, ite_self]

/-- A command keeps every serve loop and adds at most one, which is running. -/
theorem Done.loops_grow {cmd : ServiceCommand F LF} {call : Option (FactoryCall F S)}
    (h : Done ex cmd call ex') : ∃ added : List (ServeLoop L),
      ex'.loops = ex.loops ++ added ∧ ∀ lp ∈ added, lp.running = true := by
  cases h with
  | precommit _ _ hb _ | update _ _ hb _ | abort hb _ | remove hb _ =>
      exact ⟨[], by simp [hb.loops_eq], by simp⟩
  | commit _ hd _ | prepareAndCommit _ _ hd _ =>
      exact ⟨_, hd.loops_eq, by simp⟩

/-- A loop that has not been told to stop is running. -/
def Attended (ex : ServiceExecutor F S L) : Prop :=
  ∀ (i : Nat) lp, ex.loops[i]? = some lp → ¬ ex.Notified lp → lp.running = true

theorem execute_attended {env : Factories F LF S L SE LE} {cmd : ServiceCommand F LF}
    {result : Except (CommandError SE LE) Unit} {call : Option (FactoryCall F S)}
    (h : execute env ex cmd = ⟨ex', result, call⟩) (inv : SlotDiscipline ex)
    (attended : Attended ex) : Attended ex' := by
  cases result with
  | error e =>
      rw [(execute_error h).1]
      exact attended
  | ok =>
      have done := execute_ok h
      obtain ⟨added, hloops, hadded⟩ := done.loops_grow
      intro i lp hlp hn
      rw [hloops, List.getElem?_append] at hlp
      split at hlp
      · exact attended i lp hlp fun closed => hn (done.closed_stays_closed inv closed)
      · exact hadded lp (List.mem_of_getElem? hlp)

theorem serve_attended {i : Nat} {selected : Selected} (h : serve ex i selected = some ex')
    (listening : selected ≠ .accept none) (attended : Attended ex) : Attended ex' := by
  obtain ⟨lp, hlp, -, ⟨-, hn, rfl⟩ | ⟨hend, -⟩ | ⟨e, -, rfl⟩ | ⟨a, svc, -, -, rfl⟩⟩ := serve_cases h
  · intro j after hj hopen
    obtain ⟨before, hb, -, hstop, -, hrun⟩ := stopLoop_loop hj
    have hopen : ¬ ex.Notified before := by
      simpa [Notified, hstop, stopLoop] using hopen
    have hij : i ≠ j := by
      rintro rfl
      rw [hlp] at hb
      exact hopen (Option.some.inj hb ▸ hn)
    rw [hrun hij]
    exact attended j before hb hopen
  · exact absurd hend listening
  · exact attended
  · exact attended

theorem attended_run {tr : List (Event F LF S L SE LE)} (h : Run threadStep .new tr ex)
    (listening : ∀ i, .served i (.accept none) ∉ tr) : Attended ex := by
  refine h.history (I := fun tr ex => (∀ i, .served i (.accept none) ∉ tr) → Attended ex)
    ?_ ?_ listening
  · intro _ i lp hlp
    simp [ServiceExecutor.new] at hlp
  · intro tr a ev b hrun ih hstep hl
    have attended := ih fun i hi => hl i (List.mem_append_left _ hi)
    cases ev with
    | executed env cmd result call =>
        exact execute_attended hstep (refines_run hrun).discipline attended
    | served i selected =>
        refine serve_attended hstep ?_ attended
        rintro rfl
        exact hl i (by simp)

/-- Being told to stop is exactly no longer being the loop of a live container. -/
theorem SlotDiscipline.open_loop (inv : SlotDiscipline ex) {i : Nat} {lp : ServeLoop L}
    (hlp : ex.loops[i]? = some lp) (hopen : ¬ ex.Notified lp) :
    ∃ hdr, ex.committedAt lp.spawnedFor = some hdr ∧ hdr.slot = i ∧ lp.handler = i := by
  have own := inv.loop_own i lp hlp
  have hlt : i < ex.channels.length := by
    rw [inv.channels_length]
    exact (List.getElem?_eq_some_iff.mp hlp).1
  have alive : ex.channels[i]? = some true := by
    rw [List.getElem?_eq_getElem hlt]
    cases hb : ex.channels[i] with
    | true => rfl
    | false => exact absurd (by simp [Notified, own.2, hlt, hb]) hopen
  obtain ⟨n, hdr, hn, rfl⟩ := inv.alive_committed i alive
  obtain rfl := inv.committed_loop n hdr lp hn hlp
  exact ⟨hdr, hn, rfl, own.1⟩

theorem SlotDiscipline.committed_open (inv : SlotDiscipline ex) {n : Name}
    {hdr : ServiceSlotContainer} (hn : ex.committedAt n = some hdr) :
    ∃ lp, ex.loops[hdr.slot]? = some lp ∧ lp.spawnedFor = n ∧ ¬ ex.Notified lp := by
  have hlp := List.getElem?_eq_getElem (inv.slot_lt hn)
  refine ⟨_, hlp, inv.committed_loop n hdr _ hn hlp, ?_⟩
  simp [Notified, (inv.loop_own _ _ hlp).2, inv.committed_alive n hdr hn]

theorem threadStep_connections {ev : Event F LF S L SE LE} (h : threadStep ex ev ex') :
    ex.connections <+: ex'.connections := by
  cases ev with
  | executed env cmd result call =>
      suffices hs : ex'.connections = ex.connections from hs ▸ List.prefix_refl _
      cases result with
      | error e => rw [(execute_error h).1]
      | ok =>
          cases execute_ok h with
          | precommit _ _ hb _ | update _ _ hb _ | abort hb _ | remove hb _ =>
              exact hb.connections_eq
          | commit _ hd _ | prepareAndCommit _ _ hd _ => exact hd.connections_eq
  | served i selected =>
      obtain ⟨lp, -, -, ⟨-, -, rfl⟩ | ⟨-, rfl⟩ | ⟨e, -, rfl⟩ | ⟨a, svc, -, -, rfl⟩⟩ := serve_cases h
      · exact List.prefix_refl _
      · exact List.prefix_refl _
      · exact List.prefix_refl _
      · exact List.prefix_append _ _

theorem connections_run {tr : List (Event F LF S L SE LE)} (h : Run threadStep ex tr ex') :
    ex.connections <+: ex'.connections :=
  h.monotone (R := fun a b => a.connections <+: b.connections)
    (fun _ => List.prefix_refl _) (fun _ _ _ => List.IsPrefix.trans)
    fun _ _ _ => threadStep_connections

/-- In every interleaving of commands with serve rounds in which no listener
ends: a committed name has exactly one loop not told to stop, running on the
slot cell of its container; there is no other such loop; and what such a loop
accepts is handed, for good, the service installed under its name. -/
theorem serve_loops_paired {tr : List (Event F LF S L SE LE)} (h : Run threadStep .new tr ex)
    (listening : ∀ i, .served i (.accept none) ∉ tr) :
    (∀ n svc, ex.getSvc n = some svc → ∃ hdr, ex.committedAt n = some hdr ∧
      (∃! i : Nat, ∃ lp, ex.loops[i]? = some lp ∧ lp.spawnedFor = n ∧ ¬ ex.Notified lp) ∧
      ∀ (i : Nat) lp, ex.loops[i]? = some lp → lp.spawnedFor = n → ¬ ex.Notified lp →
        lp.handler = hdr.slot ∧ lp.running = true) ∧
    (∀ (i : Nat) lp, ex.loops[i]? = some lp → ¬ ex.Notified lp →
      ∃ svc, ex.getSvc lp.spawnedFor = some svc) ∧
    ∀ past i rest, tr = past ++ .served i (.accept (some (.ok ()))) :: rest →
      ∃ a b lp svc, Run threadStep .new past a ∧
        serve a i (.accept (some (.ok ()))) = some b ∧ Run threadStep b rest ex ∧
        a.loops[i]? = some lp ∧ b.connections = a.connections ++ [⟨i, svc⟩] ∧
        b.connections <+: ex.connections ∧
        (¬ a.Notified lp → installedIn (changes past) lp.spawnedFor = some svc) := by
  have inv := (refines_run h).discipline
  have attended := attended_run h listening
  refine ⟨?_, ?_, ?_⟩
  · intro n svc hsvc
    obtain ⟨hdr, hn⟩ := ServiceExecutor.committed_of_getSvc hsvc
    have owner : ∀ (i : Nat) lp, ex.loops[i]? = some lp → lp.spawnedFor = n →
        ¬ ex.Notified lp → i = hdr.slot ∧ lp.handler = hdr.slot := by
      rintro i lp hlp rfl hopen
      obtain ⟨k, hk, rfl, hh⟩ := inv.open_loop hlp hopen
      obtain rfl := Option.some.inj (hn.symm.trans hk)
      exact ⟨rfl, hh⟩
    refine ⟨hdr, hn, ⟨hdr.slot, inv.committed_open hn, ?_⟩, ?_⟩
    · rintro i ⟨lp, hlp, hname, hopen⟩
      exact (owner i lp hlp hname hopen).1
    · intro i lp hlp hname hopen
      exact ⟨(owner i lp hlp hname hopen).2, attended i lp hlp hopen⟩
  · intro i lp hlp hopen
    obtain ⟨hdr, hn, -, -⟩ := inv.open_loop hlp hopen
    exact inv.getSvc_of_committed hn
  · rintro past i rest rfl
    obtain ⟨a, b, hpast, hstep, hrest⟩ := h.split
    have before := refines_run hpast
    obtain ⟨lp, hlp, -, ⟨hsel, -⟩ | ⟨hsel, -⟩ | ⟨e, hsel, -⟩ | ⟨-, svc, -, hsvc, rfl⟩⟩ :=
      serve_cases hstep
    · cases hsel
    · cases hsel
    · cases hsel
    · refine ⟨a, _, lp, svc, hpast, hstep, hrest, hlp, rfl, connections_run hrest, ?_⟩
      intro hopen
      obtain ⟨hdr, hn, hslot, hh⟩ := before.discipline.open_loop hlp hopen
      rw [← before.getSvc, getSvc, hn]
      rw [hh, ← hslot] at hsvc
      exact hsvc

/-- Two loops of one site, the first told to stop when the site is committed
again: the connection it had accepted keeps the first service. -/
theorem recommit_paired :
    ∃ (tr : List (Event Nat Nat Nat Nat Nat Nat)) (ex : ServiceExecutor Nat Nat Nat),
      Run threadStep .new tr ex ∧ ex.connections = [⟨0, ⟨0, 7, 7⟩⟩, ⟨1, ⟨1, 8, 8⟩⟩] ∧
        ∃! i : Nat, ∃ lp, ex.loops[i]? = some lp ∧ lp.spawnedFor = "web" ∧ ¬ ex.Notified lp := by
  have run : Run threadStep (.new : ServiceExecutor Nat Nat Nat)
      [.executed answering (.precommit "web" 7) _ _, .executed answering (.commit "web" 80) _ _,
        .served 0 (.accept (some (.ok ()))), .executed answering (.precommit "web" 8) _ _,
        .executed answering (.commit "web" 80) _ _, .served 0 .cancellation,
        .served 1 (.accept (some (.ok ())))] _ :=
    .cons rfl (.cons rfl (.cons rfl (.cons rfl (.cons rfl (.cons rfl (.cons rfl .nil))))))
  have paired := serve_loops_paired run (by simp)
  obtain ⟨hdr, -, unique, -⟩ := paired.1 "web" ⟨1, 8, 8⟩ (by decide)
  exact ⟨_, _, run, by decide, unique⟩

end Monolake.Orchestrator
