import Monolake.Foundation.Interleave

/-!
The calls of one Thrift proxy handler and the pool of connections they share. A
call connects, sends its request and reads one response, and its future can be
dropped at each of these awaits. The upstream answers the requests of a
connection in order; a response is known by the call whose request it answers.
-/
namespace Monolake.Thrift

universe u
open Foundation

variable {K E : Type u}

/-- A connection to `key`, returned to the pool when it is dropped unless
`reuse` is false. `unread` are the calls whose requests have gone out on it, in
whole or in part, and whose responses have not been read. -/
structure Reuse (K : Type u) where
  key : K
  unread : List Nat
  reuse : Bool

namespace Reuse

def connect (key : K) : Reuse K := { key, unread := [], reuse := true }

def setReuse (io : Reuse K) (reuse : Bool) : Reuse K := { io with reuse }

end Reuse

/-- The awaits of `send_request`, and its ends. -/
inductive SendRequest (K E : Type u) where
  | connecting (key : K)
  /-- `written`: some of the request is on the connection. -/
  | sending (io : Reuse K) (written : Bool)
  | receiving (io : Reuse K)
  | returned (result : Except E Nat)
  | dropped

structure ProxyHandler (K E : Type u) where
  calls : Nat → Option (SendRequest K E)
  /-- The idle connections of the connector's pool. -/
  pool : List (Reuse K)

inductive ProxyEvent (K E : Type u) where
  | called (i : Nat) (key : K)
  /-- The connection is a new one, or this one of the pool. -/
  | connected (i : Nat) (pooled : Option Nat)
  | connectFailed (i : Nat) (e : E)
  | wrote (i : Nat)
  | sent (i : Nat) (result : Except E Unit)
  /-- The answer of `io.next()`. -/
  | next (i : Nat) (item : Option (Except E Nat))
  /-- As by `TimeoutService` when the time is up. -/
  | futureDropped (i : Nat)
  /-- The pool lets an idle connection go. -/
  | evicted (p : Nat)

namespace ProxyHandler

def start : ProxyHandler K E := { calls := fun _ => none, pool := [] }

def enter (s : ProxyHandler K E) (i : Nat) (call : SendRequest K E) : ProxyHandler K E :=
  { s with calls := Function.update s.calls i (some call) }

/-- `Drop` of the connection. -/
def release (s : ProxyHandler K E) (io : Reuse K) : ProxyHandler K E :=
  if io.reuse then { s with pool := s.pool ++ [io] } else s

end ProxyHandler

/-- `unexpectedEof` is the error made when the connection has ended. -/
inductive ProxyStep (unexpectedEof : E) (s : ProxyHandler K E) :
    ProxyEvent K E → ProxyHandler K E → Prop
  | called {i key} (fresh : s.calls i = none) :
      ProxyStep unexpectedEof s (.called i key) (s.enter i (.connecting key))
  | connectedNew {i key} (at_ : s.calls i = some (.connecting key)) :
      ProxyStep unexpectedEof s (.connected i none) (s.enter i (.sending (.connect key) false))
  | connectedPooled {i p io} (at_ : s.calls i = some (.connecting io.key))
      (idle : s.pool[p]? = some io) :
      ProxyStep unexpectedEof s (.connected i (some p))
        ({ s with pool := s.pool.eraseIdx p }.enter i (.sending io false))
  | connectFailed {i key e} (at_ : s.calls i = some (.connecting key)) :
      ProxyStep unexpectedEof s (.connectFailed i e) (s.enter i (.returned (.error e)))
  | wrote {i io} (at_ : s.calls i = some (.sending io false)) :
      ProxyStep unexpectedEof s (.wrote i)
        (s.enter i (.sending { io with unread := io.unread ++ [i] } true))
  | sendFailed {i io written e} (at_ : s.calls i = some (.sending io written)) :
      ProxyStep unexpectedEof s (.sent i (.error e))
        ((s.release (io.setReuse false)).enter i (.returned (.error e)))
  | sent {i io} (at_ : s.calls i = some (.sending io true)) :
      ProxyStep unexpectedEof s (.sent i (.ok ())) (s.enter i (.receiving io))
  | received {i j io unread} (at_ : s.calls i = some (.receiving io))
      (answer : io.unread = j :: unread) :
      ProxyStep unexpectedEof s (.next i (some (.ok j)))
        ((s.release { io with unread }).enter i (.returned (.ok j)))
  | receiveFailed {i io e} (at_ : s.calls i = some (.receiving io)) :
      ProxyStep unexpectedEof s (.next i (some (.error e)))
        ((s.release (io.setReuse false)).enter i (.returned (.error e)))
  | ended {i io} (at_ : s.calls i = some (.receiving io)) :
      ProxyStep unexpectedEof s (.next i none)
        ((s.release (io.setReuse false)).enter i (.returned (.error unexpectedEof)))
  | droppedConnecting {i key} (at_ : s.calls i = some (.connecting key)) :
      ProxyStep unexpectedEof s (.futureDropped i) (s.enter i .dropped)
  | droppedSending {i io written} (at_ : s.calls i = some (.sending io written)) :
      ProxyStep unexpectedEof s (.futureDropped i) ((s.release io).enter i .dropped)
  | droppedReceiving {i io} (at_ : s.calls i = some (.receiving io)) :
      ProxyStep unexpectedEof s (.futureDropped i) ((s.release io).enter i .dropped)
  | evicted {p} : ProxyStep unexpectedEof s (.evicted p)
      { s with pool := s.pool.eraseIdx p }

/-! What the pool must be like. -/

namespace ProxyHandler

/-- No idle connection owes a response, and every response returned is the
answer to the request of its call. -/
structure Sound (s : ProxyHandler K E) : Prop where
  idle : ∀ io ∈ s.pool, io.unread = []
  own : ∀ i j, s.calls i = some (.returned (.ok j)) → j = i

/-- Some of the call's request has gone out, and its response is not read. -/
def Owed (s : ProxyHandler K E) (i : Nat) : Prop :=
  match s.calls i with
  | some (.sending _ written) => written = true
  | some (.receiving _) => True
  | _ => False

end ProxyHandler

/-- The connection that a call holds owes the response to that call only. -/
def SendRequest.Holds (i : Nat) : SendRequest K E → Prop
  | .sending io written => io.unread = (if written then [i] else []) ∧ io.reuse = true
  | .receiving io => io.unread = [i] ∧ io.reuse = true
  | .returned result => ∀ j, result = .ok j → j = i
  | .connecting _ | .dropped => True

structure Tidy (s : ProxyHandler K E) : Prop where
  pool : ∀ io ∈ s.pool, io.unread = [] ∧ io.reuse = true
  calls : ∀ i call, s.calls i = some call → call.Holds i

namespace Tidy
variable {s : ProxyHandler K E}

theorem start : Tidy (.start : ProxyHandler K E) := ⟨nofun, nofun⟩

theorem enter (h : Tidy s) {i : Nat} {call : SendRequest K E} (holds : call.Holds i) :
    Tidy (s.enter i call) :=
  ⟨h.pool, every_update h.calls holds⟩

theorem release (h : Tidy s) {io : Reuse K} (clean : io.reuse = true → io.unread = []) :
    Tidy (s.release io) := by
  rw [ProxyHandler.release]
  split
  · rename_i hreuse
    refine ⟨fun other hmem => ?_, h.calls⟩
    rcases List.mem_append.mp hmem with hmem | hmem
    · exact h.pool other hmem
    · rw [List.mem_singleton.mp hmem]
      exact ⟨clean hreuse, hreuse⟩
  · exact h

/-- A call that fails marks its connection and drops it. -/
theorem fail (h : Tidy s) (i : Nat) (io : Reuse K) (e : E) :
    Tidy ((s.release (io.setReuse false)).enter i (.returned (.error e))) := by
  have released : Tidy (s.release (io.setReuse false)) := h
  exact released.enter fun j hj => nomatch hj

theorem eraseIdx (h : Tidy s) (p : Nat) : Tidy { s with pool := s.pool.eraseIdx p } :=
  ⟨fun io hio => h.pool io (List.mem_of_mem_eraseIdx hio), h.calls⟩

theorem sound (h : Tidy s) : s.Sound :=
  ⟨fun io hio => (h.pool io hio).1, fun i j hj => h.calls i _ hj j rfl⟩

theorem step {unexpectedEof : E} {e : ProxyEvent K E} {s' : ProxyHandler K E} (h : Tidy s)
    (step : ProxyStep unexpectedEof s e s') (keeps : ∀ i, e = .futureDropped i → ¬ s.Owed i) :
    Tidy s' := by
  cases step with
  | called | droppedConnecting => exact h.enter trivial
  | connectedNew => exact h.enter ⟨rfl, rfl⟩
  | connectedPooled at_ idle =>
      exact (h.eraseIdx _).enter (h.pool _ (List.mem_of_getElem? idle))
  | connectFailed => exact h.enter fun j hj => nomatch hj
  | wrote at_ =>
      obtain ⟨unread, reuse⟩ := h.calls _ _ at_
      refine h.enter ⟨?_, reuse⟩
      simp only [Bool.false_eq_true, if_false] at unread
      simp [unread]
  | sendFailed | receiveFailed | ended => exact h.fail _ _ _
  | sent at_ =>
      have holds := h.calls _ _ at_
      exact h.enter holds
  | @received i j io unread at_ answer =>
      obtain ⟨own, -⟩ := h.calls _ _ at_
      rw [answer] at own
      obtain ⟨rfl, rfl⟩ := List.cons.inj own
      refine (h.release fun _ => rfl).enter fun k hk => ?_
      exact (Except.ok.inj hk).symm
  | @droppedSending i io written at_ =>
      have unwritten : written = false := by
        have owed := keeps i rfl
        simpa [ProxyHandler.Owed, at_] using owed
      obtain ⟨unread, -⟩ := h.calls _ _ at_
      subst unwritten
      exact (h.release fun _ => unread).enter trivial
  | @droppedReceiving i io at_ =>
      have owed := keeps i rfl
      exact absurd (by simp [ProxyHandler.Owed, at_]) owed
  | evicted => exact h.eraseIdx _

end Tidy

/-- The connection of a call that is dropped while its response is owed goes back
to the pool as it is, if it was reusable. -/
theorem dropped_unsound (unexpectedEof : E) {s : ProxyHandler K E} (h : Tidy s) {i : Nat}
    (owed : s.Owed i) :
    ∃ s', ProxyStep unexpectedEof s (.futureDropped i) s' ∧ ¬ s'.Sound := by
  have unsound : ∀ io : Reuse K, io.unread = [i] → io.reuse = true →
      ¬ ((s.release io).enter i .dropped).Sound := by
    intro io unread reuse sound
    have pooled : io ∈ ((s.release io).enter i .dropped).pool := by
      simp [ProxyHandler.release, reuse, ProxyHandler.enter]
    rw [sound.idle io pooled] at unread
    cases unread
  cases hcall : s.calls i with
  | none => simp [ProxyHandler.Owed, hcall] at owed
  | some call =>
      have holds := h.calls i call hcall
      cases call with
      | sending io written =>
          simp only [ProxyHandler.Owed, hcall] at owed
          subst owed
          exact ⟨_, .droppedSending hcall, unsound io holds.1 holds.2⟩
      | receiving io => exact ⟨_, .droppedReceiving hcall, unsound io holds.1 holds.2⟩
      | connecting key => simp [ProxyHandler.Owed, hcall] at owed
      | returned result => simp [ProxyHandler.Owed, hcall] at owed
      | dropped => simp [ProxyHandler.Owed, hcall] at owed

theorem tidy_run {unexpectedEof : E} {past : List (ProxyEvent K E)} {mid : ProxyHandler K E}
    (run : Run (ProxyStep unexpectedEof) .start past mid)
    (keeps : ∀ before i after m, past = before ++ .futureDropped i :: after →
      Run (ProxyStep unexpectedEof) .start before m → ¬ m.Owed i) : Tidy mid := by
  induction run with
  | nil => exact .start
  | @snoc past mid e mid' run step ih =>
      have before := ih fun b i a m heq =>
        keeps b i (a ++ [e]) m (by rw [heq, List.append_assoc]; rfl)
      refine before.step step fun i he => ?_
      exact keeps past i [] mid (by rw [he]) run

/-- However the steps of any number of calls interleave: in every state they lead
through the pool is sound and no foreign response was returned, exactly when none
of them drops a call while its response is owed. -/
theorem pool_sound_iff (unexpectedEof : E) (tr : List (ProxyEvent K E)) :
    (∀ past rest mid, tr = past ++ rest → Run (ProxyStep unexpectedEof) .start past mid →
      mid.Sound) ↔
    ∀ past i rest mid, tr = past ++ .futureDropped i :: rest →
      Run (ProxyStep unexpectedEof) .start past mid → ¬ mid.Owed i := by
  constructor
  · intro sound past
    -- the first such drop finds the connections as they should be
    induction hn : past.length using Nat.strongRecOn generalizing past with
    | ind n ih =>
        intro i rest mid heq run owed
        have tidy : Tidy mid := by
          refine tidy_run run fun before j after m hpast => ?_
          have shorter : before.length < n := by
            rw [← hn, hpast, List.length_append, List.length_cons]
            omega
          exact ih _ shorter before rfl j (after ++ .futureDropped i :: rest) m
            (by rw [heq, hpast, List.append_assoc]; rfl)
        obtain ⟨s', step, unsound⟩ := dropped_unsound unexpectedEof tidy owed
        exact unsound (sound (past ++ [.futureDropped i]) rest s'
          (by rw [heq, List.append_assoc]; rfl) (.snoc run step))
  · intro keeps past rest mid heq run
    refine (tidy_run run fun before i after m hpast => ?_).sound
    exact keeps before i (after ++ rest) m (by rw [heq, hpast, List.append_assoc]; rfl)

/-- Call 0 times out while it waits for its response. Its connection is idle
again, call 1 takes it, and returns the response to call 0. -/
theorem timed_out_call_answers_next :
    ∃ (tr : List (ProxyEvent String String)) (s : ProxyHandler String String),
      Run (ProxyStep "unexpected eof") .start tr s ∧
      s.calls 1 = some (.returned (.ok 0)) ∧ ¬ s.Sound := by
  have run : Run (ProxyStep "unexpected eof") (.start : ProxyHandler String String)
      [.called 0 "a:9090", .connected 0 none, .wrote 0, .sent 0 (.ok ()), .futureDropped 0,
        .called 1 "a:9090", .connected 1 (some 0), .wrote 1, .sent 1 (.ok ()),
        .next 1 (some (.ok 0))] _ :=
    .cons (.called rfl) <| .cons (.connectedNew rfl) <| .cons (.wrote rfl) <|
    .cons (.sent rfl) <| .cons (.droppedReceiving rfl) <| .cons (.called rfl) <|
    .cons (.connectedPooled rfl rfl) <| .cons (.wrote rfl) <| .cons (.sent rfl) <|
    .cons (.received rfl rfl) .nil
  refine ⟨_, _, run, rfl, fun sound => ?_⟩
  cases sound.own 1 0 rfl

end Monolake.Thrift
