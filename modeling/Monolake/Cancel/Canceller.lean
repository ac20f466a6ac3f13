import Monolake.Cancel.LinkedList

/-!
The cancel primitive: one handler, the handles that keep it alive, and the
waiters that hold it weakly. A run performs one operation of one handle or
waiter after the other; its label says what a poll returned and which wakers
were woken, in order. Wakers do not call back.
-/
namespace Monolake.Cancel

universe u
variable {T W : Type u}

/-! A `for` loop over any list ends: each round takes a value out of the vector. -/

theorem LinkedListIter.next_takes {it it' : LinkedListIter T} {val : T}
    (h : it.next = .ok (it', some val)) :
    it'.data.countP (·.data.isSome) < it.data.countP (·.data.isSome) := by
  rw [LinkedListIter.next] at h
  split at h
  · simp at h
  · cases hnode : it.data[it.head]? with
    | none => simp [index, hnode, bind, Except.bind] at h
    | some node =>
        simp only [index, hnode, bind, Except.bind, Except.ok.injEq, Prod.mk.injEq] at h
        obtain ⟨rfl, hdata⟩ := h
        obtain ⟨hlt, hget⟩ := List.getElem?_eq_some_iff.mp hnode
        have hpos : 0 < it.data.countP (·.data.isSome) :=
          List.countP_pos_iff.mpr ⟨node, List.mem_of_getElem? hnode, by simp [hdata]⟩
        have hold : it.data[it.head].data.isSome = true := by rw [hget, hdata, Option.isSome_some]
        rw [List.countP_set hlt]
        simp only [hold, Option.isSome_none, if_true, Bool.false_eq_true, if_false]
        omega

theorem LinkedListIter.forLoop_ends (it : LinkedListIter T) {fuel : Nat}
    (h : it.data.countP (·.data.isSome) < fuel) : (it.forLoop fuel).isSome := by
  induction fuel generalizing it with
  | zero => omega
  | succ fuel ih =>
      rw [LinkedListIter.forLoop]
      split
      · rfl
      · rfl
      · rename_i it' val hnext
        have fewer := next_takes hnext
        rw [Option.isSome_map]
        exact ih it' (by omega)

/-- `for waker in waiters.into_iter()` -/
def LinkedList.wakeAll (waiters : LinkedList W) : Except Panic (List W) :=
  (waiters.intoIter.forLoop (waiters.data.length + 1)).get
    (waiters.intoIter.forLoop_ends (Nat.lt_succ_of_le List.countP_le_length))

structure CancelHandler (W : Type u) where
  cancelled : Bool
  waiters : LinkedList W

structure Waiter where
  index : Option Nat
  alive : Bool

inductive Poll where
  | ready
  | pending
  deriving DecidableEq

/-- A handler, how many plain cancellers and how many droppers hold it, and all
waiters that were ever made for it. -/
structure Cancellation (W : Type u) where
  handler : CancelHandler W
  cancellers : Nat
  droppers : Nat
  waiters : List Waiter

inductive Op (W : Type u) where
  | waiter
  | cloneCanceller
  | dropper
  | cancel
  | dropCanceller
  | dropDropper
  | cloneWaiter (i : Nat)
  | poll (i : Nat) (waker : W)
  | dropWaiter (i : Nat)

structure Outcome (W : Type u) where
  poll : Option Poll
  woken : List W

def Outcome.silent : Outcome W := { poll := none, woken := [] }

namespace Cancellation

/-- `Canceller::new` -/
def new : Cancellation W :=
  { handler := { cancelled := false, waiters := .new }, cancellers := 1, droppers := 0,
    waiters := [] }

/-- Whether `upgrade` of a weak handle succeeds. -/
def alive (s : Cancellation W) : Bool := 0 < s.cancellers + s.droppers

/-- `Waiter::cancelled` -/
def waiterCancelled (s : Cancellation W) : Bool := !s.alive || s.handler.cancelled

def waiter (s : Cancellation W) : Cancellation W :=
  { s with waiters := s.waiters ++ [{ index := none, alive := true }] }

def setWaiter (s : Cancellation W) (i : Nat) (wt : Waiter) : Cancellation W :=
  { s with waiters := s.waiters.set i wt }

def setList (s : Cancellation W) (waiters : LinkedList W) : Cancellation W :=
  { s with handler := { s.handler with waiters } }

def cancel (s : Cancellation W) : Except Panic (Cancellation W × List W) :=
  if s.handler.cancelled then .ok (s, [])
  else do
    let woken ← s.handler.waiters.wakeAll
    .ok ({ s with handler := { cancelled := true, waiters := .new } }, woken)

def poll (s : Cancellation W) (i : Nat) (wt : Waiter) (waker : W) :
    Except Panic (Cancellation W × Poll) :=
  if !s.alive then .ok (s, .ready)
  else if s.handler.cancelled then .ok (s, .ready)
  else
    match wt.index with
    | some idx =>
        match s.handler.waiters.getMut idx fun _ => waker with
        | (_, none) => .error .unwrapOnNone
        | (waiters, some _) => .ok (s.setList waiters, .pending)
    | none => do
        let (waiters, index) ← s.handler.waiters.pushBack waker
        .ok ((s.setList waiters).setWaiter i { wt with index := some index }, .pending)

/-- `Drop` of a waiter. -/
def dropWaiter (s : Cancellation W) (i : Nat) (wt : Waiter) : Except Panic (Cancellation W) := do
  let gone := s.setWaiter i { wt with alive := false }
  match wt.index with
  | none => .ok gone
  | some index =>
      if s.alive && !s.handler.cancelled then do
        let (waiters, _) ← s.handler.waiters.remove index
        .ok (gone.setList waiters)
      else .ok gone

/-- Only handles that exist are used: plain cancellers and droppers while there
are any, waiters until they are dropped. -/
def Enabled (s : Cancellation W) : Op W → Prop
  | .waiter | .cloneCanceller | .dropper | .cancel | .dropCanceller => 0 < s.cancellers
  | .dropDropper => 0 < s.droppers
  | .cloneWaiter i | .poll i _ | .dropWaiter i => ∃ wt, s.waiters[i]? = some wt ∧ wt.alive = true

def exec (s : Cancellation W) : Op W → Except Panic (Cancellation W × Outcome W)
  | .waiter => .ok (s.waiter, .silent)
  | .cloneCanceller => .ok ({ s with cancellers := s.cancellers + 1 }, .silent)
  | .dropper =>
      .ok ({ s with cancellers := s.cancellers - 1, droppers := s.droppers + 1 }, .silent)
  | .cancel => do
      let (s, woken) ← s.cancel
      .ok (s, { poll := none, woken })
  | .dropCanceller => .ok ({ s with cancellers := s.cancellers - 1 }, .silent)
  | .dropDropper => do
      let (s, woken) ← s.cancel
      .ok ({ s with droppers := s.droppers - 1 }, { poll := none, woken })
  | .cloneWaiter _ => .ok (s.waiter, .silent)
  | .poll i waker =>
      match s.waiters[i]? with
      | none => .ok (s, .silent)
      | some wt => do
          let (s, result) ← s.poll i wt waker
          .ok (s, { poll := some result, woken := [] })
  | .dropWaiter i =>
      match s.waiters[i]? with
      | none => .ok (s, .silent)
      | some wt => do
          let s ← s.dropWaiter i wt
          .ok (s, .silent)

end Cancellation

/-- One operation that was possible and returned. -/
def cancelStep (s : Cancellation W) (performed : Op W × Outcome W) (s' : Cancellation W) : Prop :=
  s.Enabled performed.1 ∧ s.exec performed.1 = .ok (s', performed.2)

end Monolake.Cancel
