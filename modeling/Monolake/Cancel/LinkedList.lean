import Mathlib.Data.List.Basic

/-!
The vector based linked list of the cancel primitive. Nodes are named by their
position; a removed node stays in the vector and is chained, through the same
`next` field, into the vacancies that later insertions use up.
-/
namespace Monolake.Cancel

universe u
variable {T : Type u}

/-- `usize::MAX` -/
def NULL : Nat := UInt64.size - 1

/-- No vector has more than `isize::MAX` elements of positive size. -/
def maxLen : Nat := UInt64.size / 2 - 1

inductive Panic where
  | indexOutOfBounds
  | capacityOverflow
  | unwrapOnNone
  deriving DecidableEq

structure Node (T : Type u) where
  prev : Nat
  next : Nat
  data : Option T

structure LinkedList (T : Type u) where
  head : Nat
  tail : Nat
  vacancyHead : Nat
  data : List (Node T)

/-- `data[i]` -/
def index (data : List (Node T)) (i : Nat) : Except Panic (Node T) :=
  match data[i]? with
  | some node => .ok node
  | none => .error .indexOutOfBounds

namespace LinkedList

def new : LinkedList T := { head := NULL, tail := NULL, vacancyHead := NULL, data := [] }

def get (ll : LinkedList T) (idx : Nat) : Option T := ll.data[idx]?.bind (·.data)

/-- `get_mut`, together with what its caller writes through the reference. -/
def getMut (ll : LinkedList T) (idx : Nat) (write : T → T) : LinkedList T × Option T :=
  match ll.data[idx]? with
  | none => (ll, none)
  | some node =>
      ({ ll with data := ll.data.set idx { node with data := node.data.map write } }, node.data)

/-- The first half of `push_back`: a node for the value, from the vacancies or new. -/
def allocate (ll : LinkedList T) (val : T) : Except Panic (LinkedList T × Nat) :=
  if ll.vacancyHead ≠ NULL then do
    let idx := ll.vacancyHead
    let node ← index ll.data idx
    .ok ({ ll with
      vacancyHead := node.next,
      data := ll.data.set idx { node with next := NULL, data := some val } }, idx)
  else if ll.data.length < maxLen then
    .ok ({ ll with data := ll.data ++ [{ prev := NULL, next := NULL, data := some val }] },
      ll.data.length)
  else .error .capacityOverflow

/-- The second half: the node goes behind the tail. -/
def linkBack (ll : LinkedList T) (idx : Nat) : Except Panic (LinkedList T) :=
  if ll.tail = NULL then .ok { ll with head := idx, tail := idx }
  else do
    let tail ← index ll.data ll.tail
    let data := ll.data.set ll.tail { tail with next := idx }
    let node ← index data idx
    .ok { ll with data := data.set idx { node with prev := ll.tail }, tail := idx }

def pushBack (ll : LinkedList T) (val : T) : Except Panic (LinkedList T × Nat) := do
  let (ll, idx) ← ll.allocate val
  let ll ← ll.linkBack idx
  .ok (ll, idx)

def unlinkPrev (ll : LinkedList T) (prev next : Nat) : Except Panic (LinkedList T) :=
  if prev = NULL then .ok { ll with head := next }
  else do
    let node ← index ll.data prev
    .ok { ll with data := ll.data.set prev { node with next := next } }

def unlinkNext (ll : LinkedList T) (prev next : Nat) : Except Panic (LinkedList T) :=
  if next = NULL then .ok { ll with tail := prev }
  else do
    let node ← index ll.data next
    .ok { ll with data := ll.data.set next { node with prev := prev } }

def vacate (ll : LinkedList T) (idx : Nat) : Except Panic (LinkedList T) := do
  let node ← index ll.data idx
  .ok { ll with data := ll.data.set idx { node with next := ll.vacancyHead }, vacancyHead := idx }

def remove (ll : LinkedList T) (idx : Nat) : Except Panic (LinkedList T × Option T) :=
  if idx ≥ ll.data.length then .ok (ll, none)
  else do
    let node ← index ll.data idx
    match node.data with
    | none => .ok (ll, none)
    | some val =>
        let ll := { ll with data := ll.data.set idx { node with data := none } }
        let ll ← ll.unlinkPrev node.prev node.next
        let ll ← ll.unlinkNext node.prev node.next
        let ll ← ll.vacate idx
        .ok (ll, some val)

end LinkedList

/-- The loop of both `Drop` implementations, with the values it drops in order.
`none` means that the loop is still running. -/
def dropWalk (data : List (Node T)) : Nat → Nat → Option (Except Panic (List T))
  | 0, _ => none
  | fuel + 1, head =>
      if head = NULL then some (.ok [])
      else
        match index data head with
        | .error p => some (.error p)
        | .ok node =>
            let taken := data.set head { node with data := none }
            (dropWalk taken fuel node.next).map fun rest => rest.map (node.data.toList ++ ·)

structure LinkedListIter (T : Type u) where
  head : Nat
  data : List (Node T)

namespace LinkedListIter

def next (it : LinkedListIter T) : Except Panic (LinkedListIter T × Option T) :=
  if it.head = NULL then .ok (it, none)
  else do
    let node ← index it.data it.head
    .ok ({ head := node.next, data := it.data.set it.head { node with data := none } }, node.data)

/-- The answers of so many calls of `next`. -/
def nexts (it : LinkedListIter T) : Nat → Except Panic (LinkedListIter T × List (Option T))
  | 0 => .ok (it, [])
  | n + 1 => do
      let (it, val) ← it.next
      let (it, vals) ← it.nexts n
      .ok (it, val :: vals)

/-- A `for` loop over the iterator: the values up to the first `None`. -/
def forLoop (it : LinkedListIter T) : Nat → Option (Except Panic (List T))
  | 0 => none
  | fuel + 1 =>
      match it.next with
      | .error p => some (.error p)
      | .ok (_, none) => some (.ok [])
      | .ok (it, some val) => (it.forLoop fuel).map fun rest => rest.map (val :: ·)

def drop (it : LinkedListIter T) (fuel : Nat) : Option (Except Panic (List T)) :=
  dropWalk it.data fuel it.head

end LinkedListIter

namespace LinkedList

def intoIter (ll : LinkedList T) : LinkedListIter T := { head := ll.head, data := ll.data }

def drop (ll : LinkedList T) (fuel : Nat) : Option (Except Panic (List T)) :=
  dropWalk ll.data fuel ll.head

end LinkedList

/-! Sequences of operations. -/

inductive Operation (T : Type u) where
  | pushBack (val : T)
  | remove (idx : Nat)
  | get (idx : Nat)
  | getMut (idx : Nat) (write : T → T)

inductive Answer (T : Type u) where
  | index (idx : Nat)
  | value (val : Option T)

def LinkedList.exec (ll : LinkedList T) : Operation T → Except Panic (LinkedList T × Answer T)
  | .pushBack val => do
      let (ll, idx) ← ll.pushBack val
      .ok (ll, .index idx)
  | .remove idx => do
      let (ll, val) ← ll.remove idx
      .ok (ll, .value val)
  | .get idx => .ok (ll, .value (ll.get idx))
  | .getMut idx write =>
      let (ll, val) := ll.getMut idx write
      .ok (ll, .value val)

/-- One operation that returned, with its answer. -/
def listStep (ll : LinkedList T) (performed : Operation T × Answer T) (ll' : LinkedList T) :
    Prop :=
  ll.exec performed.1 = .ok (ll', performed.2)

end Monolake.Cancel
