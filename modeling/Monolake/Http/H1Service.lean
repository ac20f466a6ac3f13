import Monolake.Foundation.Runs
import Monolake.Http.Message

/-!
Serving one HTTP/1 connection. Each round decodes a request, handles it, writes
the response and waits for the request's payload. The future that fills the
payload accompanies the handler and the write; when it resolves early its output
is kept in a slot and handed on.

An event is one answer of one future, where `none` means pending. A request is
known by the number of requests decoded before it.
-/
namespace Monolake.Http

universe u
open Foundation

variable {Req D P Err W E : Type u}

structure HttpServerTimeout where
  keepaliveTimeout : Option Nat
  readHeaderTimeout : Option Nat
  readBodyTimeout : Option Nat

/-- The answer of a poll; `none` is `Poll::Pending`. -/
abbrev Poll (α : Type u) := Option α

/-- The future that `AccompanyPair::poll` comes to next. -/
inductive Turn where
  | accompany
  | main

/-- The two futures answer through the events. -/
structure AccompanyPair (T : Type u) where
  accompanySlot : Option T
  turn : Turn

namespace AccompanyPair
variable {T : Type u}

def new : AccompanyPair T := { accompanySlot := none, turn := .accompany }

/-- The accompanying future is polled as long as its output is not in the slot. -/
def PollsAccompany (pair : AccompanyPair T) : Prop :=
  pair.turn = .accompany ∧ pair.accompanySlot = none

def PollsMain (pair : AccompanyPair T) : Prop :=
  pair.turn = .main ∨ pair.accompanySlot ≠ none

def accompanied (answer : Poll T) : AccompanyPair T :=
  { accompanySlot := answer, turn := .main }

/-- The main future is pending, and so is the pair. -/
def pending (pair : AccompanyPair T) : AccompanyPair T :=
  { pair with turn := .accompany }

/-- The next main future takes over the accompanying one and its slot. -/
def replace (pair : AccompanyPair T) : AccompanyPair T :=
  { accompanySlot := pair.accompanySlot, turn := .accompany }

end AccompanyPair

inductive H1Phase (P Err E : Type u) where
  | idle
  | decoding
  | handling (accFut : AccompanyPair (Except P Unit))
  | handled (result : Except Err (Response E × Bool)) (accFut : AccompanyPair (Except P Unit))
  | sending (shouldCont : Bool) (f : AccompanyPair (Except P Unit))
  /-- `f.into_accompany()` is awaited. -/
  | draining (accompanySlot : Option (Except P Unit))
  | replying
  | stopped

structure H1Loop (P Err E : Type u) where
  number : Nat
  phase : H1Phase P Err E

inductive H1Event (Req D P Err W E : Type u) where
  /-- `decoder.next()` -/
  | ask (n : Nat)
  | decoded (n : Nat) (item : Option (Except D Req))
  | headerTimedOut (n : Nat)
  | payload (n : Nat) (answer : Poll (Except P Unit))
  | handler (n : Nat) (answer : Poll (Except Err (Response E × Bool)))
  /-- `encoder.send_and_flush(response)` -/
  | send (n : Nat) (response : Response E)
  | sent (n : Nat) (answer : Poll (Except W Unit))
  | writeTimedOut (n : Nat)
  | slotTaken (n : Nat)

namespace H1Loop

def start : H1Loop P Err E := { number := 0, phase := .idle }

def enter (s : H1Loop P Err E) (phase : H1Phase P Err E) : H1Loop P Err E :=
  { s with phase }

/-- The payload is filled: the next round, or the end. -/
def drained (s : H1Loop P Err E) : Except P Unit → H1Loop P Err E
  | .ok _ => { number := s.number + 1, phase := .idle }
  | .error _ => s.enter .stopped

@[simp] theorem enter_phase (s : H1Loop P Err E) (phase : H1Phase P Err E) :
    (s.enter phase).phase = phase := rfl

@[simp] theorem enter_number (s : H1Loop P Err E) (phase : H1Phase P Err E) :
    (s.enter phase).number = s.number := rfl

end H1Loop

inductive H1Step (timeout : HttpServerTimeout) (s : H1Loop P Err E) :
    H1Event Req D P Err W E → H1Loop P Err E → Prop
  | ask (phase : s.phase = .idle) : H1Step timeout s (.ask s.number) (s.enter .decoding)
  | decoded {request} (phase : s.phase = .decoding) :
      H1Step timeout s (.decoded s.number (some (.ok request))) (s.enter (.handling .new))
  | decodeFailed {err} (phase : s.phase = .decoding) :
      H1Step timeout s (.decoded s.number (some (.error err))) (s.enter .stopped)
  | closed (phase : s.phase = .decoding) :
      H1Step timeout s (.decoded s.number none) (s.enter .stopped)
  | headerTimedOut (phase : s.phase = .decoding) (timer : timeout.readHeaderTimeout ≠ none) :
      H1Step timeout s (.headerTimedOut s.number) (s.enter .stopped)
  | handlingFills {accFut answer} (phase : s.phase = .handling accFut)
      (polls : accFut.PollsAccompany) :
      H1Step timeout s (.payload s.number answer) (s.enter (.handling (.accompanied answer)))
  | handlerPending {accFut} (phase : s.phase = .handling accFut) (polls : accFut.PollsMain) :
      H1Step timeout s (.handler s.number none) (s.enter (.handling accFut.pending))
  | handlerReady {accFut result} (phase : s.phase = .handling accFut) (polls : accFut.PollsMain) :
      H1Step timeout s (.handler s.number (some result)) (s.enter (.handled result accFut))
  | send {response shouldCont accFut}
      (phase : s.phase = .handled (.ok (response, shouldCont)) accFut) :
      H1Step timeout s (.send s.number response) (s.enter (.sending shouldCont accFut.replace))
  | sendError {err accFut} (phase : s.phase = .handled (.error err) accFut) :
      H1Step timeout s (.send s.number (generateResponse internalServerError true))
        (s.enter .replying)
  | sendingFills {shouldCont f answer} (phase : s.phase = .sending shouldCont f)
      (polls : f.PollsAccompany) :
      H1Step timeout s (.payload s.number answer)
        (s.enter (.sending shouldCont (.accompanied answer)))
  | sendPending {shouldCont f} (phase : s.phase = .sending shouldCont f) (polls : f.PollsMain) :
      H1Step timeout s (.sent s.number none) (s.enter (.sending shouldCont f.pending))
  | sendFailed {shouldCont f err} (phase : s.phase = .sending shouldCont f)
      (polls : f.PollsMain) :
      H1Step timeout s (.sent s.number (some (.error err))) (s.enter .stopped)
  | writeTimedOut {shouldCont f} (phase : s.phase = .sending shouldCont f)
      (pending : f.turn = .accompany) (timer : timeout.readBodyTimeout ≠ none) :
      H1Step timeout s (.writeTimedOut s.number) (s.enter .stopped)
  | sentLast {f} (phase : s.phase = .sending false f) (polls : f.PollsMain) :
      H1Step timeout s (.sent s.number (some (.ok ()))) (s.enter .stopped)
  | sent {f} (phase : s.phase = .sending true f) (polls : f.PollsMain) :
      H1Step timeout s (.sent s.number (some (.ok ())))
        (s.enter (.draining f.accompanySlot))
  | slotTaken {t} (phase : s.phase = .draining (some t)) :
      H1Step timeout s (.slotTaken s.number) (s.drained t)
  | drainPending (phase : s.phase = .draining none) :
      H1Step timeout s (.payload s.number none) s
  | drainReady {t} (phase : s.phase = .draining none) :
      H1Step timeout s (.payload s.number (some t)) (s.drained t)
  | replyPending (phase : s.phase = .replying) : H1Step timeout s (.sent s.number none) s
  | replied {result} (phase : s.phase = .replying) :
      H1Step timeout s (.sent s.number (some result)) (s.enter .stopped)

/-! Reading the history. -/

/-- The requests decoded. -/
def decodes (tr : List (H1Event Req D P Err W E)) : List (Nat × Req) :=
  tr.filterMap fun
    | .decoded n (some (.ok request)) => some (n, request)
    | _ => none

/-- What the handler chain returned. -/
def results (tr : List (H1Event Req D P Err W E)) :
    List (Nat × Except Err (Response E × Bool)) :=
  tr.filterMap fun
    | .handler n (some result) => some (n, result)
    | _ => none

/-- The responses whose writing was begun. -/
def sends (tr : List (H1Event Req D P Err W E)) : List (Nat × Response E) :=
  tr.filterMap fun
    | .send n response => some (n, response)
    | _ => none

/-- The response to a result of the handler chain. -/
def replyTo : Except Err (Response E × Bool) → Response E
  | .ok (response, _) => response
  | .error _ => generateResponse internalServerError true

@[simp] theorem decodes_append (tr tr' : List (H1Event Req D P Err W E)) :
    decodes (tr ++ tr') = decodes tr ++ decodes tr' := List.filterMap_append

@[simp] theorem results_append (tr tr' : List (H1Event Req D P Err W E)) :
    results (tr ++ tr') = results tr ++ results tr' := List.filterMap_append

@[simp] theorem sends_append (tr tr' : List (H1Event Req D P Err W E)) :
    sends (tr ++ tr') = sends tr ++ sends tr' := List.filterMap_append

end Monolake.Http
