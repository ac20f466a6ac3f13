import Monolake.Foundation.Runs
import Monolake.Http.H2Response

/-!
Serving one HTTP/2 connection. A task of its own accepts requests and sends them
over a channel; the loop selects between the channel, the handlers in progress
and the responses being written. In each round a branch whose pattern does not
match is disabled, and the loop breaks when all three are.

The `i`-th item accepted has the `i`-th response handle.
-/
namespace Monolake.Http

universe u
open Foundation

variable {Req AcceptErr Err E : Type u}

/-- The reply to an error of the handler chain. -/
def errorReply : SendCall :=
  .sendResponse (generateResponse internalServerError false : Response Empty).parts true

/-- The calls that a handler's result asks for on the response handle. -/
def answer (sends : Parts → Bool → Bool) : Except Err (Response E × Bool) → List SendCall
  | .ok (response, _) => h2ProcessResponse sends response
  | .error _ => [errorReply]

/-- The client gets the response of the handler, or a 500 without a body. -/
def SendsReply (sends : Parts → Bool → Bool) :
    Except Err (Response E × Bool) → List SendCall → Prop
  | .ok (response, _), calls => SendsResponse sends response calls
  | .error _, calls => ∃ parts, calls = [.sendResponse parts true] ∧ parts.status = 500

theorem answer_sends (sends : Parts → Bool → Bool) (result : Except Err (Response E × Bool)) :
    SendsReply sends result (answer sends result) := by
  cases result with
  | ok value => exact h2ProcessResponse_sends sends value.1
  | error err => exact ⟨_, rfl, rfl⟩

inductive Branch where
  | rx
  | backendRespStream
  | frontendRespStream
  deriving DecidableEq

/-- An accepted item with the number of its response handle. -/
abbrev Accepted (Req AcceptErr : Type u) := Except AcceptErr Req × Nat

structure H2Loop (Req AcceptErr : Type u) where
  /-- What the connection still accepts. -/
  incoming : List (Accepted Req AcceptErr)
  /-- Whether the task that accepts holds the sender of the channel. -/
  accepting : Bool
  channel : List (Accepted Req AcceptErr)
  backendRespStream : List (Nat × Req)
  /-- Responses being written, with the calls that are still to be made. -/
  frontendRespStream : List (Nat × List SendCall)
  /-- The branches disabled in this round. -/
  disabled : Branch → Bool
  broken : Bool

inductive H2Event (Req Err E : Type u) where
  | accepted
  | acceptEnded
  | received (i : Nat) (request : Req)
  | handled (i : Nat) (request : Req) (result : Except Err (Response E × Bool))
  | wrote (i : Nat) (call : SendCall)
  | written (i : Nat)
  | disabled (branch : Branch)
  | broke

namespace H2Loop

def start (items : List (Except AcceptErr Req)) : H2Loop Req AcceptErr :=
  { incoming := items.zipIdx, accepting := true, channel := [], backendRespStream := [],
    frontendRespStream := [], disabled := fun _ => false, broken := false }

def nextRound (s : H2Loop Req AcceptErr) : H2Loop Req AcceptErr :=
  { s with disabled := fun _ => false }

def disable (s : H2Loop Req AcceptErr) (branch : Branch) : H2Loop Req AcceptErr :=
  { s with disabled := Function.update s.disabled branch true }

/-- The branch is polled in this round. -/
def Polls (s : H2Loop Req AcceptErr) (branch : Branch) : Prop :=
  s.broken = false ∧ s.disabled branch = false

end H2Loop

inductive H2Step (sends : Nat → Parts → Bool → Bool) (s : H2Loop Req AcceptErr) :
    H2Event Req Err E → H2Loop Req AcceptErr → Prop
  | send {item rest} (accept : s.incoming = item :: rest) (loops : s.broken = false) :
      H2Step sends s .accepted { s with incoming := rest, channel := s.channel ++ [item] }
  | sendFails {item rest} (accept : s.incoming = item :: rest) (gone : s.broken = true) :
      H2Step sends s .accepted { s with incoming := [], accepting := false }
  | acceptEnded (accept : s.incoming = []) :
      H2Step sends s .acceptEnded { s with accepting := false }
  | received {i request rest} (polls : s.Polls .rx) (recv : s.channel = (.ok request, i) :: rest) :
      H2Step sends s (.received i request) { s with
        channel := rest
        backendRespStream := s.backendRespStream ++ [(i, request)] }.nextRound
  | acceptError {err i rest} (polls : s.Polls .rx) (recv : s.channel = (.error err, i) :: rest) :
      H2Step sends s (.disabled .rx) ({ s with channel := rest }.disable .rx)
  | channelClosed (polls : s.Polls .rx) (recv : s.channel = []) (closed : s.accepting = false) :
      H2Step sends s (.disabled .rx) (s.disable .rx)
  | responded {i request response cont before after} (polls : s.Polls .backendRespStream)
      (next : s.backendRespStream = before ++ (i, request) :: after) :
      H2Step sends s (.handled i request (.ok (response, cont))) { s with
        backendRespStream := before ++ after
        frontendRespStream := s.frontendRespStream ++
          [(i, h2ProcessResponse (sends i) response)] }.nextRound
  | handlerFailed {i request err before after} (polls : s.Polls .backendRespStream)
      (next : s.backendRespStream = before ++ (i, request) :: after) :
      H2Step sends s (.handled i request (.error err))
        { s with backendRespStream := before ++ after }.nextRound
  | noBackend (polls : s.Polls .backendRespStream) (next : s.backendRespStream = []) :
      H2Step sends s (.disabled .backendRespStream) (s.disable .backendRespStream)
  | wrote {i call calls before after} (polls : s.Polls .frontendRespStream)
      (next : s.frontendRespStream = before ++ (i, call :: calls) :: after) :
      H2Step sends s (.wrote i call)
        { s with frontendRespStream := before ++ (i, calls) :: after }
  | written {i before after} (polls : s.Polls .frontendRespStream)
      (next : s.frontendRespStream = before ++ (i, []) :: after) :
      H2Step sends s (.written i) { s with frontendRespStream := before ++ after }.nextRound
  | noFrontend (polls : s.Polls .frontendRespStream) (next : s.frontendRespStream = []) :
      H2Step sends s (.disabled .frontendRespStream) (s.disable .frontendRespStream)
  | broke (loops : s.broken = false) (all : ∀ branch, s.disabled branch = true) :
      H2Step sends s .broke { s with broken := true }

/-! Reading the history. -/

/-- The requests among accepted items. -/
def requests (items : List (Accepted Req AcceptErr)) : List (Nat × Req) :=
  items.filterMap fun
    | (.ok request, i) => some (i, request)
    | (.error _, _) => none

/-- The requests taken from the channel. -/
def received (tr : List (H2Event Req Err E)) : List (Nat × Req) :=
  tr.filterMap fun
    | .received i request => some (i, request)
    | _ => none

/-- The requests that the handler chain was done with, and its results. -/
def handled (tr : List (H2Event Req Err E)) :
    List (Nat × Req × Except Err (Response E × Bool)) :=
  tr.filterMap fun
    | .handled i request result => some (i, request, result)
    | _ => none

/-- The calls made on the `i`-th response handle. -/
def callsOn (i : Nat) (tr : List (H2Event Req Err E)) : List SendCall :=
  tr.flatMap fun
    | .wrote j call => if j = i then [call] else []
    | .handled j _ (.error _) => if j = i then [errorReply] else []
    | _ => []

@[simp] theorem received_append (tr tr' : List (H2Event Req Err E)) :
    received (tr ++ tr') = received tr ++ received tr' := List.filterMap_append

@[simp] theorem handled_append (tr tr' : List (H2Event Req Err E)) :
    handled (tr ++ tr') = handled tr ++ handled tr' := List.filterMap_append

@[simp] theorem callsOn_append (i : Nat) (tr tr' : List (H2Event Req Err E)) :
    callsOn i (tr ++ tr') = callsOn i tr ++ callsOn i tr' := List.flatMap_append

/-- An accept error is the last item. -/
def ErrorLast (items : List (Except AcceptErr Req)) : Prop :=
  ∀ before err after, items = before ++ .error err :: after → after = []

theorem ErrorLast.tail {item : Except AcceptErr Req} {items : List (Except AcceptErr Req)}
    (h : ErrorLast (item :: items)) : ErrorLast items := by
  rintro before err after rfl
  exact h (item :: before) err after rfl

/-- Any number of accepted requests, possibly ended by one accept error. -/
theorem errorLast_iff (items : List (Except AcceptErr Req)) :
    ErrorLast items ↔ ∃ (accepted : List Req) (ending : List (Except AcceptErr Req)),
      items = accepted.map Except.ok ++ ending ∧ (ending = [] ∨ ∃ err, ending = [.error err]) := by
  constructor
  · intro h
    induction items with
    | nil => exact ⟨[], [], rfl, .inl rfl⟩
    | cons item items ih =>
        cases item with
        | ok request =>
            obtain ⟨accepted, ending, rfl, hending⟩ := ih h.tail
            exact ⟨request :: accepted, ending, rfl, hending⟩
        | error err =>
            have last := h [] err items rfl
            exact ⟨[], [.error err], by rw [last]; rfl, .inr ⟨err, rfl⟩⟩
  · rintro ⟨accepted, ending, rfl, hending⟩
    induction accepted with
    | nil =>
        intro before err after heq
        rcases hending with rfl | ⟨err', rfl⟩
        · simp at heq
        · have length := congrArg List.length heq
          simp only [List.map_nil, List.nil_append, List.length_append, List.length_cons,
            List.length_nil] at length
          exact List.length_eq_zero_iff.mp (by omega)
    | cons request accepted ih =>
        intro before err after heq
        cases before with
        | nil => cases (List.cons.inj heq).1
        | cons item before => exact ih before err after (List.cons.inj heq).2

/-- Each handle belongs to one request. -/
theorem requests_nodup (items : List (Except AcceptErr Req)) :
    ((requests items.zipIdx).map Prod.fst).Nodup := by
  have sub : ∀ pairs : List (Accepted Req AcceptErr),
      ((requests pairs).map Prod.fst).Sublist (pairs.map Prod.snd) := by
    intro pairs
    induction pairs with
    | nil => exact .slnil
    | cons item pairs ih =>
        obtain ⟨request | err, i⟩ := item
        · exact .cons _ ih
        · exact .cons_cons _ ih
  refine (sub _).nodup ?_
  rw [List.zipIdx_map_snd]
  exact List.nodup_range'

theorem mem_requests {items : List (Except AcceptErr Req)} {i : Nat} {request : Req} :
    (i, request) ∈ requests items.zipIdx ↔ items[i]? = some (.ok request) := by
  have pair := List.mem_zipIdx_iff_getElem? (x := (Except.ok request, i)) (l := items)
  rw [← pair, requests, List.mem_filterMap]
  constructor
  · rintro ⟨⟨request' | err, j⟩, hmem, heq⟩
    · cases heq
    · cases heq
      exact hmem
  · exact fun hmem => ⟨_, hmem, rfl⟩

end Monolake.Http
