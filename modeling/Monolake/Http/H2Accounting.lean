import Mathlib.Data.List.Nodup
import Monolake.Http.H2Service

/-!
Every request of an HTTP/2 connection is handled once and answered once, in every
order in which requests arrive, handlers finish and responses are written; and
the loop breaks only when nothing is left.
-/
namespace Monolake.Http

universe u v
open Foundation

variable {Req AcceptErr Err E : Type u} {sends : Nat → Parts → Bool → Bool}
  {items : List (Except AcceptErr Req)} {tr : List (H2Event Req Err E)}
  {s s' : H2Loop Req AcceptErr}

/-- A branch whose pattern cannot match any more in this round. -/
def H2Loop.Spent (s : H2Loop Req AcceptErr) : Branch → Prop
  | .rx => s.channel = [] ∧ s.incoming = []
  | .backendRespStream => s.backendRespStream = []
  | .frontendRespStream => s.frontendRespStream = []

/-- The handle and the request of a handled one. -/
def handledRequest (entry : Nat × Req × Except Err (Response E × Bool)) : Nat × Req :=
  (entry.1, entry.2.1)

/-- Where the requests are. -/
structure Accounted (items : List (Except AcceptErr Req)) (tr : List (H2Event Req Err E))
    (s : H2Loop Req AcceptErr) : Prop where
  queued : received tr ++ requests (s.channel ++ s.incoming) = requests items.zipIdx
  taken : (received tr).Perm (s.backendRespStream ++ (handled tr).map handledRequest)
  errorLast : ErrorLast ((s.channel ++ s.incoming).map Prod.fst)
  ended : s.accepting = false → s.incoming = []
  spent : ∀ branch, s.disabled branch = true → s.Spent branch
  stopped : s.broken = true → ∀ branch, s.disabled branch = true

theorem H2Loop.absurd_broken {P : Prop} (loops : s.broken = false) (broken : s.broken = true) :
    P := by
  rw [loops] at broken
  cases broken

namespace Accounted

theorem start (last : ErrorLast items) :
    Accounted items ([] : List (H2Event Req Err E)) (.start items) where
  queued := rfl
  taken := .nil
  errorLast := by
    rw [H2Loop.start, List.nil_append, List.zipIdx_map_fst]
    exact last
  ended := nofun
  spent := nofun
  stopped := nofun

theorem received_nodup (h : Accounted items tr s) : ((received tr).map Prod.fst).Nodup := by
  have all := requests_nodup items
  rw [← h.queued, List.map_append] at all
  exact (List.nodup_append.mp all).1

/-- No handle is used by two requests in progress or handled. -/
theorem handles_nodup (h : Accounted items tr s) :
    (s.backendRespStream.map Prod.fst ++ (handled tr).map Prod.fst).Nodup := by
  have perm := h.taken.map Prod.fst
  rw [List.map_append, List.map_map] at perm
  exact perm.nodup_iff.mp h.received_nodup

theorem not_handled (h : Accounted items tr s) {i : Nat} {request : Req}
    (hi : (i, request) ∈ s.backendRespStream) : i ∉ (handled tr).map Prod.fst := by
  have apart := (List.nodup_append.mp h.handles_nodup).2.2
  exact fun hmem => apart i (List.mem_map_of_mem hi) i hmem rfl

/-- A request that was received is the item accepted with its handle. -/
theorem received_item (h : Accounted items tr s) {i : Nat} {request : Req}
    (hi : (i, request) ∈ received tr) : items[i]? = some (.ok request) := by
  rw [← mem_requests, ← h.queued]
  exact List.mem_append_left _ hi

/-- A handler that is done leaves the backend set and nothing else. -/
theorem handle (h : Accounted items tr s) (loops : s.broken = false) {i : Nat} {request : Req}
    {before after : List (Nat × Req)}
    (next : s.backendRespStream = before ++ (i, request) :: after)
    (result : Except Err (Response E × Bool)) (frontend : List (Nat × List SendCall)) :
    Accounted items (tr ++ [.handled i request result]) { s with
      backendRespStream := before ++ after, frontendRespStream := frontend }.nextRound where
  queued := by
    rw [received_append]
    exact (congrArg (· ++ _) (List.append_nil _)).trans h.queued
  taken := by
    have taken := h.taken
    rw [next] at taken
    rw [received_append, handled_append, List.map_append]
    change (received tr ++ []).Perm (before ++ after ++ (_ ++ [(i, request)]))
    rw [List.append_nil, ← List.append_assoc]
    refine (taken.trans (List.perm_middle.append_right _)).trans ?_
    exact (List.perm_append_comm : ([(i, request)] ++ (before ++ after ++ _)).Perm _)
  errorLast := h.errorLast
  ended := h.ended
  spent := nofun
  stopped := H2Loop.absurd_broken loops

/-- An event that takes no request and hands none over. -/
theorem keep {e : H2Event Req Err E} (h : Accounted items tr s) (hreceived : received [e] = [])
    (hhandled : handled [e] = []) (hbackend : s'.backendRespStream = s.backendRespStream)
    (hqueue : requests (s'.channel ++ s'.incoming) = requests (s.channel ++ s.incoming))
    (errorLast : ErrorLast ((s'.channel ++ s'.incoming).map Prod.fst))
    (ended : s'.accepting = false → s'.incoming = [])
    (spent : ∀ branch, s'.disabled branch = true → s'.Spent branch)
    (stopped : s'.broken = true → ∀ branch, s'.disabled branch = true) :
    Accounted items (tr ++ [e]) s' where
  queued := by rw [received_append, hreceived, List.append_nil, hqueue, h.queued]
  taken := by
    rw [received_append, handled_append, hreceived, hhandled, List.append_nil, List.append_nil,
      hbackend]
    exact h.taken
  errorLast := errorLast
  ended := ended
  spent := spent
  stopped := stopped

/-- Disabling one more branch that is spent. -/
theorem disable {e : H2Event Req Err E} (h : Accounted items tr s) (hreceived : received [e] = [])
    (hhandled : handled [e] = []) (loops : s.broken = false) {branch : Branch}
    (spent : s.Spent branch) : Accounted items (tr ++ [e]) (s.disable branch) := by
  refine h.keep hreceived hhandled rfl rfl h.errorLast h.ended (fun branch' hdisabled => ?_)
    (H2Loop.absurd_broken loops)
  by_cases same : branch' = branch
  · subst same
    cases branch' <;> exact spent
  · have already : s.disabled branch' = true := by
      simpa [H2Loop.disable, same] using hdisabled
    cases branch' <;> exact h.spent _ already

theorem step {e : H2Event Req Err E} (h : Accounted items tr s) (hstep : H2Step sends s e s') :
    Accounted items (tr ++ [e]) s' := by
  cases hstep with
  | @send item rest accept running =>
      have same : s.channel ++ [item] ++ rest = s.channel ++ s.incoming := by
        rw [accept, List.append_assoc, List.singleton_append]
      refine h.keep rfl rfl rfl (congrArg requests same) ?_ (fun ended => ?_)
        (fun branch hdisabled => ?_) h.stopped
      · exact (congrArg (List.map Prod.fst) same) ▸ h.errorLast
      · have nothing := h.ended ended
        rw [accept] at nothing
        cases nothing
      · cases branch with
        | rx =>
            have nothing := (h.spent .rx hdisabled).2
            rw [accept] at nothing
            cases nothing
        | backendRespStream => exact h.spent .backendRespStream hdisabled
        | frontendRespStream => exact h.spent .frontendRespStream hdisabled
  | sendFails accept gone =>
      have nothing := (h.spent .rx (h.stopped gone .rx)).2
      rw [accept] at nothing
      cases nothing
  | acceptEnded accept =>
      refine h.keep rfl rfl rfl rfl h.errorLast (fun _ => accept) (fun branch hdisabled => ?_)
        h.stopped
      cases branch <;> exact h.spent _ hdisabled
  | @received i request rest polls recv =>
      have queued := h.queued
      have errorLast := h.errorLast
      rw [recv] at queued errorLast
      refine ⟨?_, ?_, errorLast.tail, h.ended, nofun, H2Loop.absurd_broken polls.1⟩
      · rw [← queued, received_append, List.append_assoc]
        rfl
      · rw [received_append, handled_append]
        change (received tr ++ [(i, request)]).Perm
          (s.backendRespStream ++ [(i, request)] ++ (handled tr ++ []).map handledRequest)
        rw [List.append_nil, List.append_assoc]
        refine (h.taken.append_right [(i, request)]).trans ?_
        rw [List.append_assoc]
        exact List.perm_append_comm.append_left s.backendRespStream
  | @acceptError err i rest polls recv =>
      have errorLast := h.errorLast
      rw [recv] at errorLast
      have nothing : rest ++ s.incoming = [] := List.map_eq_nil_iff.mp (errorLast [] err _ rfl)
      obtain ⟨rfl, hincoming⟩ := List.append_eq_nil_iff.mp nothing
      have queued := h.queued
      rw [recv] at queued
      have consumed : Accounted items tr { s with channel := [] } :=
        ⟨queued, h.taken, errorLast.tail, h.ended, fun branch hdisabled => by
          cases branch with
          | rx => exact ⟨rfl, hincoming⟩
          | backendRespStream => exact h.spent .backendRespStream hdisabled
          | frontendRespStream => exact h.spent .frontendRespStream hdisabled, h.stopped⟩
      exact consumed.disable rfl rfl polls.1 ⟨rfl, hincoming⟩
  | channelClosed polls recv closed => exact h.disable rfl rfl polls.1 ⟨recv, h.ended closed⟩
  | responded polls next => exact h.handle polls.1 next _ _
  | handlerFailed polls next => exact h.handle polls.1 next _ _
  | noBackend polls next => exact h.disable rfl rfl polls.1 next
  | wrote polls next =>
      refine h.keep rfl rfl rfl rfl h.errorLast h.ended (fun branch hdisabled => ?_)
        (H2Loop.absurd_broken polls.1)
      cases branch with
      | rx => exact h.spent .rx hdisabled
      | backendRespStream => exact h.spent .backendRespStream hdisabled
      | frontendRespStream =>
          rw [polls.2] at hdisabled
          cases hdisabled
  | written polls next =>
      exact h.keep rfl rfl rfl rfl h.errorLast h.ended nofun (H2Loop.absurd_broken polls.1)
  | noFrontend polls next => exact h.disable rfl rfl polls.1 next
  | broke running all =>
      refine h.keep rfl rfl rfl rfl h.errorLast h.ended (fun branch hdisabled => ?_) fun _ => all
      cases branch <;> exact h.spent _ hdisabled

end Accounted

/-! What is written on the handles. -/

/-- What the entries of one handle amount to, in order. -/
def onHandle {α : Type u} {β : Type v} (i : Nat) (f : α → List β) (entries : List (Nat × α)) :
    List β :=
  entries.flatMap fun entry => if entry.1 = i then f entry.2 else []

section
variable {α : Type u} {β : Type v} {i : Nat} {f : α → List β} {entries : List (Nat × α)}

@[simp] theorem onHandle_append (entries' : List (Nat × α)) :
    onHandle i f (entries ++ entries') = onHandle i f entries ++ onHandle i f entries' :=
  List.flatMap_append

@[simp] theorem onHandle_cons_self (a : α) :
    onHandle i f ((i, a) :: entries) = f a ++ onHandle i f entries := by
  simp [onHandle]

theorem onHandle_cons_other {j : Nat} (h : j ≠ i) (a : α) :
    onHandle i f ((j, a) :: entries) = onHandle i f entries := by
  simp [onHandle, h]

theorem onHandle_absent (h : i ∉ entries.map Prod.fst) : onHandle i f entries = [] := by
  induction entries with
  | nil => rfl
  | cons entry entries ih =>
      rw [List.map_cons, List.mem_cons, not_or] at h
      rw [onHandle_cons_other (Ne.symm h.1)]
      exact ih h.2

/-- The entry of a handle that has one only. -/
theorem onHandle_unique (nodup : (entries.map Prod.fst).Nodup) {a : α} (h : (i, a) ∈ entries) :
    onHandle i f entries = f a := by
  obtain ⟨before, after, rfl⟩ := List.append_of_mem h
  rw [List.map_append, List.map_cons] at nodup
  have apart := List.nodup_append.mp nodup
  have hbefore : i ∉ before.map Prod.fst := fun hmem => apart.2.2 i hmem i List.mem_cons_self rfl
  rw [onHandle_append, onHandle_cons_self, onHandle_absent hbefore,
    onHandle_absent (List.nodup_cons.mp apart.2.1).1, List.nil_append, List.append_nil]

end

/-- The calls still to be made on a handle. -/
def callsLeft (i : Nat) (writing : List (Nat × List SendCall)) : List SendCall :=
  onHandle i id writing

/-- The calls that the results of the handler chain ask for on a handle. -/
def callsOwed (sends : Nat → Parts → Bool → Bool) (i : Nat) (tr : List (H2Event Req Err E)) :
    List SendCall :=
  onHandle i (fun entry => answer (sends i) entry.2) (handled tr)

theorem callsOwed_handled {sends : Nat → Parts → Bool → Bool} (tr : List (H2Event Req Err E))
    (i j : Nat) (request : Req) (result : Except Err (Response E × Bool)) :
    callsOwed sends j (tr ++ [.handled i request result]) =
      callsOwed sends j tr ++ if i = j then answer (sends j) result else [] := by
  rw [callsOwed, handled_append, onHandle_append]
  exact congrArg _ (List.append_nil _)

/-- What was written and what is left to write is what is owed. -/
structure Answered (sends : Nat → Parts → Bool → Bool) (tr : List (H2Event Req Err E))
    (writing : List (Nat × List SendCall)) : Prop where
  distinct : (writing.map Prod.fst).Nodup
  answers : ∀ i ∈ writing.map Prod.fst, i ∈ (handled tr).map Prod.fst
  balance : ∀ i, callsOn i tr ++ callsLeft i writing = callsOwed sends i tr

namespace Answered
variable {writing before after : List (Nat × List SendCall)} {i : Nat} {request : Req}

theorem start : Answered sends ([] : List (H2Event Req Err E)) [] :=
  ⟨.nil, nofun, fun _ => rfl⟩

theorem keep {e : H2Event Req Err E} (h : Answered sends tr writing) (hhandled : handled [e] = [])
    (hcalls : ∀ i, callsOn i [e] = []) : Answered sends (tr ++ [e]) writing where
  distinct := h.distinct
  answers := by simpa [hhandled] using h.answers
  balance := by simpa [callsOwed, hhandled, hcalls] using h.balance

/-- The response of the handler chain is still to be written. -/
theorem responded (h : Answered sends tr writing) (fresh : i ∉ (handled tr).map Prod.fst)
    (response : Response E) (cont : Bool) :
    Answered sends (tr ++ [.handled i request (.ok (response, cont))])
      (writing ++ [(i, h2ProcessResponse (sends i) response)]) where
  distinct := by
    rw [List.map_append]
    refine List.nodup_append.mpr ⟨h.distinct, List.nodup_singleton i, fun a ha b hb heq => ?_⟩
    rw [heq, List.mem_singleton.mp hb] at ha
    exact fresh (h.answers i ha)
  answers := by
    intro j hj
    rw [List.map_append, List.mem_append] at hj
    rw [handled_append, List.map_append, List.mem_append]
    exact hj.imp_left (h.answers j)
  balance := by
    intro j
    have left : callsLeft j [(i, h2ProcessResponse (sends i) response)] =
        if i = j then answer (sends j) (.ok (response, cont) : Except Err _) else [] := by
      by_cases hj : i = j
      · subst hj
        simp [callsLeft, answer, onHandle]
      · simp [callsLeft, onHandle, hj]
    rw [callsOwed_handled, ← left, ← h.balance j, callsOn_append, callsLeft, onHandle_append,
      ← List.append_assoc]
    exact congrArg (· ++ _ ++ _) (List.append_nil _)

/-- The reply to a failure is written at once. -/
theorem handlerFailed (h : Answered sends tr writing) (fresh : i ∉ (handled tr).map Prod.fst)
    (err : Err) : Answered sends (tr ++ [.handled i request (.error err)]) writing where
  distinct := h.distinct
  answers := by
    intro j hj
    rw [handled_append, List.map_append, List.mem_append]
    exact .inl (h.answers j hj)
  balance := by
    intro j
    rw [callsOwed_handled, ← h.balance j, callsOn_append]
    by_cases hj : i = j
    · subst hj
      have none : callsLeft i writing = [] := onHandle_absent fun hi => fresh (h.answers i hi)
      simp [none, callsOn, answer]
    · simp [callsOn, hj]

/-- One more call of an answer. -/
theorem wrote {call : SendCall} {calls : List SendCall}
    (h : Answered sends tr (before ++ (i, call :: calls) :: after)) :
    Answered sends (tr ++ [.wrote i call]) (before ++ (i, calls) :: after) where
  distinct := by simpa using h.distinct
  answers := by
    have none : handled [(.wrote i call : H2Event Req Err E)] = [] := rfl
    simpa [none] using h.answers
  balance := by
    intro j
    have balance := h.balance j
    have owed : callsOwed sends j (tr ++ [.wrote i call]) = callsOwed sends j tr :=
      congrArg (onHandle j _) ((handled_append tr _).trans (List.append_nil _))
    rw [owed, ← balance, callsOn_append, callsLeft, callsLeft, onHandle_append, onHandle_append]
    by_cases hj : i = j
    · subst hj
      have distinct := h.distinct
      rw [List.map_append, List.map_cons] at distinct
      have first : onHandle i id before = [] := onHandle_absent fun hmem =>
        (List.nodup_append.mp distinct).2.2 i hmem i List.mem_cons_self rfl
      simp [callsOn, first]
    · simp [callsOn, hj, onHandle_cons_other hj]

/-- An answer is complete. -/
theorem written (h : Answered sends tr (before ++ (i, []) :: after)) :
    Answered sends (tr ++ [.written i]) (before ++ after) := by
  refine keep (e := .written i) ⟨?_, ?_, ?_⟩ rfl fun _ => rfl
  · refine h.distinct.sublist ?_
    simp
  · intro j hj
    refine h.answers j ?_
    rw [List.map_append, List.mem_append] at hj ⊢
    exact hj.imp_right (List.mem_cons_of_mem i)
  · intro j
    rw [← h.balance j, callsLeft, callsLeft, onHandle_append, onHandle_append]
    by_cases hj : i = j
    · subst hj
      simp
    · rw [onHandle_cons_other hj]

theorem step {e : H2Event Req Err E} (h : Answered sends tr s.frontendRespStream)
    (account : Accounted items tr s) (hstep : H2Step sends s e s') :
    Answered sends (tr ++ [e]) s'.frontendRespStream := by
  have fresh : ∀ {i request before after}, s.backendRespStream = before ++ (i, request) :: after →
      i ∉ (handled tr).map Prod.fst := by
    intro i request before after next
    have inProgress : (i, request) ∈ s.backendRespStream := by
      rw [next]
      exact List.mem_append_right _ List.mem_cons_self
    exact account.not_handled inProgress
  cases hstep with
  | send | sendFails | acceptEnded | received | acceptError | channelClosed | noBackend | noFrontend
  | broke => exact h.keep rfl fun _ => rfl
  | responded polls next => exact h.responded (fresh next) _ _
  | handlerFailed polls next => exact h.handlerFailed (fresh next) _
  | wrote polls next => exact (next ▸ h).wrote
  | written polls next => exact (next ▸ h).written

end Answered

theorem accounted_run (last : ErrorLast items) (h : Run (H2Step sends) (.start items) tr s) :
    Accounted items tr s ∧ Answered sends tr s.frontendRespStream :=
  h.history (I := fun tr s => Accounted items tr s ∧ Answered sends tr s.frontendRespStream)
    ⟨.start last, .start⟩ fun _ _ _ _ _ before hstep =>
      ⟨before.1.step hstep, before.2.step before.1 hstep⟩

/-- A branch that still has something is polled. -/
theorem Accounted.polls (h : Accounted items tr s) (loops : s.broken = false) {branch : Branch}
    (some : ¬ s.Spent branch) : s.Polls branch :=
  ⟨loops, eq_false_of_ne_true fun hdisabled => some (h.spent branch hdisabled)⟩

/-- Whatever is pending can take its next step. -/
def H2Loop.Drives (sends : Nat → Parts → Bool → Bool) (Err E : Type u) (s : H2Loop Req AcceptErr) :
    Prop :=
  (∀ i request rest, s.channel = (.ok request, i) :: rest →
    ∃ s', H2Step sends s (.received i request : H2Event Req Err E) s') ∧
  (∀ i request, (i, request) ∈ s.backendRespStream → ∀ result,
    ∃ s', H2Step sends s (.handled i request result : H2Event Req Err E) s') ∧
  ∀ i calls, (i, calls) ∈ s.frontendRespStream →
    ∃ e s', H2Step sends s (e : H2Event Req Err E) s' ∧ (e = .written i ∨ ∃ call, e = .wrote i call)

theorem Accounted.drives (h : Accounted items tr s) (loops : s.broken = false) :
    s.Drives sends Err E := by
  refine ⟨fun i request rest recv => ?_, fun i request hi result => ?_, fun i calls hi => ?_⟩
  · have polls : s.Polls .rx := h.polls loops fun spent => by
      rw [spent.1] at recv
      cases recv
    exact ⟨_, .received polls recv⟩
  · have polls : s.Polls .backendRespStream := h.polls loops (List.ne_nil_of_mem hi)
    obtain ⟨before, after, next⟩ := List.append_of_mem hi
    cases result with
    | ok value => exact ⟨_, .responded polls next⟩
    | error err => exact ⟨_, .handlerFailed polls next⟩
  · have polls : s.Polls .frontendRespStream := h.polls loops (List.ne_nil_of_mem hi)
    obtain ⟨before, after, next⟩ := List.append_of_mem hi
    cases calls with
    | nil => exact ⟨_, _, .written polls next, .inl rfl⟩
    | cons call calls => exact ⟨_, _, .wrote polls next, .inr ⟨call, rfl⟩⟩

/-- In every run: the requests received are requests that were accepted, none of
them twice; each is in progress or handled, once; the calls made and left on its
handle send one response, that of its handler with its status, headers and body or
a 500, and none are made before it is handled. As long as the loop runs it drives
whatever is pending, and when it breaks every request was handled and answered. -/
theorem h2_requests_answered_once (last : ErrorLast items)
    (h : Run (H2Step sends) (.start items) tr s) :
    ((received tr).map Prod.fst).Nodup ∧
    (∀ i request, (i, request) ∈ received tr → items[i]? = some (.ok request)) ∧
    (received tr).Perm (s.backendRespStream ++ (handled tr).map handledRequest) ∧
    (∀ i, i ∉ (handled tr).map Prod.fst → callsOn i tr = []) ∧
    (∀ i request result, (i, request, result) ∈ handled tr →
      callsOn i tr ++ callsLeft i s.frontendRespStream = answer (sends i) result ∧
        SendsReply (sends i) result (callsOn i tr ++ callsLeft i s.frontendRespStream)) ∧
    (s.broken = false → s.Drives sends Err E) ∧
    (s.broken = true →
      s.channel = [] ∧ s.backendRespStream = [] ∧ s.frontendRespStream = [] ∧
      ∀ i request, items[i]? = some (.ok request) →
        ∃ result, (i, request, result) ∈ handled tr ∧ callsOn i tr = answer (sends i) result ∧
          SendsReply (sends i) result (callsOn i tr)) := by
  obtain ⟨account, answered⟩ := accounted_run last h
  have paid : ∀ i request result, (i, request, result) ∈ handled tr →
      callsOn i tr ++ callsLeft i s.frontendRespStream = answer (sends i) result := by
    intro i request result hi
    rw [answered.balance i, callsOwed]
    exact onHandle_unique (List.nodup_append.mp account.handles_nodup).2.1 hi
  refine ⟨account.received_nodup, fun i request => account.received_item, account.taken,
    fun i hi => ?_, fun i request result hi => ⟨paid i request result hi, ?_⟩,
    account.drives, fun broken => ?_⟩
  · have balance := answered.balance i
    rw [callsOwed, onHandle_absent hi] at balance
    exact (List.append_eq_nil_iff.mp balance).1
  · rw [paid i request result hi]
    exact answer_sends _ _
  · have disabled := account.stopped broken
    obtain ⟨hchannel, hincoming⟩ := account.spent .rx (disabled .rx)
    have hbackend : s.backendRespStream = [] := account.spent .backendRespStream (disabled _)
    have hfrontend : s.frontendRespStream = [] := account.spent .frontendRespStream (disabled _)
    refine ⟨hchannel, hbackend, hfrontend, fun i request hitem => ?_⟩
    have hreceived : (i, request) ∈ received tr := by
      rw [← mem_requests, ← account.queued, hchannel, hincoming] at hitem
      simpa [requests] using hitem
    have hhandled := account.taken.mem_iff.mp hreceived
    rw [hbackend, List.nil_append, List.mem_map] at hhandled
    obtain ⟨⟨j, request', result⟩, hmem, heq⟩ := hhandled
    cases heq
    have all := paid j request' result hmem
    rw [hfrontend] at all
    have written : callsOn j tr = answer (sends j) result := (List.append_nil _).symm.trans all
    exact ⟨result, hmem, written, written ▸ answer_sends _ _⟩

/-- The second request is handled first, and fails; then the connection fails. -/
theorem two_requests_then_accept_error :
    ∃ (tr : List (H2Event String String String)) (s : H2Loop String String),
      Run (H2Step fun _ _ _ => true) (.start [.ok "a", .ok "b", .error "reset"]) tr s ∧
      s.broken = true ∧
      ∀ i request, [.ok "a", .ok "b", (.error "reset" : Except String String)][i]? =
          some (.ok request) →
        ∃ result, (i, request, result) ∈ handled tr ∧
          callsOn i tr = answer (fun _ _ => true) result ∧
          SendsReply (fun _ _ => true) result (callsOn i tr) := by
  have last : ErrorLast [.ok "a", .ok "b", (.error "reset" : Except String String)] :=
    (errorLast_iff _).mpr ⟨["a", "b"], [.error "reset"], rfl, .inr ⟨"reset", rfl⟩⟩
  let response : Response String := ⟨⟨200, .http2, [("connection", "close")]⟩, .fixedNone⟩
  have run : Run (H2Step fun _ _ _ => true)
      (.start [.ok "a", .ok "b", (.error "reset" : Except String String)])
      ([.accepted, .accepted, .received 0 "a", .accepted, .received 1 "b",
        .handled 1 "b" (.error "no upstream"), .disabled .rx, .handled 0 "a" (.ok (response, true)),
        .wrote 0 (.sendResponse ⟨200, .http2, []⟩ true), .acceptEnded, .written 0, .disabled .rx,
        .disabled .backendRespStream, .disabled .frontendRespStream, .broke] :
          List (H2Event String String String)) _ :=
    .cons (.send rfl rfl) <| .cons (.send rfl rfl) <| .cons (.received ⟨rfl, rfl⟩ rfl) <|
    .cons (.send rfl rfl) <| .cons (.received ⟨rfl, rfl⟩ rfl) <|
    .cons (.handlerFailed ⟨rfl, rfl⟩ (show _ = [(0, "a")] ++ (1, "b") :: [] from rfl)) <|
    .cons (.acceptError ⟨rfl, rfl⟩ rfl) <|
    .cons (.responded ⟨rfl, rfl⟩ (show _ = [] ++ (0, "a") :: [] from rfl)) <|
    .cons (.wrote ⟨rfl, rfl⟩ (show _ = [] ++ (0, _ :: []) :: [] from rfl)) <|
    .cons (.acceptEnded rfl) <|
    .cons (.written ⟨rfl, rfl⟩ (show _ = [] ++ (0, []) :: [] from rfl)) <|
    .cons (.channelClosed ⟨rfl, rfl⟩ rfl rfl) <| .cons (.noBackend ⟨rfl, rfl⟩ rfl) <|
    .cons (.noFrontend ⟨rfl, rfl⟩ rfl) <|
    .cons (.broke rfl fun branch => by cases branch <;> rfl) .nil
  exact ⟨_, _, run, rfl, ((h2_requests_answered_once last run).2.2.2.2.2.2 rfl).2.2.2⟩

end Monolake.Http
