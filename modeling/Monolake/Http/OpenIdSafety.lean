import Monolake.Http.OpenIdSessions

/-!
Which requests are safe for the OpenID gate. A call panics where an `unwrap` of what
the client sent fails, also that of the provider's answer to its code, and it waits for
itself where it asks for the write lock of the store with a read guard in its hand.
-/
namespace Monolake.Http

universe u
open Foundation

variable {M I B E Err : Type u} {crates : OpenIdCrates M I}

/-- A provider that answers correctly: what it tells about itself, and the access token and
the ID token that it gives for a code, if it accepts the code. -/
structure Provider (M I : Type u) where
  metadata : M
  tokens : String → Option (String × I)

/-- It is this provider that answers. -/
def Provider.Answers (provider : Provider M I) : OpenIdEvent M I B E Err → Prop
  | .discovered _ metadata .. => metadata = provider.metadata
  | .exchanged _ code response => ∃ idToken, response.idToken = some idToken ∧
      provider.tokens code = some (response.accessToken, idToken)
  | .refused _ code => provider.tokens code = none
  | _ => True

/-- The provider accepts the code, for the session that has this nonce. -/
def Provider.Accepts (crates : OpenIdCrates M I) (provider : Provider M I) (metadata : M)
    (code nonce : String) : Prop :=
  ∃ accessToken idToken, provider.tokens code = some (accessToken, idToken) ∧
    crates.verifies metadata idToken nonce = true

/-- The call that takes the step. -/
def OpenIdEvent.call : OpenIdEvent M I B E Err → Nat
  | .called i _ | .cookieChecked i | .authChecked i | .discovered i .. | .redirected i
  | .stateChecked i | .exchanged i .. | .refused i _ | .tokenStored i | .innerCalled i
  | .innerReturned i _ | .abandoned i => i

/-- The next `unwrap` of the call is one of what the client sent, and fails. -/
def UnwrapFails (crates : OpenIdCrates M I) (store : SessionStore) :
    OpenIdCall M B E Err → Prop
  | .called request => sessionCookie crates request.headers = none
  | .discovered request .. => crates.queryPairs request.uri = none
  | .refused => True
  | .verified _ state _ => store state = none
  | _ => False

def Harmless (crates : OpenIdCrates M I) (s : OpenIdGate M B E Err) (i : Nat) : Prop :=
  ∀ call, s.calls i = some call → ¬ UnwrapFails crates s.store call ∧ call ≠ .blocked

/-- The query can be read, and has no code, or no state, or a code and the state of a
session that go together. -/
def CallbackKnown (crates : OpenIdCrates M I) (store : SessionStore)
    (together : String → SessionState → Prop) (request : Request B) : Prop :=
  ∃ pairs, crates.queryPairs request.uri = some pairs ∧
    ∀ code state, queryValue pairs "code" = some code → queryValue pairs "state" = some state →
      ∃ session, store state = some session ∧ together code session

/-- The first session cookie names a session with an access token. -/
def LoggedIn (crates : OpenIdCrates M I) (store : SessionStore) (request : Request B) : Prop :=
  ∃ session, sessionCookie crates request.headers = some (some session) ∧
    (store.token session).isSome

/-- The cookies can be read up to the session, and name one with an access token, or
else the query is in order, and the provider accepts a code that comes with the state of a
session. -/
def RequestInOrder (crates : OpenIdCrates M I) (provider : Provider M I) (store : SessionStore)
    (request : Request B) : Prop :=
  (∃ cookie, sessionCookie crates request.headers = some cookie) ∧
    (LoggedIn crates store request ∨
      CallbackKnown crates store
        (fun code session => provider.Accepts crates provider.metadata code session.nonce) request)

/-- The same at the three points where a call looks at what the client sent. -/
def InOrder (crates : OpenIdCrates M I) (provider : Provider M I) (s : OpenIdGate M B E Err) :
    OpenIdEvent M I B E Err → Prop
  | .called _ request => ∃ cookie, sessionCookie crates request.headers = some cookie
  | .authChecked i => ∀ request authCookie,
      s.calls i = some (.cookieChecked request authCookie) →
        (∃ session, authCookie = some session ∧ (s.store.token session).isSome) ∨
          CallbackKnown crates s.store (fun _ _ => True) request
  | .exchanged i code _ | .refused i code => ∀ request metadata state nonce,
      s.calls i = some (.exchanging request metadata code state nonce) →
        provider.Accepts crates metadata code nonce
  | _ => True

/-- A step of call `i`, with this provider. -/
def OwnStep (crates : OpenIdCrates M I) (provider : Provider M I) (i : Nat)
    (s : OpenIdGate M B E Err) (e : OpenIdEvent M I B E Err) (s' : OpenIdGate M B E Err) : Prop :=
  OpenIdStep crates s e s' ∧ e.call = i ∧ provider.Answers e

/-- A step that finds the request in order, with the provider as it is by then. -/
def OrderlyStep (crates : OpenIdCrates M I) (s : OpenIdGate M B E Err)
    (e : OpenIdEvent M I B E Err) (s' : OpenIdGate M B E Err) : Prop :=
  OpenIdStep crates s e s' ∧ ∃ provider : Provider M I, provider.Answers e ∧
    InOrder crates provider s e

@[simp] theorem OpenIdGate.enter_calls_self (s : OpenIdGate M B E Err) (i : Nat)
    (call : OpenIdCall M B E Err) : (s.enter i call).calls i = some call :=
  Function.update_self ..

/-! What a step keeps. -/

/-- What makes the rest of the call safe, at each of its points. -/
def Safe (crates : OpenIdCrates M I) (store : SessionStore) : OpenIdCall M B E Err → Prop
  | .called request => ∃ cookie, sessionCookie crates request.headers = some cookie
  | .discovering request | .discovered request .. =>
      CallbackKnown crates store (fun _ _ => True) request
  | .exchanging _ _ _ state _ | .verified _ state _ => store state ≠ none
  | .blocked | .refused => False
  | .cookieChecked .. | .authorized .. | .inner _ | .returned _ | .abandoned => True

theorem Safe.harmless {store : SessionStore} {call : OpenIdCall M B E Err}
    (h : Safe crates store call) : ¬ UnwrapFails crates store call ∧ call ≠ .blocked := by
  cases call with
  | called request =>
      obtain ⟨cookie, hcookie⟩ := h
      refine ⟨fun fails => ?_, by simp⟩
      rw [UnwrapFails, hcookie] at fails
      cases fails
  | discovered request =>
      obtain ⟨pairs, hpairs, -⟩ := h
      refine ⟨fun fails => ?_, by simp⟩
      rw [UnwrapFails, hpairs] at fails
      cases fails
  | verified request state => exact ⟨h, by simp⟩
  | blocked | refused => exact h.elim
  | cookieChecked | discovering | exchanging | authorized | inner | returned | abandoned =>
      exact ⟨id, by simp⟩

section
variable {s s' : OpenIdGate M B E Err} {e : OpenIdEvent M I B E Err}

/-- Sessions are not removed. -/
theorem sessions_kept (step : OpenIdStep crates s e s') {session : String}
    (h : s.store session ≠ none) : s'.store session ≠ none := by
  have inserted : ∀ other state, (s.insert other state).store session ≠ none := by
    intro other state
    by_cases same : session = other
    · simp [OpenIdGate.insert, same]
    · simpa [OpenIdGate.insert, same] using h
  cases step with
  | redirected | tokenStored => exact inserted _ _
  | called | cookieChecked | authed | notAuthed | discovered | stateUnknown | stateKnown
  | exchanged | unverified | refused | innerCalled | innerReturned | callbackReturned
  | abandoned => exact h

theorem CallbackKnown.later {request : Request B}
    (h : CallbackKnown crates s.store (fun _ _ => True) request)
    (step : OpenIdStep crates s e s') :
    CallbackKnown crates s'.store (fun _ _ => True) request := by
  obtain ⟨pairs, hpairs, known⟩ := h
  refine ⟨pairs, hpairs, fun code state hcode hstate => ?_⟩
  obtain ⟨session, hsession, -⟩ := known code state hcode hstate
  have kept : s'.store state ≠ none := sessions_kept step (by simp [hsession])
  obtain ⟨later, hlater⟩ := Option.ne_none_iff_exists'.mp kept
  exact ⟨later, hlater, trivial⟩

theorem Safe.later {call : OpenIdCall M B E Err} (h : Safe crates s.store call)
    (step : OpenIdStep crates s e s') : Safe crates s'.store call := by
  cases call with
  | discovering | discovered => exact CallbackKnown.later h step
  | exchanging | verified => exact sessions_kept step h
  | called | cookieChecked | blocked | refused | authorized | inner | returned | abandoned =>
      exact h

theorem other_calls_kept (step : OpenIdStep crates s e s') {i : Nat} (h : i ≠ e.call) :
    s'.calls i = s.calls i := by
  cases step <;> exact Function.update_of_ne h ..

/-- A code that is accepted is not refused. -/
theorem Provider.Accepts.answered {provider : Provider M I} {metadata : M} {code nonce : String}
    (h : provider.Accepts crates metadata code nonce) : provider.tokens code ≠ none := by
  obtain ⟨accessToken, idToken, accepted, -⟩ := h
  simp [accepted]

theorem Provider.Accepts.verifies {provider : Provider M I} {metadata : M} {code nonce : String}
    (h : provider.Accepts crates metadata code nonce) {accessToken : String} {idToken : I}
    (answer : provider.tokens code = some (accessToken, idToken)) :
    crates.verifies metadata idToken nonce = true := by
  obtain ⟨_, _, accepted, verified⟩ := h
  obtain ⟨rfl, rfl⟩ := Prod.mk.inj (Option.some.inj (accepted.symm.trans answer))
  exact verified

/-- A step of a safe call that finds the request in order leaves it safe. -/
theorem safe_step {provider : Provider M I} (step : OpenIdStep crates s e s')
    (answers : provider.Answers e) (order : InOrder crates provider s e)
    (h : ∀ call, s.calls e.call = some call → Safe crates s.store call) :
    ∃ call, s'.calls e.call = some call ∧ Safe crates s'.store call := by
  cases step with
  | called fresh => exact ⟨_, OpenIdGate.enter_calls_self .., order⟩
  | notAuthed at_ held =>
      refine ⟨_, OpenIdGate.enter_calls_self .., ?_⟩
      rcases order _ _ at_ with ⟨session, hsession, token⟩ | known
      · rw [held session hsession] at token
        cases token
      · exact known
  | discovered at_ =>
      have known := h _ at_
      exact ⟨_, OpenIdGate.enter_calls_self .., known⟩
  | stateUnknown at_ parsed code_pair state_pair unknown =>
      obtain ⟨pairs, hpairs, known⟩ := h _ at_
      obtain rfl := Option.some.inj (parsed.symm.trans hpairs)
      obtain ⟨session, hsession, -⟩ := known _ _ code_pair state_pair
      cases unknown.symm.trans hsession
  | stateKnown at_ parsed code_pair state_pair known =>
      refine ⟨_, OpenIdGate.enter_calls_self .., ?_⟩
      exact Option.ne_none_iff_exists'.mpr ⟨_, known⟩
  | exchanged at_ =>
      have known := h _ at_
      exact ⟨_, OpenIdGate.enter_calls_self .., known⟩
  | unverified at_ token fails =>
      obtain ⟨idToken, same, answer⟩ := answers
      obtain rfl := Option.some.inj (token.symm.trans same)
      have verified := (order _ _ _ _ at_).verifies answer
      rw [fails] at verified
      cases verified
  | refused at_ => exact absurd answers (order _ _ _ _ at_).answered
  | cookieChecked | authed | redirected | tokenStored | innerCalled | innerReturned
  | callbackReturned | abandoned => exact ⟨_, OpenIdGate.enter_calls_self .., trivial⟩

/-- The calls of a run whose steps all find the request in order are safe. -/
theorem orderly_run_safe {tr : List (OpenIdEvent M I B E Err)}
    (run : Run (OrderlyStep crates) .start tr s) :
    ∀ i call, s.calls i = some call → Safe crates s.store call := by
  refine run.invariant (I := fun s => ∀ i call, s.calls i = some call → Safe crates s.store call)
    ?_ ?_
  · rintro s e s' safe ⟨step, provider, answers, order⟩ i call hcall
    by_cases own : i = e.call
    · obtain ⟨call', hcall', safe'⟩ := safe_step step answers order (safe e.call)
      rw [own, hcall'] at hcall
      exact Option.some.inj hcall ▸ safe'
    · rw [other_calls_kept step own] at hcall
      exact (safe i call hcall).later step
  · intro i call hcall
    cases hcall

/-! One call after the other. -/

/-- Until it has its tokens a call has only looked: it goes on to the provider when the client
is not logged in, and with the code for the session that the state names. -/
def Looking (crates : OpenIdCrates M I) (provider : Provider M I) (store : SessionStore)
    (request : Request B) (now : SessionStore) : OpenIdCall M B E Err → Prop
  | .called request' => request' = request ∧ now = store
  | .cookieChecked request' authCookie => request' = request ∧ now = store ∧
      ∃ cookie, sessionCookie crates request.headers = some cookie ∧
        authCookie = cookie.filter fun value => (store.token value).isSome
  | .discovering request' => request' = request ∧ now = store ∧ ¬ LoggedIn crates store request
  | .discovered request' metadata .. => request' = request ∧ now = store ∧
      ¬ LoggedIn crates store request ∧ metadata = provider.metadata
  | .exchanging _ metadata code _ nonce => ¬ LoggedIn crates store request ∧
      metadata = provider.metadata ∧ ∃ pairs state session,
        crates.queryPairs request.uri = some pairs ∧ queryValue pairs "code" = some code ∧
        queryValue pairs "state" = some state ∧ store state = some session ∧ session.nonce = nonce
  | _ => True

/-- No session with a token is found by the cookie of a client that is not logged in. -/
theorem not_loggedIn {store : SessionStore} {request : Request B} {cookie : Option String}
    (hcookie : sessionCookie crates request.headers = some cookie)
    (unheld : ∀ value, (cookie.filter fun value => (store.token value).isSome) = some value →
      store.token value = none) : ¬ LoggedIn crates store request := by
  rintro ⟨session, named, token⟩
  obtain rfl := Option.some.inj (hcookie.symm.trans named)
  rw [unheld session (Option.filter_eq_some_iff.mpr ⟨rfl, token⟩)] at token
  cases token

theorem looking_step {provider : Provider M I} (step : OpenIdStep crates s e s')
    (answers : provider.Answers e) {store : SessionStore} {request : Request B}
    (called : ∃ call, s.calls e.call = some call)
    (h : ∀ call, s.calls e.call = some call →
      Looking crates provider store request s.store call) :
    ∃ call, s'.calls e.call = some call ∧
      Looking crates provider store request s'.store call := by
  cases step with
  | called fresh =>
      obtain ⟨call, hcall⟩ := called
      rw [OpenIdEvent.call, fresh] at hcall
      cases hcall
  | cookieChecked at_ parsed =>
      obtain ⟨rfl, rfl⟩ := h _ at_
      exact ⟨_, OpenIdGate.enter_calls_self .., rfl, rfl, _, parsed, rfl⟩
  | notAuthed at_ held =>
      obtain ⟨rfl, rfl, cookie, hcookie, rfl⟩ := h _ at_
      exact ⟨_, OpenIdGate.enter_calls_self .., rfl, rfl, not_loggedIn hcookie held⟩
  | discovered at_ =>
      obtain ⟨rfl, rfl, unknown⟩ := h _ at_
      exact ⟨_, OpenIdGate.enter_calls_self .., rfl, rfl, unknown, answers⟩
  | stateKnown at_ parsed code_pair state_pair known =>
      obtain ⟨rfl, rfl, unknown, rfl⟩ := h _ at_
      exact ⟨_, OpenIdGate.enter_calls_self .., unknown, rfl, _, _, _, parsed, code_pair,
        state_pair, known, rfl⟩
  | authed | redirected | stateUnknown | exchanged | unverified | refused | tokenStored
  | innerCalled | innerReturned | callbackReturned | abandoned =>
      exact ⟨_, OpenIdGate.enter_calls_self .., trivial⟩

/-- A call with a request that is in order finds it so. -/
theorem inOrder_of_looking {provider : Provider M I} {store : SessionStore} {request : Request B}
    (h : RequestInOrder crates provider store request) (step : OpenIdStep crates s e s')
    (called : ∃ call, s.calls e.call = some call)
    (looking : ∀ call, s.calls e.call = some call →
      Looking crates provider store request s.store call) :
    InOrder crates provider s e := by
  have accepted : ∀ {request' metadata code state nonce},
      s.calls e.call = some (.exchanging request' metadata code state nonce) →
        provider.Accepts crates metadata code nonce := by
    intro request' metadata code state nonce at_
    obtain ⟨unknown, rfl, pairs, state, session, hpairs, hcode, hstate, hsession, rfl⟩ :=
      looking _ at_
    obtain ⟨pairs', hpairs', known⟩ := h.2.resolve_left unknown
    obtain rfl := Option.some.inj (hpairs.symm.trans hpairs')
    obtain ⟨session', hsession', accepts⟩ := known code state hcode hstate
    obtain rfl := Option.some.inj (hsession.symm.trans hsession')
    exact accepts
  cases step with
  | called fresh =>
      obtain ⟨call, hcall⟩ := called
      rw [OpenIdEvent.call, fresh] at hcall
      cases hcall
  | authed at_ held =>
      intro request' authCookie hcall
      cases at_.symm.trans hcall
      exact .inl ⟨_, rfl, held⟩
  | notAuthed at_ held =>
      intro request' authCookie hcall
      cases at_.symm.trans hcall
      obtain ⟨rfl, rfl, cookie, hcookie, rfl⟩ := looking _ at_
      obtain ⟨pairs, hpairs, known⟩ := h.2.resolve_left (not_loggedIn hcookie held)
      refine .inr ⟨pairs, hpairs, fun code state hcode hstate => ?_⟩
      obtain ⟨session, hsession, -⟩ := known code state hcode hstate
      exact ⟨session, hsession, trivial⟩
  | exchanged at_ | unverified at_ | refused at_ => exact fun _ _ _ _ hcall => accepted hcall
  | cookieChecked | discovered | redirected | stateUnknown | stateKnown
  | tokenStored | innerCalled | innerReturned | callbackReturned | abandoned => trivial

end

/-- A request in order does the call no harm. -/
theorem own_run_harmless {provider : Provider M I} {s s' : OpenIdGate M B E Err} {i : Nat}
    {request : Request B} {tr : List (OpenIdEvent M I B E Err)}
    (h : RequestInOrder crates provider s.store request)
    (run : Run (OwnStep crates provider i) (s.enter i (.called request)) tr s') :
    Harmless crates s' i := by
  have own : ∃ call, s'.calls i = some call ∧ Safe crates s'.store call ∧
      Looking crates provider s.store request s'.store call := by
    refine run.invariant (I := fun s' => ∃ call, s'.calls i = some call ∧
      Safe crates s'.store call ∧ Looking crates provider s.store request s'.store call) ?_ ?_
    · rintro t e t' ⟨call, hcall, safe, looking⟩ ⟨step, rfl, answers⟩
      have now : ∀ call', t.calls e.call = some call' → call = call' := fun call' hcall' =>
        Option.some.inj (hcall.symm.trans hcall')
      have order := inOrder_of_looking h step ⟨call, hcall⟩ fun call' hcall' =>
        now call' hcall' ▸ looking
      obtain ⟨next, hnext, safe'⟩ := safe_step step answers order fun call' hcall' =>
        now call' hcall' ▸ safe
      obtain ⟨next', hnext', looking'⟩ := looking_step step answers ⟨call, hcall⟩
        fun call' hcall' => now call' hcall' ▸ looking
      obtain rfl := Option.some.inj (hnext.symm.trans hnext')
      exact ⟨next, hnext, safe', looking'⟩
    · exact ⟨_, OpenIdGate.enter_calls_self .., h.1, rfl, rfl⟩
  obtain ⟨call, hcall, safe, -⟩ := own
  intro call' hcall'
  obtain rfl := Option.some.inj (hcall.symm.trans hcall')
  exact safe.harmless

/-- A code that is not accepted is refused, or gives an ID token that does not verify. -/
theorem refused_of_not_accepted {provider : Provider M I} {s : OpenIdGate M B E Err} {i : Nat}
    {request : Request B} {metadata : M} {code state nonce : String}
    (at_ : s.calls i = some (.exchanging request metadata code state nonce))
    (rejected : ¬ provider.Accepts crates metadata code nonce) :
    ∃ e : OpenIdEvent M I B E Err, OwnStep crates provider i s e (s.enter i .refused) := by
  cases answer : provider.tokens code with
  | none => exact ⟨.refused i code, .refused at_, rfl, answer⟩
  | some tokens =>
      obtain ⟨accessToken, idToken⟩ := tokens
      have fails : crates.verifies metadata idToken nonce = false :=
        eq_false_of_ne_true fun verified => rejected ⟨accessToken, idToken, answer, verified⟩
      exact ⟨.exchanged i code ⟨accessToken, some idToken⟩, .unverified at_ rfl fails, rfl,
        idToken, rfl, answer⟩

/-- A request that is not in order leads its call to harm. -/
theorem inOrder_of_harmless {provider : Provider M I} {s : OpenIdGate M B E Err} {i : Nat}
    {request : Request B}
    (h : ∀ (tr : List (OpenIdEvent M I B E Err)) s',
      Run (OwnStep crates provider i) (s.enter i (.called request)) tr s' → Harmless crates s' i) :
    RequestInOrder crates provider s.store request := by
  have read := (h [] _ .nil _ (OpenIdGate.enter_calls_self ..)).1
  obtain ⟨cookie, hcookie⟩ := Option.ne_none_iff_exists'.mp read
  refine ⟨⟨cookie, hcookie⟩, or_iff_not_imp_left.mpr fun unauthed => ?_⟩
  have unheld : ∀ value, (cookie.filter fun value => (s.store.token value).isSome) = some value →
      s.store.token value = none := by
    intro value hvalue
    obtain ⟨rfl, held⟩ := Option.filter_eq_some_iff.mp hvalue
    exact absurd ⟨value, hcookie, held⟩ unauthed
  have asked : Run (OwnStep crates provider i) (s.enter i (.called request))
      [.cookieChecked i, .authChecked i, .discovered i provider.metadata "" "" ""] _ :=
    .cons ⟨.cookieChecked (OpenIdGate.enter_calls_self ..) hcookie, rfl, trivial⟩ <|
    .cons ⟨.notAuthed (OpenIdGate.enter_calls_self ..) unheld, rfl, trivial⟩ <|
    .cons ⟨.discovered (OpenIdGate.enter_calls_self ..), rfl, rfl⟩ .nil
  have parsed := (h _ _ asked _ (OpenIdGate.enter_calls_self ..)).1
  obtain ⟨pairs, hpairs⟩ := Option.ne_none_iff_exists'.mp parsed
  refine ⟨pairs, hpairs, fun code state hcode hstate => ?_⟩
  cases hsession : s.store state with
  | none =>
      have waiting := asked.snoc
        ⟨.stateUnknown (OpenIdGate.enter_calls_self ..) hpairs hcode hstate hsession, rfl, trivial⟩
      exact absurd rfl (h _ _ waiting _ (OpenIdGate.enter_calls_self ..)).2
  | some session =>
      refine ⟨session, rfl, not_not.mp fun rejected => ?_⟩
      have exchanging := asked.snoc
        ⟨.stateKnown (OpenIdGate.enter_calls_self ..) hpairs hcode hstate hsession, rfl, trivial⟩
      obtain ⟨e, step⟩ := refused_of_not_accepted (OpenIdGate.enter_calls_self ..) rejected
      exact (h _ _ (exchanging.snoc step) _ (OpenIdGate.enter_calls_self ..)).1 trivial

/-- A call does no harm, from whatever state of the store it starts, if and only if
its request is in order there; and in a run of any number of calls, in any order of
their steps, none does harm when all requests are found in order. -/
theorem openId_harmless_iff (crates : OpenIdCrates M I) :
    (∀ (provider : Provider M I) (s : OpenIdGate M B E Err) (i : Nat) (request : Request B),
      (∀ (tr : List (OpenIdEvent M I B E Err)) s',
        Run (OwnStep crates provider i) (s.enter i (.called request)) tr s' →
          Harmless crates s' i) ↔
      RequestInOrder crates provider s.store request) ∧
    ∀ (tr : List (OpenIdEvent M I B E Err)) (s : OpenIdGate M B E Err),
      Run (OrderlyStep crates) .start tr s → ∀ i, Harmless crates s i :=
  ⟨fun _ _ _ _ => ⟨inOrder_of_harmless, fun h _ _ run => own_run_harmless h run⟩,
    fun _ _ run i call hcall => (orderly_run_safe run i call hcall).harmless⟩

/-- It accepts one code. -/
def plainProvider : Provider String String where
  metadata := "provider"
  tokens code := if code = "c" then some ("t", "n") else none

/-- A client that comes back with the code and the state it was given. -/
theorem returning_client_harmless :
    let s : OpenIdGate String Unit String String := OpenIdGate.start.insert "s" ⟨"n", none⟩
    ∀ (tr : List (OpenIdEvent String String Unit String String)) s',
      Run (OwnStep plainCrates plainProvider 0)
        (s.enter 0 (.called (plainRequest (some "code=c&state=s") []))) tr s' →
      Harmless plainCrates s' 0 := by
  intro s
  refine ((openId_harmless_iff plainCrates).1 plainProvider s 0 _).mpr
    ⟨⟨none, rfl⟩, .inr ⟨_, rfl, fun code state hcode hstate => ?_⟩⟩
  cases hcode
  cases hstate
  exact ⟨⟨"n", none⟩, rfl, "t", "n", rfl, rfl⟩

/-- A cookie without a value does not parse. -/
def bareCrates : OpenIdCrates String String :=
  { plainCrates with splitParse := fun text => if text = "session-id" then [none] else [] }

/-- It has given no code to anyone. -/
def strictProvider : Provider String String := { plainProvider with tokens := fun _ => none }

/-- A made-up state, and a cookie without a value, when there is no session; and a made-up code
with the state that an earlier call was given. -/
theorem strange_clients_harm :
    let Harmed (s : OpenIdGate String Unit String String) (i : Nat) (request : Request Unit) :
        Prop :=
      ¬ ∀ (tr : List (OpenIdEvent String String Unit String String))
        (s' : OpenIdGate String Unit String String),
        Run (OwnStep bareCrates strictProvider i) (s.enter i (.called request)) tr s' →
          Harmless bareCrates s' i
    Harmed .start 0 (plainRequest (some "code=c&state=s") []) ∧
      Harmed .start 0 (plainRequest none [("cookie", "session-id")]) ∧
      ∃ s, Run (OpenIdStep bareCrates) .start
          ([.called 0 (plainRequest none []), .cookieChecked 0, .authChecked 0,
            .discovered 0 "provider" "https://provider/auth" "s" "n", .redirected 0] :
              List (OpenIdEvent String String Unit String String)) s ∧
        Harmed s 1 (plainRequest (some "code=c&state=s") []) := by
  intro Harmed
  have redirected : Run (OpenIdStep bareCrates) (.start : OpenIdGate String Unit String String)
      ([.called 0 (plainRequest none []), .cookieChecked 0, .authChecked 0,
        .discovered 0 "provider" "https://provider/auth" "s" "n", .redirected 0] :
          List (OpenIdEvent String String Unit String String)) _ :=
    .cons (.called rfl) <| .cons (.cookieChecked rfl rfl) <|
    .cons (.notAuthed rfl (by simp)) <| .cons (.discovered rfl) <|
    .single (.redirected rfl rfl (.inl rfl) fun i => by
      by_cases h : i = 0 <;> simp [h, OpenIdGate.enter, OpenIdGate.start, Function.update])
  refine ⟨fun harmless => ?_, fun harmless => ?_, _, redirected, fun harmless => ?_⟩
  · obtain ⟨⟨cookie, hcookie⟩, order⟩ := inOrder_of_harmless harmless
    cases hcookie
    rcases order with ⟨session, hsession, -⟩ | ⟨pairs, hpairs, known⟩
    · cases hsession
    · cases hpairs
      obtain ⟨session, hsession, -⟩ := known "c" "s" rfl rfl
      cases hsession
  · obtain ⟨⟨cookie, hcookie⟩, -⟩ := inOrder_of_harmless harmless
    cases hcookie
  · obtain ⟨-, order⟩ := inOrder_of_harmless harmless
    rcases order with ⟨session, hsession, -⟩ | ⟨pairs, hpairs, known⟩
    · cases hsession
    · cases hpairs
      obtain ⟨session, -, accessToken, idToken, accepted, -⟩ := known "c" "s" rfl rfl
      cases accepted

end Monolake.Http
