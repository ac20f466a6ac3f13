import Mathlib.Logic.Function.Basic
import Monolake.Foundation.Runs
import Monolake.Http.Message

/-!
The OpenID gate in front of the inner handler, with its configuration set, and
the session store that all its calls share. A call is cut where it takes the
lock of the store and where it awaits; a lock that is held across such a cut is
part of the state. Parsing, random values, the provider's answers and the
verification of ID tokens are parameters or come with the events.

A call can be abandoned at any of these points: its future is dropped, or it
panics, as it does on malformed input, on a code that the provider refuses and on
errors of the provider.
-/
namespace Monolake.Http

universe u
open Foundation

/-- What is used of other crates: `HeaderValue::to_str`, `Cookie::split_parse`,
the query pairs of the URI behind `http://localhost`, and whether the claims of
an ID token verify under the provider's metadata and a nonce. -/
structure OpenIdCrates (M I : Type u) where
  toStr : String → Option String
  splitParse : String → List (Option (String × String))
  queryPairs : Uri → Option (List (String × String))
  verifies : M → I → String → Bool

structure SessionState where
  nonce : String
  accessToken : Option String
  deriving DecidableEq

structure TokenResponse (I : Type u) where
  accessToken : String
  idToken : Option I

abbrev SessionStore := String → Option SessionState

/-- The access token of a session, if there is such a session and it has one. -/
def SessionStore.token (store : SessionStore) (session : String) : Option String :=
  (store session).bind (·.accessToken)

/-- The value of the first cookie named `session-id`; `none` when an earlier
cookie does not parse. -/
def firstSession : List (Option (String × String)) → Option (Option String)
  | [] => some none
  | none :: _ => none
  | some (name, value) :: cookies =>
      if name = "session-id" then some (some value) else firstSession cookies

section
variable {M I B E Err : Type u}

/-- `none` when an `unwrap` on the way panics. -/
def sessionCookie (crates : OpenIdCrates M I) (headers : HeaderMap) : Option (Option String) :=
  match headers.get "cookie" with
  | some header => (crates.toStr header).bind fun text => firstSession (crates.splitParse text)
  | none => some none

/-- The first pair with this name. -/
def queryValue (pairs : List (String × String)) (name : String) : Option String :=
  (pairs.find? (·.1 = name)).map (·.2)

def redirectResponse (authorizeUrl : String) : Response E :=
  { parts := { status := 301, version := .http11, headers := [("location", authorizeUrl)] }
    body := .fixedNone }

/-- After the inner handler of a callback. -/
def finishCallback (state : String) :
    Except Err (Response E × Bool) → Except Err (Response E × Bool)
  | .ok (response, cont) =>
      let headers := response.parts.headers.insert "set-cookie" ("session-id=" ++ state)
      .ok ({ response with parts := { response.parts with headers } }, cont)
  | .error _ => .ok (generateResponse internalServerError false, false)

/-- `metadata`, `authorizeUrl`, `csrfState` and `nonce` are what discovery and
`authorize_url` gave. -/
inductive OpenIdCall (M B E Err : Type u) where
  | called (request : Request B)
  | cookieChecked (request : Request B) (authCookie : Option String)
  | discovering (request : Request B)
  | discovered (request : Request B) (metadata : M) (authorizeUrl csrfState nonce : String)
  /-- Waits for the write lock while it holds the read lock. -/
  | blocked
  | exchanging (request : Request B) (metadata : M) (code state nonce : String)
  /-- The provider has refused the code, or the ID token is not for this session. -/
  | refused
  | verified (request : Request B) (state accessToken : String)
  /-- Goes on to the inner handler: `state` in a callback. -/
  | authorized (request : Request B) (state : Option String)
  | inner (state : Option String)
  | returned (result : Except Err (Response E × Bool))
  | abandoned

structure OpenIdGate (M B E Err : Type u) where
  store : SessionStore
  calls : Nat → Option (OpenIdCall M B E Err)

inductive OpenIdEvent (M I B E Err : Type u) where
  | called (i : Nat) (request : Request B)
  | cookieChecked (i : Nat)
  | authChecked (i : Nat)
  | discovered (i : Nat) (metadata : M) (authorizeUrl csrfState nonce : String)
  | redirected (i : Nat)
  | stateChecked (i : Nat)
  /-- The provider's answer to `code`. -/
  | exchanged (i : Nat) (code : String) (response : TokenResponse I)
  | refused (i : Nat) (code : String)
  | tokenStored (i : Nat)
  | innerCalled (i : Nat)
  | innerReturned (i : Nat) (result : Except Err (Response E × Bool))
  | abandoned (i : Nat)

namespace OpenIdGate

def start : OpenIdGate M B E Err := { store := fun _ => none, calls := fun _ => none }

def enter (s : OpenIdGate M B E Err) (i : Nat) (call : OpenIdCall M B E Err) :
    OpenIdGate M B E Err :=
  { s with calls := Function.update s.calls i (some call) }

/-- No call holds the read lock, so the write lock can be taken. -/
def Free (s : OpenIdGate M B E Err) : Prop := ∀ i, s.calls i ≠ some .blocked

def insert (s : OpenIdGate M B E Err) (session : String) (state : SessionState) :
    OpenIdGate M B E Err :=
  { s with store := Function.update s.store session (some state) }

end OpenIdGate

inductive OpenIdStep (crates : OpenIdCrates M I) (s : OpenIdGate M B E Err) :
    OpenIdEvent M I B E Err → OpenIdGate M B E Err → Prop
  | called {i request} (fresh : s.calls i = none) :
      OpenIdStep crates s (.called i request) (s.enter i (.called request))
  | cookieChecked {i request cookie} (at_ : s.calls i = some (.called request))
      (parsed : sessionCookie crates request.headers = some cookie) :
      OpenIdStep crates s (.cookieChecked i) (s.enter i
        (.cookieChecked request (cookie.filter fun value => (s.store.token value).isSome)))
  | authed {i request value} (at_ : s.calls i = some (.cookieChecked request (some value)))
      (held : (s.store.token value).isSome) :
      OpenIdStep crates s (.authChecked i) (s.enter i (.authorized request none))
  | notAuthed {i request authCookie} (at_ : s.calls i = some (.cookieChecked request authCookie))
      (held : ∀ value, authCookie = some value → s.store.token value = none) :
      OpenIdStep crates s (.authChecked i) (s.enter i (.discovering request))
  | discovered {i request metadata authorizeUrl csrfState nonce}
      (at_ : s.calls i = some (.discovering request)) :
      OpenIdStep crates s (.discovered i metadata authorizeUrl csrfState nonce)
        (s.enter i (.discovered request metadata authorizeUrl csrfState nonce))
  | redirected {i request metadata authorizeUrl csrfState nonce pairs}
      (at_ : s.calls i = some (.discovered request metadata authorizeUrl csrfState nonce))
      (parsed : crates.queryPairs request.uri = some pairs)
      (missing : queryValue pairs "code" = none ∨ queryValue pairs "state" = none)
      (free : s.Free) :
      OpenIdStep crates s (.redirected i) ((s.insert csrfState ⟨nonce, none⟩).enter i
        (.returned (.ok (redirectResponse authorizeUrl, false))))
  | stateUnknown {i request metadata authorizeUrl csrfState nonce pairs code state}
      (at_ : s.calls i = some (.discovered request metadata authorizeUrl csrfState nonce))
      (parsed : crates.queryPairs request.uri = some pairs)
      (code_pair : queryValue pairs "code" = some code)
      (state_pair : queryValue pairs "state" = some state)
      (unknown : s.store state = none) :
      OpenIdStep crates s (.stateChecked i) (s.enter i .blocked)
  | stateKnown {i request metadata authorizeUrl csrfState nonce pairs code state session}
      (at_ : s.calls i = some (.discovered request metadata authorizeUrl csrfState nonce))
      (parsed : crates.queryPairs request.uri = some pairs)
      (code_pair : queryValue pairs "code" = some code)
      (state_pair : queryValue pairs "state" = some state)
      (known : s.store state = some session) :
      OpenIdStep crates s (.stateChecked i)
        (s.enter i (.exchanging request metadata code state session.nonce))
  | exchanged {i request metadata code state nonce response idToken}
      (at_ : s.calls i = some (.exchanging request metadata code state nonce))
      (token : response.idToken = some idToken)
      (verifies : crates.verifies metadata idToken nonce = true) :
      OpenIdStep crates s (.exchanged i code response)
        (s.enter i (.verified request state response.accessToken))
  | unverified {i request metadata code state nonce response idToken}
      (at_ : s.calls i = some (.exchanging request metadata code state nonce))
      (token : response.idToken = some idToken)
      (fails : crates.verifies metadata idToken nonce = false) :
      OpenIdStep crates s (.exchanged i code response) (s.enter i .refused)
  | refused {i request metadata code state nonce}
      (at_ : s.calls i = some (.exchanging request metadata code state nonce)) :
      OpenIdStep crates s (.refused i code) (s.enter i .refused)
  | tokenStored {i request state accessToken session}
      (at_ : s.calls i = some (.verified request state accessToken))
      (known : s.store state = some session) (free : s.Free) :
      OpenIdStep crates s (.tokenStored i)
        ((s.insert state { session with accessToken := some accessToken }).enter i
          (.authorized request (some state)))
  | innerCalled {i request state} (at_ : s.calls i = some (.authorized request state)) :
      OpenIdStep crates s (.innerCalled i) (s.enter i (.inner state))
  | innerReturned {i result} (at_ : s.calls i = some (.inner none)) :
      OpenIdStep crates s (.innerReturned i result) (s.enter i (.returned result))
  | callbackReturned {i state result} (at_ : s.calls i = some (.inner (some state))) :
      OpenIdStep crates s (.innerReturned i result)
        (s.enter i (.returned (finishCallback state result)))
  | abandoned {i call} (at_ : s.calls i = some call)
      (unfinished : ∀ result, call ≠ .returned result) :
      OpenIdStep crates s (.abandoned i) (s.enter i .abandoned)

/-! What must have happened before a call gets to the inner handler. -/

/-- The request of a call that got in by its cookie: its first session cookie
names a session that held an access token when the call looked. -/
def ByCookie (crates : OpenIdCrates M I) (tr : List (OpenIdEvent M I B E Err)) (i : Nat)
    (request : Request B) : Prop :=
  ∃ session, sessionCookie crates request.headers = some (some session) ∧
    PerformedIn (OpenIdStep crates) .start tr (.authChecked i) fun s =>
      (s.store.token session).isSome

/-- A callback that names an existing session: its query has a code and a state,
and when the call looked there was a session of that name, with this nonce. -/
def CallbackChecked (crates : OpenIdCrates M I) (tr : List (OpenIdEvent M I B E Err)) (i : Nat)
    (request : Request B) (metadata : M) (code state nonce : String) : Prop :=
  ∃ pairs authorizeUrl csrfState fresh, crates.queryPairs request.uri = some pairs ∧
    queryValue pairs "code" = some code ∧ queryValue pairs "state" = some state ∧
    .discovered i metadata authorizeUrl csrfState fresh ∈ tr ∧
    PerformedIn (OpenIdStep crates) .start tr (.stateChecked i) fun s =>
      ∃ session, s.store state = some session ∧ session.nonce = nonce

/-- A callback for `state` that got this access token for its code, with an ID
token that verified against the nonce of the session. -/
def ByCallback (crates : OpenIdCrates M I) (tr : List (OpenIdEvent M I B E Err)) (i : Nat)
    (request : Request B) (state accessToken : String) : Prop :=
  ∃ metadata code nonce response idToken,
    CallbackChecked crates tr i request metadata code state nonce ∧
    .exchanged i code response ∈ tr ∧ response.idToken = some idToken ∧
    crates.verifies metadata idToken nonce = true ∧ response.accessToken = accessToken

end

end Monolake.Http
