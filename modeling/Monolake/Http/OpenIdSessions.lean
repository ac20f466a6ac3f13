import Monolake.Foundation.Interleave
import Monolake.Http.OpenId

/-!
Nobody gets past the OpenID gate, and no session gets an access token, but
through a verified callback: what a call has behind it at each of its points,
and what a token in the store has behind it, over every interleaving.
-/
namespace Monolake.Http

universe u
open Foundation

variable {M I B E Err : Type u} {crates : OpenIdCrates M I}

/-- What a call has behind it when it is at this point. -/
def Traced (crates : OpenIdCrates M I) (tr : List (OpenIdEvent M I B E Err)) (i : Nat) :
    OpenIdCall M B E Err → Prop
  | .called request | .discovering request => .called i request ∈ tr
  | .cookieChecked request authCookie => .called i request ∈ tr ∧
      ∀ value, authCookie = some value →
        sessionCookie crates request.headers = some (some value)
  | .discovered request metadata authorizeUrl csrfState nonce => .called i request ∈ tr ∧
      .discovered i metadata authorizeUrl csrfState nonce ∈ tr
  | .exchanging request metadata code state nonce => .called i request ∈ tr ∧
      CallbackChecked crates tr i request metadata code state nonce
  | .verified request state accessToken => .called i request ∈ tr ∧
      ByCallback crates tr i request state accessToken
  | .authorized request none => .called i request ∈ tr ∧ ByCookie crates tr i request
  | .authorized request (some state) => .called i request ∈ tr ∧
      ∃ accessToken, ByCallback crates tr i request state accessToken
  | .blocked | .refused | .inner _ | .returned _ | .abandoned => True

section
variable {tr : List (OpenIdEvent M I B E Err)} {i : Nat} {request : Request B}

theorem ByCookie.later (h : ByCookie crates tr i request) (e : OpenIdEvent M I B E Err) :
    ByCookie crates (tr ++ [e]) i request := by
  obtain ⟨session, hcookie, looked⟩ := h
  exact ⟨session, hcookie, looked.later e⟩

theorem CallbackChecked.later {metadata : M} {code state nonce : String}
    (h : CallbackChecked crates tr i request metadata code state nonce)
    (e : OpenIdEvent M I B E Err) :
    CallbackChecked crates (tr ++ [e]) i request metadata code state nonce := by
  obtain ⟨pairs, url, csrf, fresh, hpairs, hcode, hstate, hdiscovered, looked⟩ := h
  exact ⟨pairs, url, csrf, fresh, hpairs, hcode, hstate, List.mem_append_left _ hdiscovered,
    looked.later e⟩

theorem ByCallback.later {state accessToken : String}
    (h : ByCallback crates tr i request state accessToken) (e : OpenIdEvent M I B E Err) :
    ByCallback crates (tr ++ [e]) i request state accessToken := by
  obtain ⟨metadata, code, nonce, response, idToken, checked, hexchanged, rest⟩ := h
  exact ⟨metadata, code, nonce, response, idToken, checked.later e,
    List.mem_append_left _ hexchanged, rest⟩

theorem Traced.later {call : OpenIdCall M B E Err} (h : Traced crates tr i call)
    (e : OpenIdEvent M I B E Err) : Traced crates (tr ++ [e]) i call := by
  cases call with
  | called | discovering => exact List.mem_append_left _ h
  | cookieChecked => exact ⟨List.mem_append_left _ h.1, h.2⟩
  | discovered => exact ⟨List.mem_append_left _ h.1, List.mem_append_left _ h.2⟩
  | exchanging | verified => exact ⟨List.mem_append_left _ h.1, h.2.later e⟩
  | authorized request state =>
      cases state with
      | none => exact ⟨List.mem_append_left _ h.1, h.2.later e⟩
      | some state =>
          obtain ⟨called, accessToken, callback⟩ := h
          exact ⟨List.mem_append_left _ called, accessToken, callback.later e⟩
  | blocked | refused | inner | returned | abandoned => trivial

end

/-- Every call is where its history brought it, and every access token in the
store comes from a callback for its session. -/
structure Gated (crates : OpenIdCrates M I) (tr : List (OpenIdEvent M I B E Err))
    (s : OpenIdGate M B E Err) : Prop where
  calls : ∀ i call, s.calls i = some call → Traced crates tr i call
  tokens : ∀ session accessToken, s.store.token session = some accessToken →
    ∃ i request, .called i request ∈ tr ∧ ByCallback crates tr i request session accessToken ∧
      .tokenStored i ∈ tr

namespace Gated
variable {tr : List (OpenIdEvent M I B E Err)} {s : OpenIdGate M B E Err}
  {e : OpenIdEvent M I B E Err} {i : Nat} {call : OpenIdCall M B E Err}

theorem start : Gated crates ([] : List (OpenIdEvent M I B E Err)) .start := by
  refine ⟨fun i call hcall => ?_, fun session accessToken ht => ?_⟩
  · cases hcall
  · cases ht

theorem later (h : Gated crates tr s) (e : OpenIdEvent M I B E Err) :
    Gated crates (tr ++ [e]) s := by
  refine ⟨fun i call hcall => (h.calls i call hcall).later e, fun session accessToken ht => ?_⟩
  obtain ⟨i, request, hcalled, callback, stored⟩ := h.tokens session accessToken ht
  exact ⟨i, request, List.mem_append_left _ hcalled, callback.later e,
    List.mem_append_left _ stored⟩

theorem enter (h : Gated crates tr s) (traced : Traced crates tr i call) :
    Gated crates tr (s.enter i call) :=
  ⟨every_update h.calls traced, h.tokens⟩

theorem insert (h : Gated crates tr s) {session : String} {state : SessionState}
    (backed : ∀ accessToken, state.accessToken = some accessToken →
      ∃ i request, .called i request ∈ tr ∧
        ByCallback crates tr i request session accessToken ∧ .tokenStored i ∈ tr) :
    Gated crates tr (s.insert session state) := by
  refine ⟨h.calls, fun other accessToken ht => ?_⟩
  by_cases hother : other = session
  · subst hother
    simp only [SessionStore.token, OpenIdGate.insert, Function.update_self, Option.bind_some] at ht
    exact backed accessToken ht
  · simp only [SessionStore.token, OpenIdGate.insert, Function.update_of_ne hother] at ht
    exact h.tokens other accessToken ht

theorem step {s' : OpenIdGate M B E Err} (run : Run (OpenIdStep crates) .start tr s)
    (h : Gated crates tr s) (step : OpenIdStep crates s e s') : Gated crates (tr ++ [e]) s' := by
  have next := h.later e
  cases step with
  | called => exact next.enter List.mem_concat_self
  | @cookieChecked i request cookie at_ parsed =>
      have called : Traced crates (tr ++ [_]) i (.called request) := next.calls i _ at_
      refine next.enter ⟨called, fun value hvalue => ?_⟩
      rw [parsed, (Option.filter_eq_some_iff.mp hvalue).1]
  | authed at_ held =>
      have traced := next.calls _ _ at_
      exact next.enter ⟨traced.1, _, traced.2 _ rfl, performedIn_last run held⟩
  | notAuthed at_ =>
      have traced := next.calls _ _ at_
      exact next.enter traced.1
  | discovered at_ =>
      have traced := next.calls _ _ at_
      exact next.enter ⟨traced, List.mem_concat_self⟩
  | redirected =>
      refine (next.insert fun token htoken => ?_).enter trivial
      cases htoken
  | stateUnknown | unverified | refused => exact next.enter trivial
  | stateKnown at_ parsed code_pair state_pair known =>
      have traced := next.calls _ _ at_
      exact next.enter ⟨traced.1, _, _, _, _, parsed, code_pair, state_pair, traced.2,
        performedIn_last run ⟨_, known, rfl⟩⟩
  | exchanged at_ token verifies =>
      have traced := next.calls _ _ at_
      exact next.enter ⟨traced.1, _, _, _, _, _, traced.2,
        List.mem_concat_self, token, verifies, rfl⟩
  | @tokenStored i request state accessToken session at_ known =>
      have traced := next.calls _ _ at_
      have stored : Gated crates (tr ++ [.tokenStored i])
          (s.insert state { session with accessToken := some accessToken }) := by
        refine next.insert fun token htoken => ?_
        obtain rfl := Option.some.inj htoken
        exact ⟨i, request, traced.1, traced.2,
          List.mem_concat_self⟩
      exact stored.enter ⟨traced.1, accessToken, traced.2⟩
  | innerCalled | innerReturned | callbackReturned | abandoned => exact next.enter trivial

end Gated

/-- In every run of any number of calls from an empty store: the inner handler
was called only for requests that got in by their cookie or by a callback, and
every access token in the store was set by a callback for that session. -/
theorem openId_gate {tr : List (OpenIdEvent M I B E Err)} {s : OpenIdGate M B E Err}
    (h : Run (OpenIdStep crates) .start tr s) :
    (∀ past i rest, tr = past ++ .innerCalled i :: rest →
      ∃ request, .called i request ∈ past ∧ (ByCookie crates past i request ∨
        ∃ state accessToken, ByCallback crates past i request state accessToken)) ∧
    ∀ session accessToken, s.store.token session = some accessToken →
      ∃ i request, .called i request ∈ tr ∧
        ByCallback crates tr i request session accessToken ∧ .tokenStored i ∈ tr := by
  have gated : ∀ {tr s}, Run (OpenIdStep crates) (.start : OpenIdGate M B E Err) tr s →
      Gated crates tr s := fun run =>
    run.history .start fun _ _ _ _ before ih step => ih.step before step
  refine ⟨?_, (gated h).tokens⟩
  rintro past i rest rfl
  obtain ⟨b, b', before, step, -⟩ := h.split
  cases step with
  | @innerCalled i request state at_ =>
      have traced := (gated before).calls i _ at_
      cases state with
      | none => exact ⟨request, traced.1, .inl traced.2⟩
      | some state =>
          obtain ⟨called, accessToken, callback⟩ := traced
          exact ⟨request, called, .inr ⟨state, accessToken, callback⟩⟩

/-- The crates on one cookie and one query; an ID token carries its nonce. -/
def plainCrates : OpenIdCrates String String where
  toStr := some
  splitParse text := if text = "session-id=s" then [some ("session-id", "s")] else []
  queryPairs uri := some <|
    if uri.pathAndQuery = some ⟨"/", some "code=c&state=s"⟩ then [("code", "c"), ("state", "s")]
    else []
  verifies _ idToken nonce := idToken == nonce

def plainRequest (query : Option String) (headers : HeaderMap) : Request Unit :=
  ⟨"GET", ⟨none, none, some ⟨"/", query⟩⟩, .http11, headers, ()⟩

/-- Call 0 is redirected, call 1 comes back with its state, and call 2 has the
cookie. -/
theorem login_then_cookie :
    ∃ (tr : List (OpenIdEvent String String Unit String String))
      (s : OpenIdGate String Unit String String),
      Run (OpenIdStep plainCrates) .start tr s ∧ .innerCalled 1 ∈ tr ∧ .innerCalled 2 ∈ tr ∧
      ∃ i request, .called i request ∈ tr ∧
        ByCallback plainCrates tr i request "s" "t" ∧ .tokenStored i ∈ tr := by
  have run : Run (OpenIdStep plainCrates) (.start : OpenIdGate String Unit String String)
      ([.called 0 (plainRequest none []), .cookieChecked 0, .authChecked 0,
        .discovered 0 "provider" "https://provider/auth" "s" "n", .redirected 0,
        .called 1 (plainRequest (some "code=c&state=s") []), .cookieChecked 1, .authChecked 1,
        .discovered 1 "provider" "https://provider/auth" "s1" "n1", .stateChecked 1,
        .exchanged 1 "c" ⟨"t", some "n"⟩, .tokenStored 1, .innerCalled 1,
        .called 2 (plainRequest none [("cookie", "session-id=s")]), .cookieChecked 2,
        .authChecked 2, .innerCalled 2] :
          List (OpenIdEvent String String Unit String String)) _ :=
    .cons (.called rfl) <| .cons (.cookieChecked rfl rfl) <| .cons (.notAuthed rfl nofun) <|
    .cons (.discovered rfl) <|
    .cons (.redirected rfl rfl (.inl rfl) fun i => by
      by_cases h : i = 0 <;> simp [h, OpenIdGate.enter, OpenIdGate.start, Function.update]) <|
    .cons (.called rfl) <| .cons (.cookieChecked rfl rfl) <| .cons (.notAuthed rfl nofun) <|
    .cons (.discovered rfl) <| .cons (.stateKnown rfl rfl rfl rfl rfl) <|
    .cons (.exchanged rfl rfl rfl) <|
    .cons (.tokenStored rfl rfl fun i => by
      by_cases h : i = 1 <;> by_cases h' : i = 0 <;>
        simp [h, h', OpenIdGate.enter, OpenIdGate.insert, OpenIdGate.start, Function.update]) <|
    .cons (.innerCalled rfl) <| .cons (.called rfl) <|
    .cons (.cookieChecked rfl rfl) <| .cons (.authed rfl rfl) <| .cons (.innerCalled rfl) .nil
  exact ⟨_, _, run, by simp, by simp, (openId_gate run).2 "s" "t" rfl⟩

end Monolake.Http
