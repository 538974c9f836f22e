import Switchboard.Proofs.Board.Dial
import Switchboard.Proofs.Http.Credential
import Switchboard.Proofs.Operation.Refusal

/-!
# Switchboard.Proofs.Dispatch.Credential

Calls to an API whose requests need a credential.  Who is asked for it may answer differently
each time, so a request has the credential of its moment.

* `credentialFor`, `interceptorFor_eq_ok` — where the credential of an API comes from;
* `built`, `outgoing`, `exchange_eq` — a request before and after the steps of its client,
  and all that a network is asked about;
* `exchange_congr` — networks that agree on what is handed over are not told apart;
* `Refusal`, `fails_of_neverToken` — what is told where there is no token, and operations that
  never find one;
* `calls_carry_credential` — every request has the credential in its header, and without one
  nothing is sent.
-/

namespace Switchboard

/-! ## Credentials -/

/-- Whether the requests to an API have a credential. -/
def Authorization.usesCredential : Authorization → Bool
  | .apiKey | .cognitoUserPools | .openIdConnect | .lambda => true
  | .none | .awsIam => false

/-- The header that a credential stands in. -/
def Authorization.credentialHeader : Authorization → String
  | .apiKey => Http.apiKeyHeader
  | _ => Http.authorizationHeader

namespace Providers

/-- Who is asked for the credential of an API.  A provider of keys takes the place of the
configured key. -/
def credentialFor (p : Providers) (api : Api) : Option Http.TokenProvider :=
  match api.authorization with
  | .apiKey => match p.apiKey, api.apiKey with
    | some provider, _ => some provider
    | none, some key => some (.fixed key)
    | none, none => none
  | .cognitoUserPools => p.cognitoUserPools
  | .openIdConnect => p.oidc
  | .lambda => p.lambda
  | .none | .awsIam => none

theorem bearer_eq_ok {api : Api} {w : Wanted} {provider : Option Http.TokenProvider}
    {i : Http.Interceptor} (h : bearer api w provider = .ok i) :
    ∃ p, provider = some p ∧ i = Http.credential Http.authorizationHeader p := by
  cases provider with
  | none => cases h
  | some p => cases h; exact ⟨p, rfl, rfl⟩

/-- The step of an API with a credential asks that one and no other, and puts the answer into the
header of the credential. -/
theorem interceptorFor_eq_ok {p : Providers} {api : Api} {step : Option Http.Interceptor}
    (huses : api.authorization.usesCredential = true) (h : p.interceptorFor api = .ok step) :
    ∃ provider, p.credentialFor api = some provider ∧
      step = some (Http.credential api.authorization.credentialHeader provider) := by
  unfold interceptorFor at h
  unfold credentialFor
  cases ha : api.authorization with
  | none | awsIam => rw [ha] at huses; cases huses
  | apiKey =>
      simp only [ha, keyFor] at h ⊢
      cases hp : p.apiKey with
      | some provider => rw [hp] at h; cases h; exact ⟨provider, rfl, rfl⟩
      | none =>
          cases hk : api.apiKey with
          | none => rw [hp, hk] at h; cases h
          | some key => rw [hp, hk] at h; cases h; exact ⟨.fixed key, rfl, rfl⟩
  | cognitoUserPools | openIdConnect | lambda =>
      simp only [ha] at h ⊢
      obtain ⟨i, hi, rfl⟩ := map_eq_ok.1 h
      obtain ⟨provider, ht, rfl⟩ := bearer_eq_ok hi
      exact ⟨provider, ht, rfl⟩

end Providers

/-! ## Requests -/

namespace CallRequest

/-- The request for an API before the steps of its client. -/
def built (entry : ClientEntry) : CallRequest → Except Http.Error Http.Request
  | graphQL r => entry.client.build "POST" entry.api.endpoint r.document.parts
  | rest r => entry.client.build r.method.name (r.url entry.api.endpoint) r.parts

/-- The request as it is handed over for sending. -/
def outgoing (entry : ClientEntry) (now : Http.Moment) (r : CallRequest) :
    Except Http.Error Http.Request := do
  let built ← r.built entry
  entry.client.intercept now built

/-- What an answer to a request means. -/
def reply (decode : Json.Decoder Json) : CallRequest → Http.Response → Except ApiError Answer
  | graphQL r, answer => (GraphQL.Response.ofHttp decode r.shape answer).map .graphQL
  | rest _, answer => (Rest.Response.ofHttp answer).map .rest

/-- What a network makes of a request that is handed over. -/
def transmit (network : Network) (decode : Json.Decoder Json) (r : CallRequest)
    (sent : Http.Request) : Except ApiError Answer := do
  let answer ← (network sent).mapError fun fault => .ofHttp (.exchange fault)
  r.reply decode answer

variable {entry : ClientEntry} {now : Http.Moment} {r : CallRequest} {sent : Http.Request}

/-- A network is asked about what is handed over, and about nothing else. -/
theorem exchange_eq (network : Network) (now : Http.Moment) (entry : ClientEntry)
    (decode : Json.Decoder Json) (r : CallRequest) :
    r.exchange network now entry.client entry.api.endpoint decode =
      (r.outgoing entry now).mapError .ofHttp >>= r.transmit network decode := by
  cases r with
  | graphQL r =>
      refine congrArg (_ >>= ·) (funext fun sent => congrArg (_ >>= ·) (funext fun answer => ?_))
      simp only [reply]
      cases GraphQL.Response.ofHttp decode r.shape answer <;> rfl
  | rest r =>
      refine congrArg (_ >>= ·) (funext fun sent => congrArg (_ >>= ·) (funext fun answer => ?_))
      simp only [reply]
      cases Rest.Response.ofHttp answer <;> rfl

theorem exchange_of_outgoing (h : r.outgoing entry now = .ok sent) (network : Network)
    (decode : Json.Decoder Json) :
    r.exchange network now entry.client entry.api.endpoint decode =
      r.transmit network decode sent := by
  rw [exchange_eq, h]
  rfl

theorem exchange_of_outgoing_error {e : Http.Error} (h : r.outgoing entry now = .error e)
    (network : Network) (decode : Json.Decoder Json) :
    r.exchange network now entry.client entry.api.endpoint decode = .error (.ofHttp e) := by
  rw [exchange_eq, h]
  rfl

/-- Networks that agree on what is handed over are not told apart. -/
theorem exchange_congr {network network' : Network}
    (h : ∀ sent, r.outgoing entry now = .ok sent → network sent = network' sent)
    (decode : Json.Decoder Json) :
    r.exchange network now entry.client entry.api.endpoint decode =
      r.exchange network' now entry.client entry.api.endpoint decode := by
  cases ho : r.outgoing entry now with
  | error e => rw [exchange_of_outgoing_error ho, exchange_of_outgoing_error ho]
  | ok sent =>
      rw [exchange_of_outgoing ho, exchange_of_outgoing ho, transmit, transmit, h sent ho]

theorem sound_built (h : r.built entry = .ok sent) : sent.headers.Sound := by
  cases r with
  | graphQL r => exact Http.Client.sound_build h
  | rest r => exact Http.Client.sound_build h

end CallRequest

/-! ## Calls -/

theorem Authorization.name?_credentialHeader (a : Authorization) :
    Http.name? a.credentialHeader = some a.credentialHeader := by
  cases a <;> decide +kernel

/-- A client whose one step puts on a credential. -/
structure ClientEntry.HasCredential (entry : ClientEntry) (header : String)
    (provider : Http.TokenProvider) : Prop where
  name : Http.name? header = some header
  step : entry.client.interceptors = [Http.credential header provider]

section Calls

variable {entry : ClientEntry} {header : String} {provider : Http.TokenProvider}
  {now : Http.Moment} {r : CallRequest} {built sent : Http.Request}

namespace CallRequest

theorem outgoing_eq_ok (h : entry.HasCredential header provider) :
    r.outgoing entry now = .ok sent ↔
      ∃ built t, r.built entry = .ok built ∧ Http.Fits (provider now) t ∧
        sent = { built with headers := built.headers.insert header t } := by
  obtain ⟨api, settings, steps⟩ := entry
  obtain ⟨-, rfl⟩ := h
  simp only [outgoing, bind_eq_ok, Http.Client.intercept_one, Http.credential_eq_ok]
  constructor
  · rintro ⟨built, hb, t, ht, hs⟩; exact ⟨built, t, hb, ht, hs⟩
  · rintro ⟨built, t, hb, ht, hs⟩; exact ⟨built, hb, t, ht, hs⟩

/-- Every request that is built goes out with the credential of the moment on it. -/
theorem exists_outgoing (h : entry.HasCredential header provider) (hb : r.built entry = .ok built)
    {t : String} (ht : Http.Fits (provider now) t) :
    ∃ sent, r.outgoing entry now = .ok sent ∧ Http.Carries header t built sent :=
  ⟨_, (outgoing_eq_ok h).2 ⟨built, t, hb, ht, rfl⟩,
    Http.carries_insert (sound_built hb) h.name t⟩

/-- No request goes out without it. -/
theorem carries_of_outgoing (h : entry.HasCredential header provider)
    (ho : r.outgoing entry now = .ok sent) :
    ∃ built t, r.built entry = .ok built ∧ Http.Fits (provider now) t ∧
      Http.Carries header t built sent := by
  obtain ⟨built, t, hb, ht, rfl⟩ := (outgoing_eq_ok h).1 ho
  exact ⟨built, t, hb, ht, Http.carries_insert (sound_built hb) h.name t⟩

/-- At a moment without a token, whatever a network would say, the answer is that there is
none. -/
theorem exchange_of_noToken (h : entry.HasCredential header provider)
    (hnone : Http.NoToken provider now) (r : CallRequest) :
    ∃ refusal, ∀ network decode,
      r.exchange network now entry.client entry.api.endpoint decode = .error refusal := by
  cases ho : r.outgoing entry now with
  | error e => exact ⟨.ofHttp e, exchange_of_outgoing_error ho⟩
  | ok sent =>
      obtain ⟨-, t, -, ht, -⟩ := carries_of_outgoing h ho
      exact absurd ht (hnone t)

end CallRequest

namespace ClientEntry

/-- At a moment without a token there is nothing to open a connection with. -/
theorem credentials_of_noToken (h : entry.HasCredential header provider)
    (hnone : Http.NoToken provider now) (endpoint : String) :
    ∃ e, entry.client.credentials now endpoint = .error e := by
  obtain ⟨api, settings, steps⟩ := entry
  obtain ⟨-, rfl⟩ := h
  obtain ⟨refusal, hrefuse⟩ : ∃ e, ∀ r, Http.credential header provider now r = .error e :=
    Http.credential_of_noToken hnone
  cases hb : Http.Client.build ⟨settings, [Http.credential header provider]⟩ "POST" endpoint [] with
  | error e => exact ⟨e, by simp [Http.Client.credentials, hb, bind, Except.bind]⟩
  | ok built =>
      refine ⟨refusal, ?_⟩
      simp [Http.Client.credentials, hb, Http.Client.intercept_one, hrefuse, bind, Except.bind]

/-- What a call is told, in place of an answer or of a registration, at a moment without a
token. -/
inductive Refusal (entry : ClientEntry) (provider : Http.TokenProvider) (r : CallRequest) :
    ApiError → Prop where
  | answer {now : Http.Moment} {e : ApiError} (noToken : Http.NoToken provider now)
      (single : r.kind = .single)
      (refused : ∀ network decode,
        r.exchange network now entry.client entry.api.endpoint decode = .error e) :
      Refusal entry provider r e
  | registration {now : Http.Moment} {e : Http.Error} (noToken : Http.NoToken provider now)
      (stream : r.kind = .stream)
      (refused : entry.client.credentials now entry.api.endpoint = .error e) :
      Refusal entry provider r (.ofHttp e)

/-- Whatever an operation is told, it is told at moments without a token. -/
structure NeverToken (entry : ClientEntry) (provider : Http.TokenProvider) (r : CallRequest)
    (decode : Json.Decoder Json) (moves : List (Operation.Move Answer)) : Prop where
  answers : ∀ a, .answer a ∈ moves → ∃ network now, Http.NoToken provider now ∧
    a = r.exchange network now entry.client entry.api.endpoint decode
  registrations : ∀ a, .registered a ∈ moves → ∃ now e, Http.NoToken provider now ∧
    entry.client.credentials now entry.api.endpoint = .error e ∧ a = .error (.ofHttp e)

/-- Operations that never find a token fail. -/
theorem fails_of_neverToken (h : entry.HasCredential header provider) (listener : Listener)
    {moves : List (Operation.Move Answer)}
    (hnever : entry.NeverToken provider r listener.decode moves) :
    Operation.Fails (r.plan listener) (entry.Refusal provider r)
      (Operation.run (r.plan listener) moves (Operation.create (r.plan listener))).1 := by
  cases hk : r.kind with
  | single =>
      refine Operation.fails_of_answers hk fun a ha => ?_
      obtain ⟨network, now, hnone, rfl⟩ := hnever.answers a ha
      obtain ⟨refusal, hrefuse⟩ := CallRequest.exchange_of_noToken h hnone r
      exact ⟨refusal, .answer hnone hk hrefuse, hrefuse network listener.decode⟩
  | stream =>
      refine Operation.fails_of_registrations hk fun a ha => ?_
      obtain ⟨now, e, hnone, he, rfl⟩ := hnever.registrations a ha
      exact ⟨.ofHttp e, .registration hnone hk he, rfl⟩

end ClientEntry

end Calls

namespace Clients

variable {hasWorkers : Bool} {providers : Providers} {settings : Http.Settings} {apis : Apis}
  {clients : Clients} {name : String} {entry : ClientEntry}

theorem hasCredential_of_resolve
    (hbuilt : ofApis hasWorkers providers settings apis = .ok clients)
    (hname : clients.resolve name = .ok entry)
    (huses : entry.api.authorization.usesCredential = true) :
    ∃ provider, providers.credentialFor entry.api = some provider ∧
      entry.HasCredential entry.api.authorization.credentialHeader provider := by
  obtain ⟨-, step, hstep, hclient⟩ := (sound_ofApis hbuilt).resolve hname
  obtain ⟨provider, hprovider, rfl⟩ := Providers.interceptorFor_eq_ok huses hstep
  exact ⟨provider, hprovider, Authorization.name?_credentialHeader _, by rw [hclient]; rfl⟩

/-- An API with a credential has someone to ask for it, who is asked anew for every request.
Every request to the API that goes out has the answer of the moment in its header, once, and is
otherwise as it was built: networks that agree on such requests are not told apart, and every
request that can be built goes out.

At a moment without a token that can be sent nothing goes out.  No network is asked, and no
connection is opened: there are no credentials to open one with, so that no server hears of a
registration that needs one, and the call that asks for it is told why.  And an operation that
finds no token whenever it needs one fails, whether it is for one response or a stream. -/
theorem calls_carry_credential
    (hbuilt : ofApis hasWorkers providers settings apis = .ok clients)
    (hname : clients.resolve name = .ok entry)
    (huses : entry.api.authorization.usesCredential = true) :
    ∃ provider, providers.credentialFor entry.api = some provider ∧
      (∀ (r : CallRequest) now (network network' : Network) decode,
        (∀ built t sent, r.built entry = .ok built → Http.Fits (provider now) t →
          Http.Carries entry.api.authorization.credentialHeader t built sent →
          network sent = network' sent) →
        r.exchange network now entry.client entry.api.endpoint decode =
          r.exchange network' now entry.client entry.api.endpoint decode) ∧
      (∀ (r : CallRequest) now built t, r.built entry = .ok built → Http.Fits (provider now) t →
        ∃ sent, Http.Carries entry.api.authorization.credentialHeader t built sent ∧
          ∀ network decode, r.exchange network now entry.client entry.api.endpoint decode =
            r.transmit network decode sent) ∧
      (∀ now, Http.NoToken provider now →
        (∀ r : CallRequest, ∃ refusal, ∀ network decode,
          r.exchange network now entry.client entry.api.endpoint decode = .error refusal) ∧
        ∃ e, entry.client.credentials now entry.api.endpoint = .error e ∧
          ∀ (b : Board) (t : Task) (d : Desk) (q : Registration Sink), b.now = now →
            d.entry = entry → d.endpoint.opening = some q →
            b.Declined q.sink (.ofHttp e) (b.dial t name d).1 ∧ (b.dial t name d).2 = true) ∧
      ∀ (r : CallRequest) (listener : Listener) moves,
        entry.NeverToken provider r listener.decode moves →
        Operation.Fails (r.plan listener) (entry.Refusal provider r)
          (Operation.run (r.plan listener) moves (Operation.create (r.plan listener))).1 := by
  obtain ⟨provider, hprovider, h⟩ := hasCredential_of_resolve hbuilt hname huses
  refine ⟨provider, hprovider, fun r now network network' decode hagree => ?_,
    fun r now built t hb ht => ?_, fun now hnone => ⟨CallRequest.exchange_of_noToken h hnone, ?_⟩,
    fun r listener moves => ClientEntry.fails_of_neverToken h listener⟩
  · refine CallRequest.exchange_congr (fun sent ho => ?_) decode
    obtain ⟨built, t, hb, ht, hsent⟩ := CallRequest.carries_of_outgoing h ho
    exact hagree built t sent hb ht hsent
  · obtain ⟨sent, ho, hsent⟩ := CallRequest.exists_outgoing h hb ht
    exact ⟨sent, hsent, CallRequest.exchange_of_outgoing ho⟩
  · obtain ⟨e, he⟩ := entry.credentials_of_noToken h hnone entry.api.endpoint
    refine ⟨e, he, fun b t d q hnow hentry hopening => ?_⟩
    subst hnow hentry
    exact Board.declined_dial hopening he t name

/-- A key from a provider takes the place of the configured one, of one among the default
headers and of one of the caller, and another key takes its place with the next request.  With
no key left neither a request nor a stream gets through. -/
theorem calls_carry_credential_fresh :
    let blog : Api := (Api.create "blog" "http://localhost:4000/graphql").withApiKey "da2-blog"
    let settings : Http.Settings := { defaultHeaders := [("X-API-KEY", "stale")] }
    let keys : Http.TokenProvider := fun now => match now with
      | 0 => .ok "fresh"
      | 1 => .ok "fresher"
      | _ => .error (.interceptor "expired")
    let r : CallRequest :=
      .rest ⟨.get, { path := "/posts", headers := [("X-Api-Key", "mine"), ("x-trace", "1")] }⟩
    let feed : CallRequest := .graphQL (.ofQuery .stream "subscription \x7b posts \x7d")
    ∃ clients entry first second e,
      ofApis true { apiKey := some keys } settings ⟨[("blog", blog)]⟩ = .ok clients ∧
      clients.resolve "blog" = .ok entry ∧
      entry.api.authorization.usesCredential = true ∧
      (∀ network decode, r.exchange network 0 entry.client entry.api.endpoint decode =
        r.transmit network decode first) ∧
      first.headers.toPairs.filter (fun p => Http.name? p.1 = some "x-api-key") =
        [("x-api-key", "fresh")] ∧
      (∀ network decode, r.exchange network 1 entry.client entry.api.endpoint decode =
        r.transmit network decode second) ∧
      second.headers.toPairs.filter (fun p => Http.name? p.1 = some "x-api-key") =
        [("x-api-key", "fresher")] ∧
      (∃ refusal, ∀ network decode,
        r.exchange network 2 entry.client entry.api.endpoint decode = .error refusal) ∧
      entry.client.credentials 2 entry.api.endpoint = .error e ∧
      ∀ listener : Listener,
        let plan := feed.plan listener
        let moves : List (Operation.Move Answer) :=
          [.control .start, .pursue 0, .work false, .work false, .work false,
            .registered (.error (.ofHttp e)), .work false, .work false]
        Operation.Fails plan (entry.Refusal keys feed)
          (Operation.run plan moves (Operation.create plan)).1 ∧
        (Operation.run plan moves (Operation.create plan)).1.phase = .failed := by
  have hmade (keys : Http.TokenProvider) : ofApis true { apiKey := some keys }
      { defaultHeaders := [("X-API-KEY", "stale")] }
      ⟨[("blog", (Api.create "blog" "http://localhost:4000/graphql").withApiKey "da2-blog")]⟩ =
        .ok ⟨[("blog", ⟨_, ⟨_, [Http.credential Http.apiKeyHeader keys]⟩⟩)]⟩ := rfl
  intro blog settings keys r feed
  let entry : ClientEntry := ⟨blog, ⟨settings, [Http.credential Http.apiKeyHeader keys]⟩⟩
  let clients : Clients := ⟨[("blog", entry)]⟩
  have hbuilt : ofApis true { apiKey := some keys } settings ⟨[("blog", blog)]⟩ = .ok clients :=
    hmade keys
  have hname : clients.resolve "blog" = .ok entry := rfl
  let built : Http.Request := {
    method := "GET"
    url := {
      scheme := "http", host := some "localhost", port := some 4000
      path := .segments ["graphql", "posts"], query := none, fragment := none }
    headers := [("x-api-key", ["stale", "mine"]), ("x-trace", ["1"])]
    body := none, timeout := none }
  have hb : r.built entry = .ok built := eq_ok_of_toOption (by decide +kernel)
  obtain ⟨provider, hprovider, -, hsends, hsilent, hfails⟩ :=
    calls_carry_credential hbuilt hname rfl
  cases hprovider
  have hnone : Http.NoToken keys 2 := fun t ht => by cases ht.1
  obtain ⟨first, hfirst, hsentFirst⟩ := hsends r 0 built "fresh" hb ⟨rfl, by decide +kernel⟩
  obtain ⟨second, hsecond, hsentSecond⟩ := hsends r 1 built "fresher" hb ⟨rfl, by decide +kernel⟩
  obtain ⟨hrefused, e, he, -⟩ := hsilent 2 hnone
  refine ⟨clients, entry, first, second, e, hbuilt, hname, rfl, hsentFirst, hfirst.alone,
    hsentSecond, hsecond.alone, hrefused r, he, fun listener => ⟨?_, rfl⟩⟩
  refine hfails feed listener _ ⟨fun a ha => by simp at ha, fun a ha => ?_⟩
  have htold : a = .error (.ofHttp e) := by simpa using ha
  exact ⟨2, e, hnone, he, htold⟩

end Clients
end Switchboard
