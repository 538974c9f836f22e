import Switchboard.Proofs.Config.Apis
import Switchboard.Proofs.Dispatch.Clients

/-!
# Switchboard.Proofs.Dispatch.Setup

Clients for a configuration.  A configuration has no name twice, and each of its entries has
what its authorization asks of it, so that there is one thing only that an application can
leave out: a provider.

* `Lacks` — an authorization without the provider that it needs;
* `interceptorFor_cases` — a valid entry has its step, unless its provider is missing;
* `registerAll_eq_ok`, `registerAll_eq_error` — clients that are made in turn;
* `clients_for_configuration` — a dispatcher has a client for each entry, or reports the first
  provider that is missing.
-/

namespace Switchboard

variable {providers : Providers} {settings : Http.Settings} {api : Api}

/-! ## What an application has to supply -/

namespace Providers

/-- The authorization of an API needs a provider, and there is none. -/
inductive Lacks (p : Providers) (api : Api) : Wanted → Prop where
  | cognitoUserPools (uses : api.authorization = .cognitoUserPools)
      (absent : p.cognitoUserPools = none) :
      Lacks p api ⟨"a", "Cognito User Pools token provider"⟩
  | openIdConnect (uses : api.authorization = .openIdConnect) (absent : p.oidc = none) :
      Lacks p api ⟨"an", "OIDC token provider"⟩
  | lambda (uses : api.authorization = .lambda) (absent : p.lambda = none) :
      Lacks p api ⟨"a", "Lambda token provider"⟩
  | awsIam (uses : api.authorization = .awsIam) (absent : p.iamSigner = none) :
      Lacks p api ⟨"an", "IAM request signer"⟩

theorem Lacks.interceptorFor {w : Wanted} (h : providers.Lacks api w) :
    providers.interceptorFor api = .error (missing api w) := by
  unfold Providers.interceptorFor
  cases h with
  | cognitoUserPools uses absent | openIdConnect uses absent | lambda uses absent =>
      rw [uses]
      dsimp only
      rw [absent]
      rfl
  | awsIam uses absent =>
      rw [uses]
      dsimp only
      rw [absent]

/-- A key is no provider's to give. -/
theorem Lacks.ne_apiKey {w : Wanted} (h : providers.Lacks api w) :
    api.authorization ≠ .apiKey := by
  cases h with
  | _ uses => rw [uses]; decide

/-- A valid entry has its step, and none only if it has no authorization, unless the provider
that it needs is missing. -/
theorem interceptorFor_cases (providers : Providers) (h : api.Valid) :
    (∃ step, providers.interceptorFor api = .ok step ∧
      (step = none ↔ api.authorization = .none)) ∨ ∃ w, providers.Lacks api w := by
  unfold Providers.interceptorFor
  cases ha : api.authorization with
  | none => exact .inl ⟨none, rfl, by simp⟩
  | apiKey =>
      obtain ⟨key, hkey, -⟩ := h.apiKey ha
      obtain ⟨token, htoken⟩ : ∃ token, providers.keyFor api = some token := by
        unfold keyFor
        cases providers.apiKey with
        | some token => exact ⟨token, rfl⟩
        | none => exact ⟨.fixed key, by rw [hkey]; rfl⟩
      exact .inl ⟨_, by dsimp only; rw [htoken], by simp⟩
  | cognitoUserPools =>
      cases hp : providers.cognitoUserPools with
      | some token => exact .inl ⟨_, rfl, by simp⟩
      | none => exact .inr ⟨_, .cognitoUserPools ha hp⟩
  | openIdConnect =>
      cases hp : providers.oidc with
      | some token => exact .inl ⟨_, rfl, by simp⟩
      | none => exact .inr ⟨_, .openIdConnect ha hp⟩
  | lambda =>
      cases hp : providers.lambda with
      | some token => exact .inl ⟨_, rfl, by simp⟩
      | none => exact .inr ⟨_, .lambda ha hp⟩
  | awsIam =>
      cases hp : providers.iamSigner with
      | some signer => exact .inl ⟨_, rfl, by simp⟩
      | none => exact .inr ⟨_, .awsIam ha hp⟩

end Providers

/-! ## Clients in turn -/

namespace Clients

variable {client : Http.Client} {clients clients' : Clients} {entry : ClientEntry}
  {configured : List Api}

/-- Where clients can be made at all, the client for an API has its step, if there is one. -/
theorem entryFor_eq (hc : Http.Client.create settings = .ok client) (api : Api) :
    entryFor providers settings api = (providers.interceptorFor api).map fun step =>
      ⟨api, { settings, interceptors := step.toList }⟩ := by
  cases create_eq_ok hc
  unfold entryFor
  rw [hc]
  show (providers.interceptorFor api >>= _) = _
  cases providers.interceptorFor api with
  | error e => rfl
  | ok step => cases step <;> rfl

theorem register_eq_ok :
    clients.register entry = .ok clients' ↔ entry.api.name ∉ clients.entries.keys ∧
      clients' = ⟨Keyed.set entry.api.name entry clients.entries⟩ := by
  rw [register, ← Keyed.has_iff_mem_keys]
  cases Keyed.has entry.api.name clients.entries <;> simp [eq_comm]

theorem registerAll_append (clients : Clients) (xs ys : List Api) :
    registerAll providers settings clients (xs ++ ys) =
      registerAll providers settings clients xs >>= fun clients =>
        registerAll providers settings clients ys := by
  induction xs generalizing clients with
  | nil => rfl
  | cons api rest ih => simp only [List.cons_append, registerAll, ih, bind_assoc]

/-- The APIs that have clients, by their names. -/
def apis (clients : Clients) : Keyed Api := clients.entries.map fun p => (p.1, p.2.api)

theorem keys_apis (clients : Clients) : clients.apis.keys = clients.entries.keys := by
  simp [apis, Keyed.keys]

/-- There are clients for the APIs for which they were made. -/
theorem apis_of_registerAll
    (h : registerAll providers settings clients configured = .ok clients') :
    clients'.apis = (configured.map fun api => (api.name, api)).foldl
      (fun acc p => Keyed.set p.1 p.2 acc) clients.apis := by
  induction configured generalizing clients with
  | nil => cases h; rfl
  | cons api rest ih =>
      obtain ⟨entry, he, h⟩ := bind_eq_ok.1 h
      obtain ⟨next, hr, h⟩ := bind_eq_ok.1 h
      obtain ⟨-, rfl⟩ := register_eq_ok.1 hr
      rw [ih h, List.map_cons, List.foldl_cons]
      dsimp only [apis]
      rw [Keyed.map_set, (entryFor_eq_ok he).1]

/-- No name is taken of APIs of different names. -/
theorem exists_register {before after : List Api}
    (hnames : ((before ++ api :: after).map (·.name)).Nodup)
    (hb : registerAll providers settings {} before = .ok clients)
    (he : entryFor providers settings api = .ok entry) :
    ∃ more, clients.register entry = .ok more := by
  refine ⟨_, register_eq_ok.2 ⟨fun hmem => ?_, rfl⟩⟩
  rw [← keys_apis, apis_of_registerAll hb, (entryFor_eq_ok he).1] at hmem
  obtain ⟨p, hp, hname⟩ := List.mem_map.1 hmem
  have hmade := (Keyed.mem_of_mem_foldl_set hp).resolve_left List.not_mem_nil
  obtain ⟨other, hother, rfl⟩ := List.mem_map.1 hmade
  rw [List.map_append, List.map_cons] at hnames
  exact (List.nodup_append.1 hnames).2.2 other.name (List.mem_map_of_mem hother) api.name
    List.mem_cons_self hname

/-- Where every API has its step, the clients that are there can be joined by those for the
rest. -/
theorem exists_registerAll (hc : Http.Client.create settings = .ok client)
    {before rest : List Api} (hnames : ((before ++ rest).map (·.name)).Nodup)
    (hb : registerAll providers settings {} before = .ok clients)
    (hsteps : ∀ api ∈ rest, ∃ step, providers.interceptorFor api = .ok step) :
    ∃ more, registerAll providers settings {} (before ++ rest) = .ok more := by
  induction rest generalizing before clients with
  | nil => exact ⟨clients, by rwa [List.append_nil]⟩
  | cons api rest ih =>
      obtain ⟨⟨step, hstep⟩, hrest⟩ := List.forall_mem_cons.1 hsteps
      have he : entryFor providers settings api = _ := entryFor_eq hc api
      rw [hstep] at he
      obtain ⟨more, hmore⟩ := exists_register hnames hb he
      have hnext : registerAll providers settings {} (before ++ [api]) = .ok more := by
        rw [registerAll_append, hb]
        show registerAll providers settings clients [api] = _
        rw [registerAll, he]
        show (clients.register _ >>= _) = _
        rw [hmore]
        rfl
      rw [List.append_cons] at hnames ⊢
      exact ih hnames hnext hrest

theorem registerAll_eq_ok (hc : Http.Client.create settings = .ok client)
    (hnames : (configured.map (·.name)).Nodup)
    (hsteps : ∀ api ∈ configured, ∃ step, providers.interceptorFor api = .ok step) :
    ∃ clients, registerAll providers settings {} configured = .ok clients := by
  have hall : ∃ clients, registerAll providers settings {} ([] ++ configured) = .ok clients :=
    exists_registerAll hc hnames rfl hsteps
  exact hall

/-- Otherwise the first provider that is missing is reported. -/
theorem registerAll_eq_error (hc : Http.Client.create settings = .ok client)
    {before after : List Api} (hnames : ((before ++ api :: after).map (·.name)).Nodup)
    (hsteps : ∀ api ∈ before, ∃ step, providers.interceptorFor api = .ok step)
    {w : Providers.Wanted} (hlacks : providers.Lacks api w) :
    registerAll providers settings {} (before ++ api :: after) =
      .error (Providers.missing api w) := by
  have hbefore : (before.map (·.name)).Nodup := by
    rw [List.map_append] at hnames
    exact (List.nodup_append.1 hnames).1
  obtain ⟨clients, hb⟩ := registerAll_eq_ok hc hbefore hsteps
  rw [registerAll_append, hb]
  show registerAll providers settings clients (api :: after) = _
  rw [registerAll, entryFor_eq hc, hlacks.interceptorFor]
  rfl

/-! ## Clients for a configuration -/

variable {apis : Apis}

/-- With all providers that are needed, there is a client for each entry; otherwise the first
that is missing is reported. -/
theorem ofApis_cases (providers : Providers) (h : apis.Sound)
    (hc : Http.Client.create settings = .ok client) :
    (∀ api ∈ apis.toList, ¬ ∃ w, providers.Lacks api w) ∧
        (∃ clients, ofApis true providers settings apis = .ok clients) ∨
      ∃ before api after w, apis.toList = before ++ api :: after ∧
        (∀ other ∈ before, ¬ ∃ w, providers.Lacks other w) ∧ providers.Lacks api w ∧
        ofApis true providers settings apis = .error (Providers.missing api w) := by
  have hnames := h.pairwise_name.imp fun hlt => String.ne_of_lt hlt
  have hsteps {api : Api} (hapi : api ∈ apis.toList) (hlacks : ¬ ∃ w, providers.Lacks api w) :
      ∃ step, providers.interceptorFor api = .ok step :=
    ((Providers.interceptorFor_cases providers (h.valid_of_mem hapi)).resolve_right hlacks).imp
      fun _ => And.left
  show _ ∧ (∃ clients, registerAll providers settings {} apis.toList = .ok clients) ∨
    ∃ before api after w, _ ∧ _ ∧ _ ∧ registerAll providers settings {} apis.toList = _
  rcases exists_first (fun api => ¬ ∃ w, providers.Lacks api w) apis.toList with
    hall | ⟨before, api, after, hsplit, hbefore, hlacks⟩
  · exact .inl ⟨hall, registerAll_eq_ok hc hnames fun api hapi => hsteps hapi (hall api hapi)⟩
  · obtain ⟨w, hw⟩ := Classical.not_not.1 hlacks
    refine .inr ⟨before, api, after, w, hsplit, hbefore, hw, ?_⟩
    rw [hsplit] at hnames hsteps ⊢
    exact registerAll_eq_error hc hnames (fun other hother =>
      hsteps (List.mem_append_left _ hother) (hbefore other hother)) hw

/-- The clients for a configuration are those of its entries, under their names. -/
theorem apis_of_ofApis (h : apis.Sound)
    (hok : ofApis true providers settings apis = .ok clients) : clients.apis = apis.entries := by
  rw [apis_of_registerAll hok]
  exact congrArg Apis.entries h.ofList_toList

/-- A configuration holds valid entries under their own names, which are distinct.  So its
clients never find a name taken, and an API with a key always has its step; what can be missing
is a provider of tokens or of signatures, and the first that is missing, in the order of the
names, is reported.  Where none is, there is one client for each entry, under its name, with no
step if the API has no authorization and one if it has. -/
theorem clients_for_configuration (h : apis.Reachable)
    (hc : Http.Client.create settings = .ok client) (providers : Providers) :
    (∀ p ∈ apis.entries, p.1 = p.2.name ∧ p.2.validate = .ok ()) ∧
    (apis.toList.map (·.name)).Pairwise (· < ·) ∧
    (∀ before api after, apis.toList = before ++ api :: after → ∀ clients entry,
      registerAll providers settings {} before = .ok clients →
      entryFor providers settings api = .ok entry → ∃ more, clients.register entry = .ok more) ∧
    (∀ api ∈ apis.toList, api.authorization = .apiKey →
      ∃ step, providers.interceptorFor api = .ok (some step)) ∧
    ((∃ e, ofApis true providers settings apis = .error e) ↔
      ∃ api ∈ apis.toList, ∃ w, providers.Lacks api w) ∧
    (∀ e, ofApis true providers settings apis = .error e →
      ∃ before api after w, apis.toList = before ++ api :: after ∧
        (∀ other ∈ before, ¬ ∃ w, providers.Lacks other w) ∧ providers.Lacks api w ∧
        e = Providers.missing api w) ∧
    (∀ clients, ofApis true providers settings apis = .ok clients →
      clients.apis = apis.entries ∧ ∀ p ∈ clients.entries,
        ∃ step, providers.interceptorFor p.2.api = .ok step ∧
          (step = none ↔ p.2.api.authorization = .none) ∧
          p.2.client = { settings, interceptors := step.toList }) := by
  have hsound := h.sound
  refine ⟨fun p hp => ⟨hsound.named p hp, hsound.valid p hp⟩, hsound.pairwise_name,
    fun before api after hsplit clients entry hb he => ?_, fun api hapi hkey => ?_, ?_,
    fun e he => ?_, fun clients hok => ⟨apis_of_ofApis hsound hok, fun p hp => ?_⟩⟩
  · have hnames := hsound.pairwise_name.imp fun hlt => String.ne_of_lt hlt
    exact exists_register (hsplit ▸ hnames) hb he
  · rcases Providers.interceptorFor_cases providers (hsound.valid_of_mem hapi) with
      ⟨step, hstep, hnone⟩ | ⟨w, hlacks⟩
    · cases step with
      | none => cases (hnone.1 rfl).symm.trans hkey
      | some step => exact ⟨step, hstep⟩
    · exact absurd hkey hlacks.ne_apiKey
  · rcases ofApis_cases providers hsound hc with ⟨hall, clients, hok⟩ |
      ⟨before, api, after, w, hsplit, -, hlacks, herror⟩
    · refine ⟨fun ⟨e, he⟩ => ?_, fun ⟨api, hapi, hlacks⟩ => absurd hlacks (hall api hapi)⟩
      cases hok.symm.trans he
    · exact ⟨fun _ => ⟨api, by simp [hsplit], w, hlacks⟩, fun _ => ⟨_, herror⟩⟩
  · rcases ofApis_cases providers hsound hc with ⟨-, clients, hok⟩ |
      ⟨before, api, after, w, hsplit, hbefore, hlacks, herror⟩
    · cases hok.symm.trans he
    · cases herror.symm.trans he
      exact ⟨before, api, after, w, hsplit, hbefore, hlacks, rfl⟩
  · obtain ⟨hname, hmade⟩ := (sound_ofApis hok).made p hp
    obtain ⟨-, step, hstep, hclient⟩ := entryFor_eq_ok hmade
    refine ⟨step, hstep, ?_, hclient⟩
    have hentry : (p.1, p.2.api) ∈ apis.entries := by
      rw [← apis_of_ofApis hsound hok]
      exact List.mem_map_of_mem hp
    have hvalid := Api.validate_eq_ok.1 (hsound.valid _ hentry)
    rcases Providers.interceptorFor_cases providers hvalid with ⟨other, hother, hnone⟩ | ⟨w, hlacks⟩
    · cases hstep.symm.trans hother
      exact hnone
    · cases hstep.symm.trans hlacks.interceptorFor

/-- Of three entries one needs a signer of requests: without it there is no dispatcher, and with
it there is, though an entry for a name that was taken was added as well. -/
theorem clients_for_configuration_signed :
    let blog := (Api.create "blog" "https://blog.example.com/graphql").withApiKey "da2-blog"
    let feed : Api := {
      name := "feed", endpoint := "wss://feed.example.com", authorization := .openIdConnect }
    let media : Api := {
      name := "media", endpoint := "https://media.example.com", authorization := .awsIam
      region := some "eu-west-1" }
    let apis :=
      (((Apis.empty.offer media).offer blog).offer { media with name := "blog" }).offer feed
    let unsigned : Providers := { oidc := some (.fixed "jwt") }
    let signed : Providers := { unsigned with iamSigner := some fun _ => .ok }
    apis.Reachable ∧ Http.Client.create {} = .ok { settings := {} } ∧
      (∃ e, ofApis true unsigned {} apis = .error e) ∧
      ∃ clients, ofApis true signed {} apis = .ok clients ∧
        clients.apis = [("blog", blog), ("feed", feed), ("media", media)] := by
  intro blog feed media apis unsigned signed
  have hr : apis.Reachable := (((Apis.Reachable.empty.offer media).offer blog).offer _).offer feed
  have hc : Http.Client.create {} = .ok { settings := {} } := rfl
  have hentries : apis.entries = [("blog", blog), ("feed", feed), ("media", media)] := by
    decide +kernel
  have hlist : apis.toList = [blog, feed, media] := by rw [Apis.toList, hentries]; rfl
  obtain ⟨-, -, -, -, hfails, -, -⟩ := clients_for_configuration hr hc unsigned
  obtain ⟨-, -, -, -, hnot, -, hclients⟩ := clients_for_configuration hr hc signed
  have hneeds {api : Api} {w : Providers.Wanted} (h : signed.Lacks api w) :
      api.authorization = .cognitoUserPools ∨ api.authorization = .lambda := by
    cases h with
    | cognitoUserPools uses => exact .inl uses
    | lambda uses => exact .inr uses
    | openIdConnect _ absent => cases absent
    | awsIam _ absent => cases absent
  refine ⟨hr, hc, hfails.2 ⟨media, by simp [hlist], _, .awsIam rfl rfl⟩, ?_⟩
  cases hb : ofApis true signed {} apis with
  | ok clients => exact ⟨clients, rfl, (hclients clients hb).1.trans hentries⟩
  | error e =>
      obtain ⟨api, hapi, w, hlacks⟩ := hnot.1 ⟨e, hb⟩
      rw [hlist] at hapi
      simp only [List.mem_cons, List.not_mem_nil, or_false] at hapi
      rcases hapi with rfl | rfl | rfl <;> rcases hneeds hlacks with h | h <;> cases h

end Clients
end Switchboard
