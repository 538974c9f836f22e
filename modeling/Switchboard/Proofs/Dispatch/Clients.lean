import Switchboard.Dispatch.Clients
import Switchboard.Proofs.Outcome

/-!
# Switchboard.Proofs.Dispatch.Clients

The clients of a dispatcher.  They stand under the names of their APIs, and the client of
an API is the one that was made for it.

* `resolve_eq_ok`, `resolve_eq_error` — a name is that of a client, or nobody's;
* `Sound` — every client under its name, as it was made;
* `sound_ofApis` — so it is with all clients of a configuration.
-/

namespace Switchboard.Clients

variable {providers : Providers} {settings : Http.Settings}

/-! ## Looking up -/

theorem resolve_eq_ok {clients : Clients} {name : String} {entry : ClientEntry} :
    clients.resolve name = .ok entry ↔ Keyed.get? name clients.entries = some entry := by
  unfold resolve
  cases Keyed.get? name clients.entries <;> simp

/-- A name that nobody has is missing, and nothing else can be wrong with a name. -/
theorem resolve_eq_error {clients : Clients} {name : String} {e : ApiError} :
    clients.resolve name = .error e ↔
      Keyed.has name clients.entries = false ∧ e = .missingApi name := by
  unfold resolve Keyed.has
  cases Keyed.get? name clients.entries <;> simp [eq_comm]

/-! ## Making clients -/

theorem create_eq_ok {client : Http.Client} (h : Http.Client.create settings = .ok client) :
    client = { settings } := by
  unfold Http.Client.create at h
  split at h <;> cases h
  rfl

/-- The client for an API has the settings of all, and the step of the API, if it has one. -/
theorem entryFor_eq_ok {api : Api} {entry : ClientEntry}
    (h : entryFor providers settings api = .ok entry) :
    entry.api = api ∧ ∃ step, providers.interceptorFor api = .ok step ∧
      entry.client = { settings, interceptors := step.toList } := by
  unfold entryFor at h
  obtain ⟨client, hc, h⟩ := bind_eq_ok.1 h
  obtain ⟨step, hs, h⟩ := bind_eq_ok.1 h
  have hclient : client = { settings } := by
    cases hm : Http.Client.create settings with
    | error e => rw [hm] at hc; cases hc
    | ok c => rw [hm] at hc; cases hc; exact create_eq_ok hm
  subst hclient
  cases step with
  | none => cases h; exact ⟨rfl, none, hs, rfl⟩
  | some i => cases h; exact ⟨rfl, some i, hs, rfl⟩

/-- Clients stand under the names of their APIs, each as it was made. -/
structure Sound (providers : Providers) (settings : Http.Settings) (clients : Clients) : Prop where
  ordered : clients.entries.Ordered
  made : ∀ p ∈ clients.entries, p.1 = p.2.api.name ∧
    entryFor providers settings p.2.api = .ok p.2

theorem sound_empty : Sound providers settings {} := ⟨List.Pairwise.nil, nofun⟩

theorem Sound.register {clients clients' : Clients} (h : Sound providers settings clients)
    {entry : ClientEntry} (hm : entryFor providers settings entry.api = .ok entry)
    (hr : clients.register entry = .ok clients') : Sound providers settings clients' := by
  unfold Clients.register at hr
  split at hr
  · cases hr
  · cases hr
    refine ⟨h.ordered.set _ _, fun p hp => ?_⟩
    rcases Keyed.mem_of_mem_set hp with rfl | hp
    · exact ⟨rfl, hm⟩
    · exact h.made p hp

theorem sound_registerAll {apis : List Api} {clients clients' : Clients}
    (h : Sound providers settings clients)
    (hr : registerAll providers settings clients apis = .ok clients') :
    Sound providers settings clients' := by
  induction apis generalizing clients with
  | nil => cases hr; exact h
  | cons api rest ih =>
    obtain ⟨entry, he, hr⟩ := bind_eq_ok.1 hr
    obtain ⟨more, hm, hr⟩ := bind_eq_ok.1 hr
    have hapi : entry.api = api := (entryFor_eq_ok he).1
    exact ih (h.register (hapi ▸ he) hm) hr

variable {hasWorkers : Bool} {apis : Apis} {clients : Clients}

theorem sound_ofApis (h : ofApis hasWorkers providers settings apis = .ok clients) :
    Sound providers settings clients := by
  unfold ofApis at h
  split at h
  · exact sound_registerAll sound_empty h
  · cases h

/-- What is found under a name is the client of the API of that name. -/
theorem Sound.resolve (h : Sound providers settings clients) {name : String}
    {entry : ClientEntry} (hr : clients.resolve name = .ok entry) :
    entry.api.name = name ∧ ∃ step, providers.interceptorFor entry.api = .ok step ∧
      entry.client = { settings, interceptors := step.toList } := by
  obtain ⟨hname, hmade⟩ := h.made _ (h.ordered.mem_iff.2 (resolve_eq_ok.1 hr))
  exact ⟨hname.symm, (entryFor_eq_ok hmade).2⟩

end Switchboard.Clients
