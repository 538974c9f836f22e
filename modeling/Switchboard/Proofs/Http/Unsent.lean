import Switchboard.Proofs.Http.Build

/-!
# Switchboard.Proofs.Http.Unsent

Requests that are refused before they are sent, and whether their errors say so.

* `SaysSo`, `isRequestError_of_foldlM` — steps in a row say so if each of them does;
* `FailsAsStep`, `saysSo_credential` — and a credential does whose provider fails as a step;
* `Client.Unmarked` — what building fails on with an error that is also one of an exchange;
* `exists_unmarked_iff` — it has such an error there and nowhere else;
* `unsent_says_so_iff` — so the errors before sending say so exactly if there is no such thing;
* `unsent_without_saying_so` — and a body that cannot be written is one.
-/

namespace Switchboard.Http

/-! ## Steps -/

/-- A step that goes wrong says that the request was not sent. -/
def SaysSo (i : Interceptor) : Prop := ∀ now r e, i now r = .error e → e.isRequestError = true

theorem isRequestError_of_foldlM {steps : List Interceptor} (h : ∀ i ∈ steps, SaysSo i)
    {now : Moment} {r : Request} {e : Error}
    (he : steps.foldlM (fun r i => i now r) r = .error e) : e.isRequestError = true := by
  induction steps generalizing r with
  | nil => cases he
  | cons i rest ih =>
    rw [List.foldlM_cons] at he
    rcases bind_eq_error.1 he with hfirst | ⟨r', -, hrest⟩
    · exact h i List.mem_cons_self now r e hfirst
    · exact ih (fun j hj => h j (List.mem_cons_of_mem i hj)) hrest

/-- Whenever a provider fails it is with an error of a step. -/
def FailsAsStep (provider : TokenProvider) : Prop :=
  ∀ now e, provider now = .error e → ∃ text, e = .interceptor text

theorem saysSo_credential (header : String) {provider : TokenProvider} (h : FailsAsStep provider) :
    SaysSo (credential header provider) := by
  intro now r e he
  unfold credential at he
  rcases bind_eq_error.1 he with htoken | ⟨t, -, hvalue⟩
  · obtain ⟨text, rfl⟩ := h now e htoken
    rfl
  · split at hvalue
    · cases hvalue
    · cases hvalue
      rfl

/-! ## Building -/

/-- A part is at fault with an error that says that the request was not sent, or it has a body that
cannot be written. -/
theorem Part.isRequestError_of_fault? {p : Part} {e : Error} (h : p.fault? = some e) :
    e.isRequestError = false ↔ ∃ text, e = .json text := by
  unfold Part.fault? at h
  split at h
  · split at h
    · cases h
    · cases h
      simp [Error.isRequestError]
  · cases h
    simp [Error.isRequestError]
  · cases h

namespace Client

/-- What building fails on with an error that an exchange can have too: a first part at fault that
is a body which cannot be written, or, where no part is at fault, a URL without a host or a default
header that is none. -/
def Unmarked (c : Client) (url : String) (parts : List Part) : Prop :=
  (∃ text, parts.findSome? Part.fault? = some (.json text)) ∨
    (∀ p ∈ parts, p.fault? = none) ∧ ∃ u, Url.ofText? c.settings.idna url = some u ∧
      (u.hasHost = false ∨ ∃ p ∈ c.settings.defaultHeaders, Headers.checked? p = none)

/-- Building has an error that does not say that the request was not sent in these cases and in no
others. -/
theorem exists_unmarked_iff (c : Client) (method url : String) (parts : List Part) :
    (∃ e, c.build method url parts = .error e ∧ e.isRequestError = false) ↔
      c.Unmarked url parts := by
  unfold Unmarked
  rw [build_eq, ← List.findSome?_eq_none_iff]
  cases hfault : parts.findSome? Part.fault? with
  | some e =>
    obtain ⟨p, -, hp⟩ := List.exists_of_findSome?_eq_some hfault
    have hiff := Part.isRequestError_of_fault? hp
    simp [hiff]
  | none =>
    cases hu : Url.ofText? c.settings.idna url with
    | none => simp [Error.isRequestError]
    | some u =>
      cases hhost : u.hasHost with
      | false => simp [hhost, Error.isRequestError]
      | true =>
        cases hdefaults :
          Headers.appendPairs? c.settings.defaultHeaders (loginHeaders u) with
        | none =>
          have hbad := Headers.appendPairs?_eq_none.1 hdefaults
          simp [hhost, hdefaults, hbad, Error.isRequestError]
        | some hs =>
          have hsome : Headers.appendPairs? c.settings.defaultHeaders (loginHeaders u) ≠ none :=
            ne_of_eq_of_ne hdefaults (Option.some_ne_none hs)
          have hgood := mt Headers.appendPairs?_eq_none.2 hsome
          simp [hhost, hdefaults, hgood]

/-- Of a client whose steps are credentials all errors before sending say that the request was not
sent, exactly if building fails on nothing that an exchange can fail on too. -/
theorem unsent_says_so_iff (settings : Settings) {chain : List (String × TokenProvider)}
    (h : ∀ step ∈ chain, FailsAsStep step.2) (method url : String) (parts : List Part) :
    let c : Client := ⟨settings, chain.map fun step => credential step.1 step.2⟩
    ((∀ e, c.build method url parts = .error e → e.isRequestError = true) ↔
      ¬ c.Unmarked url parts) ∧
    ∀ now r e, c.intercept now r = .error e → e.isRequestError = true := by
  intro c
  constructor
  · rw [← exists_unmarked_iff c method]
    constructor
    · rintro hall ⟨e, he, hfalse⟩
      rw [hall e he] at hfalse
      cases hfalse
    · intro hnone e he
      exact Bool.of_not_eq_false fun hfalse => hnone ⟨e, he, hfalse⟩
  · intro now r e he
    refine isRequestError_of_foldlM (fun i hi => ?_) he
    obtain ⟨step, hstep, rfl⟩ := List.mem_map.1 hi
    exact saysSo_credential step.1 (h step hstep)

/-- A header that is none comes before a body that cannot be written, and a provider has no token
any more. -/
theorem unsent_says_so_expired :
    let lasting : TokenProvider := fun now =>
      if now < 10 then .ok "jwt" else .error (.interceptor "expired")
    let chain : List (String × TokenProvider) :=
      [(apiKeyHeader, .fixed "da2-key"), (authorizationHeader, lasting)]
    let c : Client := ⟨{}, chain.map fun step => credential step.1 step.2⟩
    let parts : List Part := [.header "bad name" "value", .json (.error "cannot serialize")]
    (∀ step ∈ chain, FailsAsStep step.2) ∧
    (∃ e, c.build "POST" "https://api.example.com/items" parts = .error e ∧
      e.isRequestError = true) ∧
    ∃ r e, c.intercept 10 r = .error e ∧ e.isRequestError = true := by
  intro lasting chain c parts
  have hchain : ∀ step ∈ chain, FailsAsStep step.2 := by
    have hfixed : FailsAsStep (.fixed "da2-key") := nofun
    have hlasting : FailsAsStep lasting := by
      intro now e he
      simp only [lasting] at he
      split at he
      · cases he
      · cases he
        exact ⟨"expired", rfl⟩
    intro step hstep
    rcases List.mem_cons.1 hstep with rfl | hstep
    · exact hfixed
    · rw [List.mem_singleton.1 hstep]
      exact hlasting
  obtain ⟨hbuild, hintercept⟩ := unsent_says_so_iff {} hchain "POST" "https://api.example.com/items"
    parts
  have hfault : parts.findSome? Part.fault? = some (.build "invalid header 'bad name'") := by
    decide +kernel
  have hmarked : ¬ c.Unmarked "https://api.example.com/items" parts := by
    rintro (⟨text, hjson⟩ | ⟨hnone, -⟩)
    · rw [hfault] at hjson
      cases hjson
    · rw [List.findSome?_eq_none_iff.2 hnone] at hfault
      cases hfault
  have hb : c.build "POST" "https://api.example.com/items" parts = .error _ :=
    build_of_fault hfault
  exact ⟨hchain, ⟨_, hb, hbuild.2 hmarked _ hb⟩, default, .interceptor "expired", rfl,
    hintercept 10 default _ rfl⟩

/-- A body that cannot be written and a URL without a host are refused without saying so. -/
theorem unsent_without_saying_so :
    let c : Client := ⟨{}, []⟩
    let unwritten : List Part := [.json (.error "cannot serialize")]
    c.build "POST" "https://api.example.com/items" unwritten =
        .error (.json "cannot serialize") ∧
      (Error.json "cannot serialize").isRequestError = false ∧
    c.build "GET" "mailto:someone@example.com" [] = .error (.exchange .other) ∧
      (Error.exchange .other).isRequestError = false := by
  intro c unwritten
  have hu : Url.ofText? c.settings.idna "mailto:someone@example.com" = some {
      scheme := "mailto", host := none, port := none, path := .flat "someone@example.com"
      query := none, fragment := none } := by decide +kernel
  exact ⟨build_of_fault rfl, rfl, build_of_hostless rfl hu rfl, rfl⟩

end Client
end Switchboard.Http
