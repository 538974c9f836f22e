import Switchboard.Http.Request
import Switchboard.Proofs.Http.Header
import Switchboard.Proofs.Outcome

/-!
# Switchboard.Proofs.Http.Credential

A client that puts a credential on its requests.

* `Client.standing` — the values that a header has before a request sets any;
* `sound_build`, `values_build_nil` — the headers of a request that was built;
* `Fits`, `NoToken` — an answer of a provider that can be sent, and a moment without one;
* `credential_eq_ok`, `credential_of_noToken` — what the step makes of a request, and of one that
  its provider has no such answer for;
* `Carries`, `carries_insert` — the header of the credential has one value, and all else is as
  it was;
* `intercept_one` — what a client that has one step hands over has gone through it.
-/

namespace Switchboard.Http

/-! ## Building -/

theorem sound_loginHeaders (u : Url) : (loginHeaders u).Sound := by
  unfold loginHeaders
  split
  · next user password _ =>
    have hsound := Headers.sound_nil.insert (show name? authorizationHeader = _ by decide +kernel)
      (basic user password)
    exact hsound
  · exact Headers.sound_nil

namespace Draft

/-- No part changes the URL. -/
theorem url_addAll (d : Draft) (parts : List Part) : (d.addAll parts).url = d.url := by
  unfold addAll
  induction parts generalizing d with
  | nil => rfl
  | cons p rest ih =>
    have hfirst : (d.add p).url = d.url := by
      cases p with
      | header name value =>
          simp only [add, header]
          split <;> rfl
      | json value => cases value <;> rfl
      | query | queries | body | timeout => rfl
    rw [List.foldl_cons, ih, hfirst]

theorem sound_add {d : Draft} (h : d.headers.Sound) (p : Part) : (d.add p).headers.Sound := by
  cases p with
  | header name value =>
      simp only [add, header]
      split
      · next n v hc =>
        exact h.insert (name?_of_name? (Headers.checked?_eq_some hc).1) v
      · exact h
  | json value =>
      cases value with
      | ok j => exact h.insert (by decide +kernel) _
      | error text => exact h
  | query | queries | body | timeout => exact h

theorem sound_addAll {d : Draft} (h : d.headers.Sound) (parts : List Part) :
    (d.addAll parts).headers.Sound := by
  unfold addAll
  induction parts generalizing d with
  | nil => exact h
  | cons p rest ih => exact ih (sound_add h p)

@[simp] theorem login?_withPairs (u : Url) (pairs : List (String × String)) :
    (u.withPairs pairs).login? = u.login? := by
  unfold Url.withPairs
  split <;> rfl

@[simp] theorem loginHeaders_withPairs (u : Url) (pairs : List (String × String)) :
    loginHeaders (u.withPairs pairs) = loginHeaders u := by
  rw [loginHeaders, login?_withPairs, loginHeaders]

theorem build_eq_ok {d : Draft} {settings : Settings} {r : Request}
    (h : d.build settings = .ok r) :
    ∃ u hs, Url.ofText? settings.idna d.url = some u ∧
      Headers.appendPairs? settings.defaultHeaders (loginHeaders u) = some hs ∧
      r.headers = hs.appendAll d.headers := by
  unfold build at h
  split at h
  · cases h
  · split at h
    · cases h
    · next u hu =>
      dsimp only at h
      split at h
      · cases h
      · split at h
        · cases h
        · next hs hp =>
          rw [loginHeaders_withPairs] at hp
          cases h
          exact ⟨u, hs, hu, hp, rfl⟩

end Draft

namespace Client

variable {c : Client} {method url : String} {parts : List Part} {built sent : Request}

/-- The values that a header has before a request sets any: the one that a user in the URL asks
for, if there is a user and the header is that of users, and the default values. -/
def standing (c : Client) (url name : String) : List String :=
  Headers.values name ((Url.ofText? c.settings.idna url).elim [] loginHeaders) ++
    Headers.given name c.settings.defaultHeaders

/-- The headers of a built request are those, and after them what the parts set. -/
theorem exists_standing (h : c.build method url parts = .ok built) :
    ∃ hs : Headers, hs.Sound ∧ (∀ name, hs.values name = c.standing url name) ∧
      built.headers = hs.appendAll ({ method, url : Draft }.addAll parts).headers := by
  obtain ⟨u, hs, hu, hp, hh⟩ := Draft.build_eq_ok h
  have hurl : ({ method, url : Draft }.addAll parts).url = url := Draft.url_addAll _ parts
  rw [hurl] at hu
  refine ⟨hs, (sound_loginHeaders u).appendPairs? hp, fun name => ?_, hh⟩
  rw [Headers.values_appendPairs? hp, standing, hu]
  rfl

/-- The headers of a request that was built are in order and in lower case. -/
theorem sound_build (h : c.build method url parts = .ok built) : built.headers.Sound := by
  obtain ⟨hs, hsound, -, hh⟩ := exists_standing h
  rw [hh]
  exact hsound.appendAll (Draft.sound_addAll Headers.sound_nil parts)

/-- Without parts there are no others. -/
theorem values_build_nil (h : c.build method url [] = .ok built) (name : String) :
    built.headers.values name = c.standing url name := by
  obtain ⟨hs, -, hvalues, hh⟩ := exists_standing h
  rw [hh]
  exact hvalues name

end Client

/-! ## Credentials -/

/-- An answer of a provider that can be sent: a token, and it may be the value of a header. -/
def Fits (answer : Except Error String) (t : String) : Prop := answer = .ok t ∧ isValue t = true

/-- A moment at which a provider has no token that can be sent. -/
def NoToken (provider : TokenProvider) (now : Moment) : Prop := ∀ t, ¬ Fits (provider now) t

variable {header : String} {provider : TokenProvider} {now : Moment}

/-- The provider is asked now, and what it answers is put on. -/
theorem credential_eq_ok {r r' : Request} :
    credential header provider now r = .ok r' ↔
      ∃ t, Fits (provider now) t ∧ r' = { r with headers := r.headers.insert header t } := by
  unfold credential Fits
  cases provider now with
  | error e => exact ⟨nofun, nofun⟩
  | ok t =>
      show (if isValue t = true then _ else _) = _ ↔ _
      split
      · next hv =>
        refine ⟨fun h => by cases h; exact ⟨t, ⟨rfl, hv⟩, rfl⟩, fun ⟨u, ⟨hu, _⟩, h⟩ => ?_⟩
        cases hu
        rw [h]
        rfl
      · next hv =>
        refine ⟨nofun, fun ⟨u, ⟨hu, hok⟩, _⟩ => ?_⟩
        cases hu
        exact absurd hok hv

/-- A step that has no token to put on refuses all requests, for one reason. -/
theorem credential_of_noToken (h : NoToken provider now) :
    ∃ e, ∀ r, credential header provider now r = .error e := by
  unfold credential
  cases hp : provider now with
  | error e => exact ⟨e, fun _ => rfl⟩
  | ok t =>
      have hv : ¬ isValue t = true := fun hv => h t ⟨hp, hv⟩
      exact ⟨_, fun r => if_neg hv⟩

/-- What was sent is what was built with a credential on it: the header of the credential
has one value, however its name is spelled, and all else is as it was. -/
structure Carries (header t : String) (built sent : Request) : Prop where
  alone : sent.headers.toPairs.filter (fun p => name? p.1 = some header) = [(header, t)]
  others : ∀ n, n ≠ header → sent.headers.values n = built.headers.values n
  rest : sent = { built with headers := sent.headers }

theorem carries_insert {r : Request} (hr : r.headers.Sound) (hname : name? header = some header)
    (t : String) : Carries header t r { r with headers := r.headers.insert header t } where
  alone := by
    rw [(hr.insert hname t).filter_toPairs, Headers.values_insert_self]
    rfl
  others n hn := Headers.values_insert_of_ne hn t r.headers
  rest := rfl

namespace Client

variable {settings : Settings} {method url : String} {parts : List Part} {built sent : Request}

/-- What a client that has one step hands over has gone through it. -/
theorem intercept_one (settings : Settings) (i : Interceptor) (now : Moment) (r : Request) :
    intercept ⟨settings, [i]⟩ now r = i now r := by
  unfold intercept
  rw [List.foldlM_cons]
  cases i now r <;> rfl

end Client
end Switchboard.Http
