import Switchboard.Proofs.Config.Valid

/-!
# Switchboard.Proofs.Config.Address

Where subscriptions connect to.  The place is that of the endpoint, under the scheme of a
websocket that is as secure; a place that an entry names for subscriptions is taken as it is,
and a valid one may have any of the four schemes.

* `Scheme`, `eq_of_text_append` — a place has one scheme at most;
* `hasScheme_iff` — the rule for places asks that it has one;
* `subscribes_by_websocket_iff` — when subscriptions connect to a websocket;
* `subscribes_by_https` — a valid entry whose subscriptions do not.
-/

namespace Switchboard

/-- The schemes that an endpoint may have. -/
inductive Scheme where
  | http
  | https
  | ws
  | wss
  deriving DecidableEq, Repr

namespace Scheme

def text : Scheme → String
  | http => "http://"
  | https => "https://"
  | ws => "ws://"
  | wss => "wss://"

def isSecure : Scheme → Bool
  | https | wss => true
  | http | ws => false

def isWebSocket : Scheme → Bool
  | ws | wss => true
  | http | https => false

/-- The scheme of a websocket that is as secure. -/
def toWebSocket : Scheme → Scheme
  | http | ws => ws
  | https | wss => wss

/-- A place has one scheme at most. -/
theorem eq_of_text_append {s t : Scheme} {a b : String} (h : s.text ++ a = t.text ++ b) :
    s = t ∧ a = b := by
  have hlist : s.text.toList ++ a.toList = t.text.toList ++ b.toList := by
    rw [← String.toList_append, h, String.toList_append]
  cases s <;> cases t <;> simp_all [text]

def all : List Scheme := [http, https, ws, wss]

theorem mem_all (s : Scheme) : s ∈ all := by cases s <;> decide

end Scheme

theorem isPrefixOf_iff {lead url : String} :
    lead.toList.isPrefixOf url.toList = true ↔ ∃ rest, url = lead ++ rest := by
  rw [List.isPrefixOf_iff_prefix]
  constructor
  · rintro ⟨rest, h⟩
    refine ⟨String.ofList rest, String.toList_inj.1 ?_⟩
    rw [String.toList_append, String.toList_ofList, h]
  · rintro ⟨rest, rfl⟩
    exact ⟨rest.toList, String.toList_append.symm⟩

/-- The rule for places asks that they have a scheme. -/
theorem Rule.hasScheme_iff {url : String} :
    hasScheme url = true ↔ ∃ (s : Scheme) (rest : String), url = s.text ++ rest := by
  show (Scheme.all.map Scheme.text).any _ = true ↔ _
  simp only [List.any_map, List.any_eq_true, Function.comp, isPrefixOf_iff]
  exact ⟨fun ⟨s, _, h⟩ => ⟨s, h⟩, fun ⟨s, h⟩ => ⟨s, s.mem_all, h⟩⟩

namespace Api

variable {api : Api}

theorem after?_append (lead rest : String) : after? lead (lead ++ rest) = some rest := by
  unfold after?
  rw [if_pos (isPrefixOf_iff.2 ⟨rest, rfl⟩), String.toList_append, ← String.length_toList,
    List.drop_left, String.ofList_toList]

theorem after?_eq_none {lead url : String} (h : ∀ rest, url ≠ lead ++ rest) :
    after? lead url = none := by
  unfold after?
  exact if_neg fun hp => (isPrefixOf_iff.1 hp).elim h

/-- The place that subscriptions are derived from. -/
def subscriptionSource (api : Api) : String := api.realtimeEndpoint.getD api.endpoint

theorem subscriptionUrl_of_realtime {url : String} (h : api.realtimeEndpoint = some url) :
    api.subscriptionUrl = url := by
  unfold subscriptionUrl
  rw [h]

/-- An endpoint becomes a websocket that is as secure, in the same place. -/
theorem subscriptionUrl_of_endpoint (hr : api.realtimeEndpoint = none) {s : Scheme}
    {rest : String} (h : api.endpoint = s.text ++ rest) :
    api.subscriptionUrl = s.toWebSocket.text ++ rest := by
  have hgone {t : Scheme} (hne : s ≠ t) : after? t.text api.endpoint = none :=
    after?_eq_none fun _ heq => hne (Scheme.eq_of_text_append (h ▸ heq)).1
  unfold subscriptionUrl
  rw [hr]
  cases s with
  | https =>
      have hfound : after? "https://" api.endpoint = some rest := h ▸ after?_append _ rest
      simp only [hfound]
      rfl
  | http =>
      have hother : after? "https://" api.endpoint = none := @hgone .https (by decide)
      have hfound : after? "http://" api.endpoint = some rest := h ▸ after?_append _ rest
      simp only [hother, hfound]
      rfl
  | ws | wss =>
      have hother : after? "https://" api.endpoint = none := @hgone .https (by decide)
      have hother' : after? "http://" api.endpoint = none := @hgone .http (by decide)
      simp only [hother, hother']
      exact h

/-- Subscriptions connect to the place that they are derived from, as securely; and they connect
to a websocket exactly if an entry that names a place for them names a websocket. -/
theorem subscribes_by_websocket_iff (h : api.validate = .ok ()) :
    ∃ (s t : Scheme) (rest : String), api.subscriptionSource = s.text ++ rest ∧
      api.subscriptionUrl = t.text ++ rest ∧ t.isSecure = s.isSecure ∧
      ((∃ u : Scheme, u.isWebSocket = true ∧ ∃ more, api.subscriptionUrl = u.text ++ more) ↔
        api.realtimeEndpoint = none ∨ s.isWebSocket = true) := by
  have hvalid := validate_eq_ok.1 h
  cases hr : api.realtimeEndpoint with
  | none =>
      obtain ⟨s, rest, hs⟩ := Rule.hasScheme_iff.1 hvalid.url
      have hurl := subscriptionUrl_of_endpoint hr hs
      refine ⟨s, s.toWebSocket, rest, by rw [subscriptionSource, hr]; exact hs, hurl, ?_, ?_⟩
      · cases s <;> rfl
      · exact ⟨fun _ => .inl rfl, fun _ => ⟨s.toWebSocket, by cases s <;> rfl, rest, hurl⟩⟩
  | some url =>
      obtain ⟨s, rest, hs⟩ := Rule.hasScheme_iff.1 (hvalid.realtimeUrl url hr)
      have hurl : api.subscriptionUrl = s.text ++ rest := (subscriptionUrl_of_realtime hr).trans hs
      refine ⟨s, s, rest, by rw [subscriptionSource, hr]; exact hs, hurl, rfl, ?_⟩
      constructor
      · rintro ⟨u, hu, more, heq⟩
        rw [(Scheme.eq_of_text_append (hurl.symm.trans heq)).1]
        exact .inr hu
      · rintro (hnone | hsocket)
        · cases hnone
        · exact ⟨s, hsocket, rest, hurl⟩

/-- An entry whose endpoint becomes a secure websocket. -/
theorem subscribes_by_websocket_blog :
    let blog := Api.create "blog" "https://blog.example.com/graphql"
    blog.validate = .ok () ∧
      ∃ u : Scheme, u.isWebSocket = true ∧ ∃ more, blog.subscriptionUrl = u.text ++ more := by
  intro blog
  have h : blog.validate = .ok () := eq_ok_of_toOption (by decide +kernel)
  obtain ⟨s, t, rest, -, -, -, hiff⟩ := subscribes_by_websocket_iff h
  exact ⟨h, hiff.2 (.inl rfl)⟩

/-- A valid entry whose subscriptions connect to no websocket, because it names another place
for them. -/
theorem subscribes_by_https :
    let blog : Api := {
      Api.create "blog" "https://blog.example.com/graphql" with
      realtimeEndpoint := some "https://realtime.example.com/graphql" }
    blog.validate = .ok () ∧ blog.subscriptionUrl = "https://realtime.example.com/graphql" ∧
      ∀ u : Scheme, u.isWebSocket = true → ∀ more, blog.subscriptionUrl ≠ u.text ++ more := by
  intro blog
  refine ⟨eq_ok_of_toOption (by decide +kernel), rfl, fun u hu more heq => ?_⟩
  have hscheme : Scheme.https = u :=
    (@Scheme.eq_of_text_append .https u "realtime.example.com/graphql" more heq).1
  subst hscheme
  cases hu

end Api
end Switchboard
