import Switchboard.Proofs.Http.Draft
import Switchboard.Proofs.Url.Form

/-!
# Switchboard.Proofs.Http.Build

What a request amounts to that is put together part by part.

* `Part.fault?`, `Part.pairs`, `Part.body?`, `Part.timeout?` — what a part adds;
* `Draft.add_eq` — what one part does to a draft;
* `Draft.addAll_eq` — what many do: the first fault stays, pairs add up, and of bodies and timeouts
  the last one stays;
* `Url.pairs_withPairs` — pairs that are added to a URL are read from it;
* `Client.build_eq` — the request that some parts amount to, or the first reason why there is none;
* `builds_from_parts` — all of it together;
* `builds_without_host_or_user` — a URL without a host is no place for a request, and a user is
  taken out of one.
-/

namespace Switchboard.Url

/-- The pairs in the query of a URL. -/
def pairs (u : Url) : List (String × String) := Form.decode (u.query.getD "").toList

variable (u : Url) (more : List (String × String))

/-- Without its user a URL has the same query. -/
@[simp] theorem query_withoutLogin : u.withoutLogin.query = u.query := by
  unfold withoutLogin
  split <;> rfl

/-- It makes no difference whether the user is taken out before pairs are added. -/
theorem withoutLogin_withPairs :
    (u.withPairs more).withoutLogin =
      { u.withoutLogin with query := (u.withPairs more).query } := by
  unfold withoutLogin
  rw [Http.Draft.login?_withPairs]
  unfold withPairs
  split <;> split <;> rfl

@[simp] theorem hasHost_withPairs : (u.withPairs more).hasHost = u.hasHost := by
  unfold withPairs
  split <;> rfl

/-- Pairs that are added are read after those that are there. -/
theorem pairs_withPairs : (u.withPairs more).pairs = u.pairs ++ more := by
  unfold withPairs
  split
  · next hempty => rw [List.isEmpty_iff.1 hempty, List.append_nil]
  · unfold pairs
    rw [Option.getD_some, String.toList_ofList, Form.decode_append]

end Switchboard.Url

namespace Switchboard.Http

/-! ## Parts -/

namespace Part

/-- What is wrong with a part that cannot be used. -/
def fault? : Part → Option Error
  | .header name value =>
    if (Headers.checked? (name, value)).isSome then none
    else some (.build s!"invalid header '{name}'")
  | .json (.error text) => some (.json text)
  | _ => none

/-- The pairs that a part adds to the query. -/
def pairs : Part → List (String × String)
  | .query name value => [(name, value)]
  | .queries pairs => pairs
  | _ => []

/-- The body that a part sets. -/
def body? : Part → Option Bytes
  | .body bytes => some bytes
  | .json (.ok j) => some (Text.encode j.render)
  | _ => none

/-- The timeout that a part sets. -/
def timeout? : Part → Option Nat
  | .timeout ms => some ms
  | _ => none

end Part

/-! ## Drafts -/

namespace Draft

/-- What one part does to a draft. -/
theorem add_eq (d : Draft) (p : Part) :
    d.add p = { d with
      headers := (d.add p).headers
      query := d.query ++ p.pairs
      body := p.body?.or d.body
      timeout := p.timeout?.or d.timeout
      fault := d.fault.or p.fault? } := by
  have hquery : d.query ++ [] = d.query := List.append_nil _
  have hfault : d.fault.or none = d.fault := Option.or_none
  cases p with
  | header name value =>
      simp only [add, header, Part.pairs, Part.body?, Part.timeout?, Part.fault?, hquery]
      cases Headers.checked? (name, value) with
      | none => cases hd : d.fault <;> simp [blame, hd]
      | some q => simp
  | json value =>
      simp only [add, json, Part.pairs, Part.timeout?, hquery]
      cases value with
      | error text => cases hd : d.fault <;> simp [blame, hd, Part.body?, Part.fault?]
      | ok j => simp [Part.body?, Part.fault?]
  | query | queries | body | timeout =>
      simp [add, Part.pairs, Part.body?, Part.timeout?, Part.fault?]

/-- What many parts do to a draft. -/
theorem addAll_eq (d : Draft) (parts : List Part) :
    d.addAll parts = { d with
      headers := (d.addAll parts).headers
      query := d.query ++ parts.flatMap Part.pairs
      body := (parts.filterMap Part.body?).getLast?.or d.body
      timeout := (parts.filterMap Part.timeout?).getLast?.or d.timeout
      fault := d.fault.or (parts.findSome? Part.fault?) } := by
  induction parts using List.reverseRecOn with
  | nil => simp [addAll]
  | append_singleton parts p ih =>
    have hlast : d.addAll (parts ++ [p]) = (d.addAll parts).add p := by
      unfold addAll
      rw [List.foldl_append]
      rfl
    rw [hlast, add_eq, ih]
    simp [List.filterMap_append, List.findSome?_append, Option.or_assoc]

end Draft

/-! ## Requests -/

/-- Pairs are headers, unless one of them is none. -/
theorem Headers.appendPairs?_eq_none {pairs : List (String × String)} {hs : Headers} :
    appendPairs? pairs hs = none ↔ ∃ p ∈ pairs, checked? p = none := by
  induction pairs generalizing hs with
  | nil => simp [appendPairs?]
  | cons p rest ih =>
    unfold appendPairs?
    cases hp : checked? p with
    | none => simp [hp]
    | some q => simp [hp, ih]

namespace Client

variable {c : Client} {method url : String} {parts : List Part} {u : Url}

/-- The request that some parts amount to, or the first reason why there is none. -/
theorem build_eq (c : Client) (method url : String) (parts : List Part) :
    c.build method url parts =
      match parts.findSome? Part.fault?, Url.ofText? c.settings.idna url with
      | some e, _ => .error e
      | none, none => .error (.invalidUrl "")
      | none, some u =>
        if u.hasHost then
          match Headers.appendPairs? c.settings.defaultHeaders (loginHeaders u) with
          | none => .error (.exchange .other)
          | some hs => .ok {
              method, url := (u.withPairs (parts.flatMap Part.pairs)).withoutLogin
              headers := hs.appendAll ({ method, url : Draft }.addAll parts).headers
              body := (parts.filterMap Part.body?).getLast?
              timeout := (parts.filterMap Part.timeout?).getLast? }
        else .error (.exchange .other) := by
  unfold build
  rw [Draft.addAll_eq]
  unfold Draft.build
  cases parts.findSome? Part.fault? with
  | some e => rfl
  | none =>
    simp only [Option.or_none, List.nil_append]
    cases Url.ofText? c.settings.idna url with
    | none => rfl
    | some u =>
      simp only [Url.hasHost_withPairs, Draft.loginHeaders_withPairs]
      cases u.hasHost with
      | false => rfl
      | true => cases Headers.appendPairs? c.settings.defaultHeaders (loginHeaders u) <;> rfl

theorem build_of_fault {e : Error} (h : parts.findSome? Part.fault? = some e) :
    c.build method url parts = .error e := by
  rw [build_eq, h]

theorem build_of_hostless (h : parts.findSome? Part.fault? = none)
    (hu : Url.ofText? c.settings.idna url = some u) (hhost : u.hasHost = false) :
    c.build method url parts = .error (.exchange .other) := by
  rw [build_eq, h, hu]
  exact if_neg (by rw [hhost]; exact Bool.false_ne_true)

/-- What a request is made of: the URL that was given with all pairs in its query, the last body
and the last timeout.  A user that the URL names is taken out of it, and stands in a header
instead. -/
structure Amounts (method : String) (u : Url) (parts : List Part) (r : Request) : Prop where
  method : r.method = method
  pairs : r.url.pairs = u.pairs ++ parts.flatMap Part.pairs
  place : r.url = { u.withoutLogin with query := r.url.query }
  login : ∀ user password, u.login? = some (user, password) →
    (r.headers.values authorizationHeader).head? = some (basic user password)
  body : r.body = (parts.filterMap Part.body?).getLast?
  timeout : r.timeout = (parts.filterMap Part.timeout?).getLast?

/-- The first value of the header of users is that of the user that a URL names. -/
theorem head?_authorization {r : Request} (hr : c.build method url parts = .ok r)
    (hu : Url.ofText? c.settings.idna url = some u) {user : String} {password : Option String}
    (hlogin : u.login? = some (user, password)) :
    (r.headers.values authorizationHeader).head? = some (basic user password) := by
  have hvalues : (loginHeaders u).values authorizationHeader = [basic user password] := by
    rw [loginHeaders, hlogin]
    simp [Headers.values, Keyed.get?]
  rw [values_build hr, standing, hu, Option.elim_some, hvalues]
  rfl

theorem exists_build (h : parts.findSome? Part.fault? = none)
    (hu : Url.ofText? c.settings.idna url = some u) (hhost : u.hasHost = true)
    (hdefaults : ∀ p ∈ c.settings.defaultHeaders, (Headers.checked? p).isSome = true) :
    ∃ r, c.build method url parts = .ok r ∧ Amounts method u parts r := by
  cases hhs : Headers.appendPairs? c.settings.defaultHeaders (loginHeaders u) with
  | none =>
    obtain ⟨p, hp, hbad⟩ := Headers.appendPairs?_eq_none.1 hhs
    have hgood := hdefaults p hp
    rw [hbad] at hgood
    cases hgood
  | some hs =>
    have hr : c.build method url parts = .ok {
        method, url := (u.withPairs (parts.flatMap Part.pairs)).withoutLogin
        headers := hs.appendAll ({ method, url : Draft }.addAll parts).headers
        body := (parts.filterMap Part.body?).getLast?
        timeout := (parts.filterMap Part.timeout?).getLast? } := by
      rw [build_eq, h, hu]
      simp only [hhost, if_true, hhs]
    have hquery : (u.withPairs (parts.flatMap Part.pairs)).withoutLogin.pairs =
        (u.withPairs (parts.flatMap Part.pairs)).pairs := by
      rw [Url.pairs, Url.query_withoutLogin, Url.pairs]
    exact ⟨_, hr, {
      method := rfl
      pairs := hquery.trans (u.pairs_withPairs _)
      place := by rw [Url.query_withoutLogin, Url.withoutLogin_withPairs]
      login := fun user password => head?_authorization hr hu
      body := rfl
      timeout := rfl }⟩

/-- Building reports the first part that is at fault, whatever comes after it and whatever the URL
is.  Where no part is, a URL with a host gets all pairs after its own, the last body and the last
timeout, and is the same otherwise, but for a user, who is moved to a header; one without a host is
refused. -/
theorem builds_from_parts (c : Client) (method url : String) (parts : List Part) :
    (∀ before p after e, parts = before ++ p :: after → (∀ q ∈ before, q.fault? = none) →
      p.fault? = some e → c.build method url parts = .error e) ∧
    ∀ u, (∀ p ∈ parts, p.fault? = none) → Url.ofText? c.settings.idna url = some u →
      (∀ p ∈ c.settings.defaultHeaders, (Headers.checked? p).isSome = true) →
      if u.hasHost then ∃ r, c.build method url parts = .ok r ∧ Amounts method u parts r
      else c.build method url parts = .error (.exchange .other) := by
  constructor
  · intro before p after e hparts hbefore hp
    exact build_of_fault (List.findSome?_eq_some_iff.2 ⟨before, p, after, hparts, hp, hbefore⟩)
  · intro u hparts hu hdefaults
    have hnone := List.findSome?_eq_none_iff.2 hparts
    split
    · next hhost => exact exists_build hnone hu hhost hdefaults
    · next hhost => exact build_of_hostless hnone hu (Bool.eq_false_iff.2 hhost)

/-- A request with pairs of all kinds, two bodies and two timeouts, to a host outside ASCII and as a
user, and one with two faults. -/
theorem builds_from_parts_items :
    let idna : Url.Idna := fun name =>
      if name = "bücher.example" then some "xn--bcher-kva.example" else none
    let c : Client := ⟨{ defaultHeaders := [("x-trace", "on")], idna }, []⟩
    let parts : List Part := [.query "limit" "5", .timeout 50, .body [0x61], .header "Accept" "*/*",
      .queries [("limit", "5"), ("a&b=c", "ü +%20#")], .json (.ok .null), .timeout 20]
    let faulty : List Part := [.query "limit" "5", .json (.error "cannot serialize"), .timeout 20,
      .header "bad name" "value"]
    c.build "POST" "nowhere" faulty = .error (.json "cannot serialize") ∧
    ∃ r, c.build "POST" "https://ann@bücher.example/items?first=1#top" parts = .ok r ∧
      r.url.pairs = [("first", "1"), ("limit", "5"), ("limit", "5"), ("a&b=c", "ü +%20#")] ∧
      r.url.host = some "xn--bcher-kva.example" ∧ r.url.user = "" ∧
      (r.headers.values authorizationHeader).head? = some "Basic YW5uOg==" ∧
      r.url.fragment = some "top" ∧ r.body = some (Text.encode "null") ∧ r.timeout = some 20 := by
  intro idna c parts faulty
  let u : Url := {
    scheme := "https", user := "ann", host := some "xn--bcher-kva.example", port := none
    path := .segments ["items"], query := some "first=1", fragment := some "top" }
  have hfaulty := (builds_from_parts c "POST" "nowhere" faulty).1 [.query "limit" "5"]
    (.json (.error "cannot serialize")) [.timeout 20, .header "bad name" "value"] _ rfl
    (List.forall_mem_singleton.2 rfl) rfl
  have hu : Url.ofText? idna "https://ann@bücher.example/items?first=1#top" = some u := by
    decide +kernel
  have hparts : ∀ p ∈ parts, p.fault? = none := by decide +kernel
  obtain ⟨r, hr, hamounts⟩ := (builds_from_parts c "POST" _ parts).2 _ hparts hu (by decide +kernel)
  have hpairs : r.url.pairs =
      [("first", "1"), ("limit", "5"), ("limit", "5"), ("a&b=c", "ü +%20#")] :=
    hamounts.pairs.trans (by decide +kernel)
  have hlogin : u.login? = some ("ann", none) := by decide +kernel
  have hplain : u.withoutLogin = { u with user := "", password := none } := by
    rw [Url.withoutLogin, hlogin]
    rfl
  have hplace := hamounts.place
  rw [hplain] at hplace
  have hbasic : basic "ann" none = "Basic YW5uOg==" := by decide +kernel
  exact ⟨hfaulty, r, hr, hpairs, congrArg Url.host hplace, congrArg Url.user hplace,
    hbasic ▸ hamounts.login "ann" none hlogin, congrArg Url.fragment hplace, hamounts.body,
    hamounts.timeout⟩

/-- A URL without a host is no place for a request, though all there is to say about it is in
order; and a request does not go to the user that a URL names. -/
theorem builds_without_host_or_user :
    let c : Client := ⟨{}, []⟩
    let parts : List Part := [.query "limit" "5"]
    let mail := "mailto:someone@example.com"
    let items := "https://ann@api.example.com/items"
    (∀ p ∈ parts, p.fault? = none) ∧ c.settings.defaultHeaders = [] ∧
      ((Url.ofText? c.settings.idna mail).isSome = true ∧
        ¬ ∃ r, c.build "GET" mail parts = .ok r) ∧
      ∃ u r, Url.ofText? c.settings.idna items = some u ∧ c.build "GET" items parts = .ok r ∧
        u.user = "ann" ∧ r.url.user = "" := by
  intro c parts mail items
  have hmail : Url.ofText? c.settings.idna mail = some {
      scheme := "mailto", host := none, port := none, path := .flat "someone@example.com"
      query := none, fragment := none } := by decide +kernel
  let u : Url := {
    scheme := "https", user := "ann", host := some "api.example.com", port := none
    path := .segments ["items"], query := none, fragment := none }
  have hitems : Url.ofText? c.settings.idna items = some u := by decide +kernel
  obtain ⟨r, hr, hamounts⟩ : ∃ r, c.build "GET" items parts = .ok r ∧ Amounts "GET" u parts r :=
    exists_build rfl hitems rfl nofun
  have hplain : u.withoutLogin.user = "" := by decide +kernel
  refine ⟨List.forall_mem_singleton.2 rfl, rfl, ⟨by rw [hmail]; rfl, ?_⟩, u, r, hitems, hr, rfl,
    (congrArg Url.user hamounts.place).trans hplain⟩
  rintro ⟨r, hr⟩
  rw [build_of_hostless rfl hmail rfl] at hr
  cases hr

end Client
end Switchboard.Http
