import Switchboard.Proofs.Http.Draft
import Switchboard.Subscription.Credentials

/-!
# Switchboard.Proofs.Subscription.Credentials

What the first message of a connection says for a client that puts a credential on its
requests.  It ought to say the credential and nothing else; what it says is every header of
a request that differs from the first value of its name that stood there before.

* `credentials_eq` — what is said under each name;
* `OnlyCredentialDiffers` — headers that do not come between a connection and its credential;
* `says_credential_alone_iff` — with such headers, and with no others, the credential is said
  and nothing else;
* `says_default_header` — three ways in which other headers come between.
-/

namespace Switchboard.Http

namespace Headers

/-- The values of a name that differ from the first one that other headers have for it, as
far as they can be shown. -/
def differing (before hs : Headers) (name : String) : List String :=
  (hs.values name).filter fun v => (before.values name).head? ≠ some v && isPlainValue v

end Headers

namespace Client

variable {c : Client} {now : Moment} {endpoint : String} {built after : Request}

/-- What is said under each name: the last of the values that differ. -/
theorem credentials_eq (hb : c.build "POST" endpoint [] = .ok built)
    (hi : c.interceptors ≠ []) (ha : c.intercept now built = .ok after) (hs : after.headers.Sound) :
    ∃ fields : Keyed Json, c.credentials now endpoint = .ok (some (.obj fields)) ∧
      fields.Ordered ∧
      ∀ n, Keyed.get? n fields =
        (built.headers.differing after.headers n).getLast?.map Json.str := by
  have hsteps : c.interceptors.isEmpty = false := by simpa using hi
  simp only [credentials, hsteps, hb, ha, bind, Except.bind, pure, Except.pure]
  refine ⟨_, rfl, Keyed.ordered_ofList _, fun n => ?_⟩
  have hfirst : ∀ v ∈ after.headers.values n,
      built.headers.first? n = (built.headers.values n).head? := by
    intro v hv
    have hname : name? n = some n := hs.name?_of_mem ((Headers.mem_toPairs hs.ordered).2 hv)
    simp [Headers.first?, hname]
  have hnamed : (after.headers.toPairs.filter fun p =>
        built.headers.first? p.1 ≠ some p.2 && isPlainValue p.2).filter (fun p => p.1 = n) =
      (built.headers.differing after.headers n).map fun v => (n, v) := by
    rw [List.filter_filter]
    simp only [Bool.and_comm (decide _)]
    rw [← List.filter_filter, Headers.filter_toPairs hs.ordered, List.filter_map,
      Headers.differing]
    refine congrArg _ (List.filter_congr fun v hv => ?_)
    simp only [Function.comp_apply, hfirst v hv, Bool.and_comm]
  rw [Keyed.get?_ofList, Keyed.lookup_eq_head?, List.filter_reverse, List.head?_reverse,
    List.filter_map]
  simp only [Function.comp_def]
  rw [hnamed]
  simp only [List.getLast?_map, Option.map_map, Function.comp_def]

end Client

/-! ## Credentials -/

/-- Of the values that stand under a name those that differ from the first one, as far as they can
be shown. -/
def leaking (values : List String) : List String :=
  values.filter fun v => values.head? ≠ some v && isPlainValue v

/-- Values stand under the names that do not come between a connection and its credential. -/
structure OnlyCredentialDiffers (standing : String → List String) (header t : String) : Prop where
  /-- The credential can be shown. -/
  plain : isPlainValue t = true
  /-- It is not the first value that stands under its name. -/
  fresh : (standing header).head? ≠ some t
  /-- Under no other name a value stands that differs from the first one. -/
  others : ∀ n, n ≠ header → leaking (standing n) = []

namespace Client

variable {settings : Settings} {header : String} {provider : TokenProvider} {now : Moment}
  {t endpoint : String} {built : Request}

/-- Under its name the credential is said, unless it is the first value that stands there or
cannot be shown; under each other name the last value that differs from the first. -/
theorem credentials_credential (hname : name? header = some header) (ht : Fits (provider now) t)
    (hb : build ⟨settings, [credential header provider]⟩ "POST" endpoint [] = .ok built) :
    let c : Client := ⟨settings, [credential header provider]⟩
    ∃ fields : Keyed Json, c.credentials now endpoint = .ok (some (.obj fields)) ∧
      fields.Ordered ∧
      Keyed.get? header fields =
        (if (c.standing endpoint header).head? ≠ some t ∧ isPlainValue t = true
          then some (.str t) else none) ∧
      ∀ n, n ≠ header →
        Keyed.get? n fields = (leaking (c.standing endpoint n)).getLast?.map Json.str := by
  intro c
  have hbuilt : built.headers.Sound := sound_build hb
  have ha : c.intercept now built =
      .ok { built with headers := built.headers.insert header t } :=
    (intercept_one settings _ now built).trans (credential_eq_ok.2 ⟨t, ht, rfl⟩)
  obtain ⟨fields, hf, ho, hget⟩ := credentials_eq hb nofun ha (hbuilt.insert hname t)
  refine ⟨fields, hf, ho, ?_, fun n hn => ?_⟩
  · rw [hget, Headers.differing, Headers.values_insert_self, values_build_nil hb]
    by_cases hp : isPlainValue t = true
    · by_cases hd : (c.standing endpoint header).head? = some t
      · simp [c, hd]
      · simp [c, hd, hp]
    · simp [hp]
  · rw [hget, Headers.differing, Headers.values_insert_of_ne hn, values_build_nil hb]
    rfl

/-- A connection says the credential of the moment and nothing else just if there is a request to
take it from, and what else stands in its headers does not come between. -/
theorem says_credential_alone_iff (hname : name? header = some header)
    (ht : Fits (provider now) t) :
    let c : Client := ⟨settings, [credential header provider]⟩
    c.credentials now endpoint = .ok (some (.obj [(header, .str t)])) ↔
      (∃ built, c.build "POST" endpoint [] = .ok built) ∧
        OnlyCredentialDiffers (c.standing endpoint) header t := by
  intro c
  cases hb : c.build "POST" endpoint [] with
  | error e =>
      have hfails : c.credentials now endpoint = .error e := by
        simp [c, credentials, hb, bind, Except.bind]
      rw [hfails]
      exact ⟨nofun, fun ⟨⟨_, h⟩, _⟩ => nomatch h⟩
  | ok built =>
      obtain ⟨fields, hf, ho, hown, hothers⟩ := credentials_credential hname ht hb
      rw [hf]
      constructor
      · intro h
        cases h
        have hsaid : (c.standing endpoint header).head? ≠ some t ∧ isPlainValue t = true := by
          apply Classical.byContradiction
          intro hno
          rw [if_neg hno] at hown
          simp [Keyed.get?] at hown
        refine ⟨⟨built, rfl⟩, hsaid.2, hsaid.1, fun n hn => ?_⟩
        have hnone := hothers n hn
        rw [Keyed.get?, List.lookup_cons, beq_false_of_ne hn] at hnone
        simpa using hnone.symm
      · rintro ⟨-, hd⟩
        rw [if_pos ⟨hd.fresh, hd.plain⟩] at hown
        rw [ho.eq_singleton hown fun n hn => by rw [hothers n hn, hd.others n hn]; rfl]

/-- A default header with one value does not come between, and neither does a user in the URL. -/
theorem says_credential_alone_traced :
    let c : Client := ⟨{ defaultHeaders := [("x-trace", "on")] },
      [credential apiKeyHeader (.fixed "da2-blog")]⟩
    name? apiKeyHeader = some apiKeyHeader ∧
      Fits (TokenProvider.fixed "da2-blog" 0) "da2-blog" ∧
      c.credentials 0 "http://ann@localhost:4000/graphql" =
        .ok (some (.obj [("x-api-key", .str "da2-blog")])) := by
  intro c
  let url := "http://ann@localhost:4000/graphql"
  have hname : name? apiKeyHeader = some apiKeyHeader := by decide +kernel
  have hfits : Fits (TokenProvider.fixed "da2-blog" 0) "da2-blog" := ⟨rfl, by decide +kernel⟩
  have hbuilt : (c.build "POST" url []).toOption.isSome = true := by decide +kernel
  obtain ⟨built, hbuilt⟩ := Option.isSome_iff_exists.1 hbuilt
  refine ⟨hname, hfits, (says_credential_alone_iff hname hfits).2
    ⟨⟨built, eq_ok_of_toOption hbuilt⟩, by decide +kernel, by decide +kernel, fun n _ => ?_⟩⟩
  have htrace : name? "x-trace" = some "x-trace" := by decide +kernel
  by_cases hn : n = "x-trace"
  · rw [hn]
    decide +kernel
  · by_cases ha : n = authorizationHeader
    · rw [ha]
      decide +kernel
    · have hstanding : c.standing url n = [] :=
        (standing_eq_given c url fun _ _ => .inr ha).trans
          (by simp [c, Headers.given, htrace, Ne.symm hn])
      rw [hstanding]
      rfl

/-- A default header with two values is said with the second one, a credential that is also
the first default value of its header is not said, and neither is one that is not in ASCII. -/
theorem says_default_header :
    let c (defaults : List (String × String)) (t : String) : Client :=
      ⟨{ defaultHeaders := defaults }, [credential apiKeyHeader (.fixed t)]⟩
    let url := "http://localhost:4000/graphql"
    (∃ fields, (c [("x-trace", "a"), ("x-trace", "b")] "da2-blog").credentials 0 url =
        .ok (some (.obj fields)) ∧
      Keyed.get? "x-trace" fields = some (.str "b")) ∧
    (∃ fields, (c [("x-api-key", "da2-blog")] "da2-blog").credentials 0 url =
        .ok (some (.obj fields)) ∧
      Keyed.get? "x-api-key" fields = none) ∧
    (∃ fields, (c [] "clé").credentials 0 url = .ok (some (.obj fields)) ∧
      Keyed.get? "x-api-key" fields = none) := by
  intro c url
  have hname : name? apiKeyHeader = some apiKeyHeader := by decide +kernel
  have hfits (t : String) (ht : isValue t = true) : Fits (TokenProvider.fixed t 0) t := ⟨rfl, ht⟩
  refine ⟨?_, ?_, ?_⟩
  · have hb : ((c [("x-trace", "a"), ("x-trace", "b")] "da2-blog").build "POST" url
        []).toOption.isSome = true := by decide +kernel
    obtain ⟨built, hb⟩ := Option.isSome_iff_exists.1 hb
    obtain ⟨fields, hf, -, -, hothers⟩ := credentials_credential hname
      (hfits "da2-blog" (by decide +kernel)) (eq_ok_of_toOption hb)
    have htwo : leaking ((c [("x-trace", "a"), ("x-trace", "b")] "da2-blog").standing url
        "x-trace") = ["b"] := by decide +kernel
    exact ⟨fields, hf, by rw [hothers "x-trace" (by decide), htwo]; rfl⟩
  · have hb : ((c [("x-api-key", "da2-blog")] "da2-blog").build "POST" url
        []).toOption.isSome = true := by decide +kernel
    obtain ⟨built, hb⟩ := Option.isSome_iff_exists.1 hb
    obtain ⟨fields, hf, -, hown, -⟩ := credentials_credential hname
      (hfits "da2-blog" (by decide +kernel)) (eq_ok_of_toOption hb)
    have hfirst : ((c [("x-api-key", "da2-blog")] "da2-blog").standing url apiKeyHeader).head? =
        some "da2-blog" := by decide +kernel
    exact ⟨fields, hf, hown.trans (if_neg fun h => h.1 hfirst)⟩
  · have hb : ((c [] "clé").build "POST" url []).toOption.isSome = true := by decide +kernel
    obtain ⟨built, hb⟩ := Option.isSome_iff_exists.1 hb
    obtain ⟨fields, hf, -, hown, -⟩ := credentials_credential hname
      (hfits "clé" (by decide +kernel)) (eq_ok_of_toOption hb)
    have hplain : ¬ isPlainValue "clé" = true := by decide +kernel
    exact ⟨fields, hf, hown.trans (if_neg fun h => hplain h.2)⟩

end Client
end Switchboard.Http
