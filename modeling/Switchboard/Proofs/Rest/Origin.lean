import Switchboard.Proofs.Url.Origin
import Switchboard.Rest.Request

/-!
# Switchboard.Proofs.Rest.Origin

Where REST requests go, given where their API is.

* `slashed`, `url_eq` — a request goes to the endpoint without the slashes at its end, and from
  there along its path;
* `origin?` — the scheme and the authority of a place;
* `Bare` — an endpoint that is a scheme and slashes, and nothing else;
* `url_keeps_origin_iff` — from any other endpoint no path leads to another host;
* `url_leaves_bare_endpoint` — from this one a path does.
-/

namespace Switchboard.Rest

/-! ## Paths -/

/-- A path with a slash in front, unless it is empty. -/
def slashed (path : String) : String :=
  match path.toList with
  | [] => ""
  | '/' :: _ => path
  | _ => "/" ++ path

theorem isTail_slashed (path : String) : Url.IsTail (slashed path).toList := by
  unfold slashed
  split
  · exact .inl rfl
  · next rest heq => exact .inr ⟨rest, heq⟩
  · exact .inr ⟨path.toList, by rw [String.toList_append]; rfl⟩

/-- A path that is not empty gets a slash in front, and one that has it gets no other. -/
theorem slashed_slash_append (path : String) : slashed ("/" ++ path) = "/" ++ path := by
  have hlist : ("/" ++ path).toList = '/' :: path.toList := String.toList_append
  simp [slashed, hlist]

theorem slashed_eq {path : String} (hne : path ≠ "") (h : ∀ rest, path ≠ "/" ++ rest) :
    slashed path = "/" ++ path := by
  unfold slashed
  split
  · next heq => exact absurd (String.toList_eq_nil_iff.1 heq) hne
  · next rest heq =>
      refine absurd (String.toList_inj.1 ?_) (h (String.ofList rest))
      simp [heq]
  · rfl

/-! ## Origins -/

/-- What ends an authority. -/
def isEnd (c : Char) : Bool := c = '/' || c = '?' || c = '#'

/-- The scheme and the authority of a place: what stands before `://`, and what stands between
that and the next slash, question mark or number sign, or the end. -/
def origin? (place : String) : Option (String × String) :=
  match place.toList.takeWhile (· ≠ ':'), place.toList.dropWhile (· ≠ ':') with
  | scheme, ':' :: '/' :: '/' :: rest =>
    some (String.ofList scheme, String.ofList (rest.takeWhile fun c => !isEnd c))
  | _, _ => none

theorem origin?_append (s : Scheme) (rest : String) :
    origin? (s.text ++ rest) =
      some (s.name, String.ofList (rest.toList.takeWhile fun c => !isEnd c)) := by
  unfold origin?
  rw [String.toList_append]
  cases s <;> rfl

/-- What comes after an authority is no part of it. -/
theorem origin?_append_tail (s : Scheme) (base : String) {tail : String}
    (h : Url.IsTail tail.toList) :
    origin? (s.text ++ (base ++ tail)) = origin? (s.text ++ base) := by
  have hstop : tail.toList.takeWhile (fun c => !isEnd c) = [] := by
    rcases h with hnil | ⟨path, hpath⟩
    · rw [hnil, List.takeWhile_nil]
    · rw [hpath]
      exact List.takeWhile_cons_of_neg (by decide)
  rw [origin?_append, origin?_append, String.toList_append, takeWhile_append_of_stop hstop]

/-- An endpoint that is a scheme and slashes, and nothing else. -/
def Bare (endpoint : String) : Prop := ∃ (s : Scheme) (n : Nat), endpoint = s.text ++ slashes n

namespace Request

/-! ## Joining -/

theorem trimSlashes_append_slashes (s : String) (n : Nat) :
    trimSlashes (s ++ slashes n) = trimSlashes s := by
  have hlist : (s.toList ++ (slashes n).toList).rdropWhile (fun c => decide (c = '/')) =
      s.toList.rdropWhile (fun c => decide (c = '/')) :=
    rdropWhile_append_of_forall fun c hc => decide_eq_true (eq_of_mem_slashes hc)
  unfold trimSlashes
  rw [String.toList_append]
  exact congrArg String.ofList hlist

/-- A request goes to the endpoint without the slashes at its end, and from there along its
path. -/
theorem url_eq (r : Request) (endpoint : String) :
    r.url endpoint = trimSlashes endpoint ++ slashed r.options.path := by
  cases hpath : r.options.path.toList with
  | nil => simp [url, slashed, hpath]
  | cons c rest =>
      by_cases hc : c = '/'
      · subst hc
        simp [url, slashed, hpath]
      · simp [url, slashed, hpath, hc, String.append_assoc]

theorem trimSlashes_eq_self {front : List Char} {c : Char} (h : c ≠ '/') :
    trimSlashes (String.ofList (front ++ [c])) = String.ofList (front ++ [c]) := by
  have hkeep : (front ++ [c]).rdropWhile (fun d => decide (d = '/')) = front ++ [c] :=
    List.rdropWhile_concat_neg _ front c (by simpa using h)
  unfold trimSlashes
  rw [String.toList_ofList]
  exact congrArg String.ofList hkeep

/-- Every text is one that does not end in a slash, and slashes after it. -/
theorem exists_eq_append_slashes (text : String) :
    ∃ (base : List Char) (n : Nat), text = String.ofList base ++ slashes n ∧
      ∀ front c, base = front ++ [c] → c ≠ '/' := by
  obtain ⟨ends, htext, hends⟩ := exists_eq_rdropWhile_append (fun c => decide (c = '/')) text.toList
  have hslashes : ends = List.replicate ends.length '/' :=
    List.eq_replicate_of_mem fun c hc => of_decide_eq_true (hends c hc)
  refine ⟨text.toList.rdropWhile fun c => decide (c = '/'), ends.length, ?_, ?_⟩
  · apply String.toList_inj.1
    rw [String.toList_append, slashes, String.toList_ofList, String.toList_ofList, ← hslashes]
    exact htext
  · intro front c hbase
    have hlast := List.rdropWhile_last_not (fun c => decide (c = '/')) text.toList (by simp [hbase])
    simpa [hbase] using hlast

/-- An endpoint that is not bare loses the slashes at its end and keeps those of its scheme. -/
theorem exists_base {s : Scheme} {rest : String} (h : ¬ Bare (s.text ++ rest)) :
    ∃ (base : String) (n : Nat), rest = base ++ slashes n ∧
      trimSlashes (s.text ++ rest) = s.text ++ base := by
  obtain ⟨base, n, rfl, hbase⟩ := exists_eq_append_slashes rest
  refine ⟨String.ofList base, n, rfl, ?_⟩
  rcases List.eq_nil_or_concat' base with rfl | ⟨front, c, rfl⟩
  · exact absurd ⟨s, n, by simp⟩ h
  · have hjoin : s.text ++ String.ofList (front ++ [c]) =
        String.ofList ((s.text.toList ++ front) ++ [c]) := by
      apply String.toList_inj.1
      simp
    rw [← String.append_assoc, trimSlashes_append_slashes, hjoin]
    exact trimSlashes_eq_self (hbase front c rfl)

/-- Of a bare endpoint the slashes of the scheme are lost too. -/
theorem trimSlashes_bare (s : Scheme) (n : Nat) :
    trimSlashes (s.text ++ slashes n) = s.name ++ ":" := by
  rw [trimSlashes_append_slashes]
  cases s <;> rfl

/-! ## Requests -/

theorem url_append_slashes (r : Request) (endpoint : String) (n : Nat) :
    r.url (endpoint ++ slashes n) = r.url endpoint := by
  rw [url_eq, url_eq, trimSlashes_append_slashes]

theorem url_slash_append {method : Method} {options : Options} (hne : options.path ≠ "")
    (h : ∀ rest, options.path ≠ "/" ++ rest) (endpoint : String) :
    url ⟨method, options⟩ endpoint =
      url ⟨method, { options with path := "/" ++ options.path }⟩ endpoint := by
  rw [url_eq, url_eq, slashed_eq hne h, slashed_slash_append]

theorem origin?_url {s : Scheme} {rest : String} (h : ¬ Bare (s.text ++ rest)) (r : Request) :
    origin? (r.url (s.text ++ rest)) = origin? (s.text ++ rest) := by
  obtain ⟨base, n, rfl, htrim⟩ := exists_base h
  rw [url_eq, htrim, String.append_assoc, origin?_append_tail s base (isTail_slashed _),
    origin?_append_tail s base (Url.isTail_slashes n)]

/-- Without the slashes of its scheme a place has no authority. -/
theorem origin?_url_bare {endpoint : String} (h : Bare endpoint) :
    origin? (url ⟨.get, {}⟩ endpoint) = none := by
  obtain ⟨s, n, rfl⟩ := h
  rw [url_eq, trimSlashes_bare]
  cases s <;> rfl

/-- A request goes to the host that its endpoint names, as the user that it names. -/
theorem ofText?_url {idna : Url.Idna} {s : Scheme} {rest : String} {r : Request} {u v : Url}
    (hu : Url.ofText? idna (s.text ++ rest) = some u)
    (hv : Url.ofText? idna (r.url (s.text ++ rest)) = some v) :
    v.scheme = u.scheme ∧ v.user = u.user ∧ v.password = u.password ∧ v.host = u.host ∧
      v.port = u.port := by
  by_cases hbare : Bare (s.text ++ rest)
  · obtain ⟨t, n, hbare⟩ := hbare
    rw [hbare] at hu
    cases (Url.ofText?_slashes idna t n).symm.trans hu
  · obtain ⟨base, n, rfl, htrim⟩ := exists_base hbare
    rw [url_eq, htrim, String.append_assoc] at hv
    obtain ⟨hscheme, hhost, hsite⟩ := Url.ofText?_origin (isTail_slashed _) hu hv
    exact ⟨hscheme, congrArg Url.Site.user hsite, congrArg Url.Site.password hsite, hhost,
      congrArg Url.Site.port hsite⟩

/-- A request keeps the scheme and the authority of its endpoint, whatever its path is, exactly if
the endpoint is not bare; and wherever the endpoint is a URL, the request goes to its host, as its
user, whatever hosts outside ASCII are called.  Slashes at the end of the endpoint make no
difference, and neither does a slash in front of the path. -/
theorem url_keeps_origin_iff {api : Api} (h : api.validate = .ok ()) :
    (∃ o, origin? api.endpoint = some o ∧
      ((∀ r : Request, origin? (r.url api.endpoint) = some o) ↔ ¬ Bare api.endpoint)) ∧
    (∀ (idna : Url.Idna) (r : Request) (u v : Url), Url.ofText? idna api.endpoint = some u →
      Url.ofText? idna (r.url api.endpoint) = some v →
        v.scheme = u.scheme ∧ v.user = u.user ∧ v.password = u.password ∧ v.host = u.host ∧
          v.port = u.port) ∧
    (∀ (r : Request) (n : Nat), r.url (api.endpoint ++ slashes n) = r.url api.endpoint) ∧
    ∀ (method : Method) (options : Options),
      options.path ≠ "" → (∀ rest, options.path ≠ "/" ++ rest) →
        url ⟨method, options⟩ api.endpoint =
          url ⟨method, { options with path := "/" ++ options.path }⟩ api.endpoint := by
  obtain ⟨s, rest, hs⟩ := Rule.hasScheme_iff.1 (Api.validate_eq_ok.1 h).url
  have horigin := origin?_append s rest
  rw [hs]
  refine ⟨⟨_, horigin, ?_, ?_⟩, fun idna r u v => ofText?_url, fun r n => url_append_slashes r _ n,
    fun method options hne hslash => url_slash_append hne hslash _⟩
  · intro hkept hbare
    cases (origin?_url_bare hbare).symm.trans (hkept ⟨.get, {}⟩)
  · intro hbare r
    rw [origin?_url hbare, horigin]

/-- Whatever the path is, requests to an entry go to the host that its endpoint names. -/
theorem url_keeps_origin_shop :
    let shop : Api := {
      Api.create "shop" "https://api.example.com/prod/" with endpointType := .rest }
    shop.validate = .ok () ∧
      ∀ r : Request, origin? (r.url shop.endpoint) = some ("https", "api.example.com") := by
  intro shop
  have h : shop.validate = .ok () := eq_ok_of_toOption (by decide +kernel)
  obtain ⟨⟨o, ho, hiff⟩, -⟩ := url_keeps_origin_iff h
  have horigin : some ("https", "api.example.com") = some o := .trans (by decide +kernel) ho
  cases horigin
  refine ⟨h, hiff.2 ?_⟩
  rintro ⟨s, n, hbare⟩
  have hrest := (@Scheme.eq_of_text_append .https s "api.example.com/prod/" _ hbare).2
  have hmem : 'a' ∈ (slashes n).toList := hrest ▸ by decide
  cases eq_of_mem_slashes hmem

/-- A valid entry whose endpoint is a scheme only, and a request whose path takes it to another
host. -/
theorem url_leaves_bare_endpoint :
    let shop : Api := { Api.create "shop" "https://" with endpointType := .rest }
    shop.validate = .ok () ∧ ∃ r, create .get { path := "//evil.example.com/items" } = .ok r ∧
      r.url shop.endpoint = "https://evil.example.com/items" ∧
      origin? (r.url shop.endpoint) ≠ origin? shop.endpoint := by
  intro shop
  refine ⟨eq_ok_of_toOption (by decide +kernel), _, rfl, by decide +kernel, by decide +kernel⟩

end Request
end Switchboard.Rest
