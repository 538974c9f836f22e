import Mathlib.Data.List.Induction
import Switchboard.Proofs.Http.Credential

/-!
# Switchboard.Proofs.Http.Draft

The headers of a request that is put together part by part, of a client that has default headers
and for a URL that may name a user.

* `Part.header?`, `lastSet?` — the header that a part sets, and what parts set a header to in the
  end;
* `values_addAll` — in a draft each header has that value and no other;
* `values_appendAll`, `values_build` — building puts it after the values that stand already;
* `Prevails` — of two sources of a header the parts count alone;
* `own_values_prevail_iff` — which holds where no part sets a default header;
* `keeps_default_beside_own` — and fails where one does.
-/

namespace Switchboard.Http

/-- The header that a part sets. -/
def Part.header? : Part → Option (String × String)
  | .header name value => Headers.checked? (name, value)
  | .json (.ok _) => some ("content-type", "application/json")
  | _ => none

/-- What parts set a header to in the end. -/
def lastSet? (name : String) (parts : List Part) : Option String :=
  (parts.filterMap Part.header?).reverse.lookup name

namespace Headers

/-! ## Values -/

/-- Of the values that are set in turn under a name the last one stays. -/
theorem values_foldl_insert (pairs : List (String × String)) (hs : Headers) (name : String) :
    (pairs.foldl (fun hs p => hs.insert p.1 p.2) hs).values name =
      ((pairs.reverse.lookup name).map fun v => [v]).getD (hs.values name) := by
  induction pairs using List.reverseRecOn with
  | nil => rfl
  | append_singleton pairs p ih =>
    rw [List.foldl_append, List.reverse_append, List.reverse_singleton, List.singleton_append,
      List.lookup_cons]
    by_cases hname : name = p.1
    · subst hname
      simp
    · simp only [List.foldl_cons, List.foldl_nil, values_insert_of_ne hname, ih,
        beq_false_of_ne hname]

/-- Values that are appended under a name come after those that it has. -/
theorem values_foldl_append (n : String) (more : List String) (hs : Headers) (name : String) :
    (more.foldl (fun hs v => Headers.append n v hs) hs).values name =
      hs.values name ++ if n = name then more else [] := by
  induction more generalizing hs with
  | nil => simp
  | cons v rest ih =>
    rw [List.foldl_cons, ih]
    by_cases hname : n = name
    · subst hname
      simp
    · simp [values_append_of_ne (Ne.symm hname), hname]

theorem values_cons {p : String × List String} {rest : Headers} (h : Keyed.Ordered (p :: rest))
    (name : String) :
    values name (p :: rest) = (if p.1 = name then p.2 else []) ++ values name rest := by
  have hlt : ∀ k ∈ Keyed.keys rest, p.1 < k := (List.pairwise_cons.1 h).1
  unfold values Keyed.get?
  rw [List.lookup_cons]
  by_cases hname : p.1 = name
  · subst hname
    have hgone : List.lookup p.1 rest = none := Keyed.get?_eq_none_iff.2 fun q hq heq =>
      String.lt_irrefl p.1 (heq ▸ hlt q.1 (List.mem_map_of_mem hq))
    simp [hgone]
  · simp [beq_false_of_ne (Ne.symm hname), hname]

/-- Headers that are appended add their values. -/
theorem values_appendAll {more : Headers} (h : more.Ordered) (hs : Headers) (name : String) :
    (hs.appendAll more).values name = hs.values name ++ more.values name := by
  unfold appendAll
  induction more generalizing hs with
  | nil => simp [values, Keyed.get?]
  | cons p rest ih =>
    have hrest : Keyed.Ordered rest := (List.pairwise_cons.1 h).2
    rw [List.foldl_cons, ih hrest, values_foldl_append, values_cons h, List.append_assoc]

end Headers

/-! ## Drafts -/

namespace Draft

theorem headers_add (d : Draft) (p : Part) :
    (d.add p).headers = p.header?.toList.foldl (fun hs p => hs.insert p.1 p.2) d.headers := by
  cases p with
  | header name value =>
      simp only [add, header, Part.header?]
      cases Headers.checked? (name, value) <;> rfl
  | json value => cases value <;> rfl
  | query | queries | body | timeout => rfl

theorem headers_addAll (d : Draft) (parts : List Part) :
    (d.addAll parts).headers =
      (parts.filterMap Part.header?).foldl (fun hs p => hs.insert p.1 p.2) d.headers := by
  unfold addAll
  induction parts generalizing d with
  | nil => rfl
  | cons p rest ih =>
    rw [List.foldl_cons, ih, headers_add, List.filterMap_cons]
    cases p.header? <;> rfl

/-- Each header of a draft has the value that parts set it to in the end. -/
theorem values_addAll (method url : String) (parts : List Part) (name : String) :
    ({ method, url : Draft }.addAll parts).headers.values name = (lastSet? name parts).toList := by
  rw [headers_addAll, Headers.values_foldl_insert, lastSet?]
  cases (parts.filterMap Part.header?).reverse.lookup name <;> rfl

end Draft

/-! ## Requests -/

namespace Client

variable {c : Client} {method url : String} {parts : List Part} {built : Request}

/-- The headers of a request are those that stand, and after them what the parts set. -/
theorem values_build (h : c.build method url parts = .ok built) (name : String) :
    built.headers.values name = c.standing url name ++ (lastSet? name parts).toList := by
  obtain ⟨hs, -, hvalues, hh⟩ := exists_standing h
  have hown : ({ method, url : Draft }.addAll parts).headers.Sound :=
    Draft.sound_addAll Headers.sound_nil parts
  rw [hh, Headers.values_appendAll hown.ordered, Draft.values_addAll, hvalues]

/-- What the parts set counts alone: a header that they set has the last value that they set it
to and no other, and a default header that they do not set has all its values, after that of a
user in the URL. -/
def Prevails (c : Client) (url : String) (parts : List Part) (built : Request) (name : String) :
    Prop :=
  built.headers.toPairs.filter (fun p => name? p.1 = some name) =
    match lastSet? name parts with
    | some v => [(name, v)]
    | none => (c.standing url name).map fun v => (name, v)

/-- A header of a built request, however its name is spelled. -/
theorem filter_toPairs_build (h : c.build method url parts = .ok built) (name : String) :
    built.headers.toPairs.filter (fun p => name? p.1 = some name) =
      (c.standing url name ++ (lastSet? name parts).toList).map fun v => (name, v) := by
  rw [(sound_build h).filter_toPairs, values_build h]

theorem values_loginHeaders {u : Url} {name : String}
    (h : u.login? = none ∨ name ≠ authorizationHeader) : (loginHeaders u).values name = [] := by
  unfold loginHeaders
  split
  · next hu =>
    have hname : name ≠ authorizationHeader := h.resolve_left (by rw [hu]; nofun)
    simp [Headers.values, Keyed.get?, List.lookup_cons, beq_false_of_ne hname]
  · rfl

/-- Where the URL names no user, and in all headers but that of users, only default values
stand. -/
theorem standing_eq_given {name : String} (c : Client) (url : String)
    (h : ∀ u, Url.ofText? c.settings.idna url = some u →
      u.login? = none ∨ name ≠ authorizationHeader) :
    c.standing url name = Headers.given name c.settings.defaultHeaders := by
  unfold standing
  cases hu : Url.ofText? c.settings.idna url with
  | none => rfl
  | some u => exact congrArg (· ++ _) (values_loginHeaders (h u hu))

/-- A header of a built request has its default values, and after them the last value that parts
set it to; a user that the URL names stands before both, in the header of users.  So what the parts
set counts alone exactly if nothing else is there. -/
theorem own_values_prevail_iff (h : c.build method url parts = .ok built) (name : String) :
    built.headers.toPairs.filter (fun p => name? p.1 = some name) =
      (c.standing url name ++ (lastSet? name parts).toList).map (fun v => (name, v)) ∧
    ((∀ u, Url.ofText? c.settings.idna url = some u →
        u.login? = none ∨ name ≠ authorizationHeader) →
      c.standing url name = Headers.given name c.settings.defaultHeaders) ∧
    (c.Prevails url parts built name ↔
      lastSet? name parts = none ∨ c.standing url name = []) := by
  refine ⟨filter_toPairs_build h name, standing_eq_given c url, ?_⟩
  unfold Prevails
  rw [filter_toPairs_build h]
  cases lastSet? name parts with
  | none => simp
  | some v => cases c.standing url name <;> simp

/-- A header that is set twice and one that is there by default only, with both its values. -/
theorem own_values_prevail_traced :
    let c : Client := ⟨{ defaultHeaders := [("x-trace", "a"), ("X-Trace", "b")] }, []⟩
    let parts : List Part := [.header "Accept" "text/plain", .json (.ok .null),
      .header "accept" "application/json"]
    let url := "http://localhost:4000/graphql"
    ∃ built, c.build "POST" url parts = .ok built ∧
      c.Prevails url parts built "accept" ∧ c.Prevails url parts built "x-trace" := by
  intro c parts url
  have hb : (c.build "POST" url parts).toOption.isSome = true := by decide +kernel
  obtain ⟨built, hb⟩ := Option.isSome_iff_exists.1 hb
  have hbuilt := eq_ok_of_toOption hb
  exact ⟨built, hbuilt, (own_values_prevail_iff hbuilt "accept").2.2.2 (.inr (by decide +kernel)),
    (own_values_prevail_iff hbuilt "x-trace").2.2.2 (.inl (by decide +kernel))⟩

/-- A default header that a part sets has both values. -/
theorem keeps_default_beside_own :
    let c : Client := ⟨{ defaultHeaders := [("x-trace", "default")] }, []⟩
    let parts : List Part := [.header "X-Trace" "own"]
    let url := "https://api.example.com/items"
    ∃ built, c.build "GET" url parts = .ok built ∧
      lastSet? "x-trace" parts = some "own" ∧
      built.headers.toPairs.filter (fun p => name? p.1 = some "x-trace") =
        [("x-trace", "default"), ("x-trace", "own")] ∧
      ¬ c.Prevails url parts built "x-trace" := by
  intro c parts url
  have hb : (c.build "GET" url parts).toOption.isSome = true := by decide +kernel
  obtain ⟨built, hb⟩ := Option.isSome_iff_exists.1 hb
  have hbuilt := eq_ok_of_toOption hb
  have hset : lastSet? "x-trace" parts = some "own" := by decide +kernel
  have hboth : built.headers.toPairs.filter (fun p => name? p.1 = some "x-trace") =
      [("x-trace", "default"), ("x-trace", "own")] := by
    have hdefault : c.standing url "x-trace" = ["default"] := by decide +kernel
    rw [filter_toPairs_build hbuilt, hset, hdefault]
    rfl
  refine ⟨built, hbuilt, hset, hboth, ?_⟩
  unfold Prevails
  rw [hboth, hset]
  simp

end Client
end Switchboard.Http
