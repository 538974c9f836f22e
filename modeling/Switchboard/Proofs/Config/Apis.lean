import Switchboard.Config.Apis
import Switchboard.Proofs.Config.Entry
import Switchboard.Proofs.Text.Order

/-!
# Switchboard.Proofs.Config.Apis

Configurations.  Whichever way one comes to be, it holds valid entries under their own names,
and it depends on the entries alone.

* `Sound`, `Reachable.sound` — all configurations that can be had are sound;
* `foldlM_insert` — adding entries one by one, in any order;
* `insertAll_eq_foldlM` — an object of entries is read entry by entry;
* `ofJson_eq_ok`, `ofJson_eq_error` — when an object is a configuration, and what is reported
  of the others;
* `read_as_built` — reading and building give the same.
-/

namespace Switchboard.Apis

variable {apis apis' : Apis} {api : Api} {e : ConfigError}

/-! ## Adding an entry -/

theorem insert_eq_ok :
    apis.insert api = .ok apis' ↔ api.validate = .ok () ∧
      api.name ∉ apis.entries.keys ∧ apis' = ⟨Keyed.set api.name api apis.entries⟩ := by
  rw [insert, check_eq_ok, ← Keyed.has_iff_mem_keys]
  cases Keyed.has api.name apis.entries <;> simp [eq_comm]

/-- Every entry is valid and stands under its own name. -/
structure Sound (apis : Apis) : Prop where
  ordered : apis.entries.Ordered
  named : ∀ p ∈ apis.entries, p.1 = p.2.name
  valid : ∀ p ∈ apis.entries, p.2.validate = .ok ()

theorem sound_empty : Sound empty := ⟨List.Pairwise.nil, nofun, nofun⟩

theorem Sound.insert (h : apis.Sound) (hi : apis.insert api = .ok apis') : apis'.Sound := by
  obtain ⟨hvalid, -, rfl⟩ := insert_eq_ok.1 hi
  refine ⟨h.ordered.set _ _, fun p hp => ?_, fun p hp => ?_⟩
  · rcases Keyed.mem_of_mem_set hp with rfl | hp
    · rfl
    · exact h.named p hp
  · rcases Keyed.mem_of_mem_set hp with rfl | hp
    · exact hvalid
    · exact h.valid p hp

/-! ## Adding entries one by one -/

/-- The configuration of some entries. -/
def ofList (configured : List Api) : Apis :=
  ⟨Keyed.ofList (configured.map fun api => (api.name, api))⟩

/-- Valid entries of new and different names can be added one by one. -/
theorem foldlM_insert {more : List Api} (hvalid : ∀ api ∈ more, api.validate = .ok ())
    (hnames : (more.map (·.name)).Nodup) (hnew : ∀ api ∈ more, api.name ∉ apis.entries.keys) :
    more.foldlM insert apis =
      .ok ⟨(more.map fun api => (api.name, api)).foldl
        (fun acc p => Keyed.set p.1 p.2 acc) apis.entries⟩ := by
  induction more generalizing apis with
  | nil => rfl
  | cons api rest ih =>
      obtain ⟨hname, hrest⟩ := List.nodup_cons.1 hnames
      have hi := insert_eq_ok.2 ⟨hvalid api List.mem_cons_self, hnew api List.mem_cons_self, rfl⟩
      rw [List.foldlM_cons, hi]
      refine ih (fun a ha => hvalid a (List.mem_cons_of_mem api ha)) hrest fun a ha hmem => ?_
      rcases Keyed.mem_keys_set.1 hmem with heq | hmem
      · exact hname (List.mem_map.2 ⟨a, ha, heq⟩)
      · exact hnew a (List.mem_cons_of_mem api ha) hmem

variable {configured : List Api}

theorem foldlM_insert_empty (hvalid : ∀ api ∈ configured, api.validate = .ok ())
    (hnames : (configured.map (·.name)).Nodup) :
    configured.foldlM insert empty = .ok (ofList configured) :=
  foldlM_insert hvalid hnames fun _ _ => List.not_mem_nil

theorem nodup_keys (hnames : (configured.map (·.name)).Nodup) :
    ((configured.map fun api => (api.name, api)).map (·.1)).Nodup := by
  rwa [List.map_map]

/-- A configuration holds the entries that were added. -/
theorem toList_ofList (hnames : (configured.map (·.name)).Nodup) :
    (ofList configured).toList.Perm configured := by
  have hperm := (Keyed.ofList_perm (nodup_keys hnames)).map (·.2)
  have hself : configured.map ((·.2) ∘ fun api => (api.name, api)) = configured :=
    List.map_id configured
  rwa [List.map_map, hself] at hperm

/-- The order in which entries are added does not count. -/
theorem ofList_congr {order : List Api} (hnames : (configured.map (·.name)).Nodup)
    (hperm : order.Perm configured) : ofList order = ofList configured :=
  congrArg Apis.mk (Keyed.ofList_congr (nodup_keys hnames) (hperm.map _))

/-! ## Reading an object of entries -/

variable {entries : List (String × Json)}

theorem insertAll_append (apis : Apis) (xs ys : List (String × Json)) :
    insertAll apis (xs ++ ys) = insertAll apis xs >>= fun apis => insertAll apis ys := by
  induction xs generalizing apis with
  | nil => rfl
  | cons p rest ih => simp only [List.cons_append, insertAll, ih, bind_assoc]

/-- Entries that are read are added one by one. -/
theorem insertAll_eq_foldlM {read : List Api}
    (h : entries.map (fun p => Api.ofJson p.1 p.2) = read.map .ok) (apis : Apis) :
    insertAll apis entries = read.foldlM insert apis := by
  induction entries generalizing apis read with
  | nil =>
      cases read with
      | nil => rfl
      | cons api rest => cases h
  | cons p rest ih =>
      cases read with
      | nil => cases h
      | cons api more =>
          obtain ⟨hp, hrest⟩ := List.cons.inj h
          dsimp only at hp
          rw [insertAll, hp, List.foldlM_cons]
          exact congrArg (_ >>= ·) (funext fun apis => ih hrest apis)

/-- The first entry that is not one is reported. -/
theorem insertAll_of_fault {p : String × Json} (h : Api.Fault p.1 p.2 e) (apis : Apis)
    (rest : List (String × Json)) : insertAll apis (p :: rest) = .error e := by
  rw [insertAll]
  cases h with
  | unread reads => rw [reads]; rfl
  | invalid reads breaks =>
      rw [reads]
      show (Apis.insert _ _ >>= _) = _
      rw [Apis.insert, breaks]
      rfl

/-- Entries that can be used are all read, each under its name. -/
theorem exists_read (h : ∀ p ∈ entries, Api.Fits p.1 p.2) :
    ∃ read : List Api, entries.map (fun p => Api.ofJson p.1 p.2) = read.map .ok ∧
      (∀ api ∈ read, api.validate = .ok ()) ∧ read.map (·.name) = entries.map (·.1) := by
  induction entries with
  | nil => exact ⟨[], rfl, nofun, rfl⟩
  | cons p rest ih =>
      obtain ⟨hp, hrest⟩ := List.forall_mem_cons.1 h
      obtain ⟨api, hread, hvalid⟩ := hp
      obtain ⟨read, hreads, hvalids, hnames⟩ := ih hrest
      refine ⟨api :: read, ?_, List.forall_mem_cons.2 ⟨hvalid, hvalids⟩, ?_⟩
      · rw [List.map_cons, List.map_cons, hread, hreads]
      · rw [List.map_cons, List.map_cons, Api.name_of_ofJson hread, hnames]

/-- Entries that can be used are a configuration, if no name comes twice. -/
theorem insertAll_of_fits (hnames : (entries.map (·.1)).Nodup)
    (h : ∀ p ∈ entries, Api.Fits p.1 p.2) : ∃ apis, insertAll empty entries = .ok apis := by
  obtain ⟨read, hreads, hvalid, hread⟩ := exists_read h
  refine ⟨ofList read, ?_⟩
  rw [insertAll_eq_foldlM hreads, foldlM_insert_empty hvalid (hread ▸ hnames)]

/-- Entries that were added could be used, and are all there. -/
theorem insertAll_keeps (h : insertAll apis entries = .ok apis') :
    (∀ name ∈ apis.entries.keys, name ∈ apis'.entries.keys) ∧
      ∀ p ∈ entries, Api.Fits p.1 p.2 ∧ p.1 ∈ apis'.entries.keys := by
  induction entries generalizing apis with
  | nil =>
      cases h
      exact ⟨fun _ hname => hname, nofun⟩
  | cons p rest ih =>
      obtain ⟨api, hread, h⟩ := bind_eq_ok.1 h
      obtain ⟨next, hi, hrest⟩ := bind_eq_ok.1 h
      obtain ⟨hvalid, -, rfl⟩ := insert_eq_ok.1 hi
      obtain ⟨hkept, hall⟩ := ih hrest
      have hread' : Api.ofJson p.1 p.2 = .ok api := by
        cases hp : Api.ofJson p.1 p.2 with
        | error e => rw [hp] at hread; cases hread
        | ok read => rw [hp] at hread; cases hread; rfl
      refine ⟨fun name hname => hkept name (Keyed.mem_keys_set.2 (.inr hname)),
        List.forall_mem_cons.2 ⟨⟨⟨api, hread', hvalid⟩, hkept p.1 ?_⟩, hall⟩⟩
      exact Keyed.mem_keys_set.2 (.inl (Api.name_of_ofJson hread').symm)

theorem nodup_of_ordered {entries : Keyed Json} (h : entries.Ordered) :
    (entries.map (·.1)).Nodup :=
  h.imp fun hlt => String.ne_of_lt hlt

/-- An object is a configuration, or has a first entry that is not one, which is reported. -/
theorem insertAll_cases {entries : Keyed Json} (h : entries.Ordered) :
    (∀ p ∈ entries, Api.Fits p.1 p.2) ∧ (∃ apis, insertAll empty entries = .ok apis) ∨
      ∃ p ∈ entries, ¬ Api.Fits p.1 p.2 ∧
        (∀ q ∈ entries, ¬ Api.Fits q.1 q.2 → q = p ∨ p.1 < q.1) ∧
        ∀ e, Api.Fault p.1 p.2 e → insertAll empty entries = .error e := by
  rcases exists_first (fun p => Api.Fits p.1 p.2) entries with
    hall | ⟨before, p, after, rfl, hbefore, hp⟩
  · exact .inl ⟨hall, insertAll_of_fits (nodup_of_ordered h) hall⟩
  · have hsplit : (before.map (·.1) ++ p.1 :: after.map (·.1)).Pairwise (· < ·) := by
      simpa [Keyed.Ordered, Keyed.keys] using h
    obtain ⟨hfirst, hlast, -⟩ := List.pairwise_append.1 hsplit
    refine .inr ⟨p, by simp, hp, fun q hq hunfit => ?_, fun e he => ?_⟩
    · rcases List.mem_append.1 hq with hq | hq
      · exact absurd (hbefore q hq) hunfit
      · rcases List.mem_cons.1 hq with rfl | hq
        · exact .inl rfl
        · exact .inr ((List.pairwise_cons.1 hlast).1 q.1 (List.mem_map_of_mem hq))
    · obtain ⟨apis, hok⟩ := insertAll_of_fits (nodup_of_ordered hfirst) hbefore
      rw [insertAll_append, hok]
      exact insertAll_of_fault he apis after

/-- An object is a configuration if each of its entries is one under its key. -/
theorem ofJson_eq_ok {entries : Keyed Json} (h : entries.Ordered) :
    (∃ apis, ofJson (.obj entries) = .ok apis) ↔ ∀ p ∈ entries, Api.Fits p.1 p.2 := by
  show (∃ apis, insertAll empty entries = .ok apis) ↔ _
  rcases insertAll_cases h with ⟨hall, hok⟩ | ⟨p, hp, hunfit, -, hfault⟩
  · exact ⟨fun _ => hall, fun _ => hok⟩
  · obtain ⟨e, he⟩ := Api.not_fits_iff.1 hunfit
    refine ⟨fun ⟨apis, hok⟩ => ?_, fun hall => absurd (hall p hp) hunfit⟩
    cases hok.symm.trans (hfault e he)

/-- Otherwise what is reported is wrong with the entry of the first name, of those that are
none. -/
theorem ofJson_eq_error {entries : Keyed Json} (h : entries.Ordered) :
    ofJson (.obj entries) = .error e ↔ ∃ p ∈ entries, Api.Fault p.1 p.2 e ∧
      ∀ q ∈ entries, ¬ Api.Fits q.1 q.2 → Text.encode p.1 ≤ Text.encode q.1 := by
  show insertAll empty entries = .error e ↔ _
  rcases insertAll_cases h with ⟨hall, apis, hok⟩ | ⟨p, hp, hunfit, hleast, hfault⟩
  · constructor
    · intro herror
      cases hok.symm.trans herror
    · rintro ⟨q, hq, hfault, -⟩
      exact absurd (hall q hq) hfault.not_fits
  · constructor
    · intro herror
      obtain ⟨e', he'⟩ := Api.not_fits_iff.1 hunfit
      cases herror.symm.trans (hfault e' he')
      refine ⟨p, hp, he', fun q hq hq' => Text.encode_le_iff.2 ?_⟩
      rcases hleast q hq hq' with rfl | hlt
      · exact String.le_refl _
      · exact String.not_lt.1 (String.lt_asymm hlt)
    · rintro ⟨q, hq, he, hmin⟩
      rcases hleast q hq he.not_fits with rfl | hlt
      · exact hfault e he
      · exact absurd hlt (Text.encode_le_iff.1 (hmin p hp hunfit))

/-! ## What is written -/

theorem Sound.map_name_toList (h : apis.Sound) :
    apis.toList.map (·.name) = apis.entries.keys := by
  rw [toList, List.map_map]
  exact List.map_congr_left fun p hp => (h.named p hp).symm

/-- Names are distinct and in order. -/
theorem Sound.pairwise_name (h : apis.Sound) :
    (apis.toList.map (·.name)).Pairwise (· < ·) := by
  rw [h.map_name_toList]
  exact h.ordered

/-- A configuration is the one of its own entries. -/
theorem Sound.ofList_toList (h : apis.Sound) : ofList apis.toList = apis := by
  have hentries : apis.toList.map (fun api => (api.name, api)) = apis.entries := by
    rw [toList, List.map_map]
    refine (List.map_congr_left fun p hp => ?_).trans (List.map_id apis.entries)
    exact Prod.ext (h.named p hp).symm rfl
  rw [ofList, hentries, h.ordered.ofList_eq]

theorem Sound.valid_of_mem (h : apis.Sound) (hapi : api ∈ apis.toList) : api.Valid := by
  obtain ⟨p, hp, rfl⟩ := List.mem_map.1 hapi
  exact Api.validate_eq_ok.1 (h.valid p hp)

theorem sound_foldlM {more : List Api} (h : apis.Sound)
    (hm : more.foldlM insert apis = .ok apis') : apis'.Sound := by
  induction more generalizing apis with
  | nil => cases hm; exact h
  | cons api rest ih =>
      obtain ⟨next, hi, hrest⟩ := bind_eq_ok.1 hm
      exact ih (h.insert hi) hrest

/-- Entries that are written under their names are read back. -/
theorem ofJson_written (hvalid : ∀ api ∈ configured, api.validate = .ok ())
    (hnames : (configured.map (·.name)).Nodup) :
    ofJson (.object (configured.map fun api => (api.name, api.toJson))) =
      .ok (ofList configured) := by
  have hsound := sound_foldlM sound_empty (foldlM_insert_empty hvalid hnames)
  have hperm := toList_ofList hnames
  -- The object and the configuration hold the entries in the same order, that of the names.
  have hwritten : Keyed.ofList (configured.map fun api => (api.name, api.toJson)) =
      (ofList configured).toList.map fun api => (api.name, api.toJson) := by
    refine (Keyed.ordered_ofList _).eq_of_perm ?_ ((Keyed.ofList_perm ?_).trans (hperm.map _).symm)
    · show (List.map _ (List.map _ _)).Pairwise _
      rw [List.map_map]
      exact hsound.pairwise_name
    · rwa [List.map_map]
  have hread : ((ofList configured).toList.map fun api => (api.name, api.toJson)).map
      (fun p => Api.ofJson p.1 p.2) = (ofList configured).toList.map .ok := by
    rw [List.map_map]
    exact List.map_congr_left fun api _ => api.ofJson_toJson
  show insertAll empty (Keyed.ofList _) = _
  rw [hwritten, insertAll_eq_foldlM hread, foldlM_insert_empty, ofList_congr hnames hperm]
  · exact fun api hapi => hvalid api (hperm.mem_iff.1 hapi)
  · exact (hperm.map _).nodup_iff.2 hnames

/-- Valid entries of different names give one configuration, whichever comes first, and that is
what is read of the object that they are written as.  An object is a configuration if each of
its entries is one under its key, and if not, what is wrong with the first is reported; the
name that an entry gives itself does not count. -/
theorem read_as_built :
    (∀ configured : List Api, (∀ api ∈ configured, api.validate = .ok ()) →
      (configured.map (·.name)).Nodup →
      ∃ apis : Apis, apis.toList.Perm configured ∧
        (∀ order : List Api, order.Perm configured → order.foldlM insert empty = .ok apis) ∧
        ofJson (.object (configured.map fun api => (api.name, api.toJson))) = .ok apis) ∧
    (∀ entries : Keyed Json, entries.Ordered →
      ((∃ apis, ofJson (.obj entries) = .ok apis) ↔ ∀ p ∈ entries, Api.Fits p.1 p.2) ∧
      ∀ e, ofJson (.obj entries) = .error e ↔ ∃ p ∈ entries, Api.Fault p.1 p.2 e ∧
        ∀ q ∈ entries, ¬ Api.Fits q.1 q.2 → Text.encode p.1 ≤ Text.encode q.1) ∧
    (∀ name j j', Api.Renamed j j' → Api.ofJson name j = Api.ofJson name j') := by
  refine ⟨fun configured hvalid hnames => ?_, fun entries h => ⟨ofJson_eq_ok h, fun e =>
    ofJson_eq_error h⟩, fun name j j' h => Api.ofJson_renamed h name⟩
  refine ⟨ofList configured, toList_ofList hnames, fun order hperm => ?_,
    ofJson_written hvalid hnames⟩
  rw [← ofList_congr hnames hperm]
  exact foldlM_insert_empty (fun api hapi => hvalid api (hperm.mem_iff.1 hapi))
    ((hperm.map _).nodup_iff.2 hnames)

/-- Two entries with much of what can be set.  Of another object the first entry gives itself a
name that does not count, and the second has no endpoint. -/
theorem read_as_built_posts :
    let posts : Api := {
      name := "posts", endpoint := "https://posts.example.com/graphql"
      realtimeEndpoint := some "wss://live.example.com", authorization := .apiKey
      apiKey := some "da2-posts" }
    let media : Api := {
      name := "Media", endpointType := .rest, endpoint := "https://media.example.com"
      authorization := .awsIam, region := some "eu-west-1" }
    let entry : Json := .obj [("endpoint", .str "http://a"), ("name", .str "z")]
    let nowhere : Json := .obj [("apiKey", .str "da2-b"), ("authorizationType", .str "API_KEY")]
    let entries : Keyed Json := [("a", entry), ("b", nowhere), ("c", .null)]
    (∀ api ∈ [posts, media], api.validate = .ok ()) ∧ ([posts, media].map (·.name)).Nodup ∧
      (∃ apis, [media, posts].foldlM insert empty = .ok apis ∧
        ofJson (.object [("posts", posts.toJson), ("Media", media.toJson)]) = .ok apis) ∧
      entries.Ordered ∧
      ofJson (.obj entries) = .error (.decode "API 'b': missing field `endpoint`") ∧
      Api.ofJson "a" entry = Api.ofJson "a" (.obj [("endpoint", .str "http://a")]) := by
  intro posts media entry nowhere entries
  have hvalid : ∀ api ∈ [posts, media], api.validate = .ok () := by
    have hchecked : ∀ api ∈ [posts, media], api.validate.toOption = some () := by decide +kernel
    exact fun api hapi => eq_ok_of_toOption (hchecked api hapi)
  have hnames : ([posts, media].map (·.name)).Nodup := by decide
  have hordered : entries.Ordered := by unfold Keyed.Ordered; decide
  have hendpoint : Keyed.Ordered [("endpoint", Json.str "http://a")] := by
    unfold Keyed.Ordered; decide
  have hfits : Api.Fits "a" entry :=
    ⟨Api.create "a" "http://a", rfl, eq_ok_of_toOption (by decide +kernel)⟩
  have hfault : Api.Fault "b" nowhere (.decode "API 'b': missing field `endpoint`") :=
    @Api.Fault.unread "b" nowhere (.missingField "endpoint") rfl
  obtain ⟨hbuilt, hread, hrenamed⟩ := read_as_built
  obtain ⟨apis, -, horder, hwritten⟩ := hbuilt [posts, media] hvalid hnames
  refine ⟨hvalid, hnames, ⟨apis, horder _ (.swap _ _ _), hwritten⟩, hordered, ?_,
    hrenamed "a" _ _ (.dropped (hendpoint : Keyed.Ordered [("endpoint", .str "http://a")]) "z")⟩
  refine ((hread entries hordered).2 _).2 ⟨("b", nowhere), by simp [entries], hfault, ?_⟩
  intro q hq hunfit
  simp only [entries, List.mem_cons, List.not_mem_nil, or_false] at hq
  rcases hq with rfl | rfl | rfl
  · exact absurd hfits hunfit
  · exact List.le_refl _
  · decide +kernel

/-! ## Whatever was added -/

/-- A configuration that is given one more entry: one that is refused leaves it as it was. -/
def offer (apis : Apis) (api : Api) : Apis :=
  match apis.insert api with
  | .ok more => more
  | .error _ => apis

/-- The configurations that can be had: read or begun anew, and then given entries. -/
inductive Reachable : Apis → Prop where
  | empty : Reachable empty
  | read {j : Json} {apis : Apis} (reads : ofJson j = .ok apis) : Reachable apis
  | offer {apis : Apis} (before : Reachable apis) (api : Api) : Reachable (apis.offer api)

theorem sound_insertAll (h : apis.Sound) (hi : insertAll apis entries = .ok apis') :
    apis'.Sound := by
  induction entries generalizing apis with
  | nil => cases hi; exact h
  | cons p rest ih =>
      obtain ⟨api, -, hi⟩ := bind_eq_ok.1 hi
      obtain ⟨next, hnext, hi⟩ := bind_eq_ok.1 hi
      exact ih (h.insert hnext) hi

theorem Sound.offer (h : apis.Sound) (api : Api) : (apis.offer api).Sound := by
  unfold Apis.offer
  cases hi : apis.insert api with
  | ok more => exact h.insert hi
  | error e => exact h

/-- Every configuration that can be had is sound. -/
theorem Reachable.sound (h : apis.Reachable) : apis.Sound := by
  induction h with
  | empty => exact sound_empty
  | @read j apis reads =>
      cases j with
      | obj entries => exact sound_insertAll sound_empty reads
      | _ => cases reads
  | offer _ api ih => exact ih.offer api

end Switchboard.Apis
