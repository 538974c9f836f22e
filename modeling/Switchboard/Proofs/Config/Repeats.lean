import Switchboard.Config.Loader
import Switchboard.Proofs.Config.Apis
import Switchboard.Proofs.Json.Canonical
import Switchboard.Proofs.Json.Scan
import Switchboard.Proofs.Toml.Table

/-!
# Switchboard.Proofs.Config.Repeats

Texts that give the name of an API more than once.

* `timesOf` — how many times a text gives a name, in each format;
* `ofText_json_eq_error`, `ofText_json_of_later` — of a JSON text the last section of each name
  is read, and the others do not count;
* `ofText_toml_keeps` — a TOML text gives each name once, and every section is read;
* `refuses_repeats_iff` — so a text that repeats a name is refused if it is TOML, or if a section
  that is read cannot be used;
* `loads_repeats` — a text that is not refused.
-/

namespace Switchboard

/-- How many times a text gives a name at its top.  A text that cannot be read gives none. -/
def FileFormat.timesOf (format : FileFormat) (name text : String) : Nat :=
  match format with
  | .json => match Json.scan text with
    | .whole (.obj fields) [] => (fields.map (·.1)).count name
    | _ => 0
  | .toml => match Toml.linesOf? text with
    | some lines => Toml.timesIn name lines
    | none => 0

namespace Apis

variable {apis : Apis} {api : Api} {text name : String} {fields : List (String × Json)}

/-- A name that is taken is refused. -/
theorem insert_of_taken (hvalid : api.validate = .ok ()) (h : api.name ∈ apis.entries.keys) :
    apis.insert api = .error (.invalid api.name .nameTaken) := by
  rw [Apis.insert, hvalid]
  exact if_pos (Keyed.has_iff_mem_keys.2 h)

/-- What is not accepted is refused. -/
theorem exists_error_iff {ε α : Type} {x : Except ε α} :
    (∃ e, x = .error e) ↔ ¬ ∃ a, x = .ok a := by
  cases x <;> simp

/-! ## JSON -/

theorem ofText_json (h : Json.scan text = .whole (.obj fields) []) :
    ofText .json text = ofJson (Json.obj fields).canonical := by
  rw [ofText, FileFormat.parse, Json.ofText?, h]
  rfl

/-- Of the sections of a name the last one is read. -/
theorem ofText_json_eq_error (h : Json.scan text = .whole (.obj fields) []) :
    (∃ e, ofText .json text = .error e) ↔
      ∃ name j, fields.reverse.lookup name = some j ∧ ¬ Api.Fits name j.canonical := by
  have hordered := Keyed.ordered_ofList (Json.canonicalFields fields)
  have hget (name : String) : Keyed.get? name (Keyed.ofList (Json.canonicalFields fields)) =
      (fields.reverse.lookup name).map Json.canonical := by
    rw [Keyed.get?_ofList, Json.canonicalFields_eq, ← List.map_reverse]
    exact Keyed.get?_map name Json.canonical fields.reverse
  rw [exists_error_iff, ofText_json h, Json.canonical, ofJson_eq_ok hordered]
  constructor
  · intro hsome
    obtain ⟨⟨name, i⟩, hp⟩ := Classical.not_forall.1 hsome
    obtain ⟨hmem, hunfit⟩ := Classical.not_imp.1 hp
    rw [hordered.mem_iff, hget] at hmem
    obtain ⟨j, hj, rfl⟩ := Option.map_eq_some_iff.1 hmem
    exact ⟨name, j, hj, hunfit⟩
  · rintro ⟨name, j, hj, hunfit⟩ hall
    exact hunfit (hall (name, j.canonical) (hordered.mem_iff.2 (by rw [hget, hj]; rfl)))

/-- The others do not count. -/
theorem ofText_json_of_later {before after : List (String × Json)} {j : Json}
    (h : Json.scan text = .whole (.obj (before ++ (name, j) :: after)) [])
    (hlater : name ∈ after.map (·.1)) :
    ofText .json text = ofJson (Json.obj (before ++ after)).canonical := by
  have hlater' : name ∈ (Json.canonicalFields after).map (·.1) := by
    rwa [Json.map_fst_canonicalFields]
  rw [ofText_json h]
  simp only [Json.canonical, Json.canonicalFields_eq, List.map_append, List.map_cons] at hlater' ⊢
  rw [Keyed.ofList_of_later _ hlater']

/-! ## TOML -/

/-- A section cannot be an array of tables. -/
theorem not_fits_row (name : String) (first : List (String × Json)) (items : List Json) :
    ¬ Api.Fits name (.arr (.obj first :: items)) := by
  rintro ⟨api, hread, -⟩
  cases hread

/-- A section cannot be a text, and so a moment is no configuration. -/
theorem ofJson_moment_ne_ok (m : Toml.Moment) : ofJson m.toJson ≠ .ok apis := by
  intro h
  obtain ⟨⟨api, hread, -⟩, -⟩ := (insertAll_keeps h).2 _ List.mem_cons_self
  cases hread

theorem ofText_toml_eq_ok (h : ofText .toml text = .ok apis) :
    ∃ j, Toml.ofText? text = some j ∧ ofJson j = .ok apis := by
  rw [ofText, FileFormat.parse] at h
  cases hj : Toml.ofText? text with
  | none => rw [hj] at h; cases h
  | some j => rw [hj] at h; exact ⟨j, rfl, h⟩

/-- What a text gives at its top it gives once, and that is there. -/
theorem ofText_toml_keeps (h : ofText .toml text = .ok apis) (name : String) :
    FileFormat.toml.timesOf name text ≤ 1 ∧
      (FileFormat.toml.timesOf name text = 1 → name ∈ apis.entries.keys) := by
  obtain ⟨j, hj, hread⟩ := ofText_toml_eq_ok h
  obtain ⟨lines, hlines, -⟩ := Toml.ofText?_eq_some.1 hj
  simp only [FileFormat.timesOf, hlines]
  rcases Toml.kept_of_ofText? hj hlines with ⟨m, rfl⟩ | ⟨kept, rfl, hkept⟩
  · exact absurd hread (ofJson_moment_ne_ok m)
  · obtain ⟨hgiven, htwice⟩ := hkept name
    have hall := (insertAll_keeps hread).2
    refine ⟨Nat.le_of_not_lt fun hmore => ?_, fun honce => ?_⟩
    · obtain ⟨first, items, hmem⟩ := htwice hmore
      exact not_fits_row name first items (hall _ hmem).1
    · obtain ⟨i, hmem⟩ := hgiven (by omega)
      exact (hall _ hmem).2

/-! ## Both formats -/

/-- A text that gives a name twice is refused if it is TOML, as a name that is taken is; if it
is JSON, it is refused only where a section that is read cannot be used, and of the sections of
the name all but the last do not count. -/
theorem refuses_repeats_iff {format : FileFormat} (h : 2 ≤ format.timesOf name text) :
    ((∃ e, ofText format text = .error e) ↔ format = .toml ∨
      ∃ fields other j, Json.scan text = .whole (.obj fields) [] ∧
        fields.reverse.lookup other = some j ∧ ¬ Api.Fits other j.canonical) ∧
    (∀ before after j, Json.scan text = .whole (.obj (before ++ (name, j) :: after)) [] →
      name ∈ after.map (·.1) →
      ofText .json text = ofJson (Json.obj (before ++ after)).canonical) ∧
    ∀ (apis : Apis) (api : Api), api.validate = .ok () → api.name ∈ apis.entries.keys →
      apis.insert api = .error (.invalid api.name .nameTaken) := by
  refine ⟨?_, fun _ _ _ => ofText_json_of_later, fun _ _ => insert_of_taken⟩
  cases format with
  | toml =>
      refine iff_of_true ?_ (.inl rfl)
      rw [exists_error_iff]
      rintro ⟨apis, hread⟩
      have honce := (ofText_toml_keeps hread name).1
      omega
  | json =>
      simp only [FileFormat.timesOf] at h
      split at h
      · next fields hscan =>
        rw [ofText_json_eq_error hscan]
        constructor
        · rintro ⟨other, j, hj⟩
          exact .inr ⟨fields, other, j, hscan, hj⟩
        · rintro (hformat | ⟨fields', other, j, hscan', hj⟩)
          · cases hformat
          · cases hscan.symm.trans hscan'
            exact ⟨other, j, hj⟩
      · omega

/-- A section is given twice, and once more with nothing in it. -/
theorem refuses_repeats_iff_blog :
    let lines := "[blog]\nendpoint = \"https://a.example.com\"\n"
    let place : Json := .obj [("endpoint", .str "https://a.example.com")]
    let text := (Json.obj [("blog", place), ("blog", .null)]).render
    let blog := Api.create "blog" "https://a.example.com"
    2 ≤ FileFormat.toml.timesOf "blog" (lines ++ lines) ∧
      (∃ e, ofText .toml (lines ++ lines) = .error e) ∧
      2 ≤ FileFormat.json.timesOf "blog" text ∧ (∃ e, ofText .json text = .error e) ∧
      ofText .json text = ofJson (.obj [("blog", .null)]) ∧
      Apis.insert ⟨[("blog", blog)]⟩ blog = .error (.invalid "blog" .nameTaken) := by
  intro lines place text blog
  have hscan : Json.scan text = .whole (.obj [("blog", place), ("blog", .null)]) [] := by
    refine Json.scan_render (.obj (List.forall_mem_cons.2 ⟨.obj ?_, ?_⟩))
    · exact List.forall_mem_cons.2 ⟨.str _, nofun⟩
    · exact List.forall_mem_cons.2 ⟨.null, nofun⟩
  have hlines : 2 ≤ FileFormat.toml.timesOf "blog" (lines ++ lines) := by decide +kernel
  have htext : 2 ≤ FileFormat.json.timesOf "blog" text := by
    simp [FileFormat.timesOf, hscan]
  have hunfit : ¬ Api.Fits "blog" Json.null := fun ⟨_, hread, _⟩ => nomatch hread
  have hvalid : blog.validate = .ok () := eq_ok_of_toOption (by decide +kernel)
  obtain ⟨hrefused, hdropped, htaken⟩ := refuses_repeats_iff htext
  exact ⟨hlines, (refuses_repeats_iff hlines).1.2 (.inl rfl), htext,
    hrefused.2 (.inr ⟨_, "blog", .null, hscan, rfl, hunfit⟩),
    hdropped [] [("blog", .null)] place hscan (by simp),
    htaken _ blog hvalid (by simp [blog, Api.create, Keyed.keys])⟩

/-- A section for each of two places, under one name. -/
theorem loads_repeats :
    let text := "\x7b\"blog\":\x7b\"endpoint\":\"https://a.example.com\"\x7d," ++
      "\"blog\":\x7b\"endpoint\":\"https://b.example.com\"\x7d\x7d"
    FileFormat.json.timesOf "blog" text = 2 ∧
      ofText .json text = .ok ⟨[("blog", Api.create "blog" "https://b.example.com")]⟩ := by
  intro text
  exact ⟨by decide +kernel, eq_ok_of_toOption (by decide +kernel)⟩

end Apis
end Switchboard
