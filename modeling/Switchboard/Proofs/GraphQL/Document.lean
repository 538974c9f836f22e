import Switchboard.GraphQL.Document
import Switchboard.Proofs.Json.Optional

/-!
# Switchboard.Proofs.GraphQL.Document

A document reads back as it was written.  An optional value that is null is written as null
and read as if it was absent, so it has to be absent.

* `Regular` — no optional value is null;
* `build_record`, `regular_of_build` — such documents are built from their fields, and no
  others are built;
* `ofJson_toJson`, `regular_of_ofJson` — so they are read back, and no others are read.
-/

namespace Switchboard.GraphQL.Document

open Json Record

/-- No optional value is null. -/
structure Regular (d : Document) : Prop where
  variableValues : d.variableValues ≠ some .null
  extensions : d.extensions ≠ some .null

variable {f : Json → Json} {slots : Slots} {d : Document}

theorem proper_record (f : Decoder Json) : Proper (record f) :=
  ((((proper_required _ _).map).seq (proper_optional _ _)).seq (proper_optional _ _)).seq
    (proper_optional _ _)

/-- A document is built from the fields that it is written with. -/
theorem build_record (hf : KeepsNull f) (hd : d.Regular)
    (hquery : slots.lookup "query" = some (.str d.query))
    (hname : slots.lookup "operationName" = d.operationName.map .str)
    (hvariables : (slots.lookup "variables").map f = d.variableValues)
    (hextensions : (slots.lookup "extensions").map f = d.extensions) :
    (record (keeping f)).build slots = .ok d := by
  simp only [record, build_seq, build_map]
  exact ⟨_, ⟨_, ⟨_, ⟨d.query, build_required.2 ⟨_, hquery, rfl⟩, rfl⟩,
    d.operationName, build_written hname fun _ _ => ⟨by simp, rfl⟩, rfl⟩,
    d.variableValues, build_present hf hd.variableValues hvariables, rfl⟩,
    d.extensions, build_present hf hd.extensions hextensions, rfl⟩

/-- A document that is built has no optional value that is null. -/
theorem regular_of_build (hf : KeepsNull f) (h : (record (keeping f)).build slots = .ok d) :
    d.Regular ∧ (∀ x ∈ d.variableValues, ∃ j, ("variables", j) ∈ slots ∧ f j = x) ∧
      ∀ x ∈ d.extensions, ∃ j, ("extensions", j) ∈ slots ∧ f j = x := by
  simp only [record, build_seq, build_map] at h
  obtain ⟨_, ⟨_, ⟨_, ⟨query, -, rfl⟩, name, -, rfl⟩, values, hv, rfl⟩, extensions, he, rfl⟩ := h
  obtain ⟨hvn, hvf⟩ := ne_null_of_build hf hv
  obtain ⟨hen, hef⟩ := ne_null_of_build hf he
  exact ⟨⟨hvn, hen⟩, hvf, hef⟩

theorem mem_field {α : Type} {key : String} {write : α → Json} {v : Option α} {p : String × Json}
    (h : p ∈ field key write v) : ∃ x ∈ v, p = (key, write x) := by
  cases v with
  | none => cases h
  | some x => exact ⟨x, rfl, List.mem_singleton.1 h⟩

theorem limited_toJson {n : Nat} (hv : ∀ x ∈ d.variableValues, Limited n x)
    (he : ∀ x ∈ d.extensions, Limited n x) : Limited (n + 1) d.toJson := by
  refine .object fun p hp => ?_
  simp only [fields, List.mem_append, List.mem_cons] at hp
  rcases hp with ((rfl | hname) | hvariables) | hextensions
  · exact .str d.query
  · obtain ⟨name, -, rfl⟩ := mem_field hname
    exact .str name
  · obtain ⟨x, hx, rfl⟩ := mem_field hvariables
    exact hv x hx
  · obtain ⟨x, hx, rfl⟩ := mem_field hextensions
    exact he x hx

/-- The fields of a document have different keys. -/
theorem nodup_fields (d : Document) : (d.fields.map (·.1)).Nodup := by
  obtain ⟨query, name, values, extensions⟩ := d
  cases name <;> cases values <;> cases extensions <;> simp [fields, field]

theorem lookup_fields (d : Document) :
    d.fields.lookup "query" = some (.str d.query) ∧
      d.fields.lookup "operationName" = d.operationName.map .str ∧
      d.fields.lookup "variables" = d.variableValues ∧
      d.fields.lookup "extensions" = d.extensions := by
  obtain ⟨query, name, values, extensions⟩ := d
  cases name <;> cases values <;> cases extensions <;> exact ⟨rfl, rfl, rfl, rfl⟩

/-- A document is read back from what it is written as. -/
theorem ofJson_toJson (hd : d.Regular) : ofJson d.toJson = .ok d := by
  obtain ⟨hquery, hname, hvariables, hextensions⟩ := d.lookup_fields
  refine decode_object (proper_record _) d.nodup_fields (fun slots hlookup => ?_) _
  refine build_record (f := id) keepsNull_id hd ((hlookup _).trans hquery)
    ((hlookup _).trans hname) ?_ ?_
  · rw [Option.map_id, ← hvariables, ← hlookup]; rfl
  · rw [Option.map_id, ← hextensions, ← hlookup]; rfl

/-- Whatever is read as a document has no optional value that is null, and is written no
deeper. -/
theorem regular_of_ofJson {j : Json} (h : ofJson j = .ok d) :
    d.Regular ∧ ∀ {n}, Limited (n + 1) j → Limited (n + 1) d.toJson := by
  unfold ofJson Record.decode at h
  obtain ⟨slots, hb, hparts⟩ := exists_build_of_read h
  obtain ⟨hd, hvariables, hextensions⟩ := regular_of_build keepsNull_id hb
  refine ⟨hd, fun hj => limited_toJson ?_ ?_⟩
  · intro x hx
    obtain ⟨i, hi, rfl⟩ := hvariables x hx
    exact hj.parts _ (hparts _ hi)
  · intro x hx
    obtain ⟨i, hi, rfl⟩ := hextensions x hx
    exact hj.parts _ (hparts _ hi)

end Switchboard.GraphQL.Document
