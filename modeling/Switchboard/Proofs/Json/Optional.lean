import Switchboard.Proofs.Json.Record

/-!
# Switchboard.Proofs.Json.Optional

Values that may be absent.  Null is read as absent, so that a value that is there has to be
another one to be read back.

* `KeepsNull`, `keeping` — a way to keep values that takes none for null but null;
* `build_present`, `build_written` — what is there and not null is read, and so is nothing;
* `ne_null_of_build` — what is read is not null;
* `Kept`, `kept_of_build` — what is read in form is in form.
-/

namespace Switchboard.Json

/-! ## Fields that may be left out -/

/-- Only null is taken for null. -/
def KeepsNull (f : Json → Json) : Prop := ∀ j, f j = .null ↔ j = .null

theorem keepsNull_id : KeepsNull id := fun _ => Iff.rfl

theorem keepsNull_canonical : KeepsNull canonical :=
  fun _ => ⟨eq_null_of_canonical, fun h => by rw [h]; rfl⟩

/-- The reader that keeps every value in its way: `anything` as it is, and `value` in form. -/
def keeping (f : Json → Json) : Decoder Json := fun j => .ok (f j)

namespace Record

variable {slots : Slots} {key : String} {f : Json → Json}

/-- A field that stands for nothing when it is left out is one that may be left out. -/
theorem build_defaulted_none {α : Type} (key : String) (d : Decoder α) (slots : Slots) :
    (defaulted key none (nullable d)).build slots = (optional key d).build slots := rfl

/-- What is there was read from something that was found. -/
theorem exists_of_build_some {α : Type} {d : Decoder α} {x : α}
    (h : (optional key d).build slots = .ok (some x)) : ∃ j, (key, j) ∈ slots ∧ d j = .ok x := by
  rcases build_optional.1 h with ⟨-, hnone⟩ | ⟨j, hl, hj⟩
  · cases hnone
  · exact ⟨j, Keyed.mem_of_get? hl, (nullable_some hj).2⟩

/-- A value that is not null, or none at all, is read as it is. -/
theorem build_present (hf : KeepsNull f) {v : Option Json} (hv : v ≠ some .null)
    (h : (slots.lookup key).map f = v) : (optional key (keeping f)).build slots = .ok v := by
  refine build_optional.2 ?_
  cases hl : slots.lookup key with
  | none => rw [hl] at h; exact .inl ⟨rfl, h.symm⟩
  | some j =>
      rw [hl] at h
      subst h
      have hne : j ≠ .null := fun hj => hv (congrArg some ((hf j).2 hj))
      exact .inr ⟨j, rfl, nullable_of_ne hne rfl⟩

/-- Null is read as nothing. -/
theorem build_null (h : slots.lookup key = some .null) :
    (optional key (keeping f)).build slots = .ok none :=
  build_optional.2 (.inr ⟨.null, h, rfl⟩)

/-- What is read is not null, and is kept in its way. -/
theorem ne_null_of_build (hf : KeepsNull f) {v : Option Json}
    (h : (optional key (keeping f)).build slots = .ok v) :
    v ≠ some .null ∧ ∀ x ∈ v, ∃ j, (key, j) ∈ slots ∧ f j = x := by
  refine ⟨?_, ?_⟩
  · rintro rfl
    rcases build_optional.1 h with ⟨-, hnone⟩ | ⟨j, -, hj⟩
    · cases hnone
    · obtain ⟨hne, hnull⟩ := nullable_some hj
      exact hne ((hf j).1 (Except.ok.inj hnull))
  · rintro x rfl
    obtain ⟨j, hmem, hj⟩ := exists_of_build_some h
    exact ⟨j, hmem, Except.ok.inj hj⟩

/-- What is written as something that is not null is read, and so is nothing. -/
theorem build_written {α : Type} {d : Decoder α} {write : α → Json} {v : Option α}
    (h : slots.lookup key = v.map write)
    (hread : ∀ x, v = some x → write x ≠ .null ∧ d (write x) = .ok x) :
    (optional key d).build slots = .ok v := by
  refine build_optional.2 ?_
  cases v with
  | none => exact .inl ⟨h, rfl⟩
  | some x => exact .inr ⟨write x, h, nullable_of_ne (hread x rfl).1 (hread x rfl).2⟩

end Record

/-! ## Values in form -/

/-- Something that may be absent is absent, or is in form and not null. -/
structure Kept (v : Option Json) : Prop where
  ne_null : v ≠ some .null
  canonical : v.map Json.canonical = v

theorem Kept.eq {v : Option Json} (hv : Kept v) : ∀ x ∈ v, x.canonical = x := by
  rintro x rfl
  exact Option.some.inj hv.canonical

namespace Record

variable {slots : Slots} {key : String} {v : Option Json}

theorem kept_of_canonical (hne : v ≠ some .null)
    (h : ∀ x ∈ v, ∃ j, (key, j) ∈ slots ∧ j.canonical = x) : Kept v := by
  refine ⟨hne, ?_⟩
  cases v with
  | none => rfl
  | some x =>
      obtain ⟨j, -, rfl⟩ := h x rfl
      exact congrArg some (canonical_canonical j)

/-- What was found among values that nest `n` deep nests no deeper in form. -/
theorem limited_of_canonical {n : Nat} (hslots : ∀ p ∈ slots, Limited n p.2)
    (h : ∀ x ∈ v, ∃ j, (key, j) ∈ slots ∧ j.canonical = x) : ∀ x ∈ v, Limited n x := by
  intro x hx
  obtain ⟨j, hj, rfl⟩ := h x hx
  exact (hslots _ hj).canonical

/-- A text in form is that text. -/
theorem lookup_text {s : Option String} (h : (slots.lookup key).map canonical = s.map .str) :
    slots.lookup key = s.map .str := by
  cases s with
  | none => simpa using h
  | some s =>
      obtain ⟨j, hj, hs⟩ := Option.map_eq_some_iff.1 h
      rw [hj, eq_str_of_canonical hs]
      rfl

theorem kept_of_build (h : (defaulted key none (nullable value)).build slots = .ok v) :
    Kept v ∧ ∀ x ∈ v, ∃ j, (key, j) ∈ slots ∧ j.canonical = x := by
  rw [build_defaulted_none] at h
  obtain ⟨hne, hform⟩ := ne_null_of_build keepsNull_canonical h
  exact ⟨kept_of_canonical hne hform, hform⟩

end Record
end Switchboard.Json
