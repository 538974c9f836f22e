import Switchboard.GraphQL.Predicate

/-!
# Switchboard.Proofs.GraphQL.Predicate

Which fields a condition compares.

* `induct` — conditions by what they are made of;
* `Compares` — a field is compared somewhere in a condition, however deep;
* `Within` — no field is compared but known ones;
* `FirstUnknown` — the first field from left to right that is not known;
* `unknownField?_eq_none`, `unknownField?_eq_some` — the search finds that one, or else there is
  none to find.
-/

namespace Switchboard.GraphQL.Predicate

/-- Conditions by what they are made of. -/
theorem induct {P : Predicate → Prop}
    (compare : ∀ field comparison value, P (.compare field comparison value))
    (all : ∀ parts, (∀ p ∈ parts, P p) → P (.all parts))
    (any : ∀ parts, (∀ p ∈ parts, P p) → P (.any parts))
    (not : ∀ part, P part → P (.not part)) (p : Predicate) : P p :=
  @Predicate.rec P (fun parts => ∀ p ∈ parts, P p) compare all any not
    (fun _ hp => nomatch hp)
    (fun _ _ hp hrest q hq => (List.mem_cons.1 hq).elim (fun he => he ▸ hp) (hrest q)) p

/-! ## What is compared -/

/-- A field is compared somewhere in a condition. -/
inductive Compares (field : String) : Predicate → Prop where
  | here (comparison : Comparison) (value : Json) :
      Compares field (.compare field comparison value)
  | all {p : Predicate} {parts : List Predicate} (mem : p ∈ parts) (inside : Compares field p) :
      Compares field (.all parts)
  | any {p : Predicate} {parts : List Predicate} (mem : p ∈ parts) (inside : Compares field p) :
      Compares field (.any parts)
  | not {p : Predicate} (inside : Compares field p) : Compares field (.not p)

/-- No field is compared but known ones. -/
def Within (known : List String) (p : Predicate) : Prop := ∀ field, Compares field p → field ∈ known

/-- The first comparison of a field that is not known, from left to right: all that stands before
it is about known fields. -/
inductive FirstUnknown (known : List String) (field : String) : Predicate → Prop where
  | here (comparison : Comparison) (value : Json) (unknown : field ∉ known) :
      FirstUnknown known field (.compare field comparison value)
  | all {before after : List Predicate} {p : Predicate}
      (earlier : ∀ q ∈ before, Within known q) (inside : FirstUnknown known field p) :
      FirstUnknown known field (.all (before ++ p :: after))
  | any {before after : List Predicate} {p : Predicate}
      (earlier : ∀ q ∈ before, Within known q) (inside : FirstUnknown known field p) :
      FirstUnknown known field (.any (before ++ p :: after))
  | not {p : Predicate} (inside : FirstUnknown known field p) :
      FirstUnknown known field (.not p)

variable {known : List String} {field : String}

theorem within_compare {comparison : Comparison} {value : Json} :
    Within known (.compare field comparison value) ↔ field ∈ known := by
  constructor
  · exact fun h => h field (.here comparison value)
  · intro h f hf
    cases hf
    exact h

theorem within_all {parts : List Predicate} :
    Within known (.all parts) ↔ ∀ p ∈ parts, Within known p := by
  constructor
  · exact fun h p hp f hf => h f (.all hp hf)
  · intro h f hf
    cases hf with
    | all mem inside => exact h _ mem f inside

theorem within_any {parts : List Predicate} :
    Within known (.any parts) ↔ ∀ p ∈ parts, Within known p := by
  constructor
  · exact fun h p hp f hf => h f (.any hp hf)
  · intro h f hf
    cases hf with
    | any mem inside => exact h _ mem f inside

theorem within_not {p : Predicate} : Within known (.not p) ↔ Within known p := by
  constructor
  · exact fun h f hf => h f (.not hf)
  · intro h f hf
    cases hf with
    | not inside => exact h f inside

/-! ## The search -/

theorem fieldsOf_eq (parts : List Predicate) : fieldsOf parts = parts.flatMap fields := by
  induction parts with
  | nil => rfl
  | cons p rest ih => rw [fieldsOf, ih, List.flatMap_cons]

theorem unknownField?_compare (comparison : Comparison) (value : Json) :
    unknownField? known (.compare field comparison value) =
      if field ∈ known then none else some field := by
  by_cases h : field ∈ known <;> simp [unknownField?, fields, h]

theorem unknownField?_all (parts : List Predicate) :
    unknownField? known (.all parts) = parts.findSome? (unknownField? known) := by
  simp only [unknownField?, fields, fieldsOf_eq, List.find?_flatMap]
  rfl

theorem unknownField?_any (parts : List Predicate) :
    unknownField? known (.any parts) = parts.findSome? (unknownField? known) := by
  simp only [unknownField?, fields, fieldsOf_eq, List.find?_flatMap]
  rfl

theorem unknownField?_not (p : Predicate) :
    unknownField? known (.not p) = unknownField? known p := by
  simp only [unknownField?, fields]

/-- Nothing is found where all fields are known. -/
theorem unknownField?_eq_none {p : Predicate} : p.unknownField? known = none ↔ p.Within known := by
  induction p using induct with
  | compare field comparison value =>
      rw [unknownField?_compare, within_compare]
      by_cases h : field ∈ known <;> simp [h]
  | all parts ih =>
      rw [unknownField?_all, within_all, List.findSome?_eq_none_iff]
      exact forall₂_congr ih
  | any parts ih =>
      rw [unknownField?_any, within_any, List.findSome?_eq_none_iff]
      exact forall₂_congr ih
  | not part ih => rw [unknownField?_not, within_not, ih]

/-- The members of a list are gone through up to the first one in which something is found. -/
theorem findSome?_unknownField? {parts : List Predicate}
    (ih : ∀ p ∈ parts, p.unknownField? known = some field ↔ FirstUnknown known field p) :
    parts.findSome? (unknownField? known) = some field ↔
      ∃ before p after, parts = before ++ p :: after ∧ (∀ q ∈ before, q.Within known) ∧
        FirstUnknown known field p := by
  simp only [List.findSome?_eq_some_iff, unknownField?_eq_none]
  constructor
  · rintro ⟨before, p, after, rfl, hp, hbefore⟩
    exact ⟨before, p, after, rfl, hbefore, (ih p (by simp)).1 hp⟩
  · rintro ⟨before, p, after, rfl, hbefore, hp⟩
    exact ⟨before, p, after, rfl, (ih p (by simp)).2 hp, hbefore⟩

/-- What is found is the first field that is not known. -/
theorem unknownField?_eq_some {p : Predicate} :
    p.unknownField? known = some field ↔ p.FirstUnknown known field := by
  induction p using induct with
  | compare f comparison value =>
      rw [unknownField?_compare]
      constructor
      · intro h
        by_cases hf : f ∈ known
        · simp [hf] at h
        · have heq : f = field := by simpa [hf] using h
          exact heq ▸ .here comparison value hf
      · intro h
        cases h with
        | here _ _ hf => simp [hf]
  | all parts ih =>
      rw [unknownField?_all, findSome?_unknownField? ih]
      constructor
      · rintro ⟨before, p, after, rfl, hbefore, hp⟩
        exact .all hbefore hp
      · intro h
        cases h with
        | all earlier inside => exact ⟨_, _, _, rfl, earlier, inside⟩
  | any parts ih =>
      rw [unknownField?_any, findSome?_unknownField? ih]
      constructor
      · rintro ⟨before, p, after, rfl, hbefore, hp⟩
        exact .any hbefore hp
      · intro h
        cases h with
        | any earlier inside => exact ⟨_, _, _, rfl, earlier, inside⟩
  | not part ih =>
      rw [unknownField?_not, ih]
      constructor
      · exact .not
      · intro h
        cases h with
        | not inside => exact inside

end Switchboard.GraphQL.Predicate
