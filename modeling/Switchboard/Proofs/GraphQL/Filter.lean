import Switchboard.Proofs.GraphQL.Predicate
import Switchboard.Proofs.Json.Canonical

/-!
# Switchboard.Proofs.GraphQL.Filter

What a filter object says.  A condition can be read back from its filter, as long as no field that
it compares is called as an operator is; and joining two conditions joins what their filters say,
also where the first one is a list that grows.

* `ofFilter?` — reads the condition that a filter object is the filter of;
* `Plain` — no field that is compared is called as an operator is;
* `ofFilter?_eq_some_iff` — what is read of a filter is the plain condition that it was written for;
* `holds`, `meaning?` — whether a condition holds, and what a filter says, if it is known what each
  comparison says;
* `meaning?_and`, `meaning?_or` — joining conditions;
* `filter_faithful` — all of it.
-/

namespace Switchboard.GraphQL

/-! ## Keys of comparisons -/

namespace Comparison

def all : List Comparison := [eq, ne, lt, le, gt, ge, contains, beginsWith]

/-- The comparison that has a key. -/
def ofKey? (key : String) : Option Comparison := all.find? (·.key == key)

theorem ofKey?_key (c : Comparison) : ofKey? c.key = some c := by
  cases c <;> rfl

theorem ofKey?_eq_some_iff {key : String} {c : Comparison} :
    ofKey? key = some c ↔ c.key = key := by
  constructor
  · intro h
    simpa using List.find?_some h
  · rintro rfl
    exact ofKey?_key c

end Comparison

namespace Predicate

/-! ## Reading a filter -/

/-- The keys of a filter that join filters. -/
def operators : List String := ["and", "or", "not"]

/-- The comparison of a field. -/
def ofComparison? (field : String) : Json → Option Predicate
  | .obj [(key, value)] => (Comparison.ofKey? key).map fun c => compare field c value
  | _ => none

mutual
/-- The condition that an object is the filter of: what its one key joins, or else the comparison
of the field that the key names. -/
def ofFilter? : Json → Option Predicate
  | .obj [(key, j)] =>
    if key = "and" then (ofParts? j).map all
    else if key = "or" then (ofParts? j).map any
    else if key = "not" then (ofFilter? j).map not
    else ofComparison? key j
  | _ => none

def ofParts? : Json → Option (List Predicate)
  | .arr items => ofFilters? items
  | _ => none

def ofFilters? : List Json → Option (List Predicate)
  | [] => some []
  | j :: rest => do
    let p ← ofFilter? j
    let ps ← ofFilters? rest
    return p :: ps
end

/-- No field that is compared is called as an operator is. -/
def Plain (p : Predicate) : Prop := ∀ field ∈ p.fields, field ∉ operators

instance (p : Predicate) : Decidable p.Plain :=
  inferInstanceAs (Decidable (∀ field ∈ p.fields, field ∉ operators))

variable {p q : Predicate} {j : Json}

@[simp] theorem plain_compare {field : String} {c : Comparison} {value : Json} :
    (compare field c value).Plain ↔ field ∉ operators := by
  simp [Plain, fields]

@[simp] theorem plain_all {parts : List Predicate} :
    (all parts).Plain ↔ ∀ p ∈ parts, p.Plain := by
  simp only [Plain, fields, fieldsOf_eq, List.mem_flatMap]
  constructor
  · exact fun h p hp f hf => h f ⟨p, hp, hf⟩
  · rintro h f ⟨p, hp, hf⟩
    exact h p hp f hf

@[simp] theorem plain_any {parts : List Predicate} :
    (any parts).Plain ↔ ∀ p ∈ parts, p.Plain := by
  simp only [Plain, fields, fieldsOf_eq, List.mem_flatMap]
  constructor
  · exact fun h p hp f hf => h f ⟨p, hp, hf⟩
  · rintro h f ⟨p, hp, hf⟩
    exact h p hp f hf

@[simp] theorem plain_not : (not p).Plain ↔ p.Plain := by
  simp [Plain, fields]

theorem filters_eq (parts : List Predicate) : filters parts = parts.map toFilter := by
  induction parts with
  | nil => rfl
  | cons p rest ih => rw [filters, ih, List.map_cons]

/-! ### One key -/

theorem ofFilter?_and (j : Json) : ofFilter? (.obj [("and", j)]) = (ofParts? j).map all := by
  rw [ofFilter?, if_pos rfl]

theorem ofFilter?_or (j : Json) : ofFilter? (.obj [("or", j)]) = (ofParts? j).map any := by
  rw [ofFilter?, if_neg (by decide), if_pos rfl]

theorem ofFilter?_not (j : Json) : ofFilter? (.obj [("not", j)]) = (ofFilter? j).map not := by
  rw [ofFilter?, if_neg (by decide), if_neg (by decide), if_pos rfl]

theorem ofFilter?_field {field : String} (h : field ∉ operators) (j : Json) :
    ofFilter? (.obj [(field, j)]) = ofComparison? field j := by
  have hne : field ≠ "and" ∧ field ≠ "or" ∧ field ≠ "not" := by simpa [operators] using h
  rw [ofFilter?, if_neg hne.1, if_neg hne.2.1, if_neg hne.2.2]

/-- An object is read by its one key, which is an operator or the name of a field. -/
theorem ofFilter?_cases (h : ofFilter? j = some p) :
    (∃ i, j = .obj [("and", i)] ∧ ∃ parts, ofParts? i = some parts ∧ all parts = p) ∨
    (∃ i, j = .obj [("or", i)] ∧ ∃ parts, ofParts? i = some parts ∧ any parts = p) ∨
    (∃ i, j = .obj [("not", i)] ∧ ∃ part, ofFilter? i = some part ∧ not part = p) ∨
    (∃ field i, j = .obj [(field, i)] ∧ field ∉ operators ∧ ofComparison? field i = some p) := by
  unfold ofFilter? at h
  split at h
  · next key i =>
    split at h
    · next hkey => exact .inl ⟨i, by rw [hkey], Option.map_eq_some_iff.1 h⟩
    split at h
    · next hkey => exact .inr (.inl ⟨i, by rw [hkey], Option.map_eq_some_iff.1 h⟩)
    split at h
    · next hkey => exact .inr (.inr (.inl ⟨i, by rw [hkey], Option.map_eq_some_iff.1 h⟩))
    · next hand hor hnot =>
      exact .inr (.inr (.inr ⟨key, i, rfl, by simp [operators, hand, hor, hnot], h⟩))
  · cases h

theorem ofComparison?_eq_some_iff {field : String} :
    ofComparison? field j = some p ↔
      ∃ c value, p = compare field c value ∧ j = .obj [(c.key, value)] := by
  constructor
  · intro h
    unfold ofComparison? at h
    split at h
    · next key value =>
      obtain ⟨c, hc, rfl⟩ := Option.map_eq_some_iff.1 h
      rw [Comparison.ofKey?_eq_some_iff] at hc
      exact ⟨c, value, rfl, by rw [hc]⟩
    · cases h
  · rintro ⟨c, value, rfl, rfl⟩
    rw [ofComparison?, Comparison.ofKey?_key, Option.map_some]

/-! ### Lists -/

theorem ofFilters?_append (xs ys : List Json) :
    ofFilters? (xs ++ ys) = do
      let ps ← ofFilters? xs
      let qs ← ofFilters? ys
      return ps ++ qs := by
  induction xs with
  | nil => simp [ofFilters?]
  | cons j rest ih =>
      simp only [List.cons_append, ofFilters?, ih]
      cases ofFilter? j with
      | none => rfl
      | some p => cases ofFilters? rest <;> cases ofFilters? ys <;> rfl

/-- A list is read as it was written, if each of its members is. -/
theorem ofFilters?_filters {parts : List Predicate}
    (h : ∀ p ∈ parts, ofFilter? p.toFilter = some p) : ofFilters? (filters parts) = some parts := by
  induction parts with
  | nil => rfl
  | cons p rest ih =>
      have hp := h p List.mem_cons_self
      have hrest := ih fun q hq => h q (List.mem_cons_of_mem p hq)
      simp [filters, ofFilters?, hp, hrest]

/-- A list was written as it is read, if each of its members was. -/
theorem filters_of_ofFilters? {items : List Json} {parts : List Predicate}
    (h : ∀ j ∈ items, ∀ p, ofFilter? j = some p → p.Plain ∧ p.toFilter = j)
    (hread : ofFilters? items = some parts) :
    (∀ p ∈ parts, p.Plain) ∧ filters parts = items := by
  induction items generalizing parts with
  | nil =>
      cases hread
      exact ⟨by simp, rfl⟩
  | cons j rest ih =>
      simp only [ofFilters?, Option.bind_eq_bind, Option.bind_eq_some_iff] at hread
      obtain ⟨p, hp, ps, hps, heq⟩ := hread
      cases heq
      obtain ⟨hplain, hfilter⟩ := h j List.mem_cons_self p hp
      obtain ⟨hplains, hfilters⟩ := ih (fun i hi => h i (List.mem_cons_of_mem j hi)) hps
      exact ⟨List.forall_mem_cons.2 ⟨hplain, hplains⟩, by rw [filters, hfilter, hfilters]⟩

/-! ### Back and forth -/

/-- A plain condition is read back from its filter. -/
theorem ofFilter?_toFilter (h : p.Plain) : ofFilter? p.toFilter = some p := by
  induction p using induct with
  | compare field c value =>
      rw [toFilter, ofFilter?_field (plain_compare.1 h)]
      exact ofComparison?_eq_some_iff.2 ⟨c, value, rfl, rfl⟩
  | all parts ih =>
      have hparts := ofFilters?_filters fun p hp => ih p hp (plain_all.1 h p hp)
      rw [toFilter, ofFilter?_and, ofParts?, hparts, Option.map_some]
  | any parts ih =>
      have hparts := ofFilters?_filters fun p hp => ih p hp (plain_any.1 h p hp)
      rw [toFilter, ofFilter?_or, ofParts?, hparts, Option.map_some]
  | not part ih => rw [toFilter, ofFilter?_not, ih (plain_not.1 h), Option.map_some]

/-- Nothing else is read, neither as a filter nor as a list of filters. -/
theorem written_as_read (j : Json) :
    (∀ p, ofFilter? j = some p → p.Plain ∧ p.toFilter = j) ∧
    (∀ parts, ofParts? j = some parts → (∀ p ∈ parts, p.Plain) ∧ .arr (filters parts) = j) := by
  induction j using Json.induct with
  | arr items ih =>
      refine ⟨fun p h => (by cases h), fun parts h => ?_⟩
      obtain ⟨hplain, hfilters⟩ := filters_of_ofFilters? (fun j hj => (ih j hj).1) h
      exact ⟨hplain, by rw [hfilters]⟩
  | obj fields ih =>
      refine ⟨fun p h => ?_, fun parts h => (by cases h)⟩
      rcases ofFilter?_cases h with ⟨i, hj, parts, hi, rfl⟩ | ⟨i, hj, parts, hi, rfl⟩ |
        ⟨i, hj, part, hi, rfl⟩ | ⟨field, i, hj, hfield, hi⟩
      · cases hj
        obtain ⟨hplain, hfilters⟩ := (ih _ List.mem_cons_self).2 parts hi
        exact ⟨plain_all.2 hplain, by rw [toFilter, hfilters]⟩
      · cases hj
        obtain ⟨hplain, hfilters⟩ := (ih _ List.mem_cons_self).2 parts hi
        exact ⟨plain_any.2 hplain, by rw [toFilter, hfilters]⟩
      · cases hj
        obtain ⟨hplain, hfilter⟩ := (ih _ List.mem_cons_self).1 part hi
        exact ⟨plain_not.2 hplain, by rw [toFilter, hfilter]⟩
      · cases hj
        obtain ⟨c, value, rfl, rfl⟩ := ofComparison?_eq_some_iff.1 hi
        exact ⟨plain_compare.2 hfield, rfl⟩
  | _ => exact ⟨fun p h => (by cases h), fun parts h => (by cases h)⟩

/-- What is read of an object is the plain condition that it is the filter of. -/
theorem ofFilter?_eq_some_iff : ofFilter? j = some p ↔ p.Plain ∧ p.toFilter = j := by
  constructor
  · exact (written_as_read j).1 p
  · rintro ⟨hplain, rfl⟩
    exact ofFilter?_toFilter hplain

/-! ## Truth -/

variable (truth : String → Comparison → Json → Bool)

mutual
/-- Whether a condition holds, if it is known of each comparison whether it does. -/
def holds : Predicate → Bool
  | compare field comparison value => truth field comparison value
  | all parts => allHold parts
  | any parts => anyHold parts
  | not part => !holds part

def allHold : List Predicate → Bool
  | [] => true
  | p :: rest => holds p && allHold rest

def anyHold : List Predicate → Bool
  | [] => false
  | p :: rest => holds p || anyHold rest
end

/-- What a filter says: whether the condition holds that it is the filter of. -/
def meaning? (j : Json) : Option Bool := (ofFilter? j).map (holds truth)

variable {truth}

theorem allHold_append (ps qs : List Predicate) :
    allHold truth (ps ++ qs) = (allHold truth ps && allHold truth qs) := by
  induction ps with
  | nil => simp [allHold]
  | cons p rest ih => simp [allHold, ih, Bool.and_assoc]

theorem anyHold_append (ps qs : List Predicate) :
    anyHold truth (ps ++ qs) = (anyHold truth ps || anyHold truth qs) := by
  induction ps with
  | nil => simp [anyHold]
  | cons p rest ih => simp [anyHold, ih, Bool.or_assoc]

theorem meaning?_toFilter (h : p.Plain) : meaning? truth p.toFilter = some (p.holds truth) := by
  rw [meaning?, ofFilter?_toFilter h, Option.map_some]

/-! ### Joined conditions -/

theorem meaning?_all (parts : List Predicate) :
    meaning? truth (all parts).toFilter = (ofFilters? (filters parts)).map (allHold truth) := by
  rw [meaning?, toFilter, ofFilter?_and, ofParts?, Option.map_map]
  rfl

theorem meaning?_any (parts : List Predicate) :
    meaning? truth (any parts).toFilter = (ofFilters? (filters parts)).map (anyHold truth) := by
  rw [meaning?, toFilter, ofFilter?_or, ofParts?, Option.map_map]
  rfl

theorem filters_append (ps qs : List Predicate) :
    filters (ps ++ qs) = filters ps ++ filters qs := by
  simp [filters_eq]

/-- The conditions that have to hold for a condition to hold. -/
def conjuncts : Predicate → List Predicate
  | all parts => parts
  | p => [p]

/-- The conditions of which one has to hold for a condition to hold. -/
def disjuncts : Predicate → List Predicate
  | any parts => parts
  | p => [p]

/-- A list of conditions grows at its end, and anything else begins a list. -/
theorem and_eq (a b : Predicate) : a.and b = all (a.conjuncts ++ [b]) := by
  cases a <;> rfl

theorem or_eq (a b : Predicate) : a.or b = any (a.disjuncts ++ [b]) := by
  cases a <;> rfl

theorem meaning?_singleton (p : Predicate) :
    (ofFilters? (filters [p])).map (allHold truth) = meaning? truth p.toFilter ∧
      (ofFilters? (filters [p])).map (anyHold truth) = meaning? truth p.toFilter := by
  simp only [filters, ofFilters?, meaning?]
  cases ofFilter? p.toFilter with
  | none => exact ⟨rfl, rfl⟩
  | some q => simp [allHold, anyHold]

theorem meaning?_conjuncts (a : Predicate) :
    meaning? truth (all a.conjuncts).toFilter = meaning? truth a.toFilter := by
  cases a with
  | all parts => rfl
  | _ => rw [conjuncts, meaning?_all, (meaning?_singleton _).1]; simp

theorem meaning?_disjuncts (a : Predicate) :
    meaning? truth (any a.disjuncts).toFilter = meaning? truth a.toFilter := by
  cases a with
  | any parts => rfl
  | _ => rw [disjuncts, meaning?_any, (meaning?_singleton _).2]; simp

/-- Both conditions are sent as a filter that says both. -/
theorem meaning?_and (a b : Predicate) :
    meaning? truth (a.and b).toFilter = do
      let x ← meaning? truth a.toFilter
      let y ← meaning? truth b.toFilter
      return x && y := by
  rw [and_eq, ← meaning?_conjuncts a, ← (meaning?_singleton b).1, meaning?_all, meaning?_all,
    filters_append, ofFilters?_append]
  cases ofFilters? (filters a.conjuncts) with
  | none => rfl
  | some ps =>
      cases ofFilters? (filters [b]) with
      | none => rfl
      | some qs => simp [allHold_append]

/-- Either condition is sent as a filter that says that one of them holds. -/
theorem meaning?_or (a b : Predicate) :
    meaning? truth (a.or b).toFilter = do
      let x ← meaning? truth a.toFilter
      let y ← meaning? truth b.toFilter
      return x || y := by
  rw [or_eq, ← meaning?_disjuncts a, ← (meaning?_singleton b).2, meaning?_any, meaning?_any,
    filters_append, ofFilters?_append]
  cases ofFilters? (filters a.disjuncts) with
  | none => rfl
  | some ps =>
      cases ofFilters? (filters [b]) with
      | none => rfl
      | some qs => simp [anyHold_append]

/-- A filter is faithful to its condition.  The condition is read back from it, and nothing else is
read, as long as no field is called as an operator is; so two such conditions are never sent as the
same filter, and each is sent as a filter that says whether it holds.  Joining any two conditions
joins what their filters say. -/
theorem filter_faithful :
    (∀ j p, ofFilter? j = some p ↔ p.Plain ∧ p.toFilter = j) ∧
    (∀ p q : Predicate, p.Plain → q.Plain → p.toFilter = q.toFilter → p = q) ∧
    (∀ truth (p : Predicate), p.Plain → meaning? truth p.toFilter = some (p.holds truth)) ∧
    (∀ truth (a b : Predicate), meaning? truth (a.and b).toFilter = do
      let x ← meaning? truth a.toFilter
      let y ← meaning? truth b.toFilter
      return x && y) ∧
    (∀ truth (a b : Predicate), meaning? truth (a.or b).toFilter = do
      let x ← meaning? truth a.toFilter
      let y ← meaning? truth b.toFilter
      return x || y) := by
  refine ⟨fun j p => ofFilter?_eq_some_iff, fun p q hp hq heq => ?_,
    fun truth p hp => meaning?_toFilter hp, fun truth a b => meaning?_and a b,
    fun truth a b => meaning?_or a b⟩
  have hread : ofFilter? q.toFilter = some p := by rw [← heq]; exact ofFilter?_toFilter hp
  exact Option.some.inj (hread.symm.trans (ofFilter?_toFilter hq))

/-- Three conditions, joined from the left and from the right, one of them about an operand that
looks like a filter. -/
theorem filter_faithful_joined :
    let rated := compare "rating" .gt (.int 3)
    let titled := compare "title" .beginsWith (.str "He")
    let other := not (compare "id" .ne (.obj [("not", .obj [("eq", .null)])]))
    ((rated.and titled).and other).Plain ∧ (rated.and (titled.and other)).Plain ∧
      ((rated.and titled).and other).toFilter ≠ (rated.and (titled.and other)).toFilter ∧
      ofFilter? ((rated.and titled).and other).toFilter = some ((rated.and titled).and other) := by
  intro rated titled other
  have hleft : ((rated.and titled).and other).Plain := by decide
  have hright : (rated.and (titled.and other)).Plain := by decide
  obtain ⟨hread, hinjective, -⟩ := filter_faithful
  refine ⟨hleft, hright, fun heq => ?_, (hread _ _).2 ⟨hleft, rfl⟩⟩
  have hsame : all [rated, titled, other] = all [rated, all [titled, other]] :=
    hinjective _ _ hleft hright heq
  have hparts : [rated, titled, other] = [rated, all [titled, other]] := all.inj hsame
  exact absurd (congrArg List.length hparts) (by decide)

/-- A field that is called as an operator is would be taken for one. -/
example : (compare "not" .eq (.obj [("gt", .int 3)])).toFilter =
    (not (compare "eq" .gt (.int 3))).toFilter := rfl

end Predicate
end Switchboard.GraphQL
