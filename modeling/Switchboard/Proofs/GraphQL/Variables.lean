import Mathlib.Data.List.Induction
import Switchboard.GraphQL.Request

/-!
# Switchboard.Proofs.GraphQL.Variables

The variables of a document that is put together call by call.

* `Document.Edit`, `editAll`, `Request.Edit` — what a caller may say about a document, and about
  the document of a request;
* `Settable` — variables among which a single one can be set: an object, or none yet;
* `Sets`, `sets_withVariable_iff` — what setting one is to do, and when it does;
* `base`, `assigned?` — the variables that were last given all at once, and the value that a name
  was given since;
* `valueOf?_editAll`, `variableValues_editAll` — what the variables are after any calls;
* `keeps_assigned_iff` — every name has the value that it was last given, exactly if the variables
  were settable;
* `null_drops_variable` — a variable that is set and gone.
-/

namespace Switchboard.GraphQL

namespace Document

/-! ## Calls -/

/-- What a caller may say about a document. -/
inductive Edit where
  | assign (name : String) (value : Json)
  | replace (values : Json)
  | entitle (name : String)
  | extend (values : Json)

def edit (d : Document) : Edit → Document
  | .assign name value => d.withVariable name value
  | .replace values => d.withVariables values
  | .entitle name => d.withOperationName name
  | .extend values => d.withExtensions values

def editAll (d : Document) (edits : List Edit) : Document := edits.foldl edit d

@[simp] theorem editAll_nil (d : Document) : d.editAll [] = d := rfl

@[simp] theorem editAll_append (d : Document) (edits more : List Edit) :
    d.editAll (edits ++ more) = (d.editAll edits).editAll more := by
  simp [editAll]

theorem editAll_singleton (d : Document) (e : Edit) : d.editAll [e] = d.edit e := rfl

/-! ## One variable -/

/-- The value of a variable. -/
def valueOf? (d : Document) (name : String) : Option Json := d.variableValues.bind (Json.get? name)

/-- Variables among which a single one can be set: an object, or none yet. -/
def Settable (values : Option Json) : Prop := ∀ j ∈ values, ∃ fields, j = .obj fields

/-- What setting a variable is to do: the variables are an object in which the name has the value
and every other name has the value that it had, and nothing else changes. -/
structure Sets (name : String) (value : Json) (before after : Document) : Prop where
  object : ∃ fields, after.variableValues = some (.obj fields)
  value : after.valueOf? name = some value
  others : ∀ other, other ≠ name → after.valueOf? other = before.valueOf? other
  rest : after = { before with variableValues := after.variableValues }

variable {d : Document} {edits : List Edit} {name : String} {value : Json}

theorem settable_none : Settable none := nofun

theorem settable_obj (fields : List (String × Json)) : Settable (some (.obj fields)) := by
  rintro j ⟨⟩
  exact ⟨fields, rfl⟩

/-- Variables that are settable are none yet, or an object. -/
theorem settable_iff {values : Option Json} :
    Settable values ↔ values = none ∨ ∃ fields, values = some (.obj fields) := by
  constructor
  · intro h
    cases values with
    | none => exact .inl rfl
    | some j =>
        obtain ⟨fields, rfl⟩ := h j rfl
        exact .inr ⟨fields, rfl⟩
  · rintro (rfl | ⟨fields, rfl⟩)
    · exact settable_none
    · exact settable_obj fields

/-- Variables that are not settable have no values. -/
theorem bind_get?_of_not_settable {values : Option Json} (h : ¬ Settable values) (name : String) :
    values.bind (Json.get? name) = none := by
  cases values with
  | none => rfl
  | some j =>
      cases j with
      | obj fields => exact absurd (settable_obj fields) h
      | _ => rfl

theorem sets_withVariable (h : Settable d.variableValues) (name : String) (value : Json) :
    Sets name value d (d.withVariable name value) := by
  obtain ⟨query, operationName, values, extensions⟩ := d
  rcases settable_iff.1 h with hv | ⟨fields, hv⟩
  · change values = none at hv
    subst hv
    refine ⟨⟨_, rfl⟩, Keyed.get?_set_self name value [], fun other hne => ?_, rfl⟩
    exact Keyed.get?_set_of_ne hne value []
  · change values = some (.obj fields) at hv
    subst hv
    refine ⟨⟨_, rfl⟩, Keyed.get?_set_self name value fields, fun other hne => ?_, rfl⟩
    exact Keyed.get?_set_of_ne hne value fields

/-- A variable that cannot be set is passed over. -/
theorem withVariable_of_not_settable (h : ¬ Settable d.variableValues) (name : String)
    (value : Json) : d.withVariable name value = d := by
  unfold withVariable
  split
  · next hv => exact absurd (hv ▸ settable_none) h
  · next fields hv => exact absurd (hv ▸ settable_obj fields) h
  · rfl

/-- Setting a variable does what it is to do exactly among variables that are settable. -/
theorem sets_withVariable_iff :
    Sets name value d (d.withVariable name value) ↔ Settable d.variableValues := by
  constructor
  · intro h
    by_contra hno
    obtain ⟨fields, hf⟩ := h.object
    rw [withVariable_of_not_settable hno] at hf
    exact hno (hf ▸ settable_obj fields)
  · exact fun h => sets_withVariable h name value

/-! ## Many calls -/

/-- What a call puts in place of all variables. -/
def Edit.replacement? : Edit → Option Json
  | .replace values => some values
  | _ => none

/-- What a call gives to a name. -/
def Edit.assignment? (name : String) : Edit → Option Json
  | .assign other value => if other = name then some value else none
  | _ => none

/-- The variables that were last given all at once: by a call, or else by the document. -/
def base (d : Document) (edits : List Edit) : Option Json :=
  edits.reverse.findSome? Edit.replacement? <|> d.variableValues

/-- The value that a name was last given since all variables were given at once. -/
def assigned? (name : String) (edits : List Edit) : Option Json :=
  (edits.reverse.takeWhile fun e => e.replacement?.isNone).findSome? (Edit.assignment? name)

theorem base_append (d : Document) (edits : List Edit) (e : Edit) :
    base d (edits ++ [e]) = (e.replacement? <|> base d edits) := by
  cases h : e.replacement? <;> simp [base, h]

theorem assigned?_append_of_replacement (edits : List Edit) {e : Edit} {values : Json}
    (h : e.replacement? = some values) : assigned? name (edits ++ [e]) = none := by
  simp [assigned?, h]

theorem assigned?_append_of_none (edits : List Edit) {e : Edit} (h : e.replacement? = none) :
    assigned? name (edits ++ [e]) = (e.assignment? name <|> assigned? name edits) := by
  cases ha : e.assignment? name <;> simp [assigned?, h, ha]

/-- Single variables do not make variables settable, nor stop them from being so. -/
theorem settable_editAll (d : Document) (edits : List Edit) :
    Settable (d.editAll edits).variableValues ↔ Settable (base d edits) := by
  induction edits using List.reverseRecOn with
  | nil => rfl
  | append_singleton edits e ih =>
    rw [editAll_append, editAll_singleton, base_append]
    cases e with
    | assign name value =>
        refine Iff.trans ?_ ih
        by_cases h : Settable (d.editAll edits).variableValues
        · obtain ⟨fields, hf⟩ := (sets_withVariable h name value).object
          exact ⟨fun _ => h, fun _ => settable_iff.2 (.inr ⟨fields, hf⟩)⟩
        · have hsame : (d.editAll edits).edit (.assign name value) = d.editAll edits :=
            withVariable_of_not_settable h name value
          rw [hsame]
    | replace values => rfl
    | entitle name => exact ih
    | extend values => exact ih

/-- Among variables that are settable, each name has the value that it was last given. -/
theorem valueOf?_editAll (h : Settable (base d edits)) (name : String) :
    (d.editAll edits).valueOf? name =
      (assigned? name edits <|> (base d edits).bind (Json.get? name)) := by
  induction edits using List.reverseRecOn with
  | nil => rfl
  | append_singleton edits e ih =>
    rw [base_append] at h ⊢
    rw [editAll_append, editAll_singleton]
    cases e with
    | assign other value =>
        have hsets : Sets other value (d.editAll edits)
            ((d.editAll edits).edit (.assign other value)) :=
          sets_withVariable ((settable_editAll d edits).2 h) other value
        rw [assigned?_append_of_none edits rfl]
        by_cases hname : other = name
        · subst hname
          simp [Edit.assignment?, hsets.value]
        · rw [hsets.others name (Ne.symm hname), ih h]
          simp [Edit.assignment?, Edit.replacement?, hname]
    | replace values =>
        rw [assigned?_append_of_replacement edits rfl]
        rfl
    | entitle text =>
        rw [assigned?_append_of_none edits rfl]
        exact ih h
    | extend values =>
        rw [assigned?_append_of_none edits rfl]
        exact ih h

/-- Variables that are not settable stay as they were given. -/
theorem variableValues_editAll (h : ¬ Settable (base d edits)) :
    (d.editAll edits).variableValues = base d edits := by
  induction edits using List.reverseRecOn with
  | nil => rfl
  | append_singleton edits e ih =>
    rw [base_append] at h ⊢
    rw [editAll_append, editAll_singleton]
    cases e with
    | assign name value =>
        have hsame : (d.editAll edits).edit (.assign name value) = d.editAll edits :=
          withVariable_of_not_settable (mt (settable_editAll d edits).1 h) name value
        rw [hsame]
        exact ih h
    | replace values => rfl
    | entitle name => exact ih h
    | extend values => exact ih h

/-- Every name has the value that it was last given exactly if the variables are settable, or no
name was given any. -/
theorem valueOf?_editAll_iff (d : Document) (edits : List Edit) :
    (∀ name, (d.editAll edits).valueOf? name =
      (assigned? name edits <|> (base d edits).bind (Json.get? name))) ↔
    Settable (base d edits) ∨ ∀ name, assigned? name edits = none := by
  constructor
  · intro hall
    by_cases h : Settable (base d edits)
    · exact .inl h
    · refine .inr fun name => ?_
      have hlost : (d.editAll edits).valueOf? name = none := by
        rw [valueOf?, variableValues_editAll h, bind_get?_of_not_settable h]
      have hname := hall name
      rw [hlost, bind_get?_of_not_settable h] at hname
      simpa using hname.symm
  · rintro (h | hnone) name
    · exact valueOf?_editAll h name
    · by_cases h : Settable (base d edits)
      · exact valueOf?_editAll h name
      · rw [hnone name, valueOf?, variableValues_editAll h]
        rfl

end Document

/-! ## Requests -/

namespace Request

/-- What a caller may say about the document of a request. -/
inductive Edit where
  | assign (name : String) (value : Json)
  | replace (values : Json)
  | entitle (name : String)

/-- The same said about a document. -/
def Edit.onDocument : Edit → Document.Edit
  | .assign name value => .assign name value
  | .replace values => .replace values
  | .entitle name => .entitle name

def edit (r : Request) : Edit → Request
  | .assign name value => r.withVariable name value
  | .replace values => r.withVariables values
  | .entitle name => r.withOperationName name

def editAll (r : Request) (edits : List Edit) : Request := edits.foldl edit r

/-- What is said about a request is said about its document, and changes nothing else. -/
theorem editAll_eq (r : Request) (edits : List Edit) :
    r.editAll edits = { r with document := r.document.editAll (edits.map Edit.onDocument) } := by
  induction edits generalizing r with
  | nil => rfl
  | cons e rest ih =>
    have hedit : r.edit e = { r with document := r.document.edit e.onDocument } := by
      cases e <;> rfl
    have hrest : r.editAll (e :: rest) = (r.edit e).editAll rest := rfl
    rw [hrest, ih, hedit]
    rfl

end Request

namespace Document

/-- After any calls a variable can be set exactly if the variables that were last given all at
once are an object, or were never given; otherwise setting one changes nothing.  And every name
has the value that it was last given since then under the same condition, unless no name was
given any.  The calls on a request do to its document what they do to a document. -/
theorem keeps_assigned_iff (d : Document) (edits : List Edit) :
    (∀ name value,
      Sets name value (d.editAll edits) ((d.editAll edits).withVariable name value) ↔
        Settable (base d edits)) ∧
    (∀ name value, Settable (base d edits) ∨
      (d.editAll edits).withVariable name value = d.editAll edits) ∧
    ((∀ name, (d.editAll edits).valueOf? name =
        (assigned? name edits <|> (base d edits).bind (Json.get? name))) ↔
      Settable (base d edits) ∨ ∀ name, assigned? name edits = none) ∧
    ∀ (r : Request) (calls : List Request.Edit),
      r.editAll calls =
        { r with document := r.document.editAll (calls.map Request.Edit.onDocument) } := by
  refine ⟨fun name value => ?_, fun name value => ?_, valueOf?_editAll_iff d edits,
    Request.editAll_eq⟩
  · rw [sets_withVariable_iff, settable_editAll]
  · by_cases h : Settable (base d edits)
    · exact .inl h
    · exact .inr (withVariable_of_not_settable (mt (settable_editAll d edits).1 h) name value)

/-- A variable that is set where the variables were given as null is gone. -/
theorem null_drops_variable :
    let edits : List Edit := [.replace .null, .assign "id" (.str "p1")]
    assigned? "id" edits = some (.str "p1") ∧
      ((ofQuery "posts").editAll edits).valueOf? "id" = none ∧
      ((ofQuery "posts").editAll edits).variableValues = some .null :=
  ⟨rfl, rfl, rfl⟩

end Document
end Switchboard.GraphQL
