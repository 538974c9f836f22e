import Switchboard.GraphQL.Model
import Switchboard.Proofs.GraphQL.Predicate
import Switchboard.Proofs.Outcome

/-!
# Switchboard.Proofs.GraphQL.Model

Which requests a model makes.

* `Request.Asks` — the shape of a request, and the one root field and the selection in it that its
  document asks for;
* `asks_query`, `asks_list`, `asks_mutation`, `asks_subscription` — what the requests ask for;
* `Admits` — a condition on the items of a model compares its own fields only;
* `Suits` — an item is what a mutation needs of it;
* `exists_query`, `exists_list`, `exists_mutation`, `exists_subscription` — when there is a
  request;
* `list_eq_error`, `mutation_eq_error` — what is reported when there is none, and in which order
  the reasons count;
* `accepts_well_formed_iff` — requests are made where they are well formed, but for the deletion of
  an item with a blank id;
* `deletes_blank_id` — such a deletion;
* `input_eq_error`, `query_eq_error`, `subscription_eq_error` — the other reasons;
* `reports_shape_iff` — what cannot be requested is said to be a matter of the request, but for an
  item that has no JSON form;
* `reports_protocol` — such an item.
-/

namespace Switchboard.GraphQL

/-! ## Documents -/

/-- Words in braces, with a blank on both sides. -/
def braced (inner : String) : String := "\x7b " ++ inner ++ " \x7d"

/-- What stands between a root field and the selection in it. -/
def IsArguments (s : String) : Prop := s = " " ∨ ∃ inner, s = "(" ++ inner ++ ") "

/-- A request of a shape, whose document asks for one root field and for a selection in it. -/
structure Request.Asks (r : Request) (shape : Shape) (root selection : String) : Prop where
  shape : r.shape = shape
  query : ∃ operation arguments, IsArguments arguments ∧
    r.document.query = operation ++ braced (root ++ arguments ++ braced selection)

/-- What a mutation needs of its item: an id to delete it by, or else an object to send. -/
def Item.Suits (item : Item) : Mutation → Prop
  | .delete => Text.isBlank item.id = false
  | .create | .update => ∃ fields, item.json = .ok (.obj fields)

namespace Model

variable {m : Model} {e : ApiError}

/-- A condition, if there is one, compares fields of the model only. -/
def Admits (m : Model) (p : Option Predicate) : Prop := ∀ q ∈ p, q.Within m.fields

theorem admits_none : m.Admits none := nofun

theorem admits_some {p : Predicate} : m.Admits (some p) ↔ p.Within m.fields := by
  simp [Admits]

/-! ## Reasons -/

/-- The model has nothing to select. -/
def noFields (m : Model) : ApiError := .requestShape s!"Model {m.name} declares no fields"

/-- A condition compares a field that the model does not have. -/
def unknownField (m : Model) (field : String) : ApiError :=
  .requestShape s!"Predicate references unknown field '{field}' on {m.name}"

/-! ## Parts of a request -/

theorem selection_eq_ok {s : String} :
    m.selection = .ok s ↔ m.fields ≠ [] ∧ s = " ".intercalate m.fields := by
  unfold selection
  cases m.fields with
  | nil => simp
  | cons f rest => simpa using eq_comm

theorem selection_eq_error : m.selection = .error e ↔ m.fields = [] ∧ e = m.noFields := by
  unfold selection noFields
  cases m.fields with
  | nil => simpa using eq_comm
  | cons f rest => simp

theorem filter_eq_ok {p : Predicate} {j : Json} :
    m.filter p = .ok j ↔ p.Within m.fields ∧ j = p.toFilter := by
  unfold filter
  rw [← Predicate.unknownField?_eq_none]
  cases p.unknownField? m.fields <;> simp [eq_comm]

theorem filter_eq_error {p : Predicate} :
    m.filter p = .error e ↔ ∃ f, p.FirstUnknown m.fields f ∧ e = m.unknownField f := by
  unfold filter unknownField
  simp only [← Predicate.unknownField?_eq_some]
  cases p.unknownField? m.fields <;> simp [eq_comm]

/-- There is an input to delete any item by, and to send any item that is an object. -/
theorem exists_input {item : Item} {kind : Mutation} :
    (∃ j, m.input item kind = .ok j) ↔ kind = .delete ∨ item.Suits kind := by
  cases kind with
  | delete => exact ⟨fun _ => .inl rfl, fun _ => ⟨_, rfl⟩⟩
  | create | update =>
      obtain ⟨id, json⟩ := item
      cases json with
      | error text => simp [input, Item.Suits]
      | ok j => cases j <;> simp [input, Item.Suits]

/-! ## What is asked for -/

/-- The fields of the model, as they are selected. -/
def selected (m : Model) : String := " ".intercalate m.fields

/-- The items of a page, and where the next page begins. -/
def selectedPage (m : Model) : String := "items " ++ braced m.selected ++ " nextToken"

variable {r : Request}

theorem asks_query {id : String} (h : m.query id = .ok r) :
    r.Asks .single ("get" ++ m.name) m.selected := by
  obtain ⟨selection, hs, h⟩ := bind_eq_ok.1 h
  obtain ⟨-, rfl⟩ := selection_eq_ok.1 hs
  split at h
  · cases h
  · cases h
    exact ⟨rfl, _, _, .inr ⟨"id: $id", rfl⟩, rfl⟩

theorem asks_list {p : Option Predicate} (h : m.list p = .ok r) :
    r.Asks .array ("list" ++ m.plural) m.selectedPage := by
  obtain ⟨selection, hs, h⟩ := bind_eq_ok.1 h
  obtain ⟨-, rfl⟩ := selection_eq_ok.1 hs
  cases p with
  | none =>
      cases h
      exact ⟨rfl, _, _, .inr ⟨"filter: $filter", rfl⟩, rfl⟩
  | some p =>
      obtain ⟨filter, -, h⟩ := bind_eq_ok.1 h
      cases h
      exact ⟨rfl, _, _, .inr ⟨"filter: $filter", rfl⟩, rfl⟩

theorem asks_mutation {item : Item} {p : Option Predicate} {kind : Mutation}
    (h : m.mutation item p kind = .ok r) :
    r.Asks .single (kind.field ++ m.name) m.selected := by
  obtain ⟨selection, hs, h⟩ := bind_eq_ok.1 h
  obtain ⟨-, rfl⟩ := selection_eq_ok.1 hs
  obtain ⟨input, -, h⟩ := bind_eq_ok.1 h
  cases p with
  | none =>
      cases h
      exact ⟨rfl, _, _, .inr ⟨"input: $input, condition: $condition", rfl⟩, rfl⟩
  | some p =>
      obtain ⟨condition, -, h⟩ := bind_eq_ok.1 h
      cases h
      exact ⟨rfl, _, _, .inr ⟨"input: $input, condition: $condition", rfl⟩, rfl⟩

theorem asks_subscription {change : Change} (h : m.subscription change = .ok r) :
    r.Asks .stream ("on" ++ change.verb ++ m.name) m.selected := by
  obtain ⟨selection, hs, h⟩ := bind_eq_ok.1 h
  obtain ⟨-, rfl⟩ := selection_eq_ok.1 hs
  cases h
  exact ⟨rfl, _, _, .inl rfl, rfl⟩

/-! ## Requests -/

theorem exists_query {id : String} :
    (∃ r, m.query id = .ok r) ↔ m.fields ≠ [] ∧ Text.isBlank id = false := by
  simp only [query, bind_eq_ok, selection_eq_ok]
  cases Text.isBlank id with
  | true => simp
  | false => exact ⟨fun ⟨_, _, ⟨h, _⟩, _⟩ => ⟨h, rfl⟩, fun ⟨h, _⟩ => ⟨_, _, ⟨h, rfl⟩, rfl⟩⟩

theorem exists_list {p : Option Predicate} :
    (∃ r, m.list p = .ok r) ↔ m.fields ≠ [] ∧ m.Admits p := by
  simp only [list, bind_eq_ok, selection_eq_ok]
  cases p with
  | none =>
      exact ⟨fun ⟨_, _, ⟨h, _⟩, _⟩ => ⟨h, admits_none⟩, fun ⟨h, _⟩ => ⟨_, _, ⟨h, rfl⟩, rfl⟩⟩
  | some p =>
      simp only [bind_eq_ok, filter_eq_ok, admits_some]
      constructor
      · rintro ⟨_, _, ⟨h, _⟩, _, ⟨hp, _⟩, _⟩
        exact ⟨h, hp⟩
      · rintro ⟨h, hp⟩
        exact ⟨_, _, ⟨h, rfl⟩, _, ⟨hp, rfl⟩, rfl⟩

theorem exists_subscription {change : Change} :
    (∃ r, m.subscription change = .ok r) ↔ m.fields ≠ [] := by
  simp only [subscription, bind_eq_ok, selection_eq_ok]
  exact ⟨fun ⟨_, _, ⟨h, _⟩, _⟩ => h, fun h => ⟨_, _, ⟨h, rfl⟩, rfl⟩⟩

theorem exists_mutation {item : Item} {p : Option Predicate} {kind : Mutation} :
    (∃ r, m.mutation item p kind = .ok r) ↔
      m.fields ≠ [] ∧ (kind = .delete ∨ item.Suits kind) ∧ m.Admits p := by
  rw [← exists_input (m := m)]
  cases p with
  | none =>
      simp only [mutation, bind_eq_ok, selection_eq_ok]
      constructor
      · rintro ⟨_, _, ⟨h, _⟩, j, hj, _⟩
        exact ⟨h, ⟨j, hj⟩, admits_none⟩
      · rintro ⟨h, ⟨j, hj⟩, _⟩
        exact ⟨_, _, ⟨h, rfl⟩, j, hj, _, rfl, rfl⟩
  | some p =>
      simp only [mutation, bind_eq_ok, selection_eq_ok, filter_eq_ok, admits_some]
      constructor
      · rintro ⟨_, _, ⟨h, _⟩, j, hj, _, ⟨hp, _⟩, _⟩
        exact ⟨h, ⟨j, hj⟩, hp⟩
      · rintro ⟨h, ⟨j, hj⟩, hp⟩
        exact ⟨_, _, ⟨h, rfl⟩, j, hj, _, ⟨hp, rfl⟩, _, rfl, rfl⟩

/-! ## Reports -/

/-- A list is refused for want of fields, or for the first field of its condition that the model
does not have. -/
theorem list_eq_error {p : Option Predicate} :
    m.list p = .error e ↔
      (m.fields = [] ∧ e = m.noFields) ∨
      (m.fields ≠ [] ∧ ∃ q ∈ p, ∃ f, q.FirstUnknown m.fields f ∧ e = m.unknownField f) := by
  simp only [list, bind_eq_error, selection_eq_error, selection_eq_ok]
  refine or_congr_right ?_
  cases p with
  | none => simp [pure, Except.pure]
  | some p => simp [bind_eq_error, filter_eq_error, pure, Except.pure]

/-- A mutation is refused for want of fields, then for its item, then for the first field of its
condition that the model does not have. -/
theorem mutation_eq_error {item : Item} {p : Option Predicate} {kind : Mutation} :
    m.mutation item p kind = .error e ↔
      (m.fields = [] ∧ e = m.noFields) ∨
      (m.fields ≠ [] ∧ (m.input item kind = .error e ∨
        ((kind = .delete ∨ item.Suits kind) ∧
          ∃ q ∈ p, ∃ f, q.FirstUnknown m.fields f ∧ e = m.unknownField f))) := by
  rw [← exists_input (m := m)]
  cases p with
  | none => simp [mutation, bind_eq_error, selection_eq_error, selection_eq_ok, pure, Except.pure]
  | some p =>
      simp [mutation, bind_eq_error, selection_eq_error, selection_eq_ok, filter_eq_error, pure,
        Except.pure]

/-- A model makes a request exactly if it has fields, the id of a query is not blank, the item of
a mutation is what the mutation needs and a condition compares fields of the model only; but for
the id of an item to delete, which may be blank.  A condition that is refused is reported by its
first field that the model does not have. -/
theorem accepts_well_formed_iff (m : Model) :
    (∀ id, (∃ r, m.query id = .ok r) ↔ m.fields ≠ [] ∧ Text.isBlank id = false) ∧
    (∀ p, (∃ r, m.list p = .ok r) ↔ m.fields ≠ [] ∧ m.Admits p) ∧
    (∀ change, (∃ r, m.subscription change = .ok r) ↔ m.fields ≠ []) ∧
    (∀ item p kind, (∃ r, m.mutation item p kind = .ok r) ↔
      m.fields ≠ [] ∧ (kind = .delete ∨ item.Suits kind) ∧ m.Admits p) ∧
    (∀ item p kind,
      ((∃ r, m.mutation item p kind = .ok r) ↔
        m.fields ≠ [] ∧ item.Suits kind ∧ m.Admits p) ↔
      ¬ (m.fields ≠ [] ∧ kind = .delete ∧ Text.isBlank item.id = true ∧ m.Admits p)) ∧
    (∀ p e, m.list p = .error e ↔
      (m.fields = [] ∧ e = m.noFields) ∨
      (m.fields ≠ [] ∧ ∃ q ∈ p, ∃ f, q.FirstUnknown m.fields f ∧ e = m.unknownField f)) ∧
    (∀ item p kind e, m.mutation item p kind = .error e ↔
      (m.fields = [] ∧ e = m.noFields) ∨
      (m.fields ≠ [] ∧ (m.input item kind = .error e ∨
        ((kind = .delete ∨ item.Suits kind) ∧
          ∃ q ∈ p, ∃ f, q.FirstUnknown m.fields f ∧ e = m.unknownField f)))) := by
  refine ⟨fun _ => exists_query, fun _ => exists_list, fun _ => exists_subscription,
    fun _ _ _ => exists_mutation, fun item p kind => ?_, fun _ _ => list_eq_error,
    fun _ _ _ _ => mutation_eq_error⟩
  rw [exists_mutation]
  cases kind with
  | create | update => simp
  | delete =>
      have hid : item.Suits .delete ↔ Text.isBlank item.id = false := Iff.rfl
      rw [hid]
      cases Text.isBlank item.id <;> simp

/-- An item with a blank id is deleted, although no item is asked for by such an id. -/
theorem deletes_blank_id :
    let post : Model := { name := "Post", fields := ["id", "title"] }
    let item : Item := ⟨"", .ok (.obj [("id", .str ""), ("title", .str "Hello")])⟩
    ¬ item.Suits .delete ∧ (∃ r, post.mutation item none .delete = .ok r) ∧
      ¬ ∃ r, post.query item.id = .ok r := by
  intro post item
  have hblank : Text.isBlank item.id = true := rfl
  refine ⟨?_, exists_mutation.2 ⟨by simp [post], .inl rfl, admits_none⟩, ?_⟩
  · intro h
    have hfull : Text.isBlank item.id = false := h
    simp [hblank] at hfull
  · simp [exists_query, hblank]

/-! ## The kind of a report -/

/-- A query has no id to ask for. -/
def noId (m : Model) : ApiError := .requestShape s!"Cannot query {m.name} without an id"

/-- An item is sent that is no object. -/
def notObject (m : Model) : ApiError :=
  .requestShape s!"Model {m.name} must serialize to an object"

theorem query_eq_error {id : String} :
    m.query id = .error e ↔
      (m.fields = [] ∧ e = m.noFields) ∨
      (m.fields ≠ [] ∧ Text.isBlank id = true ∧ e = m.noId) := by
  simp only [query, bind_eq_error, selection_eq_error, selection_eq_ok]
  refine or_congr_right ?_
  cases Text.isBlank id <;> simp [noId, pure, Except.pure, eq_comm]

theorem subscription_eq_error {change : Change} :
    m.subscription change = .error e ↔ m.fields = [] ∧ e = m.noFields := by
  simp [subscription, bind_eq_error, selection_eq_error, selection_eq_ok, pure, Except.pure]

/-- An item is refused where it has no JSON form, in the words of the one who could not give it,
or where its form is no object.  To delete an item its form is not looked at. -/
theorem input_eq_error {item : Item} {kind : Mutation} :
    m.input item kind = .error e ↔
      kind ≠ .delete ∧ ((∃ text, item.json = .error text ∧ e = .protocol text) ∨
        (∃ j, item.json = .ok j ∧ (∀ fields, j ≠ .obj fields) ∧ e = m.notObject)) := by
  obtain ⟨id, json⟩ := item
  cases kind with
  | delete => simp [input]
  | create | update =>
      cases json with
      | error text => simp [input, eq_comm]
      | ok j => cases j <;> simp [input, notObject, eq_comm]

/-- The model can be asked for, the item would be sent, and it has no JSON form. -/
def Unwritten (m : Model) (item : Item) (kind : Mutation) : Prop :=
  m.fields ≠ [] ∧ kind ≠ .delete ∧ ∃ text, item.json = .error text

/-- An item that has no JSON form is refused before its condition is looked at. -/
theorem mutation_of_json_eq_error {item : Item} {p : Option Predicate} {kind : Mutation}
    {text : String} (hfields : m.fields ≠ []) (hkind : kind ≠ .delete)
    (htext : item.json = .error text) : m.mutation item p kind = .error (.protocol text) := by
  have hinput : m.input item kind = .error (.protocol text) :=
    input_eq_error.2 ⟨hkind, .inl ⟨text, htext, rfl⟩⟩
  exact mutation_eq_error.2 (.inr ⟨hfields, .inl hinput⟩)

/-- Every other report of a mutation is a matter of the request. -/
theorem isRequestShape_of_mutation {item : Item} {p : Option Predicate} {kind : Mutation}
    (hwritten : ¬ m.Unwritten item kind) (h : m.mutation item p kind = .error e) :
    e.isRequestShape = true := by
  rcases mutation_eq_error.1 h with ⟨-, rfl⟩ | ⟨hfields, hinput | ⟨-, q, -, f, -, rfl⟩⟩
  · rfl
  · obtain ⟨hkind, ⟨text, htext, -⟩ | ⟨j, -, -, rfl⟩⟩ := input_eq_error.1 hinput
    · exact absurd ⟨hfields, hkind, text, htext⟩ hwritten
    · rfl
  · rfl

/-- Whatever a model cannot make a request of is reported as a matter of the request, but for a
mutation that would send an item without a JSON form: that is reported as a matter of the protocol,
in the words of the one who could not give the form. -/
theorem reports_shape_iff (m : Model) :
    (∀ id e, m.query id = .error e → e.isRequestShape = true) ∧
    (∀ p e, m.list p = .error e → e.isRequestShape = true) ∧
    (∀ change e, m.subscription change = .error e → e.isRequestShape = true) ∧
    (∀ item p kind,
      (∀ e, m.mutation item p kind = .error e → e.isRequestShape = true) ↔
        ¬ m.Unwritten item kind) ∧
    (∀ item p kind text, m.fields ≠ [] → kind ≠ .delete → item.json = .error text →
      m.mutation item p kind = .error (.protocol text)) := by
  refine ⟨fun id e h => ?_, fun p e h => ?_, fun change e h => ?_, fun item p kind => ⟨?_, ?_⟩,
    fun item p kind text => mutation_of_json_eq_error⟩
  · rcases query_eq_error.1 h with ⟨-, rfl⟩ | ⟨-, -, rfl⟩ <;> rfl
  · rcases list_eq_error.1 h with ⟨-, rfl⟩ | ⟨-, q, -, f, -, rfl⟩ <;> rfl
  · obtain ⟨-, rfl⟩ := subscription_eq_error.1 h
    rfl
  · rintro hall ⟨hfields, hkind, text, htext⟩
    have hreport := hall _ (mutation_of_json_eq_error hfields hkind htext)
    cases hreport
  · exact fun hwritten e => isRequestShape_of_mutation hwritten

/-- A query without an id, and a tag that is no object. -/
theorem reports_shape_tag :
    let tag : Model := { name := "Tag", fields := ["id"] }
    let item : Item := ⟨"t1", .ok (.str "t1")⟩
    tag.query " " = .error tag.noId ∧ tag.noId.isRequestShape = true ∧
      tag.mutation item none .update = .error tag.notObject ∧
        tag.notObject.isRequestShape = true := by
  intro tag item
  obtain ⟨hquery, -, -, hmutation, -⟩ := reports_shape_iff tag
  have hid : tag.query " " = .error tag.noId :=
    query_eq_error.2 (.inr ⟨by simp [tag], rfl, rfl⟩)
  have hupdate : tag.mutation item none .update = .error tag.notObject := by
    have hinput : tag.input item .update = .error tag.notObject := rfl
    exact mutation_eq_error.2 (.inr ⟨by simp [tag], .inl hinput⟩)
  have hwritten : ¬ tag.Unwritten item .update := by
    rintro ⟨-, -, text, htext⟩
    cases htext
  exact ⟨hid, hquery _ _ hid, hupdate, (hmutation item none .update).2 hwritten _ hupdate⟩

/-- A post that cannot be written is refused, and not as a matter of the request. -/
theorem reports_protocol :
    let post : Model := { name := "Post", fields := ["id", "title"] }
    let item : Item := ⟨"", .error "cannot serialize"⟩
    post.mutation item none .create = .error (.protocol "cannot serialize") ∧
      (ApiError.protocol "cannot serialize").isRequestShape = false := by
  intro post item
  exact ⟨mutation_of_json_eq_error (by simp [post]) (by decide) rfl, rfl⟩

end Model
end Switchboard.GraphQL
