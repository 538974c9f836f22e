import Switchboard.Dispatch.Launch
import Switchboard.Proofs.Dispatch.Clients
import Switchboard.Proofs.GraphQL.Model

/-!
# Switchboard.Proofs.Dispatch.Launch

What becomes of a call.  The ways to call differ in where their requests come from, and in
nothing else: a request has the shape that its call is for, and either there is a name and a
proper request and the operation is started, or one of the two is missing and there is none.

* `Improper`, `request_eq_error` — why a call has no proper request;
* `kind_of_request` — a request asks for items as they come if its call is a subscription;
* `started_perform` — an operation that was started at once;
* `Fault` — what is wrong with a call to a name;
* `launch_cases` — either nothing is, and the operation is started, or there is none.
-/

namespace Switchboard

open GraphQL (Shape Model)

/-! ## Requests -/

theorem GraphQL.Request.within_eq_ok {allowed : List Shape} {r r' : GraphQL.Request} :
    r.within allowed = .ok r' ↔ r' = r ∧ r.shape ∈ allowed := by
  unfold within
  split
  · next h =>
    have hmem := List.contains_iff_mem.1 h
    simp [hmem, eq_comm]
  · next h =>
    have hmem : r.shape ∉ allowed := fun hmem => h (List.contains_iff_mem.2 hmem)
    simp [hmem]

theorem GraphQL.Request.within_eq_error {allowed : List Shape} {r : GraphQL.Request}
    {e : ApiError} :
    r.within allowed = .error e ↔ r.shape ∉ allowed ∧
      e = .requestShape s!"{r.shape.name} response shape is not valid for this operation" := by
  unfold within
  split
  · next h => simp [List.contains_iff_mem.1 h]
  · next h =>
    have hmem : r.shape ∉ allowed := fun hmem => h (List.contains_iff_mem.2 hmem)
    simp [hmem, eq_comm]

theorem Rest.Request.create_eq_error {method : Rest.Method} {options : Rest.Options}
    {e : ApiError} :
    Rest.Request.create method options = .error e ↔
      options.data.isSome = true ∧ method.allowsBody = false ∧
        e = .requestShape s!"HTTP method does not support data object! {method.name}" := by
  unfold create
  split
  · next h =>
    obtain ⟨hdata, hbody⟩ : options.data.isSome = true ∧ method.allowsBody = false := by
      simpa using h
    simp [hdata, hbody, eq_comm]
  · next h =>
    have hnot : ¬ (options.data.isSome = true ∧ method.allowsBody = false) := by simpa using h
    simpa using fun hdata hbody => absurd ⟨hdata, hbody⟩ hnot

namespace Call

/-- Why a call has no proper request: its document has a shape that the call is not for, its
model makes no request, or its method takes no body. -/
inductive Improper : Call → ApiError → Prop where
  | query {r : GraphQL.Request} (shape : r.shape = .stream) :
      Improper (.query r) (.requestShape "Stream response shape is not valid for this operation")
  | mutate {r : GraphQL.Request} (shape : r.shape = .stream) :
      Improper (.mutate r) (.requestShape "Stream response shape is not valid for this operation")
  | subscribe {r : GraphQL.Request} (shape : r.shape ≠ .stream) :
      Improper (.subscribe r)
        (.requestShape s!"{r.shape.name} response shape is not valid for this operation")
  | queryModel {m : Model} {id : String} {e : ApiError} (fails : m.query id = .error e) :
      Improper (.queryModel m id) e
  | listModels {m : Model} {p : Option GraphQL.Predicate} {e : ApiError}
      (fails : m.list p = .error e) : Improper (.listModels m p) e
  | mutateModel {m : Model} {item : GraphQL.Item} {p : Option GraphQL.Predicate}
      {kind : GraphQL.Mutation} {e : ApiError} (fails : m.mutation item p kind = .error e) :
      Improper (.mutateModel m item p kind) e
  | subscribeModel {m : Model} {change : GraphQL.Change} {e : ApiError}
      (fails : m.subscription change = .error e) : Improper (.subscribeModel m change) e
  | rest {method : Rest.Method} {options : Rest.Options} (data : options.data.isSome = true)
      (body : method.allowsBody = false) :
      Improper (.rest method options)
        (.requestShape s!"HTTP method does not support data object! {method.name}")

theorem not_mem_responses {s : Shape} : s ∉ [Shape.single, .array] ↔ s = .stream := by
  cases s <;> simp

/-- A call has no proper request for these reasons and no other. -/
theorem request_eq_error {call : Call} {e : ApiError} :
    call.request = .error e ↔ call.Improper e := by
  constructor
  · intro h
    cases call with
    | query r =>
        obtain ⟨hs, rfl⟩ := GraphQL.Request.within_eq_error.1 (map_eq_error.1 h)
        rw [not_mem_responses] at hs
        rw [hs]
        exact .query hs
    | mutate r =>
        obtain ⟨hs, rfl⟩ := GraphQL.Request.within_eq_error.1 (map_eq_error.1 h)
        rw [not_mem_responses] at hs
        rw [hs]
        exact .mutate hs
    | subscribe r =>
        obtain ⟨hs, rfl⟩ := GraphQL.Request.within_eq_error.1 (map_eq_error.1 h)
        exact .subscribe (by simpa using hs)
    | queryModel m id => exact .queryModel (map_eq_error.1 h)
    | listModels m p => exact .listModels (map_eq_error.1 h)
    | mutateModel m item p kind => exact .mutateModel (map_eq_error.1 h)
    | subscribeModel m change => exact .subscribeModel (map_eq_error.1 h)
    | rest method options =>
        obtain ⟨hd, hb, rfl⟩ := Rest.Request.create_eq_error.1 (map_eq_error.1 h)
        exact .rest hd hb
  · intro h
    cases h with
    | query hs | mutate hs =>
        have hname := congrArg Shape.name hs
        refine map_eq_error.2 (GraphQL.Request.within_eq_error.2 ⟨not_mem_responses.2 hs, ?_⟩)
        rw [hname]
        rfl
    | subscribe hs =>
        exact map_eq_error.2 (GraphQL.Request.within_eq_error.2 ⟨by simpa using hs, rfl⟩)
    | queryModel h | listModels h | mutateModel h | subscribeModel h => exact map_eq_error.2 h
    | rest hd hb => exact map_eq_error.2 (Rest.Request.create_eq_error.2 ⟨hd, hb, rfl⟩)

/-- Whether a call is for items as they come. -/
def subscribes : Call → Bool
  | subscribe _ | subscribeModel _ _ => true
  | _ => false

/-- A proper request has the shape that its call is for. -/
theorem kind_of_request {call : Call} {request : CallRequest} (h : call.request = .ok request) :
    request.kind = if call.subscribes then .stream else .single := by
  cases call with
  | rest method options =>
      obtain ⟨r, -, rfl⟩ := map_eq_ok.1 h
      rfl
  | query r | mutate r =>
      obtain ⟨r', hr, rfl⟩ := map_eq_ok.1 h
      obtain ⟨rfl, hshape⟩ := GraphQL.Request.within_eq_ok.1 hr
      have hne : r'.shape ≠ .stream := by
        intro hs
        rw [hs] at hshape
        cases hshape with
        | tail _ hshape => cases hshape with | tail _ hshape => cases hshape
      simp [CallRequest.kind, hne, subscribes]
  | subscribe r =>
      obtain ⟨r', hr, rfl⟩ := map_eq_ok.1 h
      obtain ⟨rfl, hshape⟩ := GraphQL.Request.within_eq_ok.1 hr
      simp [CallRequest.kind, List.mem_singleton.1 hshape, subscribes]
  | queryModel m id =>
      obtain ⟨r, hr, rfl⟩ := map_eq_ok.1 h
      simp [CallRequest.kind, (GraphQL.Model.asks_query hr).shape, subscribes]
  | listModels m p =>
      obtain ⟨r, hr, rfl⟩ := map_eq_ok.1 h
      simp [CallRequest.kind, (GraphQL.Model.asks_list hr).shape, subscribes]
  | mutateModel m item p kind =>
      obtain ⟨r, hr, rfl⟩ := map_eq_ok.1 h
      simp [CallRequest.kind, (GraphQL.Model.asks_mutation hr).shape, subscribes]
  | subscribeModel m change =>
      obtain ⟨r, hr, rfl⟩ := map_eq_ok.1 h
      simp [CallRequest.kind, (GraphQL.Model.asks_subscription hr).shape, subscribes]

end Call

/-! ## Starting -/

/-- An operation that was started at once: its worker runs, and nobody has heard anything. -/
structure Operation.Started {α : Type} (plan : Plan α) (op : Operation α) : Prop where
  phase : op.phase = .started
  seat : op.controller.seat = .spawned
  kind : op.gate.kind = plan.kind
  heard : op.heard = []

theorem Operation.started_perform {α : Type} (plan : Plan α) :
    Started plan ((create plan).perform .start).1 := by
  unfold create
  cases hk : plan.kind with
  | single => exact ⟨rfl, rfl, hk.symm, rfl⟩
  | stream => exact ⟨rfl, rfl, hk.symm, rfl⟩

/-! ## Launching -/

namespace Clients

/-- What is wrong with a call to a name: nobody has the name, or else the request is not a
proper one. -/
inductive Fault (clients : Clients) (name : String) (call : Call) : ApiError → Prop where
  | missing (unknown : Keyed.has name clients.entries = false) :
      Fault clients name call (.missingApi name)
  | improper (known : Keyed.has name clients.entries = true) {e : ApiError}
      (improper : call.Improper e) : Fault clients name call e

theorem launch_cases (clients : Clients) (listener : Listener) (name : String) (call : Call) :
    (∃ entry request, clients.resolve name = .ok entry ∧ call.request = .ok request ∧
      clients.launch listener name call = .started entry request
        ((Operation.create (request.plan listener)).perform .start).1) ∨
    ∃ e, clients.Fault name call e ∧
      clients.launch listener name call = if call.isGraphQL then .reported e else .refused e := by
  unfold launch
  cases hn : clients.resolve name with
  | error e =>
      obtain ⟨hhas, rfl⟩ := resolve_eq_error.1 hn
      exact .inr ⟨_, .missing hhas, rfl⟩
  | ok entry =>
      have hhas : Keyed.has name clients.entries = true := by
        rw [Keyed.has, resolve_eq_ok.1 hn]
        rfl
      cases hr : call.request with
      | error e => exact .inr ⟨e, .improper hhas (Call.request_eq_error.1 hr), rfl⟩
      | ok request => exact .inl ⟨entry, request, rfl, rfl, rfl⟩

end Clients
end Switchboard
