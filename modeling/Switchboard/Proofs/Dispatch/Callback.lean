import Switchboard.Proofs.Dispatch.Launch
import Switchboard.Proofs.Operation.Callback

/-!
# Switchboard.Proofs.Dispatch.Callback

On which thread a listener is called.  A call whose request is started leaves all callbacks to the
worker, in whatever order things happen.  A call with something wrong has no worker: of a REST call
the caller gets the failure back, and of a GraphQL call the listener hears it before the call is
over, on the thread of the caller.

* `perform_start_eq_run` — the start of an operation is the first moves of a run;
* `Fault.launch_eq`, `Fault.told` — what becomes of a call with something wrong;
* `heard_on_caller_iff` — the thread of the caller calls a listener for these alone;
* `reports_on_caller` — and of a name that nobody has it does.
-/

namespace Switchboard

open Operation (callbacks)

/-- To start an operation at once is to make the call and all its steps with nothing in between. -/
theorem Operation.perform_start_eq_run {α : Type} (plan : Plan α) :
    ((create plan).perform .start).1 =
      (run plan [.control .start, .pursue 0, .pursue 0, .pursue 0, .pursue 0] (create plan)).1 := by
  obtain ⟨kind, decode, reaction⟩ := plan
  cases kind <;> rfl

namespace Clients

variable {clients : Clients} {name : String} {call : Call}

/-- A call with something wrong starts nothing: its listener or its caller is told. -/
theorem Fault.launch_eq {e : ApiError} (h : clients.Fault name call e) (listener : Listener) :
    clients.launch listener name call = if call.isGraphQL then .reported e else .refused e := by
  unfold launch
  cases h with
  | missing unknown =>
      have hn : clients.resolve name = .error (.missingApi name) :=
        resolve_eq_error.2 ⟨unknown, rfl⟩
      rw [hn]
      rfl
  | improper known improper =>
      obtain ⟨entry, hentry⟩ := Option.isSome_iff_exists.1 known
      have hn : clients.resolve name = .ok entry := resolve_eq_ok.2 hentry
      have hr : call.request = .error e := Call.request_eq_error.2 improper
      rw [hn, hr]
      rfl

/-- The listener of a GraphQL call has heard of what is wrong, and that of a REST call nothing. -/
theorem Fault.told {e : ApiError} (h : clients.Fault name call e) (listener : Listener) :
    (clients.launch listener name call).operation? = none ∧
      (clients.launch listener name call).heard =
        if call.isGraphQL then [.failed e] else [] := by
  rw [h.launch_eq listener]
  cases call.isGraphQL <;> exact ⟨rfl, rfl⟩

/-- A call calls its listener on the thread of its caller exactly if it is a GraphQL call with
something wrong: then the listener hears that once, and there is no operation.  With nothing wrong
there is one, which nobody has heard of when its start is done; and in whatever order things happen
from its beginning on, everything that the listener hears of it is brought by a step of the worker,
which runs as a task.  A start may have to wait for its listener nevertheless, exactly if the call
is for one answer. -/
theorem heard_on_caller_iff (clients : Clients) (listener : Listener) (name : String)
    (call : Call) :
    let launch := clients.launch listener name call
    (launch.heard ≠ [] ↔ call.isGraphQL = true ∧ ∃ e, clients.Fault name call e) ∧
    (∀ e, clients.Fault name call e → launch.operation? = none ∧
      launch.heard = if call.isGraphQL then [.failed e] else []) ∧
    ((¬ ∃ e, clients.Fault name call e) → ∃ entry request, call.request = .ok request ∧
      let plan := request.plan listener
      let created := Operation.create plan
      launch = .started entry request (Operation.run plan
        [.control .start, .pursue 0, .pursue 0, .pursue 0, .pursue 0] created).1 ∧
      (∀ moves, (Operation.run plan moves created).1.heard =
          (callbacks plan moves created).map (·.event) ∧
        ∀ c ∈ callbacks plan moves created, c.ByWorker) ∧
      ((∃ moves, ∃ i : Nat, let op := (Operation.run plan moves created).1
          op.waitsForGate op.controller.pursuits[i]? = true) ↔ call.subscribes = false)) := by
  intro launch
  have hfault : ∀ e, clients.Fault name call e → launch.operation? = none ∧
      launch.heard = if call.isGraphQL then [.failed e] else [] :=
    fun e h => h.told listener
  rcases launch_cases clients listener name call with
    ⟨entry, request, hn, hr, hstarted⟩ | ⟨e, h, -⟩
  · -- With nothing wrong.
    have hproper : ¬ ∃ e, clients.Fault name call e := by
      rintro ⟨e, h⟩
      have hnone := (hfault e h).1
      rw [show launch = _ from hstarted] at hnone
      cases hnone
    have hquiet : launch.heard = [] := by
      rw [show launch = _ from hstarted]
      exact (Operation.started_perform _).heard
    refine ⟨⟨fun h => absurd hquiet h, fun h => absurd h.2 hproper⟩, hfault, fun _ => ?_⟩
    refine ⟨entry, request, hr, ?_, fun moves => ?_, ?_⟩
    · rw [← Operation.perform_start_eq_run]
      exact hstarted
    · exact Operation.callbacks_run (request.plan listener) moves (Operation.create _)
    · refine (Operation.exists_waitsForGate_iff _).trans ?_
      rw [show (request.plan listener).kind = _ from Call.kind_of_request hr]
      cases call.subscribes <;> simp
  · -- With something wrong.
    obtain ⟨hnone, hheard⟩ := hfault e h
    refine ⟨⟨fun hne => ⟨?_, e, h⟩, fun ⟨hgraph, _⟩ => ?_⟩, hfault, fun hproper => ?_⟩
    · cases hg : call.isGraphQL with
      | true => rfl
      | false =>
          rw [hheard, hg] at hne
          exact absurd rfl hne
    · rw [hheard, if_pos hgraph]
      exact List.cons_ne_nil _ _
    · exact absurd ⟨e, h⟩ hproper

/-- A query to a name that nobody has, a subscription with the document of a query, and a query for
a model with no id: each time the caller itself calls the listener, and there is no operation. -/
theorem reports_on_caller :
    let clients : Clients := ⟨[("blog", ⟨Api.create "blog" "http://blog.test/graphql", ⟨{}, []⟩⟩)]⟩
    let listener : Listener := { decode := Json.anything }
    let ping : GraphQL.Request := .ofQuery .single "{ ping }"
    let missing := clients.launch listener "shop" (.query ping)
    let misshapen := clients.launch listener "blog" (.subscribe ping)
    let unbuilt := clients.launch listener "blog" (.queryModel { name := "Post", fields := ["id"] } "")
    (missing.heard = [.failed (.missingApi "shop")] ∧ missing.operation? = none) ∧
    (misshapen.heard =
        [.failed (.requestShape "Single response shape is not valid for this operation")] ∧
      misshapen.operation? = none) ∧
    (unbuilt.heard = [.failed (.requestShape "Cannot query Post without an id")] ∧
      unbuilt.operation? = none) := by
  intro clients listener ping missing misshapen unbuilt
  have hmissing : missing = _ := Fault.launch_eq (.missing (by decide +kernel)) listener
  have hmisshapen : misshapen = _ :=
    Fault.launch_eq (.improper (by decide +kernel) (.subscribe (by decide))) listener
  have hunbuilt : unbuilt = _ :=
    Fault.launch_eq (.improper (by decide +kernel) (.queryModel rfl)) listener
  rw [hmissing, hmisshapen, hunbuilt]
  exact ⟨⟨rfl, rfl⟩, ⟨rfl, rfl⟩, rfl, rfl⟩

end Clients
end Switchboard
