import Switchboard.Board.Action
import Switchboard.Proofs.Dispatch.Launch

/-!
# Switchboard.Proofs.Board.Place

What a call does to a board before anyone takes a turn.

* `clients_ofClients` — the clients of a new board;
* `entry_desk?` — a desk has the client of its name;
* `exists_ready_wake` — making a task ready changes nothing else;
* `Reported`, `Refused`, `Opened` — the three ways in which a call can come out;
* `place_settled` — every call comes out in one of them.
-/

namespace Switchboard.Board

/-! ## Clients -/

@[simp] theorem clients_ofClients (network : Network) (clients : Clients) :
    (ofClients network clients).clients = clients := by
  simp [Board.clients, ofClients, Function.comp_def]

/-- A desk has the client of its name. -/
theorem entry_desk? (b : Board) (name : String) :
    (b.desk? name).map (·.entry) = Keyed.get? name b.clients.entries :=
  (Keyed.get?_map name (·.entry) b.desks).symm

/-- Who makes a task ready changes nothing else. -/
theorem exists_ready_wake (b : Board) (t : Task) :
    ∃ ready, t ∈ ready ∧ b.wake t = { b with ready } := by
  unfold wake
  split
  · next h => exact ⟨b.ready, List.contains_iff_mem.1 h, rfl⟩
  · exact ⟨b.ready ++ [t], List.mem_append_right _ List.mem_cons_self, rfl⟩

/-! ## Calls -/

/-- The listener has heard of a failure, and of nothing else; there is no operation, and
nothing on the board but the list of calls is changed. -/
structure Reported (b : Board) (name : String) (call : Call) (e : ApiError) (b' : Board) :
    Prop where
  fault : b.clients.Fault name call e
  board : ∃ record : CallRecord, b' = { b with calls := b.calls ++ [record] } ∧
    record.placed = none ∧ record.notices.map (·.event) = [.failed e]

/-- The same with the failure given back to the caller, and nothing heard. -/
structure Refused (b : Board) (name : String) (call : Call) (e : ApiError) (b' : Board) :
    Prop where
  fault : b.clients.Fault name call e
  board : ∃ record : CallRecord, b' = { b with calls := b.calls ++ [record] } ∧
    record.placed = none ∧ record.notices = []

/-- An operation for the request of a call is started at the desk of a name: its worker is
ready, nothing is heard yet, and nothing else on the board is changed. -/
structure Opened (b : Board) (name : String) (call : Call) (entry : ClientEntry)
    (op : Operation Answer) (b' : Board) : Prop where
  desk : (b.desk? name).map (·.entry) = some entry
  api : entry.api.name = name
  phase : op.phase = .started
  seat : op.controller.seat = .spawned
  kind : op.gate.kind = .stream ↔ call.subscribes = true
  heard : op.heard = []
  board : ∃ (record : CallRecord) (placed : Placed) (ready : List Task),
    b' = { b with calls := b.calls ++ [record], ready } ∧ .worker b.calls.length ∈ ready ∧
    record.placed = some placed ∧ record.notices = [] ∧
    placed.desk = name ∧ call.request = .ok placed.request ∧ placed.operation = op

variable {hasWorkers : Bool} {providers : Providers} {settings : Http.Settings} {apis : Apis}

/-- A call comes out in one of three ways.  If nobody has the name, or else the request is
not a proper one, a GraphQL call is reported to the listener and a REST call refused; else
the operation is started for the client of the name. -/
theorem place_settled {b : Board}
    (hbuilt : Clients.ofApis hasWorkers providers settings apis = .ok b.clients)
    (listener : Listener) (name : String) (call : Call) :
    match b.place listener name call with
    | (b', .reported e) => call.isGraphQL = true ∧ b.Reported name call e b'
    | (b', .refused e) => call.isGraphQL = false ∧ b.Refused name call e b'
    | (b', .started entry _ op) => b.Opened name call entry op b' := by
  unfold place
  rcases b.clients.launch_cases listener name call with
    ⟨entry, request, hresolve, hrequest, hlaunch⟩ | ⟨e, hfault, hlaunch⟩
  · have hs := Operation.started_perform (request.plan listener)
    generalize ((Operation.create (request.plan listener)).perform .start).1 = op at hlaunch hs
    rw [hlaunch]
    have hname := ((Clients.sound_ofApis hbuilt).resolve hresolve).1
    have hentry := (b.entry_desk? name).trans (Clients.resolve_eq_ok.1 hresolve)
    have hkind : ((request.plan listener).kind = .stream ↔ call.subscribes = true) := by
      rw [show (request.plan listener).kind = request.kind from rfl,
        Call.kind_of_request hrequest]
      cases call.subscribes <;> simp
    let placed : Placed := { desk := entry.api.name, request, listener, operation := op }
    let record : CallRecord := { placed := some placed }
    obtain ⟨ready, hready, hwake⟩ :=
      exists_ready_wake { b with calls := b.calls ++ [record] } (.worker b.calls.length)
    have hnotices : record.notices = [] := List.map_eq_nil_iff.1 hs.heard
    exact {
      desk := hentry, api := hname, phase := hs.phase, seat := hs.seat
      kind := hs.kind ▸ hkind, heard := hs.heard
      board := ⟨record, placed, ready, hwake, hready, rfl, hnotices, hname, hrequest, rfl⟩ }
  · rw [hlaunch]
    cases hg : call.isGraphQL with
    | true => exact ⟨rfl, hfault, _, rfl, rfl, rfl⟩
    | false => exact ⟨rfl, hfault, _, rfl, rfl, rfl⟩

/-- Of two things wrong with a call the name comes first; where nothing is wrong, the
operation is started. -/
theorem place_settled_blog :
    let blog : Api := (Api.create "blog" "http://localhost:4000/graphql").withApiKey "da2-blog"
    let listener : Listener := { decode := Json.anything }
    let lookup : GraphQL.Request := .ofQuery .single "query \x7b posts \x7d"
    let feed : GraphQL.Request := .ofQuery .stream "subscription \x7b posts \x7d"
    ∃ clients, Clients.ofApis true {} {} ⟨[("blog", blog)]⟩ = .ok clients ∧
      (ofClients .silent clients).Reported "shop" (.subscribe lookup) (.missingApi "shop")
        ((ofClients .silent clients).place listener "shop" (.subscribe lookup)).1 ∧
      ∃ entry op, (ofClients .silent clients).Opened "blog" (.subscribe feed) entry op
        ((ofClients .silent clients).place listener "blog" (.subscribe feed)).1 := by
  intro blog listener lookup feed
  let key : Http.Interceptor := Http.credential Http.apiKeyHeader (.fixed "da2-blog")
  let b := ofClients .silent ⟨[("blog", ⟨blog, ⟨{}, [key]⟩⟩)]⟩
  have hbuilt : Clients.ofApis true {} {} ⟨[("blog", blog)]⟩ = .ok b.clients := rfl
  have hshop := place_settled hbuilt listener "shop" (.subscribe lookup)
  have hblog := place_settled hbuilt listener "blog" (.subscribe feed)
  exact ⟨_, hbuilt, hshop.2, _, _, hblog⟩

end Switchboard.Board
