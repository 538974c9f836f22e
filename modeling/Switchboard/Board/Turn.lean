import Switchboard.Board.Basic

/-!
# Switchboard.Board.Turn

What a task does in its turn: as much as it can until it has to wait for others.

* `acquire`, `release` — the endpoint of a desk, for one task at a time;
* `register`, `unregister` — a task at an endpoint;
* `turn` — the turn of a task;
* `settle` — turns until no task is ready.
-/

namespace Switchboard

/-! ## Queueing for an endpoint -/

/-- Whether the endpoint is the task's; if not, the task stands in the queue. -/
def Desk.acquire (d : Desk) (t : Task) : Desk × Bool :=
  match d.holder with
  | none => ({ d with holder := some t }, true)
  | some u =>
    if u = t then (d, true)
    else if d.queue.contains t then (d, false)
    else ({ d with queue := d.queue ++ [t] }, false)

/-- Hands the endpoint to the first task in the queue. -/
def Desk.release (d : Desk) : Desk × Option Task :=
  match d.queue with
  | [] => ({ d with holder := none }, none)
  | t :: rest => ({ d with holder := some t, queue := rest }, some t)

namespace Board

/-- A task is done with the endpoint of a desk: what the endpoint signals is done, and
the endpoint goes to the next. -/
def leave (b : Board) (name : String) (d : Desk) (r : Endpoint Sink × List (Signal Sink)) :
    Board :=
  let b := (b.setDesk name { d with endpoint := r.1 }).carryAll r.2
  match b.desk? name with
  | none => b
  | some d =>
    let (d, next) := d.release
    let b := b.setDesk name d
    next.elim b b.wake

/-- Whether the server of the connection that a desk uses takes messages. -/
def isAccepting (b : Board) (d : Desk) : Bool :=
  match d.endpoint.link.bind fun link => b.wires[link.connection]? with
  | some w => w.accepting
  | none => false

/-- Goes on opening a connection, unless that takes until further notice; tells whether
it is through. -/
def connect (b : Board) (t : Task) (name : String) (d : Desk) : Board × Bool :=
  if b.exchange.holding then
    ({ b with exchange := { b.exchange with waiting := b.exchange.waiting ++ [t] } }, false)
  else match b.exchange.refusal with
    | some e => (b.leave name d (d.endpoint.refused (.ofConnection e)), true)
    | none =>
      let n := b.wires.length
      let wire : Wire := { desk := name, generation := d.endpoint.generation + 1 }
      let b := { b with wires := b.wires ++ [wire] }.wake (.reader n)
      (b.leave name d (d.endpoint.connected n true), true)

/-- Starts to open a connection; tells whether that is through. -/
def dial (b : Board) (t : Task) (name : String) (d : Desk) : Board × Bool :=
  let b' := { b with now := b.now + 1 }
  match d.entry.client.credentials b.now d.entry.api.endpoint with
  | .error e => (b'.leave name d (d.endpoint.refused (.ofHttp e)), true)
  | .ok payload =>
    let attempt : Attempt := ⟨d.entry.api.subscriptionUrl, payload⟩
    let exchange := { b.exchange with attempts := b.exchange.attempts ++ [attempt] }
    { b' with exchange }.connect t name d

/-- Registers a subscription at the endpoint of a desk; tells whether that is through. -/
def register (b : Board) (t : Task) (name : String) (document : GraphQL.Document)
    (sink : Sink) : Board × Bool :=
  match b.desk? name with
  | none => (b, true)
  | some d =>
    let (d, mine) := d.acquire t
    let b := b.setDesk name d
    if !mine then (b, false)
    else if d.endpoint.isBusy then b.connect t name d
    else
      let r := d.endpoint.register ⟨idOf b.issued, document, sink⟩ (b.isAccepting d)
      let b := { b with issued := b.issued + 1 }
      let d := { d with endpoint := r.1 }
      if r.1.isBusy then (b.setDesk name d).dial t name d
      else (b.leave name d r, true)

/-- Removes a subscription at the endpoint of a desk: whether there was one, or nothing
if the task has to wait. -/
def unregister (b : Board) (t : Task) (name id : String) : Board × Option Bool :=
  match b.desk? name with
  | none => (b, some false)
  | some d =>
    let (d, mine) := d.acquire t
    let b := b.setDesk name d
    if !mine then (b, none)
    else (b.leave name d (d.endpoint.unregister id (b.isAccepting d)), some (d.endpoint.has id))

/-! ## The worker of a call -/

/-- What the worker waits for, if this board has it at once; tells whether it had. -/
def assist (b : Board) (n : Nat) (p : Placed) : Board × Bool :=
  match p.operation.stage with
  | .sending => match b.desk? p.desk with
    | none => (b, false)
    | some d =>
      let r := p.request.exchange b.network b.now d.entry.client d.entry.api.endpoint
        p.listener.decode
      ({ b with now := b.now + 1 }.modifyOperation n (·.answer r),
        p.operation.controller.seat = .spawned)
  | .registering => b.register (.worker n) p.desk p.request.document (.call n)
  | .unregistering id =>
    let (b, done) := b.unregister (.worker n) p.desk id
    (b.modifyOperation n fun op => if done.isSome then op.unregistered else op, done.isSome)
  | _ => (b, false)

/-- At most `fuel` steps of the worker of a call. -/
def workFor : Nat → Nat → Board → Board
  | 0, _, b => b
  | fuel + 1, n, b =>
    match b.placed? n with
    | none => b
    | some p => match p.operation.work? p.plan false with
      | some (op, demands) =>
        workFor fuel n (demands.foldl (meet p.desk) (b.modifyOperation n fun _ => op))
      | none => match b.assist n p with
        | (b, true) => workFor fuel n b
        | (b, false) => b

/-- How many control calls the listener makes while it hears the next events. -/
def reactions (plan : Plan Answer) (op : Operation Answer) (events : Nat) : Nat :=
  (List.range events).foldl (fun total n =>
    total + ((plan.reaction (op.notices.length + n + 1)).getD []).length) 0

/-- How many steps a worker can take at most.  A message takes no more than ten, a
control call of the listener no more than four, a registration and a removal no more
than the rest. -/
def workBound (plan : Plan Answer) (op : Operation Answer) : Nat :=
  let events := op.inbox.length + op.pending.length
  10 * events + 4 * reactions plan op (events + 1) + 50

def work (b : Board) (n : Nat) : Board :=
  match b.placed? n with
  | none => b
  | some p => workFor (workBound p.plan p.operation) n b

/-! ## The reader of a connection -/

/-- Passes on what comes over a connection, at most `fuel` messages. -/
def readFor : Nat → Nat → Board → Board
  | 0, _, b => b
  | fuel + 1, n, b =>
    match b.wires[n]? with
    | none => b
    | some w =>
      if !w.listening then b
      else match w.incoming, w.speaking with
        | [], true => b
        | incoming, _ => match b.desk? w.desk with
          | none => b
          | some d =>
            let (d, mine) := d.acquire (.reader n)
            let b := b.setDesk w.desk d
            if !mine then b
            else
              let rest := b.modifyWire n fun w => { w with incoming := w.incoming.drop 1 }
              let last := b.modifyWire n fun w => { w with listening := false }
              match incoming with
              | .ok m :: _ =>
                readFor fuel n (rest.leave w.desk d (d.endpoint.route w.generation m))
              | .error e :: _ =>
                last.leave w.desk d (d.endpoint.lost w.generation (.ofConnection e))
              | [] => last.leave w.desk d (d.endpoint.lost w.generation Endpoint.closedError)

def read (b : Board) (n : Nat) : Board :=
  match b.wires[n]? with
  | none => b
  | some w => readFor (w.incoming.length + 1) n b

/-! ## Turns -/

/-- The turn of a task. -/
def turn (b : Board) : Task → Board
  | .worker n => b.work n
  | .reader n => b.read n
  | .removal n => match b.removals[n]? with
    | none => b
    | some r =>
      if r.result.isSome then b
      else
        let (b, result) := b.unregister (.removal n) r.desk r.id
        { b with removals := b.removals.modify n fun r => { r with result } }
  | .registration n => match b.extras[n]? with
    | none => b
    | some x =>
      if x.result.isSome then b
      else (b.register (.registration n) x.desk x.document (.registration n)).1

/-- At most `fuel` turns. -/
def settleFor : Nat → Board → Board
  | 0, b => b
  | fuel + 1, b => match b.ready with
    | [] => b
    | t :: rest => settleFor fuel ({ b with ready := rest }.turn t)

/-- How many turns there can be at most.  A task is ready when it starts, when it gets
an endpoint or a connection, and when there is something new for it. -/
def settleBound (b : Board) : Nat :=
  64 * (b.calls.length + b.removals.length + b.extras.length + b.wires.length + 1)

/-- Lets tasks take turns until none is ready. -/
def settle (b : Board) : Board := settleFor b.settleBound b

end Board
end Switchboard
