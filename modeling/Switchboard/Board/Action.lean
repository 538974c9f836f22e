import Switchboard.Board.Turn

/-!
# Switchboard.Board.Action

What callers and servers do on a board.  None of it lets a task take a turn; it only
makes tasks ready.

* `place`, `refuse`, `control` — callers;
* `enroll`, `withdraw`, `ignore` — registrations that belong to no call;
* `serve`, `stopAccepting`, `reject`, `hold`, `proceed` — servers.
-/

namespace Switchboard

open GraphQL (ServerMessage ConnectionError)

/-- What a server does on a connection. -/
inductive Utterance where
  | say (m : ServerMessage)
  /-- The connection breaks. -/
  | fail (e : ConnectionError)
  /-- The server ends the connection. -/
  | close

namespace Board

/-! ## Callers -/

/-- What a listener hears that a call fails at once: there is no operation that its
control calls could be valid for. -/
def heardAtOnce (listener : Listener) (e : ApiError) : Notice Answer :=
  ⟨.failed e, (listener.reaction 1).map fun controls => controls.map fun _ => false⟩

/-- Calls the API of a name; the call gets the next number. -/
def place (b : Board) (listener : Listener) (name : String) (call : Call) : Board × Launch :=
  let launch := b.clients.launch listener name call
  let record : CallRecord := match launch with
    | .started entry request operation =>
      { placed := some { desk := entry.api.name, request, listener, operation } }
    | .reported e => { early := [heardAtOnce listener e] }
    | .refused _ => {}
  let b' := { b with calls := b.calls ++ [record] }
  (b'.wakeIf record.placed.isSome (.worker b.calls.length), launch)

/-- A call that fails before there is one; it gets a number all the same. -/
def refuse (b : Board) : Board := { b with calls := b.calls ++ [{}] }

/-- Controls the operation of a call: whether that was valid, if there is one. -/
def control (b : Board) (n : Nat) (c : Control) : Board × Option Bool :=
  match b.placed? n with
  | none => (b, none)
  | some p =>
    let (op, ok, demands) := p.operation.perform c
    let waits := ok && (c = .start || op.awaitsChange || op.controller.seat = .aborting)
    let b := (b.modifyOperation n fun _ => op).wakeIf waits (.worker n)
    (demands.foldl (meet p.desk) b, some ok)

/-! ## Registrations that belong to no call -/

def enroll (b : Board) (desk : String) (document : GraphQL.Document) : Board :=
  let b' := { b with extras := b.extras ++ [({ desk, document } : Extra)] }
  b'.wake (.registration b.extras.length)

/-- Starts to remove a subscription; the result is that of the last removal. -/
def withdraw (b : Board) (desk id : String) : Board := b.remove desk id

/-- Takes no more messages of a registration. -/
def ignore (b : Board) (n : Nat) : Board :=
  b.modifyExtra n fun x => { x with taking := false, received := [] }

/-! ## Servers -/

/-- Does something on a connection; tells whether anyone was there to notice. -/
def utter (b : Board) (n : Nat) (w : Wire) : Utterance → Board × Bool
  | .close => (b.modifyWire n fun w => { w with speaking := false }, true)
  | .say m => pass (.ok m)
  | .fail e => pass (.error e)
where
  pass (x : Except ConnectionError ServerMessage) : Board × Bool :=
    if w.speaking && w.listening then
      (b.modifyWire n fun w => { w with incoming := w.incoming ++ [x] }, true)
    else (b, false)

def utterAll (n : Nat) : Board → List Utterance → Board × List Bool
  | b, [] => (b, [])
  | b, u :: rest => match b.wires[n]? with
    | none => (b, [])
    | some w =>
      let (b, noticed) := b.utter n w u
      let (b, more) := utterAll n (b.wakeIf w.listening (.reader n)) rest
      (b, noticed :: more)

/-- Does things on a connection in turn; tells for each whether anyone was there to
notice, if there is such a connection. -/
def serve (b : Board) (n : Nat) (us : List Utterance) : Board × Option (List Bool) :=
  match b.wires[n]? with
  | none => (b, none)
  | some _ =>
    let (b, noticed) := utterAll n b us
    (b, some noticed)

/-- A server takes nothing more that the client says. -/
def stopAccepting (b : Board) (n : Nat) : Board :=
  b.modifyWire n fun w => { w with accepting := false, outgoing := [] }

/-- From now on no connection comes about for a reason, or all do for none. -/
def reject (b : Board) (refusal : Option ConnectionError) : Board :=
  { b with exchange := { b.exchange with refusal } }

/-- From now on connecting takes until further notice. -/
def hold (b : Board) : Board := { b with exchange := { b.exchange with holding := true } }

/-- Lets everything go on that takes until further notice. -/
def proceed (b : Board) : Board :=
  let b' := { b with exchange := { b.exchange with holding := false, waiting := [] } }
  b.exchange.waiting.foldl wake b'

end Board
end Switchboard
