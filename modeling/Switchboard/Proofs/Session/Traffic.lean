import Switchboard.Proofs.Session.Opening

/-!
# Switchboard.Proofs.Session.Traffic

What an open session carries in both directions, whatever the order is in which the client, the
reader and the writer move.

* `Arrival.item?`, `delivered` — what arrivals are to the client;
* `queued` — what moves put into the queue;
* `Move.isCalm`, `Sound` — moves by which nothing is lost, and what holds as long as there are no
  others;
* `Sound.conveys` — what one move does in each direction;
* `inbox_run`, `queue_run` — what many do;
* `Sound.flush` — what the writer does if nobody else moves;
* `carries_everything` — all of it together.
-/

namespace Switchboard.Session

open GraphQL (ClientMessage ServerMessage ConnectionError)

/-! ## To the client -/

/-- Arrivals after which nothing is read. -/
def Arrival.isLast : Arrival → Bool
  | ended | broken _ | frame (.close _) => true
  | frame _ => false

/-- Messages that only show that the other side is there. -/
def isBeat : ServerMessage → Bool
  | .ping _ | .pong _ => true
  | _ => false

/-- What an arrival is to the client: a message, or an error of the transport. -/
def Arrival.item? : Arrival → Option (Except ConnectionError ServerMessage)
  | frame f => match f.message? with
    | some (.ok m) => if isBeat m then none else some (.ok m)
    | _ => none
  | broken text => some (.error (.webSocket text))
  | ended => none

/-- What arrivals in a row are to the client.  Only those up to the first after which nothing is
read count. -/
def delivered (arrivals : List Arrival) : List (Except ConnectionError ServerMessage) :=
  (arrivals.takeWhile (!·.isLast) ++ (arrivals.find? Arrival.isLast).toList).filterMap Arrival.item?

/-- What arrives in a move. -/
def Move.arrival? : Move → Option Arrival
  | arrive a => some a
  | _ => none

/-- What the client takes in a move. -/
def takenBy (s : Session) : Move → Option (Except ConnectionError ServerMessage)
  | .take => s.take?.map Prod.fst
  | _ => none

/-- What the client takes in the course of some moves. -/
def taken (s : Session) : List Move → List (Except ConnectionError ServerMessage)
  | [] => []
  | m :: rest => (s.takenBy m).toList ++ taken (s.step m) rest

theorem delivered_cons (a : Arrival) (rest : List Arrival) :
    delivered (a :: rest) = a.item?.toList ++ if a.isLast then [] else delivered rest := by
  unfold delivered
  cases hlast : a.isLast with
  | true => cases hitem : a.item? <;> simp [hlast, hitem]
  | false => cases hitem : a.item? <;> simp [hlast, hitem]

/-! ## From the client -/

/-- What a move puts into the queue: what the client says, and a pong for a ping that is read. -/
def Move.queues (reading : Bool) : Move → List ClientMessage
  | say m => [m]
  | arrive a => if reading then (a.ping?.map .pong).toList else []
  | _ => []

/-- Whether the client lets go in a move. -/
def Move.isLetGo : Move → Bool
  | letGo => true
  | _ => false

/-- Whether nothing is read after a move. -/
def Move.isLast (m : Move) : Bool := m.arrival?.any Arrival.isLast

/-- What moves put into the queue, in order, as long as the client holds on. -/
def queued : (held reading : Bool) → List Move → List ClientMessage
  | _, _, [] => []
  | held, reading, m :: rest =>
    (if held then m.queues reading else []) ++
      queued (held && !m.isLetGo) (reading && !m.isLast) rest

/-! ## Calm moves -/

/-- Moves by which nothing is lost: the client does not turn away from what arrives, and what is
written goes through. -/
def Move.isCalm : Move → Bool
  | turnAway | fail => false
  | _ => true

/-- A session in which nothing was lost: the socket is closed only when nothing can come that is
not written. -/
structure Sound (s : Session) : Prop where
  heeded : s.heeded = true
  parted : s.closed = true → s.held = false ∧ s.queue = []

variable {s : Session} {m : Move}

/-- A frame that holds a message ends nothing. -/
theorem isLast_of_message {f : Frame} {r : Except Json.TextFault ServerMessage}
    (h : f.message? = some r) : (Arrival.frame f).isLast = false := by
  cases f with
  | close => cases h
  | text | binary | ping | pong => rfl

/-- What a frame with a message means is what the message means. -/
theorem arrive_of_message {f : Frame} {r : Except Json.TextFault ServerMessage}
    (hreading : s.reading = true) (h : f.message? = some r) :
    s.arrive (.frame f) = match r with
      | .ok m => s.hear m
      | .error _ => s := by
  cases f with
  | close => cases h
  | text | binary | ping | pong => cases r <;> simp [Session.arrive, hreading, h]

theorem Sound.closed_eq_false (h : Sound s) (hheld : s.held = true) : s.closed = false := by
  cases hclosed : s.closed with
  | false => rfl
  | true => cases hheld.symm.trans (h.parted hclosed).1

theorem Sound.say (h : Sound s) (hheld : s.held = true) (msg : ClientMessage) :
    (s.say msg).1 = { s with queue := s.queue ++ [msg] } := by
  simp [Session.say, h.closed_eq_false hheld]

theorem Sound.keep (h : Sound s) (x : Except ConnectionError ServerMessage) :
    s.keep x = { s with inbox := s.inbox ++ [x] } := by
  simp [Session.keep, h.heeded]

/-- What an arrival does: the client gets its item, and a ping is answered unless the client has
let go. -/
theorem Sound.arrive (h : Sound s) (a : Arrival) :
    s.arrive a = { s with
      inbox := s.inbox ++ if s.reading then a.item?.toList else []
      queue := s.queue ++ if s.held then Move.queues s.reading (.arrive a) else []
      reading := s.reading && !a.isLast } := by
  have hsay := h.say
  have hkeep := h.keep
  obtain ⟨queue, held, written, closed, inbox, heeded, reading⟩ := s
  cases h.heeded
  cases reading with
  | false => simp [Session.arrive, Move.queues]
  | true =>
    cases a with
    | ended =>
        simp [Session.arrive, Move.queues, Arrival.item?, Arrival.ping?, Arrival.isLast]
    | broken text =>
        simp [Session.arrive, Move.queues, Arrival.item?, Arrival.ping?, Arrival.isLast, hkeep]
    | frame f =>
      cases hm : f.message? with
      | none =>
          cases f with
          | text | binary => cases hm
          | close | ping | pong =>
              simp [Session.arrive, Move.queues, Arrival.item?, Arrival.ping?, Arrival.isLast,
                Frame.message?]
      | some r =>
        rw [arrive_of_message rfl hm, isLast_of_message hm]
        cases r with
        | error e => simp [Move.queues, Arrival.item?, Arrival.ping?, hm]
        | ok m =>
          cases m with
          | ping payload =>
              cases held with
              | true => simp [hear, isBeat, Move.queues, Arrival.item?, Arrival.ping?, hm, hsay rfl]
              | false => simp [hear, isBeat, Arrival.item?, hm]
          | pong | ack | next | error | complete =>
              simp [hear, isBeat, Move.queues, Arrival.item?, Arrival.ping?, hm, hkeep]

/-! ## One move -/

theorem Sound.step_say (h : Sound s) (msg : ClientMessage) :
    s.step (.say msg) = { s with queue := s.queue ++ if s.held then [msg] else [] } := by
  have hsay := h.say
  obtain ⟨queue, held, written, closed, inbox, heeded, reading⟩ := s
  cases held with
  | true => simp [Session.step, hsay rfl]
  | false => simp [Session.step]

theorem step_take (s : Session) : s.step .take = { s with inbox := s.inbox.tail } := by
  obtain ⟨queue, held, written, closed, inbox, heeded, reading⟩ := s
  cases inbox <;> rfl

/-- The writer writes what is first in the queue; only when there is nothing, and nobody to add
to it, it closes the socket. -/
theorem Sound.step_write (h : Sound s) :
    s.step .write = { s with
      written := s.written ++ s.queue.take 1
      queue := s.queue.tail
      closed := s.closed || (s.queue.isEmpty && !s.held) } := by
  have hparted := h.parted
  obtain ⟨queue, held, written, closed, inbox, heeded, reading⟩ := s
  cases closed with
  | true =>
      obtain ⟨hheld, hqueue⟩ := hparted rfl
      cases hheld
      cases hqueue
      simp [Session.step, Session.write]
  | false => cases queue <;> simp [Session.step, Session.write]

/-- After the client has let go nothing is added to the queue, so it stays empty. -/
theorem Sound.step (h : Sound s) (hm : m.isCalm = true) : Sound (s.step m) := by
  have hparted := h.parted
  have hheeded := h.heeded
  cases m with
  | arrive a =>
      rw [Session.step, h.arrive]
      refine ⟨hheeded, fun hclosed => ?_⟩
      obtain ⟨hheld, hqueue⟩ := hparted hclosed
      simp [hheld, hqueue]
  | say msg =>
      rw [h.step_say]
      refine ⟨hheeded, fun hclosed => ?_⟩
      obtain ⟨hheld, hqueue⟩ := hparted hclosed
      simp [hheld, hqueue]
  | letGo => exact ⟨hheeded, fun hclosed => ⟨rfl, (hparted hclosed).2⟩⟩
  | take =>
      rw [step_take]
      exact ⟨hheeded, hparted⟩
  | write =>
      rw [h.step_write]
      refine ⟨hheeded, fun hclosed => ?_⟩
      rw [Bool.or_eq_true, Bool.and_eq_true, List.isEmpty_iff, Bool.not_eq_true'] at hclosed
      rcases hclosed with hclosed | ⟨hqueue, hheld⟩
      · obtain ⟨hheld, hqueue⟩ := hparted hclosed
        simp [hheld, hqueue]
      · simp [hheld, hqueue]
  | turnAway | fail => cases hm

/-- What a move from `s` to `s'` carries in each direction. -/
structure Conveys (s : Session) (m : Move) (s' : Session) : Prop where
  held : s'.held = (s.held && !m.isLetGo)
  reading : s'.reading = (s.reading && !m.isLast)
  /-- What the client takes and what is left for it are what there was and what arrives. -/
  inbox : (s.takenBy m).toList ++ s'.inbox =
    s.inbox ++ if s.reading then (m.arrival?.bind Arrival.item?).toList else []
  /-- What is written and what is queued are what there was and what the move adds to it. -/
  queue : s'.written ++ s'.queue = s.written ++ s.queue ++ if s.held then m.queues s.reading else []

theorem Sound.conveys (h : Sound s) (hm : m.isCalm = true) : Conveys s m (s.step m) := by
  cases m with
  | arrive a =>
      rw [Session.step, h.arrive]
      constructor <;> simp [Move.isLetGo, Move.isLast, Move.arrival?, takenBy]
  | say msg =>
      rw [h.step_say]
      constructor <;> simp [Move.isLetGo, Move.isLast, Move.arrival?, Move.queues, takenBy]
  | letGo =>
      constructor <;>
        simp [Session.step, letGo, Move.isLetGo, Move.isLast, Move.arrival?, Move.queues, takenBy]
  | take =>
      rw [step_take]
      constructor <;> cases hinbox : s.inbox <;>
        simp [Move.isLetGo, Move.isLast, Move.arrival?, Move.queues, takenBy, take?, hinbox]
  | write =>
      rw [h.step_write]
      constructor <;> cases hqueue : s.queue <;>
        simp [Move.isLetGo, Move.isLast, Move.arrival?, Move.queues, takenBy]
  | turnAway | fail => cases hm

/-! ## Many moves -/

variable {moves : List Move}

theorem Sound.run (h : Sound s) (hm : ∀ m ∈ moves, m.isCalm = true) : Sound (s.run moves) := by
  unfold Session.run
  induction moves generalizing s with
  | nil => exact h
  | cons m rest ih =>
    exact ih (h.step (hm m List.mem_cons_self)) fun m hmem => hm m (List.mem_cons_of_mem _ hmem)

theorem held_run (h : Sound s) (hm : ∀ m ∈ moves, m.isCalm = true) :
    (s.run moves).held = (s.held && !moves.any Move.isLetGo) := by
  unfold Session.run
  induction moves generalizing s with
  | nil => simp
  | cons m rest ih =>
    have hcalm := hm m List.mem_cons_self
    have hmove := h.conveys hcalm
    have hrest := ih (h.step hcalm) fun m hmem => hm m (List.mem_cons_of_mem _ hmem)
    rw [List.foldl_cons, hrest, hmove.held, List.any_cons, Bool.not_or, Bool.and_assoc]

theorem reading_run (h : Sound s) (hm : ∀ m ∈ moves, m.isCalm = true) :
    (s.run moves).reading = (s.reading && !moves.any Move.isLast) := by
  unfold Session.run
  induction moves generalizing s with
  | nil => simp
  | cons m rest ih =>
    have hcalm := hm m List.mem_cons_self
    have hmove := h.conveys hcalm
    have hrest := ih (h.step hcalm) fun m hmem => hm m (List.mem_cons_of_mem _ hmem)
    rw [List.foldl_cons, hrest, hmove.reading, List.any_cons, Bool.not_or, Bool.and_assoc]

theorem any_arrival_isLast (moves : List Move) :
    (moves.filterMap Move.arrival?).any Arrival.isLast = moves.any Move.isLast := by
  induction moves with
  | nil => rfl
  | cons m rest ih => cases ha : m.arrival? <;> simp [ha, Move.isLast, ih]

/-- Nothing that arrives is lost, doubled or put in another order on the way to the client. -/
theorem inbox_run (h : Sound s) (hm : ∀ m ∈ moves, m.isCalm = true) :
    s.taken moves ++ (s.run moves).inbox =
      s.inbox ++ if s.reading then delivered (moves.filterMap Move.arrival?) else [] := by
  induction moves generalizing s with
  | nil => simp [taken, Session.run, delivered]
  | cons m rest ih =>
    have hcalm := hm m List.mem_cons_self
    have hmove := h.conveys hcalm
    have hrest := ih (h.step hcalm) fun m hmem => hm m (List.mem_cons_of_mem _ hmem)
    have hrun : s.run (m :: rest) = (s.step m).run rest := rfl
    rw [taken, hrun, List.append_assoc, hrest, ← List.append_assoc, hmove.inbox, hmove.reading]
    cases s.reading with
    | false => simp
    | true =>
      cases ha : m.arrival? with
      | none => simp [ha, Move.isLast]
      | some a => cases hlast : a.isLast <;> simp [ha, Move.isLast, hlast, delivered_cons]

/-- Nothing that is put into the queue is lost, doubled or written in another order. -/
theorem queue_run (h : Sound s) (hm : ∀ m ∈ moves, m.isCalm = true) :
    (s.run moves).written ++ (s.run moves).queue =
      s.written ++ s.queue ++ queued s.held s.reading moves := by
  induction moves generalizing s with
  | nil => simp [queued, Session.run]
  | cons m rest ih =>
    have hcalm := hm m List.mem_cons_self
    have hmove := h.conveys hcalm
    have hrest := ih (h.step hcalm) fun m hmem => hm m (List.mem_cons_of_mem _ hmem)
    have hrun : s.run (m :: rest) = (s.step m).run rest := rfl
    rw [hrun, hrest, hmove.queue, hmove.held, hmove.reading, queued, List.append_assoc]

/-! ## The writer alone -/

/-- If nobody else moves, the writer writes the whole queue, and then closes the socket if the
client has let go. -/
theorem Sound.flush (h : Sound s) :
    Rehearsal.flush s =
      { s with written := s.written ++ s.queue, queue := [], closed := !s.held } := by
  induction hqueue : s.queue generalizing s with
  | nil =>
      have hwrite : s.write = _ := h.step_write
      have hclosed : (s.closed || !s.held) = !s.held := by
        cases hc : s.closed with
        | false => rfl
        | true => simp [(h.parted hc).1]
      simp [Rehearsal.flush, hqueue, hwrite, hclosed]
  | cons msg rest ih =>
      have hwrite : s.write = { s with written := s.written ++ [msg], queue := rest } := by
        have hstep : s.write = _ := h.step_write
        simp [hstep, hqueue]
      have hsound : Sound s.write := h.step (m := .write) rfl
      have hflush : Rehearsal.flush s = Rehearsal.flush s.write := by
        rw [Rehearsal.flush, Rehearsal.flush, hqueue, List.length_cons, List.replicate_succ,
          List.foldl_cons, hwrite]
      rw [hflush, ih hsound (by rw [hwrite]), hwrite]
      simp

/-! ## Sessions -/

theorem sound_open (queue written : List ClientMessage) : Sound { queue, written } :=
  ⟨rfl, fun h => by cases h⟩

/-- A session that has just been opened, with what was said during the opening, carries everything
in both directions as long as the client does not turn away and what is written goes through.

The client gets the messages that can be read but for pings and pongs, in order, up to the first
arrival after which nothing is read, and an error if that is a failure of the transport; nothing
more comes once it has taken them and there is such an arrival.  What it says until it lets go, and
one pong for each ping that is read until then, is queued in order, and is written in that order.
The socket is closed only when the client has let go and all of it is written, and if only the
writer moves from then on, that is what it comes to. -/
theorem carries_everything (queue written : List ClientMessage) (moves : List Move)
    (calm : ∀ m ∈ moves, m.isCalm = true) :
    let start : Session := { queue, written }
    let s := start.run moves
    let arrivals := moves.filterMap Move.arrival?
    let said := written ++ queue ++ queued true true moves
    start.taken moves ++ s.inbox = delivered arrivals ∧
    (s.isOver = true ↔
      arrivals.any Arrival.isLast = true ∧ start.taken moves = delivered arrivals) ∧
    s.written ++ s.queue = said ∧
    (s.closed = true → s.written = said ∧ moves.any Move.isLetGo = true) ∧
    (Rehearsal.flush s).written = said ∧
    (Rehearsal.flush s).closed = moves.any Move.isLetGo := by
  intro start s arrivals said
  have hstart : Sound start := sound_open queue written
  have hs : Sound s := hstart.run calm
  have hin : start.taken moves ++ s.inbox = delivered arrivals := inbox_run hstart calm
  have hout : s.written ++ s.queue = said := queue_run hstart calm
  have hreading : s.reading = !arrivals.any Arrival.isLast := by
    rw [any_arrival_isLast]
    exact reading_run hstart calm
  have hheld : s.held = !moves.any Move.isLetGo := held_run hstart calm
  refine ⟨hin, ?_, hout, fun hclosed => ?_, ?_, ?_⟩
  · have hempty : s.inbox = [] ↔ start.taken moves = delivered arrivals := by
      rw [← hin, List.self_eq_append_right]
    rw [isOver, Bool.and_eq_true, List.isEmpty_iff, hempty, hreading, Bool.not_not]
  · obtain ⟨hparted, hqueue⟩ := hs.parted hclosed
    rw [hqueue, List.append_nil] at hout
    rw [hparted, eq_comm, Bool.not_eq_false'] at hheld
    exact ⟨hout, hheld⟩
  · rw [hs.flush]
    exact hout
  · rw [hs.flush, hheld, Bool.not_not]

/-- A session with a ping, a text that is no message and a control frame, in which the client says
something and lets go at once, and which breaks after that. -/
theorem carries_everything_parting :
    let ping := "\x7b\"payload\":7,\"type\":\"ping\"\x7d"
    let pong := "\x7b\"payload\":7,\"type\":\"pong\"\x7d"
    let first := "\x7b\"id\":\"1\",\"type\":\"complete\"\x7d"
    let second := "\x7b\"id\":\"2\",\"type\":\"complete\"\x7d"
    let moves : List Move := [
      .say (.complete "1"), .arrive (.frame (.text ping)), .arrive (.frame (.text "no message")),
      .write, .arrive (.frame .ping), .arrive (.frame (.binary (Text.encode second))), .take,
      .say (.complete "2"), .letGo, .arrive (.broken "reset"), .arrive (.frame (.text first))]
    let start : Session := {}
    let s := start.run moves
    (∀ m ∈ moves, m.isCalm = true) ∧
    (start.taken moves ++ s.inbox).map (·.toOption.map (·.toJson.render)) = [some second, none] ∧
    (Rehearsal.flush s).written.map (·.toJson.render) = [first, pong, second] ∧
    (Rehearsal.flush s).closed = true := by
  intro ping pong first second moves start s
  have hcalm : ∀ m ∈ moves, m.isCalm = true := by simp [moves, Move.isCalm]
  obtain ⟨hin, -, -, -, hwritten, hclosed⟩ := carries_everything [] [] moves hcalm
  have hitems : (delivered (moves.filterMap Move.arrival?)).map
      (·.toOption.map (·.toJson.render)) = [some second, none] := by decide +kernel
  have hsaid : (queued true true moves).map (·.toJson.render) = [first, pong, second] := by
    decide +kernel
  exact ⟨hcalm, (congrArg _ hin).trans hitems, (congrArg _ hwritten).trans hsaid, hclosed⟩

end Switchboard.Session
