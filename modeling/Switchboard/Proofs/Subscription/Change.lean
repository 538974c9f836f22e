import Switchboard.Subscription.Endpoint

/-!
# Switchboard.Proofs.Subscription.Change

What one move can do to an endpoint, as a relation.  `Change ep m r` has one case for
each exit of each operation, with all that has to hold for it, so that what every move
keeps is proved by cases.

* `linked`, `remove` — what several exits have in common;
* `Change` — the exits;
* `step_change` — every step is one of them;
* `run_invariant` — what every move keeps, every run keeps.
-/

namespace Switchboard.Endpoint

open GraphQL (ClientMessage ServerMessage Document FieldError)

variable {σ : Type}

/-! ## Common parts -/

theorem isBusy_eq_false_iff {ep : Endpoint σ} : ep.isBusy = false ↔ ep.opening = none := by
  simp [isBusy]

theorem isBusy_of_opening {ep : Endpoint σ} {q : Registration σ} (ho : ep.opening = some q) :
    ep.isBusy = true := by
  simp [isBusy, ho]

/-- The endpoint with a connection that has just been opened. -/
def linked (ep : Endpoint σ) (connection : Nat) : Endpoint σ :=
  { ep with
    status := .connected, link := some ⟨connection, ep.generation + 1⟩, opening := none
    generation := ep.generation + 1, opened := ep.opened + 1 }

/-- Removes a registration, and lets the connection go if it was the last. -/
def remove (ep : Endpoint σ) (id : String) : Endpoint σ × List (Signal σ) :=
  { ep with table := Keyed.erase id ep.table }.hangUpIfIdle

/-- What a caller learns whose subscription cannot be sent. -/
def turnedDown (r : Registration σ) : List (Signal σ) :=
  [.release r.sink, .answer r.sink (.error closedError)]

/-- What a caller and the server learn of a new subscription. -/
def subscribed (r : Registration σ) (connection : Nat) : List (Signal σ) :=
  [.post connection (.subscribe r.id r.document), .answer r.sink (.ok r.id)]

/-- The last message of a registration, if there is one. -/
def lastMessage (ep : Endpoint σ) (id : String) (m : StreamMessage) : List (Signal σ) :=
  match Keyed.get? id ep.table with
  | some sink => [.hand sink m, .release sink]
  | none => []

/-- The connection is gone, and everything registered with it. -/
def dropAll (ep : Endpoint σ) (e : ApiError) : Endpoint σ × List (Signal σ) :=
  ({ ep with link := none, status := .disconnected, table := [] },
    ep.hangUp.2 ++ ep.table.flatMap fun entry => [.hand entry.2 (.lost e), .release entry.2])

/-- Removing the last registration lets the connection go; removing another one does not. -/
theorem remove_cases (ep : Endpoint σ) (id : String) :
    (Keyed.erase id ep.table = [] ∧
      ep.remove id =
        ({ ep with table := [], link := none, status := .disconnected },
          ep.link.toList.map fun link => .hangUp link.connection)) ∨
    (Keyed.erase id ep.table ≠ [] ∧
      ep.remove id = ({ ep with table := Keyed.erase id ep.table }, [])) := by
  unfold remove hangUpIfIdle
  cases he : Keyed.erase id ep.table with
  | nil => exact .inl ⟨rfl, rfl⟩
  | cons entry rest => exact .inr ⟨by simp, rfl⟩

theorem table_remove (ep : Endpoint σ) (id : String) :
    (ep.remove id).1.table = Keyed.erase id ep.table := by
  rcases ep.remove_cases id with ⟨he, hr⟩ | ⟨-, hr⟩
  · rw [hr, he]
  · rw [hr]

theorem opening_remove (ep : Endpoint σ) (id : String) :
    (ep.remove id).1.opening = ep.opening := by
  rcases ep.remove_cases id with ⟨-, hr⟩ | ⟨-, hr⟩ <;> rw [hr]

theorem generation_remove (ep : Endpoint σ) (id : String) :
    (ep.remove id).1.generation = ep.generation := by
  rcases ep.remove_cases id with ⟨-, hr⟩ | ⟨-, hr⟩ <;> rw [hr]

/-- What is read off the loss of a connection, where a release says nothing. -/
theorem filterMap_dropAll {β : Type} {f : Signal σ → Option β}
    (hrelease : ∀ sink, f (.release sink) = none) (ep : Endpoint σ) (e : ApiError) :
    (ep.dropAll e).2.filterMap f =
      ep.hangUp.2.filterMap f ++ ep.table.filterMap fun entry => f (.hand entry.2 (.lost e)) := by
  have htable : ∀ table : Keyed σ,
      (table.flatMap fun entry => [.hand entry.2 (.lost e), .release entry.2]).filterMap f =
        table.filterMap fun entry => f (.hand entry.2 (.lost e)) := by
    intro table
    induction table with
    | nil => rfl
    | cons entry rest ih =>
        cases hx : f (.hand entry.2 (.lost e)) <;> simp [hx, hrelease, ih]
  rw [dropAll, List.filterMap_append, htable]

/-- All that a server learns of a removal is that it is complete. -/
theorem exists_of_mem_completion {ep : Endpoint σ} {id : String} {accepting : Bool} {s : Signal σ}
    (h : s ∈ ep.completion id accepting) : ∃ connection, s = .post connection (.complete id) := by
  unfold completion at h
  split at h
  · obtain ⟨link, -, rfl⟩ := List.mem_map.1 h
    exact ⟨link.connection, rfl⟩
  · cases h

@[simp] theorem answer_not_mem_completion (ep : Endpoint σ) (id : String) (accepting : Bool)
    (sink : σ) (x : Except ApiError String) : .answer sink x ∉ ep.completion id accepting :=
  fun h => nomatch exists_of_mem_completion h

/-- What is read off a removal, where a message to a server says nothing. -/
theorem filterMap_completion {β : Type} {f : Signal σ → Option β}
    (hpost : ∀ connection x, f (.post connection x) = none) (ep : Endpoint σ) (id : String)
    (accepting : Bool) : (ep.completion id accepting).filterMap f = [] := by
  rw [List.filterMap_eq_nil_iff]
  intro s hs
  obtain ⟨connection, rfl⟩ := exists_of_mem_completion hs
  exact hpost connection _

/-! ## Exits -/

/-- What a move can lead to. -/
inductive Change (ep : Endpoint σ) : Move σ → Endpoint σ × List (Signal σ) → Prop where
  /-- A busy endpoint waits for its connection, and one that waits for none has no use
  for it. -/
  | wait {m : Move σ} (waits : ep.isBusy ≠ m.opens) : Change ep m (ep, [])
  /-- There is a connection, and it takes the subscription. -/
  | subscribe {r : Registration σ} {l : Link} (free : ep.isBusy = false)
      (link : ep.link = some l) :
      Change ep (.register r true)
        ({ ep with table := Keyed.set r.id r.sink ep.table }, subscribed r l.connection)
  /-- There is a connection, and it takes nothing more. -/
  | turnDown {r : Registration σ} {l : Link} (free : ep.isBusy = false)
      (link : ep.link = some l) :
      Change ep (.register r false) (ep, turnedDown r)
  /-- There is no connection yet. -/
  | dial {r : Registration σ} {accepting : Bool} (free : ep.isBusy = false)
      (link : ep.link = none) :
      Change ep (.register r accepting) ({ ep with status := .connecting, opening := some r }, [])
  /-- The connection is open and takes the subscription. -/
  | establish {r : Registration σ} {connection : Nat} (opening : ep.opening = some r) :
      Change ep (.connected connection true)
        ({ ep.linked connection with table := Keyed.set r.id r.sink ep.table },
          subscribed r connection)
  /-- The connection is open and takes nothing. -/
  | strand {r : Registration σ} {connection : Nat} (opening : ep.opening = some r) :
      Change ep (.connected connection false) (ep.linked connection, turnedDown r)
  /-- There will be no connection. -/
  | giveUp {r : Registration σ} {e : ApiError} (opening : ep.opening = some r) :
      Change ep (.refused e)
        ({ ep with status := .disconnected, opening := none },
          [.release r.sink, .answer r.sink (.error e)])
  | unknown {id : String} {accepting : Bool} (free : ep.isBusy = false)
      (table : Keyed.get? id ep.table = none) : Change ep (.unregister id accepting) (ep, [])
  | unregister {id : String} {accepting : Bool} {sink : σ} (free : ep.isBusy = false)
      (table : Keyed.get? id ep.table = some sink) :
      Change ep (.unregister id accepting)
        ((ep.remove id).1, .release sink :: ep.completion id accepting ++ (ep.remove id).2)
  /-- A message of an earlier connection. -/
  | stale {generation : Nat} {m : ServerMessage} (free : ep.isBusy = false)
      (stale : ep.isCurrent generation = false) : Change ep (.route generation m) (ep, [])
  | forward {generation : Nat} {id : String} {payload : Json} (free : ep.isBusy = false)
      (current : ep.isCurrent generation = true) :
      Change ep (.route generation (.next id payload))
        (ep, (Keyed.get? id ep.table).toList.map fun sink => .hand sink (.next payload))
  | fail {generation : Nat} {id : String} {errors : List Json} (free : ep.isBusy = false)
      (current : ep.isCurrent generation = true) :
      Change ep (.route generation (.error id errors))
        ((ep.remove id).1,
          ep.lastMessage id (.errors (errors.map FieldError.ofAny)) ++ (ep.remove id).2)
  | complete {generation : Nat} {id : String} (free : ep.isBusy = false)
      (current : ep.isCurrent generation = true) :
      Change ep (.route generation (.complete id))
        ((ep.remove id).1, ep.lastMessage id .complete ++ (ep.remove id).2)
  /-- A message that is no subscription's. -/
  | ignore {generation : Nat} {m : ServerMessage} (free : ep.isBusy = false)
      (current : ep.isCurrent generation = true) (idle : m.subscription? = none) :
      Change ep (.route generation m) (ep, [])
  /-- An earlier connection is gone. -/
  | past {generation : Nat} {e : ApiError} (free : ep.isBusy = false)
      (stale : ep.isCurrent generation = false) : Change ep (.lost generation e) (ep, [])
  | lost {generation : Nat} {e : ApiError} (free : ep.isBusy = false)
      (current : ep.isCurrent generation = true) : Change ep (.lost generation e) (ep.dropAll e)

/-! ## Steps -/

variable {ep : Endpoint σ}

theorem change_register (r : Registration σ) (accepting : Bool) (hf : ep.isBusy = false) :
    Change ep (.register r accepting) (ep.register r accepting) := by
  unfold register
  split
  · next hl =>
    cases accepting with
    | true => exact .subscribe hf hl
    | false => exact .turnDown hf hl
  · next hl => exact .dial hf hl

theorem change_connected (connection : Nat) (accepting : Bool) (hb : ep.isBusy = true) :
    Change ep (.connected connection accepting) (ep.connected connection accepting) := by
  unfold connected
  cases ho : ep.opening with
  | none => simp [isBusy, ho] at hb
  | some r =>
      cases accepting with
      | true => exact .establish ho
      | false => exact .strand ho

theorem change_refused (e : ApiError) (hb : ep.isBusy = true) :
    Change ep (.refused e) (ep.refused e) := by
  unfold refused
  cases ho : ep.opening with
  | none => simp [isBusy, ho] at hb
  | some r => exact .giveUp ho

theorem change_unregister (id : String) (accepting : Bool) (hf : ep.isBusy = false) :
    Change ep (.unregister id accepting) (ep.unregister id accepting) := by
  unfold Endpoint.unregister
  cases hg : Keyed.get? id ep.table with
  | none => exact .unknown hf hg
  | some sink => exact .unregister hf hg

theorem change_route (generation : Nat) (m : ServerMessage) (hf : ep.isBusy = false) :
    Change ep (.route generation m) (ep.route generation m) := by
  unfold route
  cases hc : ep.isCurrent generation with
  | false => exact .stale hf hc
  | true =>
      cases m with
      | next id payload => exact .forward hf hc
      | error id errors => exact .fail hf hc
      | complete id => exact .complete hf hc
      | ack _ | ping _ | pong _ => exact .ignore hf hc rfl

theorem change_lost (generation : Nat) (e : ApiError) (hf : ep.isBusy = false) :
    Change ep (.lost generation e) (ep.lost generation e) := by
  unfold Endpoint.lost
  cases hc : ep.isCurrent generation with
  | false => exact .past hf hc
  | true => exact .lost hf hc

/-- Every step is one of these. -/
theorem step_change (ep : Endpoint σ) (m : Move σ) : Change ep m (ep.step m) := by
  unfold step
  split
  · next hw => exact .wait hw
  · next hw =>
    have hb : ep.isBusy = m.opens := Decidable.not_not.1 hw
    cases m with
    | register r accepting => exact change_register r accepting hb
    | connected connection accepting => exact change_connected connection accepting hb
    | refused e => exact change_refused e hb
    | unregister id accepting => exact change_unregister id accepting hb
    | route generation m => exact change_route generation m hb
    | lost generation e => exact change_lost generation e hb

/-- What is unregistered is not in the table any more, and all else is. -/
theorem mem_table_unregister (hf : ep.isBusy = false) (id : String) (accepting : Bool)
    {entry : String × σ} :
    entry ∈ (ep.step (.unregister id accepting)).1.table ↔ entry ∈ ep.table ∧ entry.1 ≠ id := by
  have hc := ep.step_change (.unregister id accepting)
  generalize ep.step (.unregister id accepting) = r at hc ⊢
  cases hc with
  | wait hw => exact absurd hf hw
  | unknown _ hg => exact ⟨fun he => ⟨he, Keyed.get?_eq_none_iff.1 hg entry he⟩, And.left⟩
  | unregister => rw [table_remove, Keyed.mem_erase]

/-- What every move keeps, every run keeps. -/
theorem run_invariant {P : Endpoint σ → Prop} (hstep : ∀ ep m, P ep → P (ep.step m).1)
    (moves : List (Move σ)) {ep : Endpoint σ} (h : P ep) : P (run moves ep).1 := by
  induction moves generalizing ep with
  | nil => exact h
  | cons m rest ih => exact ih (hstep ep m h)

/-- A run goes on where the one before it has ended. -/
theorem run_append (before after : List (Move σ)) (ep : Endpoint σ) :
    run (before ++ after) ep =
      ((run after (run before ep).1).1, (run before ep).2 ++ (run after (run before ep).1).2) := by
  induction before generalizing ep with
  | nil => rfl
  | cons m rest ih => simp [run, ih]

end Switchboard.Endpoint
