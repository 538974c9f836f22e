import Switchboard.Proofs.Board.Place

/-!
# Switchboard.Proofs.Board.Dial

A registration that needs a connection, where there is nothing to open one with.

* `placed?_modifyOperation` — what becomes of the operation of a call;
* `exists_leave` — who leaves an endpoint does what it signals, and hands it on;
* `Declined` — nothing is sent, and who asked for the registration is told why there is none;
* `declined_dial` — so it is where a client has no credentials to open a connection with.
-/

namespace Switchboard.Board

/-! ## Operations -/

theorem placed?_modifyOperation (b : Board) (n : Nat) (f : Operation Answer → Operation Answer) :
    (b.modifyOperation n f).placed? n =
      (b.placed? n).map fun p => { p with operation := f p.operation } := by
  simp only [placed?, modifyOperation, modifyPlaced, List.getElem?_modify_eq]
  cases b.calls[n]? <;> rfl

/-- Who hands something to an operation may wake its worker, and that is all. -/
theorem exists_deliver (b : Board) (n : Nat) (f : Operation Answer → Operation Answer) :
    ∃ ready, b.deliver n f = { b.modifyOperation n f with ready } := by
  have hwakeIf (condition : Bool) : ∃ ready,
      (b.modifyOperation n f).wakeIf condition (.worker n) =
        { b.modifyOperation n f with ready } := by
    cases condition with
    | false => exact ⟨b.ready, rfl⟩
    | true =>
        obtain ⟨ready, -, hwake⟩ := exists_ready_wake (b.modifyOperation n f) (.worker n)
        exact ⟨ready, hwake⟩
  exact hwakeIf _

/-! ## Leaving -/

/-- Who leaves an endpoint does what it signals, and hands it to the next. -/
theorem exists_leave (b : Board) (name : String) (d : Desk)
    (r : Endpoint Sink × List (Signal Sink)) :
    ∃ desks ready, b.leave name d r =
      { (b.setDesk name { d with endpoint := r.1 }).carryAll r.2 with desks, ready } := by
  unfold leave
  dsimp only
  split
  · exact ⟨_, _, rfl⟩
  · next d' _ =>
    cases d'.release.2 with
    | none => exact ⟨_, _, rfl⟩
    | some t =>
        obtain ⟨ready, -, hwake⟩ := exists_ready_wake (setDesk _ name d'.release.1) t
        exact ⟨_, ready, hwake⟩

/-- Nothing is sent, and who asked for the registration is told why there is none. -/
structure Declined (b : Board) (sink : Sink) (e : ApiError) (b' : Board) : Prop where
  attempts : b'.exchange.attempts = b.exchange.attempts
  wires : b'.wires = b.wires
  told : ∀ n p, sink = .call n → b.placed? n = some p →
    b'.placed? n = some { p with operation := p.operation.hangUp.registered (.error e) }

/-- A sink that is released and answered hears both. -/
theorem declined_carryAll (b : Board) (sink : Sink) (e : ApiError) :
    Declined b sink e (b.carryAll [.release sink, .answer sink (.error e)]) := by
  cases sink with
  | registration n => exact ⟨rfl, rfl, fun _ _ hs _ => by cases hs⟩
  | call n =>
      obtain ⟨ready, hready⟩ := b.exists_deliver n (·.hangUp)
      have hcarry : b.carryAll [.release (.call n), .answer (.call n) (.error e)] =
          (b.deliver n (·.hangUp)).modifyOperation n (·.registered (.error e)) := rfl
      have hreleased : (b.deliver n (·.hangUp)).placed? n =
          (b.placed? n).map fun p => { p with operation := p.operation.hangUp } := by
        rw [hready]
        exact b.placed?_modifyOperation n (·.hangUp)
      rw [hcarry]
      refine ⟨by rw [hready]; rfl, by rw [hready]; rfl, fun m p hm hp => ?_⟩
      cases hm
      rw [placed?_modifyOperation, hreleased, hp]
      rfl

/-! ## Connecting -/

/-- Where there are no credentials to open a connection with, no server hears of it. -/
theorem declined_dial {b : Board} {d : Desk} {q : Registration Sink} {e : Http.Error}
    (ho : d.endpoint.opening = some q)
    (he : d.entry.client.credentials b.now d.entry.api.endpoint = .error e) (t : Task)
    (name : String) :
    Declined b q.sink (.ofHttp e) (b.dial t name d).1 ∧ (b.dial t name d).2 = true := by
  unfold dial
  simp only [he, and_true]
  have hrefused : (d.endpoint.refused (.ofHttp e)).2 =
      [.release q.sink, .answer q.sink (.error (.ofHttp e))] := by
    simp [Endpoint.refused, ho]
  obtain ⟨desks, ready, hleave⟩ :=
    { b with now := b.now + 1 }.exists_leave name d (d.endpoint.refused (.ofHttp e))
  rw [hleave, hrefused]
  obtain ⟨hattempts, hwires, htold⟩ := declined_carryAll ({ b with now := b.now + 1 }.setDesk name
    { d with endpoint := (d.endpoint.refused (.ofHttp e)).1 }) q.sink (.ofHttp e)
  exact ⟨hattempts, hwires, htold⟩

end Switchboard.Board
