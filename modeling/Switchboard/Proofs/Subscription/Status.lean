import Switchboard.Proofs.Subscription.Link

/-!
# Switchboard.Proofs.Subscription.Status

What an endpoint says of itself.  The status, the connection, its generation and the
number of connections are kept apart and set at different points of a move, but between
two moves they agree.

* `Coherent` — how they agree;
* `connections` — how often a run opens a connection;
* `Change.coherent`, `Change.opened` — what one move does to them;
* `run_refused` — a registration that gets no connection leaves nothing behind;
* `coherent_between_moves` — all of it, for every run.
-/

namespace Switchboard.Endpoint

variable {σ : Type} {ep : Endpoint σ} {m : Move σ} {r : Endpoint σ × List (Signal σ)}

/-! ## Agreement -/

/-- The status that fits what an endpoint holds. -/
def fitting (ep : Endpoint σ) : LinkStatus :=
  if ep.isBusy then .connecting else if ep.link.isSome then .connected else .disconnected

/-- The parts of an endpoint agree. -/
structure Coherent (ep : Endpoint σ) : Prop where
  status : ep.status = ep.fitting
  generation : ∀ l, ep.link = some l → l.generation = ep.generation
  opened : ep.opened = ep.generation

theorem Coherent.remove (h : Coherent ep) (hf : ep.isBusy = false) (id : String) :
    Coherent (ep.remove id).1 := by
  rcases ep.remove_cases id with ⟨-, hr⟩ | ⟨-, hr⟩
  · rw [hr]
    have hfit : ({ ep with table := [], link := none, status := .disconnected } :
        Endpoint σ).fitting = .disconnected := by
      show (if ep.isBusy then _ else _) = _
      rw [hf]
      rfl
    exact ⟨hfit.symm, fun _ hl => (by cases hl), h.opened⟩
  · rw [hr]
    exact ⟨h.status, h.generation, h.opened⟩

/-- A connection that has just been opened is the last one. -/
theorem coherent_linked (h : Coherent ep) (connection : Nat) (table : Keyed σ) :
    Coherent { ep.linked connection with table } := by
  refine ⟨rfl, fun l hl => ?_, congrArg (· + 1) h.opened⟩
  cases hl
  rfl

/-- Every exit leaves the parts in agreement.  While a connection is being opened there
is none, so giving up finds none either. -/
theorem Change.coherent (hc : Change ep m r) (hs : Sound ep) (h : Coherent ep) :
    Coherent r.1 := by
  cases hc with
  | subscribe => exact ⟨h.status, h.generation, h.opened⟩
  | dial => exact ⟨rfl, h.generation, h.opened⟩
  | establish => exact coherent_linked h _ _
  | strand => exact coherent_linked h _ _
  | giveUp ho =>
      have hl : ep.link = none := hs.link_eq_none ho
      refine ⟨?_, h.generation, h.opened⟩
      simp [fitting, isBusy, hl]
  | unregister hf | fail hf | complete hf => exact h.remove hf _
  | lost hf =>
      refine ⟨?_, fun _ hl => (by cases hl), h.opened⟩
      have hfree : (ep.dropAll ‹ApiError›).1.isBusy = false := hf
      rw [fitting, hfree]
      rfl
  | wait | turnDown | unknown | stale | forward | ignore | past => exact h

theorem coherent_create : Coherent ({} : Endpoint σ) :=
  ⟨rfl, fun _ hl => (by cases hl), rfl⟩

theorem coherent_run (moves : List (Move σ)) : Coherent (run moves ({} : Endpoint σ)).1 :=
  (run_invariant (P := fun ep => Sound ep ∧ Coherent ep)
    (fun ep m h => ⟨(ep.step_change m).sound h.1, (ep.step_change m).coherent h.1 h.2⟩)
    moves ⟨sound_create, coherent_create⟩).2

/-! ## Connections -/

/-- Whether a move opens a connection that someone waits for. -/
def connects (ep : Endpoint σ) : Move σ → Bool
  | .connected _ _ => ep.isBusy
  | _ => false

/-- How often a run opens a connection. -/
def connections : List (Move σ) → Endpoint σ → Nat
  | [], _ => 0
  | m :: rest, ep => (ep.connects m).toNat + connections rest (ep.step m).1

/-- An endpoint counts the connections that are opened, and nothing else. -/
theorem Change.opened (hc : Change ep m r) : r.1.opened = ep.opened + (ep.connects m).toNat := by
  have hremove : ∀ id, (ep.remove id).1.opened = ep.opened := by
    intro id
    rcases ep.remove_cases id with ⟨-, hr⟩ | ⟨-, hr⟩ <;> rw [hr]
  cases hc with
  | @wait m hw =>
      cases m with
      | connected connection accepting =>
          have hf : ep.isBusy = false := by simpa [Move.opens] using hw
          simp [connects, hf]
      | _ => rfl
  | establish ho | strand ho =>
      have hb : ep.isBusy = true := isBusy_of_opening ho
      simp [connects, hb, linked]
  | unregister | fail | complete => exact hremove _
  | _ => rfl

theorem opened_run (moves : List (Move σ)) (ep : Endpoint σ) :
    (run moves ep).1.opened = ep.opened + connections moves ep := by
  induction moves generalizing ep with
  | nil => rfl
  | cons m rest ih =>
      have hrest := ih (ep.step m).1
      rw [(ep.step_change m).opened] at hrest
      simp only [run, connections]
      omega

/-! ## Registrations that get no connection -/

/-- While a connection is being opened nothing else happens. -/
theorem run_of_isBusy (ep : Endpoint σ) (hb : ep.isBusy = true) {waits : List (Move σ)}
    (hw : ∀ m ∈ waits, m.opens = false) : run waits ep = (ep, []) := by
  induction waits with
  | nil => rfl
  | cons m rest ih =>
      have hm : ep.step m = (ep, []) := by
        unfold step
        rw [if_pos (by rw [hb, hw m List.mem_cons_self]; decide)]
      simp [run, hm, ih fun m hm => hw m (List.mem_cons_of_mem _ hm)]

/-- A registration for which no connection can be opened leaves the endpoint as it was;
all that comes of it is that its sink is let go, and that the caller learns why. -/
theorem run_refused (hf : ep.isBusy = false) (hl : ep.link = none)
    (hs : ep.status = .disconnected) (q : Registration σ) (accepting : Bool)
    {waits : List (Move σ)} (hw : ∀ m ∈ waits, m.opens = false) (e : ApiError) :
    run (.register q accepting :: waits ++ [.refused e]) ep =
      (ep, [.release q.sink, .answer q.sink (.error e)]) := by
  have hopening : ep.opening = none := isBusy_eq_false_iff.1 hf
  have hdial : ep.step (.register q accepting) =
      ({ ep with status := .connecting, opening := some q }, []) := by
    simp [step, Move.opens, hf, register, hl]
  have hwaits : run waits { ep with status := .connecting, opening := some q } =
      ({ ep with status := .connecting, opening := some q }, []) := run_of_isBusy _ rfl hw
  have hrefused : ({ ep with status := .connecting, opening := some q } : Endpoint σ).step
      (.refused e) = (ep, [.release q.sink, .answer q.sink (.error e)]) := by
    have hback : ({ ep with status := .disconnected, opening := none } : Endpoint σ) = ep := by
      rw [← hs, ← hopening]
    simp [step, Move.opens, isBusy, refused, hback]
  rw [List.cons_append, run, hdial]
  simp [run_append, run, hwaits, hrefused]

/-- After every run, unless a connection is being opened just then: the status is that of
the connection, what is registered has one, and the connection is the last of those that
were opened, of which there are as many as the endpoint says.  And a registration that is
then made, and gets no connection, be it for want of credentials or of a server, leaves
the endpoint exactly as it was and hands nothing to its sink. -/
theorem coherent_between_moves (moves : List (Move σ))
    (free : (run moves ({} : Endpoint σ)).1.isBusy = false) :
    let ep := (run moves ({} : Endpoint σ)).1
    (ep.status = .connected ↔ ep.link.isSome = true) ∧
    (ep.status = .disconnected ↔ ep.link = none) ∧
    (ep.table ≠ [] → ep.link.isSome = true) ∧
    (∀ l, ep.link = some l → l.generation = ep.generation) ∧
    ep.generation = ep.opened ∧
    ep.opened = connections moves {} ∧
    (ep.link = none → ∀ q accepting waits e, (∀ m ∈ waits, m.opens = false) →
      run (.register q accepting :: waits ++ [.refused e]) ep =
        (ep, [.release q.sink, .answer q.sink (.error e)])) := by
  intro ep
  have h : Coherent ep := coherent_run moves
  have hstatus : ep.status = if ep.link.isSome then .connected else .disconnected := by
    have hfit := h.status
    rwa [fitting, free] at hfit
  have hcount : ep.opened = 0 + connections moves {} := opened_run moves {}
  refine ⟨?_, ?_, (sound_run moves).linked, h.generation, h.opened.symm, by omega, ?_⟩
  · cases hl : ep.link <;> simp [hstatus, hl]
  · cases hl : ep.link <;> simp [hstatus, hl]
  · intro hl q accepting waits e hw
    have hdisconnected : ep.status = .disconnected := by simp [hstatus, hl]
    exact run_refused free hl hdisconnected q accepting hw e

/-- A connection is lost, another one is opened, and the loss of the first is noticed once
more. -/
theorem coherent_after_two_connections :
    let q : Registration Nat := ⟨"s1", .ofQuery "subscription { a }", 0⟩
    let moves : List (Move Nat) :=
      [.register q true, .connected 0 true, .lost 1 closedError,
        .register { q with id := "s2", sink := 1 } true, .connected 1 true, .lost 1 closedError]
    let ep := (run moves {}).1
    ep.isBusy = false ∧ ep.status = .connected ∧ ep.generation = 2 ∧ ep.opened = 2 := by
  intro q moves ep
  obtain ⟨hstatus, -, -, -, hgeneration, hopened, -⟩ := coherent_between_moves moves rfl
  have hcount : connections moves {} = 2 := rfl
  exact ⟨rfl, hstatus.2 rfl, hgeneration.trans (hopened.trans hcount), hopened.trans hcount⟩

end Switchboard.Endpoint
