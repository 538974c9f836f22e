import Switchboard.Proofs.Subscription.Change

/-!
# Switchboard.Proofs.Subscription.Link

When an endpoint keeps a connection.  Nothing is registered without one.  The other
way round there is one exception: a connection that takes nothing from the moment it
is opened is kept although nothing is registered.

* `Sound` — what always holds: a registration needs a connection;
* `Balanced` — there is a connection exactly if something is registered;
* `Change.balanced`, `Change.not_balanced` — one exit upsets the balance, and no other;
* `Change.of_fails` — how a registration can fail;
* `linked_iff_registered` — the two together, for every run.
-/

namespace Switchboard.Endpoint

variable {σ : Type} {ep : Endpoint σ} {m : Move σ} {r : Endpoint σ × List (Signal σ)}

/-! ## What always holds -/

/-- What is registered is registered over a connection, and one is opened only if there
is none. -/
structure Sound (ep : Endpoint σ) : Prop where
  linked : ep.table ≠ [] → ep.link.isSome = true
  opening : ep.isBusy = true → ep.link = none

/-- While a connection is being opened nothing is registered. -/
theorem Sound.table_eq_nil (h : Sound ep) (hl : ep.link = none) : ep.table = [] := by
  cases ht : ep.table with
  | nil => rfl
  | cons entry rest =>
      have hs := h.linked (by simp [ht])
      rw [hl] at hs
      cases hs

theorem Sound.link_eq_none (h : Sound ep) {q : Registration σ} (ho : ep.opening = some q) :
    ep.link = none := h.opening (isBusy_of_opening ho)

/-- A registration that there is to remove has a connection. -/
theorem Sound.remove (h : Sound ep) (hf : ep.isBusy = false) (id : String) :
    Sound (ep.remove id).1 := by
  rcases ep.remove_cases id with ⟨-, hr⟩ | ⟨hne, hr⟩
  · rw [hr]
    exact ⟨fun ht => absurd rfl ht, fun _ => rfl⟩
  · rw [hr]
    have ht : ep.table ≠ [] := fun ht => hne (by rw [ht]; rfl)
    exact ⟨fun _ => h.linked ht, fun hb => absurd (hf.symm.trans hb) Bool.false_ne_true⟩

theorem Change.sound (hc : Change ep m r) (h : Sound ep) : Sound r.1 := by
  cases hc with
  | subscribe hf hl =>
      exact ⟨fun _ => by rw [hl]; rfl, fun hb => absurd (hf.symm.trans hb) Bool.false_ne_true⟩
  | dial hf hl => exact ⟨h.linked, fun _ => hl⟩
  | establish | strand => exact ⟨fun _ => rfl, fun hb => by cases hb⟩
  | giveUp => exact ⟨h.linked, fun hb => by cases hb⟩
  | unregister hf | fail hf | complete hf => exact h.remove hf _
  | lost hf => exact ⟨fun ht => absurd rfl ht, fun _ => rfl⟩
  | wait | turnDown | unknown | stale | forward | ignore | past => exact h

theorem sound_create : Sound ({} : Endpoint σ) :=
  ⟨fun ht => absurd rfl ht, fun hb => by cases hb⟩

theorem sound_run (moves : List (Move σ)) : Sound (run moves ({} : Endpoint σ)).1 :=
  run_invariant (fun ep m h => (ep.step_change m).sound h) moves sound_create

/-! ## The balance -/

/-- There is a connection exactly if something is registered. -/
def Balanced (ep : Endpoint σ) : Prop := ep.link.isSome = true ↔ ep.table ≠ []

theorem Sound.balanced (h : Sound ep) (ht : ep.link.isSome = true → ep.table ≠ []) :
    Balanced ep := ⟨ht, h.linked⟩

/-- Whether a move opens a connection that takes nothing. -/
def strands (ep : Endpoint σ) : Move σ → Bool
  | .connected _ accepting => ep.isBusy && !accepting
  | _ => false

@[simp] theorem set_ne_nil (key : String) (value : σ) (xs : Keyed σ) :
    Keyed.set key value xs ≠ [] := by
  intro h
  have hg := Keyed.get?_set_self key value xs
  rw [h] at hg
  cases hg

theorem Sound.balanced_remove (h : Sound ep) (hf : ep.isBusy = false) (id : String) :
    Balanced (ep.remove id).1 := by
  refine (h.remove hf id).balanced fun hl => ?_
  rcases ep.remove_cases id with ⟨-, hr⟩ | ⟨hne, hr⟩
  · rw [hr] at hl; cases hl
  · rw [hr]; exact hne

/-- Every exit restores the balance, except one. -/
theorem Change.balanced (hc : Change ep m r) (h : Sound ep)
    (hb : ep.isBusy = false → Balanced ep) (hs : ep.strands m = false)
    (hf : r.1.isBusy = false) : Balanced r.1 := by
  cases hc with
  | subscribe _ hl =>
      exact ⟨fun _ => set_ne_nil _ _ _, fun _ => by rw [hl]; rfl⟩
  | dial => cases hf
  | establish => exact ⟨fun _ => set_ne_nil _ _ _, fun _ => rfl⟩
  | strand ho => simp [strands, isBusy, ho] at hs
  | giveUp ho =>
      have hl : ep.link = none := h.link_eq_none ho
      have ht := h.table_eq_nil hl
      simp [Balanced, hl, ht]
  | unregister hfree | fail hfree | complete hfree => exact h.balanced_remove hfree _
  | lost => exact ⟨fun hl => (by cases hl), fun ht => absurd rfl ht⟩
  | wait | turnDown | unknown | stale | forward | ignore | past => exact hb hf

/-- A connection that takes nothing is kept with nothing registered. -/
theorem Change.not_balanced (hc : Change ep m r) (h : Sound ep) (hs : ep.strands m = true) :
    r.1.isBusy = false ∧ ¬ Balanced r.1 := by
  cases hc with
  | strand ho =>
      have ht : ep.table = [] := h.table_eq_nil (h.link_eq_none ho)
      exact ⟨rfl, fun hb => hb.1 rfl ht⟩
  | @wait m hw =>
      cases m with
      | connected connection accepting =>
          simp only [strands, Bool.and_eq_true] at hs
          exact absurd hs.1 hw
      | _ => cases hs
  | establish => simp [strands] at hs
  | _ => cases hs

/-- A run is in balance as often as it can be exactly if it opens no connection that
takes nothing. -/
theorem balanced_run_iff (moves : List (Move σ)) (h : Sound ep)
    (hb : ep.isBusy = false → Balanced ep) :
    (∀ before, before <+: moves →
      (run before ep).1.isBusy = false → Balanced (run before ep).1) ↔
    ∀ before m, before ++ [m] <+: moves → (run before ep).1.strands m = false := by
  induction moves generalizing ep with
  | nil =>
      constructor
      · intro _ before m hp
        simp at hp
      · intro _ before hp
        rw [List.prefix_nil.1 hp]
        exact hb
  | cons m rest ih =>
      have hsound := (ep.step_change m).sound h
      constructor
      · intro hbal
        have hm : ep.strands m = false := by
          cases hs : ep.strands m with
          | false => rfl
          | true =>
              obtain ⟨hf, hnot⟩ := (ep.step_change m).not_balanced h hs
              exact absurd (hbal [m] ⟨rest, rfl⟩ hf) hnot
        have hrest := (ih hsound (fun hf => hbal [m] ⟨rest, rfl⟩ hf)).1
          fun before hp => hbal (m :: before) ((List.prefix_cons_inj m).2 hp)
        intro before m' hp
        cases before with
        | nil =>
            obtain ⟨rfl, -⟩ := List.cons_prefix_cons.1 hp
            exact hm
        | cons x before =>
            obtain ⟨rfl, hp'⟩ := List.cons_prefix_cons.1 hp
            exact hrest before m' hp'
      · intro hs before hp
        have hm : ep.strands m = false := hs [] m ⟨rest, rfl⟩
        cases before with
        | nil => exact hb
        | cons x before =>
            obtain ⟨rfl, hp'⟩ := List.cons_prefix_cons.1 hp
            have hrest := (ih hsound ((ep.step_change x).balanced h hb hm)).2
              fun before m' hp => hs (x :: before) m' ((List.prefix_cons_inj x).2 hp)
            exact hrest before hp'

/-! ## Registrations that fail -/

/-- Whether someone learns that a registration has failed. -/
def Fails (signals : List (Signal σ)) : Prop := ∃ sink e, .answer sink (.error e) ∈ signals

/-- A registration fails because there will be no connection, or over one that takes
nothing more. -/
theorem Change.of_fails (hc : Change ep m r) (h : Sound ep) (hf : Fails r.2) :
    r.1.isBusy = false ∧
      ((∃ e, m = .refused e) ∧ r.1.link = none ∨
        (∀ e, m ≠ .refused e) ∧ r.1.link.isSome = true) := by
  have hnone : ∀ (id : String) (first : List (Signal σ)),
      (∀ sink e, .answer sink (.error e) ∉ first) →
      ¬ Fails (first ++ (ep.remove id).2) := by
    intro id first hfirst ⟨sink, e, hm⟩
    rcases List.mem_append.1 hm with hm | hm
    · exact hfirst sink e hm
    · simp only [remove, hangUpIfIdle, hangUp] at hm
      split at hm <;> simp at hm
  obtain ⟨sink, e, hm⟩ := hf
  cases hc with
  | turnDown hfree hl => exact ⟨hfree, .inr ⟨by simp, by rw [hl]; rfl⟩⟩
  | strand => exact ⟨rfl, .inr ⟨by simp, rfl⟩⟩
  | @giveUp _ e' ho =>
      exact ⟨rfl, .inl ⟨⟨e', rfl⟩, h.link_eq_none ho⟩⟩
  | unregister => exact absurd ⟨sink, e, hm⟩ (hnone _ _ (by simp))
  | fail | complete =>
      refine absurd ⟨sink, e, hm⟩ (hnone _ _ fun sink e hm => ?_)
      unfold lastMessage at hm
      split at hm <;> simp at hm
  | lost => simp [dropAll, hangUp] at hm
  | _ => simp [subscribed] at hm

/-- A registration opens a connection exactly if there is none. -/
theorem isBusy_register (hf : ep.isBusy = false) (q : Registration σ) (accepting : Bool) :
    (ep.step (.register q accepting)).1.isBusy = true ↔ ep.link = none := by
  have hc := ep.step_change (.register q accepting)
  generalize ep.step (.register q accepting) = r at hc
  cases hc with
  | wait hw => exact absurd hf hw
  | subscribe _ hl | turnDown _ hl => simp [isBusy, hl] at hf ⊢; exact hf
  | dial _ hl => simp [isBusy, hl]

/-- After a registration that failed the next one opens a connection exactly if the one
before failed for want of a connection. -/
theorem isBusy_register_of_fails (h : Sound ep) (hf : Fails (ep.step m).2)
    (q : Registration σ) (accepting : Bool) :
    (((ep.step m).1.step (.register q accepting)).1.isBusy = true) ↔ ∃ e, m = .refused e := by
  obtain ⟨hfree, hl⟩ := (ep.step_change m).of_fails h hf
  rw [isBusy_register hfree]
  rcases hl with ⟨he, hl⟩ | ⟨hne, hl⟩
  · exact ⟨fun _ => he, fun _ => hl⟩
  · refine ⟨fun hl' => ?_, fun ⟨e, he⟩ => absurd he (hne e)⟩
    rw [hl'] at hl
    cases hl

/-- An endpoint registers nothing without a connection.  It keeps none with nothing
registered, whenever it is not opening one, in exactly the runs in which no connection
takes nothing from the moment it is opened.  And after a registration that failed the next
one opens a connection exactly if the one before failed for want of a connection. -/
theorem linked_iff_registered (moves : List (Move σ)) :
    let after := fun before => (run before ({} : Endpoint σ)).1
    ((after moves).table ≠ [] → (after moves).link.isSome = true) ∧
    ((∀ before, before <+: moves → (after before).isBusy = false →
        ((after before).link.isSome = true ↔ (after before).table ≠ [])) ↔
      ∀ before connection, before ++ [.connected connection false] <+: moves →
        (after before).isBusy = false) ∧
    (∀ m sink e, .answer sink (.error e) ∈ ((after moves).step m).2 → ∀ q accepting,
      ((((after moves).step m).1.step (.register q accepting)).1.isBusy = true ↔
        ∃ e, m = .refused e)) := by
  intro after
  refine ⟨(sound_run moves).linked, ?_, fun m sink e hm q accepting =>
    isBusy_register_of_fails (sound_run moves) ⟨sink, e, hm⟩ q accepting⟩
  refine (balanced_run_iff moves sound_create fun _ => by simp [Balanced]).trans ?_
  constructor
  · intro hs before connection hp
    have := hs before _ hp
    simpa [strands] using this
  · intro hs before m hp
    cases m with
    | connected connection accepting =>
        cases accepting with
        | true => simp [strands]
        | false =>
            have hfree : (run before {}).1.isBusy = false := hs before connection hp
            simp [strands, hfree]
    | _ => rfl

/-- The first connection takes nothing: it is kept, and the next registration fails over
it as well.  So does one over a connection that has taken one registration and takes no
more. -/
theorem linked_with_nothing_registered :
    let q : Registration Nat := ⟨"s1", .ofQuery "subscription { a }", 0⟩
    let ep := (run [.register q true, .connected 0 false] {}).1
    let ep' := (run [.register q true, .connected 0 true, .register { q with id := "s2" } false] {}).1
    (ep.isBusy = false ∧ ep.link.isSome = true ∧ ep.table.isEmpty = true ∧
      (ep.step (.register q false)).1.isBusy = false) ∧
    (ep'.isBusy = false ∧ (ep'.step (.register q false)).1.isBusy = false) :=
  ⟨⟨rfl, rfl, rfl, rfl⟩, ⟨rfl, rfl⟩⟩

end Switchboard.Endpoint
