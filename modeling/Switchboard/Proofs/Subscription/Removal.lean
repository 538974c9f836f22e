import Mathlib.Data.List.Perm.Basic
import Switchboard.Proofs.Operation.HeldIds
import Switchboard.Proofs.Subscription.Grant
import Switchboard.Subscription.Line

/-!
# Switchboard.Proofs.Subscription.Removal

A subscription that an operation has registered is removed once.  From when the endpoint
grants it, its id is in one place: with the operation, in a removal on its way, or among
those that have come to the endpoint.  What is still registered is not among these.

* `ids` — the ids in all of these places;
* `IdInvariant` — what holds of a line at all times;
* `use_cases` — what the operation can learn of a move of the endpoint;
* `step_idInvariant` — every step keeps it;
* `removes_once` — when all is over nothing is left, and there was one removal.
-/

namespace Switchboard.Line

variable {α σ : Type} {plan : Plan α} {l : Line α σ}

/-- The ids that are still to be removed: by the operation, or by a removal on its way. -/
def held (l : Line α σ) : List String := l.operation.heldIds ++ l.removals

/-- These, and the ids whose removal has come to the endpoint. -/
def ids (l : Line α σ) : List String := l.held ++ l.removed

/-- What holds of an operation and its endpoint. -/
structure IdInvariant (l : Line α σ) : Prop where
  slotEmptied : l.operation.SlotEmptied
  /-- Before it is granted there is no id. -/
  ahead : l.operation.stage.isAhead = true → l.ids = []
  single : l.ids.length ≤ 1
  /-- What is registered for the operation is still to be removed. -/
  table : ∀ id, (id, none) ∈ l.endpoint.table → id ∈ l.held
  /-- Where the endpoint opens a connection for it, the worker waits. -/
  opening : ∀ q, l.endpoint.opening = some q → q.sink = none → l.operation.stage = .registering

theorem idInvariant_create (plan : Plan α) : IdInvariant (create plan : Line α σ) where
  slotEmptied := Operation.slotEmptied_create plan
  ahead := fun _ => rfl
  single := Nat.zero_le 1
  table := fun _ he => by cases he
  opening := fun _ ho => by cases ho

/-! ## Steps of the operation -/

/-- A step of the operation hands its id on. -/
theorem held_act {m : Operation.Move α}
    (hp : Operation.KeepsIds l.operation (l.operation.step plan m)) :
    (l.act plan m).held.Perm l.held := by
  rw [List.perm_iff_count]
  intro id
  have hcount := hp.heldIds.count_eq id
  simp only [held, act, List.count_append] at hcount ⊢
  omega

theorem IdInvariant.act (h : IdInvariant l) (plan : Plan α) (m : Operation.Move α)
    (hm : m.reports = false) : IdInvariant (l.act plan m) ∧ (l.act plan m).ids.Perm l.ids := by
  have hp : Operation.KeepsIds l.operation (l.operation.step plan m) :=
    Operation.step_keepsIds h.slotEmptied m hm
  have hheld := held_act hp
  have hids : (l.act plan m).ids.Perm l.ids := hheld.append_right l.removed
  refine ⟨⟨hp.slotEmptied, fun ha => ?_, ?_, fun id he => ?_, fun q ho hq => ?_⟩, hids⟩
  · rw [h.ahead (hp.ahead ha)] at hids
    exact hids.eq_nil
  · rw [hids.length_eq]
    exact h.single
  · exact hheld.mem_iff.2 (h.table id he)
  · exact hp.registering (h.opening q ho hq)

/-! ## Moves of the endpoint -/

/-- Whether the worker only finds something new in its inbox. -/
def isPassive : Operation.Move α → Bool
  | .message _ | .hangUp => true
  | _ => false

theorem foldl_act_of_isPassive {moves : List (Operation.Move α)}
    (hm : ∀ m ∈ moves, isPassive m = true) (l : Line α σ) :
    ∃ inbox inboxOpen, moves.foldl (act plan) l =
      { l with operation := { l.operation with inbox, inboxOpen } } := by
  induction moves generalizing l with
  | nil => exact ⟨l.operation.inbox, l.operation.inboxOpen, rfl⟩
  | cons m rest ih =>
      have hfirst : ∃ inbox inboxOpen, l.act plan m =
          { l with operation := { l.operation with inbox, inboxOpen } } := by
        cases m with
        | message x =>
            have hmessage : ∃ inbox, l.operation.message x = { l.operation with inbox } := by
              unfold Operation.message
              split
              · exact ⟨_, rfl⟩
              · exact ⟨l.operation.inbox, rfl⟩
            obtain ⟨inbox, hmessage⟩ := hmessage
            exact ⟨inbox, l.operation.inboxOpen,
              by simp [act, Operation.step, hmessage, released]⟩
        | hangUp =>
            exact ⟨l.operation.inbox, false,
              by simp [act, Operation.step, Operation.hangUp, released]⟩
        | _ => cases hm _ List.mem_cons_self
      obtain ⟨inbox, inboxOpen, hl⟩ := hfirst
      obtain ⟨inbox', inboxOpen', hrest⟩ :=
        ih (fun m hm' => hm m (List.mem_cons_of_mem _ hm')) (l.act plan m)
      refine ⟨inbox', inboxOpen', ?_⟩
      rw [List.foldl_cons, hrest, hl]

/-- What the operation learns of a move of the endpoint: nothing but what comes to its
inbox, or that its registration is granted, or that it has failed. -/
theorem use_cases (plan : Plan α) (l : Line α σ) (m : Endpoint.Move (Option σ)) :
    let r := l.endpoint.step m
    ((∀ x, .answer none x ∉ r.2) ∧ ∃ inbox inboxOpen, l.use plan m =
      { l with endpoint := r.1, operation := { l.operation with inbox, inboxOpen } }) ∨
    ∃ q, q.sink = none ∧ (m.registration? = some q ∨ l.endpoint.opening = some q) ∧
      r.1.opening = none ∧
      ((∃ connection, r.2 = Endpoint.subscribed q connection) ∧
          l.use plan m = { l with endpoint := r.1 }.act plan (.registered (.ok q.id)) ∨
        ∃ e, r.1.table = l.endpoint.table ∧ l.use plan m =
          ({ l with endpoint := r.1 }.act plan .hangUp).act plan (.registered (.error e))) := by
  intro r
  have hquiet : (∀ x, .answer none x ∉ r.2) → ∃ inbox inboxOpen, l.use plan m =
      { l with endpoint := r.1, operation := { l.operation with inbox, inboxOpen } } := by
    intro hnone
    refine foldl_act_of_isPassive (fun a ha => ?_) { l with endpoint := r.1 }
    obtain ⟨s, hs, hmove⟩ := List.mem_filterMap.1 ha
    cases s with
    | hand sink x | release sink =>
        cases sink with
        | none => cases hmove; rfl
        | some _ => cases hmove
    | answer sink x =>
        cases sink with
        | none => exact absurd hs (hnone x)
        | some _ => cases hmove
    | post _ _ | hangUp _ => cases hmove
  rcases (l.endpoint.step_change m).answer_cases with hnone | ⟨q, hasked, hopen, hr⟩
  · exact .inl ⟨hnone none, hquiet (hnone none)⟩
  · cases hsink : q.sink with
    | some s =>
        have hnone : ∀ x, .answer none x ∉ r.2 := by
          intro x hx
          rcases hr with ⟨connection, hr⟩ | ⟨e, hr, -⟩
          · simp [r, hr, Endpoint.subscribed, hsink] at hx
          · simp [r, hr, hsink] at hx
        exact .inl ⟨hnone, hquiet hnone⟩
    | none =>
        refine .inr ⟨q, hsink, hasked, hopen, ?_⟩
        rcases hr with ⟨connection, hr⟩ | ⟨e, hr, ht⟩
        · refine .inl ⟨⟨connection, hr⟩, ?_⟩
          simp [use, r, hr, Endpoint.subscribed, hsink]
          rfl
        · refine .inr ⟨e, ht, ?_⟩
          simp [use, r, hr, Signal.move?, hsink]

/-- The worker learns what has become of its registration: there is one id at most, and it
has it in hand. -/
theorem IdInvariant.answered (h : IdInvariant l) (hstage : l.operation.stage = .registering)
    {op : Operation α} {ep : Endpoint (Option σ)} (hslot : op.slot = none)
    (hahead : op.stage.isAhead = false) (hsingle : op.stage.ids.length ≤ 1)
    (htable : ∀ id, (id, none) ∈ ep.table →
      (id, none) ∈ l.endpoint.table ∨ id ∈ op.stage.ids)
    (hopening : ep.opening = none) : IdInvariant { l with operation := op, endpoint := ep } := by
  have hempty : l.ids = [] := h.ahead (by rw [hstage]; rfl)
  have hheld : l.held = [] := (List.append_eq_nil_iff.1 hempty).1
  have hremovals : l.removals = [] := (List.append_eq_nil_iff.1 hheld).2
  have hremoved : l.removed = [] := (List.append_eq_nil_iff.1 hempty).2
  have hhand : ({ l with operation := op, endpoint := ep } : Line α σ).held = op.stage.ids := by
    simp [held, Operation.heldIds, hslot, hremovals]
  have hids : ({ l with operation := op, endpoint := ep } : Line α σ).ids = op.stage.ids := by
    rw [ids, hhand, hremoved, List.append_nil]
  refine ⟨fun _ => hslot, fun ha => ?_, ?_, fun id he => ?_, fun q ho => ?_⟩
  · cases hahead.symm.trans ha
  · rw [hids]
    exact hsingle
  · rw [hhand]
    rcases htable id he with hold | hnew
    · have hmem := h.table id hold
      rw [hheld] at hmem
      cases hmem
    · exact hnew
  · cases hopening.symm.trans ho

/-- The operation is not answered: its registrations stay what they are. -/
theorem IdInvariant.unanswered (h : IdInvariant l) {m : Endpoint.Move (Option σ)}
    (hnone : ∀ x, .answer none x ∉ (l.endpoint.step m).2)
    (hasked : ∀ q, m.registration? = some q ∨ l.endpoint.opening = some q →
      q.sink = none → l.operation.stage = .registering)
    (inbox : List StreamMessage) (inboxOpen : Bool) :
    IdInvariant { l with
      operation := { l.operation with inbox, inboxOpen }, endpoint := (l.endpoint.step m).1 } := by
  have hc := l.endpoint.step_change m
  refine ⟨h.slotEmptied, h.ahead, h.single, fun id he => ?_, fun q ho hsink => ?_⟩
  · rcases hc.mem_table he with hold | hnew
    · exact h.table id hold
    · exact absurd (Endpoint.mem_granted.1 hnew) (hnone _)
  · obtain ⟨q', hq', hentry⟩ := hc.exists_asked (.inr ⟨q, ho, rfl⟩)
    have hsink' : q'.sink = none := (congrArg Prod.snd hentry).trans hsink
    exact hasked q' hq' hsink'

/-- What the endpoint does keeps the id in one place.  A new id is the only one. -/
theorem IdInvariant.use (h : IdInvariant l) {m : Endpoint.Move (Option σ)}
    (hm : ∀ q, m.registration? = some q → q.sink = none → l.operation.stage = .registering) :
    IdInvariant (l.use plan m) ∧
      ((l.use plan m).ids.Perm l.ids ∨ l.operation.stage.isAhead = true) := by
  have hc := l.endpoint.step_change m
  have hasked : ∀ q, m.registration? = some q ∨ l.endpoint.opening = some q →
      q.sink = none → l.operation.stage = .registering := by
    intro q hq hsink
    rcases hq with hq | hq
    · exact hm q hq hsink
    · exact h.opening q hq hsink
  rcases use_cases plan l m with ⟨hnone, inbox, inboxOpen, hl⟩ | ⟨q, hsink, hq, hopen, hr⟩
  · rw [hl]
    exact ⟨h.unanswered hnone hasked inbox inboxOpen, .inl (.refl _)⟩
  · have hstage := hasked q hq hsink
    have hslot : l.operation.slot = none := h.slotEmptied (by rw [hstage]; rfl)
    refine ⟨?_, .inr (by rw [hstage]; rfl)⟩
    rcases hr with ⟨⟨connection, hr⟩, hl⟩ | ⟨e, ht, hl⟩
    · have hgranted : l.use plan m = { l with
          operation := l.operation.goto (.storing q.id), endpoint := (l.endpoint.step m).1 } := by
        rw [hl]
        simp [Line.act, Operation.step, Operation.registered, hstage, released]
      rw [hgranted]
      refine h.answered hstage hslot rfl (Nat.le_refl 1) (fun id he => ?_) hopen
      rcases hc.mem_table he with hold | hnew
      · exact .inl hold
      · rw [hr, Endpoint.granted_subscribed, List.mem_singleton] at hnew
        have hid : id = q.id := congrArg Prod.fst hnew
        exact .inr (by rw [hid]; exact List.mem_cons_self)
    · have hfailed : ∃ op, l.use plan m =
            { l with operation := op, endpoint := (l.endpoint.step m).1 } ∧
          op.stage = .watching ∧ op.slot = none := by
        refine ⟨l.operation.hangUp.registered (.error e), ?_, ?_, ?_⟩
        · rw [hl]
          simp [Line.act, Operation.step, released]
        · simp [Operation.registered, Operation.hangUp, hstage]
        · simp [Operation.registered, Operation.hangUp, hstage, hslot]
      obtain ⟨op, hop, hwatching, hslot'⟩ := hfailed
      have hahead : op.stage.isAhead = false := by rw [hwatching]; rfl
      have hsingle : op.stage.ids.length ≤ 1 := by rw [hwatching]; exact Nat.zero_le 1
      rw [hop]
      refine h.answered hstage hslot' hahead hsingle (fun id he => ?_) hopen
      rw [ht] at he
      exact .inl he

/-! ## Removals -/

/-- A removal comes to an endpoint that is free.  The id goes from those that were held to
those that are removed, and from the table. -/
theorem IdInvariant.removed (h : IdInvariant l) (hf : l.endpoint.isBusy = false) {id : String}
    (op : Operation α) {removals : List String} (hempty : op.SlotEmptied)
    (hahead : op.stage.isAhead = true → l.operation.stage.isAhead = true)
    (hheld : (id :: (op.heldIds ++ removals)).Perm l.held) (accepting : Bool) :
    let l' : Line α σ :=
      ⟨op, (l.endpoint.step (.unregister id accepting)).1, removals, l.removed ++ [id]⟩
    IdInvariant l' ∧ l'.ids.Perm l.ids := by
  intro l'
  have hids : l'.ids.Perm l.ids := by
    rw [List.perm_iff_count]
    intro i
    have hcount := hheld.count_eq i
    simp only [l', ids, held, List.count_append, List.count_cons, List.count_nil] at hcount ⊢
    omega
  refine ⟨⟨hempty, fun ha => ?_, ?_, fun i he => ?_, fun q ho hq => ?_⟩, hids⟩
  · rw [h.ahead (hahead ha)] at hids
    exact hids.eq_nil
  · rw [hids.length_eq]
    exact h.single
  · obtain ⟨hold, hne⟩ := (Endpoint.mem_table_unregister hf id accepting).1 he
    have hmem := hheld.mem_iff.2 (h.table i hold)
    exact (List.mem_cons.1 hmem).resolve_left hne
  · have hopening : l.endpoint.opening = none := Endpoint.isBusy_eq_false_iff.1 hf
    have hc := l.endpoint.step_change (.unregister id accepting)
    obtain ⟨q', hq', -⟩ := hc.exists_asked (.inr ⟨q, ho, rfl⟩)
    rw [hopening] at hq'
    rcases hq' with hq' | hq' <;> cases hq'

/-- The operation learns of a removal no more than that no messages come. -/
theorem withdraw_eq (plan : Plan α) (hf : l.endpoint.isBusy = false) (id : String)
    (accepting : Bool) :
    ∃ inbox inboxOpen, l.withdraw plan id accepting =
      ⟨{ l.operation with inbox, inboxOpen }, (l.endpoint.step (.unregister id accepting)).1,
        l.removals, l.removed ++ [id]⟩ := by
  have hopening : l.endpoint.opening = none := Endpoint.isBusy_eq_false_iff.1 hf
  rcases use_cases plan { l with removed := l.removed ++ [id] } (.unregister id accepting) with
    ⟨-, hl⟩ | ⟨q, -, hq, -⟩
  · exact hl
  · rw [hopening] at hq
    rcases hq with hq | hq <;> cases hq

/-! ## Steps -/

/-- Every step keeps this, and an id stays the one that there is. -/
theorem step_idInvariant (plan : Plan α) (h : IdInvariant l) (m : Move σ) :
    IdInvariant (l.step plan m) ∧
      ((l.step plan m).ids.Perm l.ids ∨ l.operation.stage.isAhead = true) := by
  have hwait : IdInvariant l ∧ (l.ids.Perm l.ids ∨ l.operation.stage.isAhead = true) :=
    ⟨h, .inl (.refl _)⟩
  cases m with
  | control c => exact (h.act plan (.control c) rfl).imp_right .inl
  | pursue i => exact (h.act plan (.pursue i) rfl).imp_right .inl
  | work first => exact (h.act plan (.work first) rfl).imp_right .inl
  | register id document accepting =>
      simp only [step]
      split
      · next hs => exact h.use fun _ _ _ => hs
      · exact hwait
  | unregister accepting =>
      simp only [step]
      split
      · next id hs =>
        by_cases hb : l.endpoint.isBusy = true
        · rw [if_pos hb]
          exact hwait
        · have hf : l.endpoint.isBusy = false := by simpa using hb
          -- the worker is through, with nothing in the slot
          have hslot : l.operation.slot = none := h.slotEmptied (by rw [hs]; rfl)
          have hheld : (id :: (l.operation.slot.toList ++ l.removals)).Perm l.held := by
            simp [held, Operation.heldIds, hs, Stage.ids]
          obtain ⟨inbox, inboxOpen, hl⟩ := withdraw_eq plan hf id accepting
          have hdone : (l.withdraw plan id accepting).act plan .unregistered =
              ⟨{ l.operation with inbox, inboxOpen, stage := .finished },
                (l.endpoint.step (.unregister id accepting)).1, l.removals,
                l.removed ++ [id]⟩ := by
            rw [hl]
            simp [Line.act, Operation.step, Operation.unregistered, hs, Operation.goto, released]
          rw [if_neg hb, hdone]
          have hinv := h.removed hf { l.operation with inbox, inboxOpen, stage := .finished }
            (fun _ => hslot) (fun ha => (by cases ha)) hheld accepting
          exact hinv.imp_right .inl
      · exact hwait
  | remove i accepting =>
      simp only [step]
      split
      · next id hi =>
        by_cases hb : l.endpoint.isBusy = true
        · rw [if_pos hb]
          exact hwait
        · have hf : l.endpoint.isBusy = false := by simpa using hb
          obtain ⟨hlt, hid⟩ := List.getElem?_eq_some_iff.1 hi
          have hheld : (id :: (l.operation.heldIds ++ l.removals.eraseIdx i)).Perm l.held := by
            have hperm := List.getElem_cons_eraseIdx_perm hlt
            rw [hid] at hperm
            exact List.perm_middle.symm.trans (hperm.append_left l.operation.heldIds)
          obtain ⟨inbox, inboxOpen, hl⟩ :=
            withdraw_eq (l := { l with removals := l.removals.eraseIdx i }) plan hf id accepting
          rw [if_neg hb, hl]
          have hinv := h.removed hf { l.operation with inbox, inboxOpen } h.slotEmptied
            (fun ha => ha) hheld accepting
          exact hinv.imp_right .inl
      · exact hwait
  | elsewhere m =>
      refine h.use fun q hq hsink => ?_
      cases m with
      | register q' _ => cases hq; cases hsink
      | _ => cases hq

/-! ## Runs -/

theorem idInvariant_run (plan : Plan α) (moves : List (Move σ)) (h : IdInvariant l) :
    IdInvariant (l.run plan moves) := by
  induction moves generalizing l with
  | nil => exact h
  | cons m rest ih => exact ih (step_idInvariant plan h m).1

/-- An id that is there stays the one that there is. -/
theorem ids_run (plan : Plan α) (moves : List (Move σ)) (h : IdInvariant l) {id : String}
    (hid : l.ids = [id]) : (l.run plan moves).ids = [id] := by
  induction moves generalizing l with
  | nil => exact hid
  | cons m rest ih =>
      obtain ⟨hnext, hids⟩ := step_idInvariant plan h m
      refine ih hnext ?_
      rcases hids with hids | hahead
      · rw [hid] at hids
        exact hids.eq_singleton
      · -- a worker that may still register has no id
        rw [h.ahead hahead] at hid
        cases hid

theorem IdInvariant.ids_eq (h : IdInvariant l) {id : String} (hmem : id ∈ l.ids) :
    l.ids = [id] := by
  obtain ⟨i, hi⟩ := List.length_eq_one_iff.1
    (Nat.le_antisymm h.single (List.length_pos_of_mem hmem))
  rw [hi] at hmem ⊢
  rw [List.mem_singleton.1 hmem]

/-- What is registered for the operation is its one subscription, and has not been
removed. -/
theorem IdInvariant.of_mem_table (h : IdInvariant l) {id : String} (hids : l.ids = [id])
    {i : String}
    (he : (i, none) ∈ l.endpoint.table) : i = id ∧ l.removed = [] := by
  have hheld : i ∈ l.held := h.table i he
  rcases List.append_eq_singleton_iff.1 hids with ⟨hnone, -⟩ | ⟨hone, hremoved⟩
  · rw [hnone] at hheld
    cases hheld
  · rw [hone] at hheld
    exact ⟨List.mem_singleton.1 hheld, hremoved⟩

/-! ## The ids of others -/

/-- Who is registered with an id, or waits to be, is the operation. -/
structure IdIsOwn (id : String) (ep : Endpoint (Option σ)) : Prop where
  table : ∀ entry ∈ ep.table, entry.1 = id → entry.2 = none
  opening : ∀ q, ep.opening = some q → q.id = id → q.sink = none

theorem IdIsOwn.step {ep : Endpoint (Option σ)} {id : String} (h : IdIsOwn id ep)
    (m : Endpoint.Move (Option σ))
    (hm : ∀ q, m.registration? = some q → q.id = id → q.sink = none) :
    IdIsOwn id (ep.step m).1 := by
  have hc := ep.step_change m
  have hasked : ∀ q, m.registration? = some q ∨ ep.opening = some q → q.id = id →
      q.sink = none := by
    intro q hq
    rcases hq with hq | hq
    · exact hm q hq
    · exact h.opening q hq
  constructor
  · intro entry he hid
    rcases hc.mem_table he with hold | hnew
    · exact h.table entry hold hid
    · obtain ⟨q, hq, rfl⟩ := hc.exists_asked (.inl hnew)
      exact hasked q hq hid
  · intro q ho hid
    obtain ⟨q', hq', hentry⟩ := hc.exists_asked (.inr ⟨q, ho, rfl⟩)
    have hid' : q'.id = id := (congrArg Prod.fst hentry).trans hid
    have hsink : q'.sink = q.sink := congrArg Prod.snd hentry
    exact hsink.symm.trans (hasked q' hq' hid')

@[simp] theorem endpoint_act (plan : Plan α) (l : Line α σ) (m : Operation.Move α) :
    (l.act plan m).endpoint = l.endpoint := rfl

@[simp] theorem endpoint_foldl_act (plan : Plan α) (moves : List (Operation.Move α))
    (l : Line α σ) : (moves.foldl (act plan) l).endpoint = l.endpoint := by
  induction moves generalizing l with
  | nil => rfl
  | cons m rest ih => exact ih (l.act plan m)

@[simp] theorem endpoint_use (plan : Plan α) (l : Line α σ) (m : Endpoint.Move (Option σ)) :
    (l.use plan m).endpoint = (l.endpoint.step m).1 :=
  endpoint_foldl_act ..

@[simp] theorem endpoint_withdraw (plan : Plan α) (l : Line α σ) (id : String)
    (accepting : Bool) :
    (l.withdraw plan id accepting).endpoint = (l.endpoint.step (.unregister id accepting)).1 :=
  endpoint_use ..

/-- As long as no other registration has the id, it is the operation's. -/
theorem idIsOwn_step (plan : Plan α) {id : String} (h : IdIsOwn id l.endpoint) (m : Move σ)
    (hm : ∀ q accepting, m = .elsewhere (.register q accepting) → q.id ≠ id) :
    IdIsOwn id (l.step plan m).endpoint := by
  have hremoved : ∀ i accepting, IdIsOwn id (l.endpoint.step (.unregister i accepting)).1 :=
    fun i accepting => h.step (.unregister i accepting) fun q hq => by cases hq
  cases m with
  | control c | pursue i | work first => exact h
  | register i document accepting =>
      simp only [step]
      split
      · rw [endpoint_use]
        exact h.step _ fun q hq _ => by cases hq; rfl
      · exact h
  | unregister accepting =>
      simp only [step]
      split
      · split
        · exact h
        · rw [endpoint_act, endpoint_withdraw]
          exact hremoved _ _
      · exact h
  | remove i accepting =>
      simp only [step]
      split
      · split
        · exact h
        · rw [endpoint_withdraw]
          exact hremoved _ _
      · exact h
  | elsewhere m =>
      simp only [step, endpoint_use]
      refine h.step _ fun q hq hid => ?_
      cases m with
      | register q' accepting =>
          cases hq
          exact absurd hid (hm q' accepting rfl)
      | _ => cases hq

theorem idIsOwn_run (plan : Plan α) {id : String} (moves : List (Move σ))
    (fresh : ∀ q accepting, .elsewhere (.register q accepting) ∈ moves → q.id ≠ id)
    (h : IdIsOwn id l.endpoint) : IdIsOwn id (l.run plan moves).endpoint := by
  induction moves generalizing l with
  | nil => exact h
  | cons m rest ih =>
      have hlater : ∀ q accepting, .elsewhere (.register q accepting) ∈ rest → q.id ≠ id :=
        fun q accepting hq => fresh q accepting (List.mem_cons_of_mem m hq)
      refine ih hlater (idIsOwn_step plan h m fun q accepting hq => ?_)
      exact fresh q accepting (hq ▸ List.mem_cons_self)

/-! ## The whole run -/

/-- The subscription of an operation is removed once, whoever does it.  From when the
worker has learnt its id, the id is in one place: with the worker, in the slot, in a removal
that the hook has started, or among those that have come to the endpoint, and once it is
there nothing is registered for the operation any more.  So when the worker is through and
no removal is on its way, the subscription is gone, the slot is empty, and there was one
removal. -/
theorem removes_once (plan : Plan α) (moves : List (Move σ)) (id : String)
    (fresh : ∀ q accepting, .elsewhere (.register q accepting) ∈ moves → q.id ≠ id)
    (before : List (Move σ)) (earlier : before <+: moves)
    (registered : (run plan before (create plan)).operation.stage = .storing id) :
    let l := run plan moves (create plan)
    l.operation.stage.ids ++ l.operation.slot.toList ++ l.removals ++ l.removed = [id] ∧
    (∀ entry ∈ l.endpoint.table, entry.1 = id ∨ entry.2 = none →
      entry = (id, none) ∧ l.removed = []) ∧
    (l.operation.stage = .finished → l.removals = [] →
      (∀ entry ∈ l.endpoint.table, entry.1 ≠ id ∧ entry.2 ≠ none) ∧
      l.operation.slot = none ∧ l.removed = [id]) := by
  intro l
  obtain ⟨after, rfl⟩ := earlier
  have hbefore : IdInvariant (run plan before (create plan : Line α σ)) :=
    idInvariant_run plan before (idInvariant_create plan)
  have hinv : IdInvariant l := idInvariant_run plan _ (idInvariant_create plan)
  have hnobody : IdIsOwn id (create plan : Line α σ).endpoint :=
    ⟨fun _ he => (by cases he), fun _ ho => (by cases ho)⟩
  have honly : IdIsOwn id l.endpoint := idIsOwn_run plan _ fresh hnobody
  have hgranted : (run plan before (create plan : Line α σ)).ids = [id] := by
    refine hbefore.ids_eq ?_
    simp [ids, held, Operation.heldIds, registered, Stage.ids]
  have hids : l.ids = [id] := by
    have hlater := ids_run plan after hbefore hgranted
    rwa [run, run, ← List.foldl_append] at hlater
  have htable : ∀ entry ∈ l.endpoint.table, entry.1 = id ∨ entry.2 = none →
      entry = (id, none) ∧ l.removed = [] := by
    intro entry he hown
    have hsink : entry.2 = none := hown.elim (honly.table entry he) fun hsink => hsink
    obtain ⟨hid, hremoved⟩ := hinv.of_mem_table hids (hsink ▸ he : (entry.1, none) ∈ _)
    exact ⟨Prod.ext hid hsink, hremoved⟩
  refine ⟨hids, htable, fun hfinished hremovals => ?_⟩
  have hslot : l.operation.slot = none := hinv.slotEmptied (by rw [hfinished]; rfl)
  have hheld : l.held = [] := by
    simp [held, Operation.heldIds, hfinished, hslot, hremovals, Stage.ids]
  have hremoved : l.removed = [id] := by
    rw [ids, hheld, List.nil_append] at hids
    exact hids
  refine ⟨fun entry he => not_or.1 fun hown => ?_, hslot, hremoved⟩
  have hnone := (htable entry he hown).2
  rw [hremoved] at hnone
  cases hnone

/-- A cancellation comes while the connection is being opened, and the worker removes the
subscription; or it comes when the worker has put the id into the slot and has not looked
yet whether the operation is over, and the hook does. -/
theorem removes_once_cancelled :
    let plan : Plan Unit := { kind := .stream, decode := fun _ => .ok () }
    let start : List (Move Nat) :=
      [.control .start, .pursue 0, .pursue 0, .work false, .work false, .work false,
        .register "s1" (.ofQuery "subscription { a }") true]
    let cancel : List (Move Nat) := [.control .cancel, .pursue 0, .pursue 0]
    let early := start ++ cancel ++ [.elsewhere (.connected 0 true)]
    let late := start ++ [.elsewhere (.connected 0 true)]
    let byWorker := early ++ [.work false, .work false, .work false, .unregister true]
    let byHook := late ++ ([.work false] ++ cancel ++ [.work false, .work false, .remove 0 true])
    ((run plan early (create plan)).operation.stage = .storing "s1" ∧
      (run plan byWorker (create plan)).operation.stage = .finished ∧
      (run plan byWorker (create plan)).removals = [] ∧
      (run plan byWorker (create plan)).removed = ["s1"]) ∧
    ((run plan late (create plan)).operation.stage = .storing "s1" ∧
      (run plan byHook (create plan)).operation.stage = .finished ∧
      (run plan byHook (create plan)).removals = [] ∧
      (run plan byHook (create plan)).removed = ["s1"]) := by
  intro plan start cancel early late byWorker byHook
  have hearly : (run plan early (create plan)).operation.stage = .storing "s1" := by
    simp only [plan, early, start, cancel]
    rfl
  have hlate : (run plan late (create plan)).operation.stage = .storing "s1" := by
    simp only [plan, late, start]
    rfl
  have hworker : (run plan byWorker (create plan)).operation.stage = .finished ∧
      (run plan byWorker (create plan)).removals = [] := by
    simp only [plan, byWorker, early, start, cancel]
    exact ⟨rfl, rfl⟩
  have hhook : (run plan byHook (create plan)).operation.stage = .finished ∧
      (run plan byHook (create plan)).removals = [] := by
    simp only [plan, byHook, late, start, cancel]
    exact ⟨rfl, rfl⟩
  obtain ⟨-, -, hbyWorker⟩ := removes_once plan byWorker "s1"
    (by simp [byWorker, early, start, cancel]) early (List.prefix_append ..) hearly
  obtain ⟨-, -, hbyHook⟩ := removes_once plan byHook "s1"
    (by simp [byHook, late, start, cancel]) late (List.prefix_append ..) hlate
  exact ⟨⟨hearly, hworker.1, hworker.2, (hbyWorker hworker.1 hworker.2).2.2⟩,
    ⟨hlate, hhook.1, hhook.2, (hbyHook hhook.1 hhook.2).2.2⟩⟩

end Switchboard.Line
