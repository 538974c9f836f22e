import Switchboard.Proofs.Subscription.Link

/-!
# Switchboard.Proofs.Subscription.Grant

Which registrations go through.  A registration is granted when its caller learns the id,
and that is when it enters the table; nothing else does.

* `registrations`, `granted` — what a run asks for, and what of it goes through;
* `Fresh` — no two registrations share an id or a sink;
* `Change.of_granted` — the two exits that grant a registration;
* `Change.answer_cases` — an answer is the answer to one registration;
* `Change.mem_table` — what is in the table was granted;
* `granted_run_sublist` — a run grants each registration once at most.
-/

namespace Switchboard

open GraphQL (ClientMessage)

/-- The entry of a registration in the table. -/
def Registration.entry (q : Registration σ) : String × σ := (q.id, q.sink)

/-- The entry that a signal says is made. -/
def Signal.granted? : Signal σ → Option (String × σ)
  | .answer sink (.ok id) => some (id, sink)
  | _ => none

namespace Endpoint

variable {σ : Type} {ep : Endpoint σ} {m : Move σ} {r : Endpoint σ × List (Signal σ)}

/-- The registration that a move asks for. -/
def Move.registration? : Move σ → Option (Registration σ)
  | .register q _ => some q
  | _ => none

/-- The registrations that a run asks for, in order. -/
def registrations (moves : List (Move σ)) : List (Registration σ) :=
  moves.filterMap Move.registration?

/-- The registrations that go through, in order. -/
def granted (signals : List (Signal σ)) : List (String × σ) := signals.filterMap Signal.granted?

/-- Each registration of a run has an id and a sink of its own. -/
structure Fresh (moves : List (Move σ)) : Prop where
  ids : ((registrations moves).map (·.id)).Nodup
  sinks : ((registrations moves).map (·.sink)).Nodup

theorem mem_granted {signals : List (Signal σ)} {id : String} {sink : σ} :
    (id, sink) ∈ granted signals ↔ .answer sink (.ok id) ∈ signals := by
  constructor
  · intro h
    obtain ⟨s, hs, hentry⟩ := List.mem_filterMap.1 h
    cases s with
    | answer _ x =>
        cases x with
        | ok _ => cases hentry; exact hs
        | error _ => cases hentry
    | _ => cases hentry
  · intro h
    exact List.mem_filterMap.2 ⟨_, h, rfl⟩

/-! ## Signals that grant nothing -/

@[simp] theorem granted_append (signals more : List (Signal σ)) :
    granted (signals ++ more) = granted signals ++ granted more := List.filterMap_append

@[simp] theorem granted_subscribed (q : Registration σ) (connection : Nat) :
    granted (subscribed q connection) = [q.entry] := rfl

@[simp] theorem granted_turnedDown (q : Registration σ) : granted (turnedDown q) = [] := rfl

@[simp] theorem granted_release (sink : σ) (signals : List (Signal σ)) :
    granted (.release sink :: signals) = granted signals := rfl

@[simp] theorem granted_completion (ep : Endpoint σ) (id : String) (accepting : Bool) :
    granted (ep.completion id accepting) = [] :=
  filterMap_completion (fun _ _ => rfl) ep id accepting

@[simp] theorem granted_hands (sinks : Option σ) (x : StreamMessage) :
    granted (sinks.toList.map fun sink => .hand sink x) = [] := by
  cases sinks <;> rfl

@[simp] theorem granted_remove (ep : Endpoint σ) (id : String) :
    granted (ep.remove id).2 = [] := by
  rcases ep.remove_cases id with ⟨-, hr⟩ | ⟨-, hr⟩
  · rw [hr]
    cases ep.link <;> rfl
  · rw [hr]
    rfl

@[simp] theorem granted_lastMessage (ep : Endpoint σ) (id : String) (x : StreamMessage) :
    granted (ep.lastMessage id x) = [] := by
  unfold lastMessage
  cases Keyed.get? id ep.table <;> rfl

@[simp] theorem granted_dropAll (ep : Endpoint σ) (e : ApiError) :
    granted (ep.dropAll e).2 = [] := by
  rw [granted, filterMap_dropAll fun _ => rfl]
  cases hl : ep.link <;> simp [hangUp, hl, Signal.granted?]

/-! ## Exits that grant -/

/-- A registration is granted over a connection that is there, or over one that was opened
for it.  It is subscribed and entered at once. -/
theorem Change.of_granted (hc : Change ep m r) {entry : String × σ}
    (he : entry ∈ granted r.2) :
    ∃ q l, entry = q.entry ∧ r.2 = subscribed q l.connection ∧ r.1.link = some l ∧
      r.1.table = Keyed.set q.id q.sink ep.table ∧ r.1.opening = none ∧
      (m = .register q true ∧ ep.link = some l ∨
        ep.opening = some q ∧ l.generation = r.1.generation) := by
  cases hc with
  | @subscribe q l hf hl =>
      have heq : entry = q.entry := by simpa using he
      have hopening : ep.opening = none := isBusy_eq_false_iff.1 hf
      exact ⟨q, l, heq, rfl, hl, rfl, hopening, .inl ⟨rfl, hl⟩⟩
  | @establish q connection ho =>
      have heq : entry = q.entry := by simpa using he
      exact ⟨q, ⟨connection, ep.generation + 1⟩, heq, rfl, rfl, rfl, rfl, .inr ⟨ho, rfl⟩⟩
  | unregister | forward | fail | complete => simp at he
  | lost => simp at he
  | turnDown | strand => simp at he
  | _ => cases he

/-- An answer is the answer to one registration, which waits no longer.  It goes through,
or the endpoint drops its sink and registers nothing. -/
theorem Change.answer_cases (hc : Change ep m r) :
    (∀ sink x, .answer sink x ∉ r.2) ∨
    ∃ q, (m.registration? = some q ∨ ep.opening = some q) ∧ r.1.opening = none ∧
      ((∃ connection, r.2 = subscribed q connection) ∨
        ∃ e, r.2 = [.release q.sink, .answer q.sink (.error e)] ∧ r.1.table = ep.table) := by
  have hremove : ∀ id sink x, .answer sink x ∉ (ep.remove id).2 := by
    intro id sink x
    rcases ep.remove_cases id with ⟨-, hr⟩ | ⟨-, hr⟩ <;> simp [hr]
  have hlast : ∀ id y sink x, .answer sink x ∉ ep.lastMessage id y := by
    intro id y sink x
    unfold lastMessage
    cases Keyed.get? id ep.table <;> simp
  cases hc with
  | @subscribe q l hf => exact .inr ⟨q, .inl rfl, isBusy_eq_false_iff.1 hf, .inl ⟨_, rfl⟩⟩
  | @turnDown q _ hf => exact .inr ⟨q, .inl rfl, isBusy_eq_false_iff.1 hf, .inr ⟨_, rfl, rfl⟩⟩
  | @establish q _ ho => exact .inr ⟨q, .inr ho, rfl, .inl ⟨_, rfl⟩⟩
  | @strand q _ ho => exact .inr ⟨q, .inr ho, rfl, .inr ⟨_, rfl, rfl⟩⟩
  | @giveUp q _ ho => exact .inr ⟨q, .inr ho, rfl, .inr ⟨_, rfl, rfl⟩⟩
  | unregister => exact .inl fun sink x => by simp [hremove]
  | fail | complete => exact .inl fun sink x => by simp [hremove, hlast]
  | lost => exact .inl fun sink x => by simp [dropAll, hangUp]
  | forward => exact .inl fun sink x => by simp
  | _ => exact .inl fun sink x => List.not_mem_nil

/-- Only granted registrations enter the table. -/
theorem Change.mem_table (hc : Change ep m r) {entry : String × σ} (he : entry ∈ r.1.table) :
    entry ∈ ep.table ∨ entry ∈ granted r.2 := by
  cases hc with
  | subscribe | establish =>
      rcases Keyed.mem_of_mem_set he with hnew | hold
      · rw [hnew]
        exact .inr List.mem_cons_self
      · exact .inl hold
  | unregister | fail | complete =>
      rw [table_remove] at he
      exact .inl (Keyed.mem_erase.1 he).1
  | lost => cases he
  | _ => exact .inl he

/-- A table stays in the order of its ids. -/
theorem Change.ordered (hc : Change ep m r) (h : ep.table.Ordered) : r.1.table.Ordered := by
  cases hc with
  | subscribe | establish => exact h.set _ _
  | unregister | fail | complete =>
      rw [table_remove]
      exact h.erase _
  | lost => exact List.Pairwise.nil
  | _ => exact h

theorem ordered_run (moves : List (Move σ)) : (run moves ({} : Endpoint σ)).1.table.Ordered :=
  run_invariant (fun ep m h => (ep.step_change m).ordered h) moves List.Pairwise.nil

/-! ## Grants of a run -/

/-- What a move grants was asked for by it, or by the registration that waited for a
connection; and either waits no longer. -/
theorem Change.granted_sublist (hc : Change ep m r) :
    (granted r.2 ++ r.1.opening.toList.map Registration.entry).Sublist
      ((ep.opening.toList ++ m.registration?.toList).map Registration.entry) := by
  have hkeep : ∀ (o : Option (Registration σ)) (more : List (Registration σ)),
      (o.toList.map Registration.entry).Sublist ((o.toList ++ more).map Registration.entry) :=
    fun o more => (List.sublist_append_left ..).map _
  by_cases hg : granted r.2 = []
  · rw [hg, List.nil_append]
    cases hc with
    | dial hf => exact (List.sublist_append_right ..).map _
    | establish ho | strand ho | giveUp ho => exact List.nil_sublist _
    | unregister | fail | complete => rw [opening_remove]; exact hkeep ..
    | _ => exact hkeep ..
  · obtain ⟨entry, he⟩ := List.exists_mem_of_ne_nil _ hg
    obtain ⟨q, l, -, hsignals, -, -, hnone, hq⟩ := hc.of_granted he
    rw [hsignals, hnone, granted_subscribed, Option.toList_none, List.map_nil, List.append_nil,
      List.singleton_sublist]
    refine List.mem_map_of_mem (List.mem_append.2 ?_)
    rcases hq with ⟨rfl, -⟩ | ⟨ho, -⟩
    · exact .inr List.mem_cons_self
    · exact .inl (by simp [ho])

/-- What is granted, and what waits for a connection after it, was asked for. -/
theorem Change.exists_asked (hc : Change ep m r) {entry : String × σ}
    (he : entry ∈ granted r.2 ∨ ∃ q, r.1.opening = some q ∧ q.entry = entry) :
    ∃ q, (m.registration? = some q ∨ ep.opening = some q) ∧ q.entry = entry := by
  have hmem : entry ∈ granted r.2 ++ r.1.opening.toList.map Registration.entry := by
    rcases he with he | ⟨q, ho, rfl⟩
    · exact List.mem_append_left _ he
    · exact List.mem_append_right _ (by simp [ho])
  obtain ⟨q, hq, hentry⟩ := List.mem_map.1 (hc.granted_sublist.subset hmem)
  rcases List.mem_append.1 hq with hq | hq
  · exact ⟨q, .inr (Option.mem_toList.1 hq), hentry⟩
  · exact ⟨q, .inl (Option.mem_toList.1 hq), hentry⟩

/-- A run grants each registration once at most. -/
theorem granted_run_sublist (moves : List (Move σ)) (ep : Endpoint σ) :
    (granted (run moves ep).2).Sublist
      ((ep.opening.toList ++ registrations moves).map Registration.entry) := by
  induction moves generalizing ep with
  | nil => exact List.nil_sublist _
  | cons m rest ih =>
      have hm := (ep.step_change m).granted_sublist
      have hrest := ih (ep.step m).1
      have hsplit : registrations (m :: rest) = m.registration?.toList ++ registrations rest := by
        cases hq : m.registration? <;> simp [registrations, hq]
      have hlater : (granted (ep.step m).2 ++ granted (run rest (ep.step m).1).2).Sublist
          (granted (ep.step m).2 ++
            ((ep.step m).1.opening.toList ++ registrations rest).map Registration.entry) :=
        hrest.append_left _
      rw [List.map_append, ← List.append_assoc] at hlater
      simp only [run, granted_append]
      rw [hsplit, ← List.append_assoc, List.map_append]
      exact hlater.trans (hm.append_right _)

/-! ## Fresh runs -/

/-- In a run with fresh ids no id is granted twice. -/
theorem nodup_granted_ids {moves : List (Move σ)}
    (h : ((registrations moves).map (·.id)).Nodup) :
    ((granted (run moves ({} : Endpoint σ)).2).map (·.1)).Nodup := by
  have hsub := (granted_run_sublist moves ({} : Endpoint σ)).map (·.1)
  rw [List.map_map] at hsub
  exact hsub.nodup h

/-- In a run with fresh sinks no sink is granted twice. -/
theorem nodup_granted_sinks {moves : List (Move σ)}
    (h : ((registrations moves).map (·.sink)).Nodup) :
    ((granted (run moves ({} : Endpoint σ)).2).map (·.2)).Nodup := by
  have hsub := (granted_run_sublist moves ({} : Endpoint σ)).map (·.2)
  rw [List.map_map] at hsub
  exact hsub.nodup h

end Endpoint
end Switchboard
