import Switchboard.Proofs.Subscription.Grant

/-!
# Switchboard.Proofs.Subscription.Conversation

What is said over the connections of an endpoint, as the server of each sees it.  The rules
of the protocol for a client: a subscription has an id of its own, and a client completes
it at most once, over the connection that it was subscribed on, and only as long as neither
side has ended it.

* `Entry`, `log` — all that is said in a run, in order;
* `IsOpen` — a subscription that nobody has ended yet;
* `ClosesOnlyOpen` — the client completes no other;
* `Change.conversationInvariant` — what is in the table is open on the connection that there is;
* `keeps_protocol` — the rules, for every run.
-/

namespace Switchboard

open GraphQL (ClientMessage ServerMessage)

/-- One thing in the conversation of an endpoint with its servers. -/
inductive Entry where
  | opened (connection : Nat)
  /-- The client queues a message. -/
  | said (connection : Nat) (x : ClientMessage)
  /-- The client takes a message from the connection that there is. -/
  | heard (x : ServerMessage)
  /-- The client lets go. -/
  | dropped (connection : Nat)

namespace Entry

/-- Whether nothing is left of a subscription after this: a side ends it, or the
connection is not the same any more. -/
def ends (id : String) : Entry → Bool
  | said _ (.complete i) => i = id
  | heard (.error i _) | heard (.complete i) => i = id
  | opened _ | dropped _ => true
  | _ => false

/-- The id that is subscribed. -/
def subscribed? : Entry → Option String
  | said _ (.subscribe id _) => some id
  | _ => none

end Entry

/-- What a signal adds to the conversation. -/
def Signal.entry? : Signal σ → Option Entry
  | .post connection x => some (.said connection x)
  | .hangUp connection => some (.dropped connection)
  | _ => none

namespace Endpoint

variable {σ : Type} {ep ep' : Endpoint σ} {m : Move σ} {r : Endpoint σ × List (Signal σ)}

/-! ## The conversation of a run -/

/-- What a move adds to the conversation before the endpoint says anything: a connection
is opened, or a message of the current one is taken. -/
def noted (ep : Endpoint σ) : Move σ → List Entry
  | .connected connection _ => if ep.isBusy then [.opened connection] else []
  | .route generation x => if !ep.isBusy && ep.isCurrent generation then [.heard x] else []
  | _ => []

/-- What signals add to the conversation. -/
def spoken (signals : List (Signal σ)) : List Entry := signals.filterMap Signal.entry?

/-- The conversation of a run. -/
def log : List (Move σ) → Endpoint σ → List Entry
  | [], _ => []
  | m :: rest, ep => ep.noted m ++ spoken (ep.step m).2 ++ log rest (ep.step m).1

/-! ## Subscriptions that are open -/

/-- A subscription is open: it was subscribed over the connection, and nothing has ended
it since. -/
def IsOpen (connection : Nat) (id : String) (past : List Entry) : Prop :=
  ∃ earlier document since, past = earlier ++ .said connection (.subscribe id document) :: since ∧
    ∀ e ∈ since, e.ends id = false

/-- The client completes only what is open on the connection. -/
def ClosesOnlyOpen (past : List Entry) : Prop :=
  ∀ before connection id after, past = before ++ .said connection (.complete id) :: after →
    IsOpen connection id before

variable {past more : List Entry} {connection : Nat} {id : String}

theorem IsOpen.append (h : IsOpen connection id past) (hm : ∀ e ∈ more, e.ends id = false) :
    IsOpen connection id (past ++ more) := by
  obtain ⟨earlier, document, since, rfl, hs⟩ := h
  refine ⟨earlier, document, since ++ more, by simp, fun e he => ?_⟩
  rcases List.mem_append.1 he with he | he
  · exact hs e he
  · exact hm e he

theorem isOpen_subscribe (past : List Entry) (connection : Nat) (id : String)
    (document : GraphQL.Document) :
    IsOpen connection id (past ++ [.said connection (.subscribe id document)]) :=
  ⟨past, document, [], rfl, fun _ he => by cases he⟩

theorem ClosesOnlyOpen.append (h : ClosesOnlyOpen past)
    (hm : ∀ before connection id after, more = before ++ .said connection (.complete id) :: after →
      IsOpen connection id (past ++ before)) : ClosesOnlyOpen (past ++ more) := by
  intro before connection id after heq
  rcases List.append_eq_append_iff.1 heq with ⟨as, rfl, hmore⟩ | ⟨bs, rfl, hrest⟩
  · exact hm as connection id after hmore
  · cases bs with
    | nil =>
        have hempty := hm [] connection id after hrest.symm
        rwa [List.append_nil, List.append_nil] at hempty
    | cons b bs =>
        obtain ⟨rfl, -⟩ := List.cons.inj hrest
        exact h before connection id bs rfl

/-- Where nothing is completed, nothing is completed wrongly. -/
theorem ClosesOnlyOpen.append_of_not_mem (h : ClosesOnlyOpen past)
    (hm : ∀ connection id, .said connection (.complete id) ∉ more) :
    ClosesOnlyOpen (past ++ more) :=
  h.append fun before connection id _ heq =>
    absurd (heq ▸ List.mem_append_right before List.mem_cons_self) (hm connection id)

theorem IsOpen.mem_subscribed (h : IsOpen connection id past) :
    id ∈ past.filterMap Entry.subscribed? := by
  obtain ⟨earlier, document, since, rfl, -⟩ := h
  exact List.mem_filterMap.2 ⟨_, List.mem_append_right _ List.mem_cons_self, rfl⟩

/-- If no id is subscribed twice, none is completed twice: it would have to be open again
the second time, so it would have to be subscribed after the first. -/
theorem ClosesOnlyOpen.not_mem_before (h : ClosesOnlyOpen past)
    (hn : (past.filterMap Entry.subscribed?).Nodup) {before after : List Entry}
    (heq : past = before ++ .said connection (.complete id) :: after) (c : Nat) :
    .said c (.complete id) ∉ before := by
  intro hmem
  obtain ⟨earlier, document, since, rfl, hs⟩ := h before connection id after heq
  have hearlier : .said c (.complete id) ∈ earlier := by
    rcases List.mem_append.1 hmem with hmem | hmem
    · exact hmem
    · rcases List.mem_cons.1 hmem with hsame | hmem
      · cases hsame
      · have hends := hs _ hmem
        simp [Entry.ends] at hends
  obtain ⟨first, second, rfl⟩ := List.append_of_mem hearlier
  have hagain : past = first ++ .said c (.complete id) :: (second ++
      .said connection (.subscribe id document) :: (since ++
        .said connection (.complete id) :: after)) := by
    rw [heq]
    simp
  have hfirst := (h first c id _ hagain).mem_subscribed
  have hsecond : id ∈ (Entry.said c (.complete id) :: (second ++
      .said connection (.subscribe id document) :: (since ++
        .said connection (.complete id) :: after))).filterMap Entry.subscribed? :=
    List.mem_filterMap.2 ⟨.said connection (.subscribe id document), by simp, rfl⟩
  rw [hagain, List.filterMap_append, List.nodup_append] at hn
  exact hn.2.2 id hfirst id hsecond rfl

theorem ClosesOnlyOpen.not_mem (h : ClosesOnlyOpen past)
    (hn : (past.filterMap Entry.subscribed?).Nodup) {before after : List Entry}
    (heq : past = before ++ .said connection (.complete id) :: after) (c : Nat) :
    .said c (.complete id) ∉ before ++ after := by
  intro hmem
  rcases List.mem_append.1 hmem with hmem | hmem
  · exact h.not_mem_before hn heq c hmem
  · obtain ⟨first, second, rfl⟩ := List.append_of_mem hmem
    have hlater : past = (before ++ .said connection (.complete id) :: first) ++
        .said c (.complete id) :: second := by
      rw [heq]
      simp
    exact h.not_mem_before hn hlater connection (List.mem_append_right _ List.mem_cons_self)

/-! ## What the exits say -/

@[simp] theorem spoken_append (signals rest : List (Signal σ)) :
    spoken (signals ++ rest) = spoken signals ++ spoken rest := List.filterMap_append

@[simp] theorem spoken_subscribed (q : Registration σ) (connection : Nat) :
    spoken (subscribed q connection) = [.said connection (.subscribe q.id q.document)] := rfl

@[simp] theorem spoken_turnedDown (q : Registration σ) : spoken (turnedDown q) = [] := rfl

@[simp] theorem spoken_release (sink : σ) (signals : List (Signal σ)) :
    spoken (.release sink :: signals) = spoken signals := rfl

/-- A server that takes messages is told of a removal over the connection. -/
theorem spoken_completion {ep : Endpoint σ} {l : Link} (hl : ep.link = some l) (id : String)
    (accepting : Bool) :
    spoken (ep.completion id accepting) =
      if accepting then [.said l.connection (.complete id)] else [] := by
  cases accepting <;> simp [completion, hl, spoken, Signal.entry?]

@[simp] theorem spoken_hands (sinks : Option σ) (x : StreamMessage) :
    spoken (sinks.toList.map fun sink => .hand sink x) = [] := by
  cases sinks <;> rfl

@[simp] theorem spoken_lastMessage (ep : Endpoint σ) (id : String) (x : StreamMessage) :
    spoken (ep.lastMessage id x) = [] := by
  unfold lastMessage
  cases Keyed.get? id ep.table <;> rfl

/-- Letting the connection go, if there is one, as the servers see it. -/
def droppedEntry (ep : Endpoint σ) : List Entry := ep.link.toList.map fun l => .dropped l.connection

@[simp] theorem spoken_dropAll (ep : Endpoint σ) (e : ApiError) :
    spoken (ep.dropAll e).2 = ep.droppedEntry := by
  rw [spoken, filterMap_dropAll fun _ => rfl]
  cases hl : ep.link <;> simp [hangUp, droppedEntry, hl, Signal.entry?]

/-- Removing the last registration is the end of the connection; removing another one says
nothing. -/
theorem spoken_remove (ep : Endpoint σ) (id : String) :
    (ep.remove id).1.table = [] ∧ spoken (ep.remove id).2 = ep.droppedEntry ∨
    (ep.remove id).1 = { ep with table := Keyed.erase id ep.table } ∧
      spoken (ep.remove id).2 = [] := by
  rcases ep.remove_cases id with ⟨-, hr⟩ | ⟨-, hr⟩
  · rw [hr]
    refine .inl ⟨rfl, ?_⟩
    simp only [droppedEntry]
    cases ep.link <;> rfl
  · rw [hr]
    exact .inr ⟨rfl, rfl⟩

/-! ## What is in the table is open -/

/-- The client has kept to the rules, and what is in its table is open on the connection
that there is. -/
structure ConversationInvariant (past : List Entry) (ep : Endpoint σ) : Prop where
  closes : ClosesOnlyOpen past
  opens : ∀ entry ∈ ep.table, ∃ l, ep.link = some l ∧ IsOpen l.connection entry.1 past

theorem ConversationInvariant.of_table_eq_nil (hc : ClosesOnlyOpen past) (ht : ep.table = []) :
    ConversationInvariant past ep :=
  ⟨hc, fun entry he => by rw [ht] at he; cases he⟩

/-- What is said without a word on the entries that stay leaves them open. -/
theorem ConversationInvariant.append (hk : ConversationInvariant past ep) (hl : ep'.link = ep.link)
    (hsaid : ∀ connection id, .said connection (.complete id) ∉ more)
    (ht : ∀ entry ∈ ep'.table, entry ∈ ep.table ∧ ∀ e ∈ more, e.ends entry.1 = false) :
    ConversationInvariant (past ++ more) ep' where
  closes := hk.closes.append_of_not_mem hsaid
  opens := by
    intro entry he
    obtain ⟨hold, hends⟩ := ht entry he
    obtain ⟨l, hlink, hopen⟩ := hk.opens entry hold
    exact ⟨l, hl.trans hlink, hopen.append hends⟩

theorem said_not_mem_droppedEntry (ep : Endpoint σ) (connection : Nat) (x : ClientMessage) :
    .said connection x ∉ ep.droppedEntry := by
  unfold droppedEntry
  cases ep.link <;> simp

theorem said_not_mem_remove (ep : Endpoint σ) (id : String) (connection : Nat)
    (x : ClientMessage) : .said connection x ∉ spoken (ep.remove id).2 := by
  rcases ep.spoken_remove id with ⟨-, hsp⟩ | ⟨-, hsp⟩
  · rw [hsp]
    exact said_not_mem_droppedEntry ep connection x
  · rw [hsp]
    exact List.not_mem_nil

/-- The client removes a subscription, with or without a last word on it. -/
theorem ConversationInvariant.remove (hk : ConversationInvariant past ep) (id : String)
    (last : List Entry)
    (hclose : ClosesOnlyOpen (past ++ last))
    (hends : ∀ i, i ≠ id → ∀ e ∈ last, e.ends i = false) :
    ConversationInvariant (past ++ (last ++ spoken (ep.remove id).2)) (ep.remove id).1 := by
  have hcloses : ClosesOnlyOpen (past ++ (last ++ spoken (ep.remove id).2)) := by
    rw [← List.append_assoc]
    exact hclose.append_of_not_mem fun connection i => said_not_mem_remove ep id connection _
  rcases ep.spoken_remove id with ⟨ht, -⟩ | ⟨ht, hsp⟩
  · exact .of_table_eq_nil hcloses ht
  · refine ⟨hcloses, fun entry he => ?_⟩
    rw [ht] at he ⊢
    obtain ⟨hold, hne⟩ := Keyed.mem_erase.1 he
    obtain ⟨l, hlink, hopen⟩ := hk.opens entry hold
    rw [hsp, List.append_nil]
    exact ⟨l, hlink, hopen.append (hends entry.1 hne)⟩

/-- A move that has to wait adds nothing. -/
theorem noted_of_waits (hw : ep.isBusy ≠ m.opens) : ep.noted m = [] := by
  cases m with
  | connected _ _ =>
      have hf : ep.isBusy = false := by simpa [Move.opens] using hw
      simp [noted, hf]
  | route _ _ =>
      have hb : ep.isBusy = true := by simpa [Move.opens] using hw
      simp [noted, hb]
  | _ => rfl

/-- A new subscription is open, and the others stay. -/
theorem ConversationInvariant.subscribe (hk : ConversationInvariant past ep) (q : Registration σ)
    {l : Link}
    (hnew : ep'.link = some l) (hl : ∀ entry ∈ ep.table, ep'.link = ep.link)
    (ht : ep'.table = Keyed.set q.id q.sink ep.table) :
    ConversationInvariant (past ++ spoken (subscribed q l.connection)) ep' := by
  rw [spoken_subscribed]
  refine ⟨hk.closes.append_of_not_mem (by simp), fun entry he => ?_⟩
  rw [ht] at he
  rcases Keyed.mem_of_mem_set he with rfl | hold
  · exact ⟨l, hnew, isOpen_subscribe past l.connection q.id q.document⟩
  · obtain ⟨l', hlink, hopen⟩ := hk.opens entry hold
    refine ⟨l', (hl entry hold).trans hlink, hopen.append fun e he => ?_⟩
    rw [List.mem_singleton.1 he]
    rfl

/-- Every exit keeps to the rules. -/
theorem Change.conversationInvariant (hc : Change ep m r) (hs : Sound ep)
    (hk : ConversationInvariant past ep) :
    ConversationInvariant (past ++ (ep.noted m ++ spoken r.2)) r.1 := by
  have hsame : ∀ {more : List Entry}, (∀ connection id, .said connection (.complete id) ∉ more) →
      (∀ entry ∈ ep.table, ∀ e ∈ more, e.ends entry.1 = false) →
        ConversationInvariant (past ++ more) ep :=
    fun hsaid hends => hk.append rfl hsaid fun entry he => ⟨he, hends entry he⟩
  have hheard : ∀ x : ServerMessage, ClosesOnlyOpen (past ++ [.heard x]) := fun x =>
    hk.closes.append_of_not_mem (by simp)
  have hidle : ∀ {q : Registration σ}, ep.opening = some q → ep.isBusy = true ∧ ep.table = [] :=
    fun ho => ⟨isBusy_of_opening ho, hs.table_eq_nil (hs.link_eq_none ho)⟩
  cases hc with
  | wait hw =>
      rw [noted_of_waits hw]
      exact hsame (by simp [spoken]) (by simp [spoken])
  | @subscribe q l hf hl =>
      exact hk.subscribe q hl (fun _ _ => rfl) rfl
  | turnDown => exact hsame (by simp [noted]) (by simp [noted])
  | dial =>
      exact hk.append rfl (by simp [noted, spoken]) fun entry he => ⟨he, by simp [noted, spoken]⟩
  | @establish q connection ho =>
      obtain ⟨hb, ht⟩ := hidle ho
      have hopened : ConversationInvariant (past ++ [.opened connection]) ep :=
        .of_table_eq_nil (hk.closes.append_of_not_mem (by simp)) ht
      have hsubscribed : ConversationInvariant
          (past ++ [.opened connection] ++ spoken (subscribed q connection))
          { ep.linked connection with table := Keyed.set q.id q.sink ep.table } :=
        hopened.subscribe q (l := ⟨connection, ep.generation + 1⟩) rfl
          (fun entry he => by rw [ht] at he; cases he) rfl
      simpa [noted, hb] using hsubscribed
  | @strand q connection ho =>
      obtain ⟨hb, ht⟩ := hidle ho
      exact .of_table_eq_nil (hk.closes.append_of_not_mem (by simp [noted, hb])) ht
  | giveUp ho =>
      exact .of_table_eq_nil (hk.closes.append_of_not_mem (by simp [noted, spoken, Signal.entry?]))
        (hidle ho).2
  | unknown => exact hsame (by simp [noted, spoken]) (by simp [noted, spoken])
  | @unregister id accepting sink hf hg =>
      obtain ⟨l, hl, hopen⟩ := hk.opens (id, sink) (Keyed.mem_of_get? hg)
      rw [List.cons_append, spoken_release, spoken_append, spoken_completion hl]
      cases accepting with
      | false => exact hk.remove id [] (by simpa using hk.closes) nofun
      | true =>
          -- the one thing that the client completes is open: it is in the table
          refine hk.remove id [.said l.connection (.complete id)]
            (hk.closes.append fun before c i after heq => ?_)
            fun i hi => by simp [Entry.ends, hi.symm]
          cases before with
          | nil =>
              obtain ⟨hsame, -⟩ := List.cons.inj heq
              cases hsame
              rwa [List.append_nil]
          | cons e before => simp at heq
  | stale _ hg => exact hsame (by simp [noted, hg, spoken]) (by simp [noted, hg, spoken])
  | @forward g id payload hf hg =>
      rw [spoken_hands]
      exact hsame (by simp [noted, hf, hg]) (by simp [noted, hf, hg, Entry.ends])
  | @fail g id errors hf hg =>
      rw [spoken_append, spoken_lastMessage, List.nil_append]
      simpa [noted, hf, hg] using hk.remove id [.heard (.error id errors)]
        (hheard (.error id errors)) fun i hi => by simp [Entry.ends, hi.symm]
  | @complete g id hf hg =>
      rw [spoken_append, spoken_lastMessage, List.nil_append]
      simpa [noted, hf, hg] using hk.remove id [.heard (.complete id)]
        (hheard (.complete id)) fun i hi => by simp [Entry.ends, hi.symm]
  | @ignore g x hf hg hidle =>
      have hends : ∀ id, (Entry.heard x).ends id = false := by
        cases x with
        | ack _ | ping _ | pong _ => exact fun _ => rfl
        | _ => cases hidle
      exact hsame (by simp [noted, hf, hg, spoken]) (by simp [noted, hf, hg, spoken, hends])
  | past => exact hsame (by simp [noted, spoken]) (by simp [noted, spoken])
  | lost hf =>
      rw [spoken_dropAll]
      exact .of_table_eq_nil
        (hk.closes.append_of_not_mem fun c id => said_not_mem_droppedEntry ep c _) rfl

/-! ## What is subscribed -/

/-- The ids that are subscribed, in order. -/
def subscribedIds (entries : List Entry) : List String := entries.filterMap Entry.subscribed?

@[simp] theorem subscribedIds_nil : subscribedIds [] = [] := rfl

@[simp] theorem subscribedIds_append (entries more : List Entry) :
    subscribedIds (entries ++ more) = subscribedIds entries ++ subscribedIds more :=
  List.filterMap_append

@[simp] theorem subscribedIds_noted (ep : Endpoint σ) (m : Move σ) :
    subscribedIds (ep.noted m) = [] := by
  cases m with
  | connected | route =>
      simp only [noted]
      split <;> rfl
  | _ => rfl

@[simp] theorem subscribedIds_droppedEntry (ep : Endpoint σ) :
    subscribedIds ep.droppedEntry = [] := by
  unfold droppedEntry
  cases ep.link <;> rfl

@[simp] theorem subscribedIds_remove (ep : Endpoint σ) (id : String) :
    subscribedIds (spoken (ep.remove id).2) = [] := by
  rcases ep.spoken_remove id with ⟨-, hsp⟩ | ⟨-, hsp⟩
  · rw [hsp, subscribedIds_droppedEntry]
  · rw [hsp]
    rfl

/-- What goes through is subscribed, and nothing else is. -/
theorem Change.subscribedIds_eq (hc : Change ep m r) :
    subscribedIds (spoken r.2) = (granted r.2).map (·.1) := by
  cases hc with
  | @unregister id accepting sink =>
      have hcompletion : subscribedIds (spoken (ep.completion id accepting)) = [] := by
        simp only [completion, spoken, subscribedIds]
        cases accepting <;> cases ep.link <;> rfl
      simp [hcompletion]
  | fail | complete | forward => simp
  | lost => simp
  | turnDown | strand => simp
  | _ => rfl

/-! ## The whole run -/

theorem subscribedIds_log (moves : List (Move σ)) (ep : Endpoint σ) :
    subscribedIds (log moves ep) = (granted (run moves ep).2).map (·.1) := by
  induction moves generalizing ep with
  | nil => rfl
  | cons m rest ih => simp [log, run, (ep.step_change m).subscribedIds_eq, ih]

/-- Every run keeps to the rules. -/
theorem ConversationInvariant.run (hk : ConversationInvariant past ep) (hs : Sound ep)
    (moves : List (Move σ)) :
    ConversationInvariant (past ++ log moves ep) (Endpoint.run moves ep).1 := by
  induction moves generalizing past ep with
  | nil => rwa [log, List.append_nil]
  | cons m rest ih =>
      have hc := ep.step_change m
      have hrest := ih (hc.conversationInvariant hs hk) (hc.sound hs)
      rw [List.append_assoc] at hrest
      exact hrest

/-- What is registered alone is open on a connection.  Unregistering it tells a server that
still takes messages, and only then the connection is let go. -/
theorem ConversationInvariant.log_unregister (hk : ConversationInvariant past ep) (hs : Sound ep)
    {sink : σ}
    (ht : ep.table = [(id, sink)]) :
    ∃ connection, IsOpen connection id past ∧
      log [.unregister id true] ep =
        [.said connection (.complete id), .dropped connection] ∧
      log [.unregister id false] ep = [.dropped connection] := by
  obtain ⟨l, hl, hopen⟩ := hk.opens (id, sink) (by rw [ht]; exact List.mem_cons_self)
  refine ⟨l.connection, hopen, ?_⟩
  have hf : ep.isBusy = false := by
    cases hb : ep.isBusy with
    | false => rfl
    | true => rw [hs.opening hb] at hl; cases hl
  have hg : Keyed.get? id ep.table = some sink := by simp [Keyed.get?, ht]
  have hlast : Keyed.erase id ep.table = [] := by simp [Keyed.erase, ht]
  simp [log, noted, step, Move.opens, hf, Endpoint.unregister, hg, hlast, hangUpIfIdle, hangUp,
    hl, spoken_completion hl]
  rfl

/-- The rules, for all connections of an endpoint.  Each subscription that goes through is
subscribed, with an id that no other is subscribed with.  It is completed at most once, and
only where it was subscribed before over the same connection and nothing has ended it since:
no message of the server that was taken, and no end of the connection.  And the last one to
be unregistered is completed before its connection is let go, if the connection still takes
messages; if it takes none, the connection is let go and nothing else is said. -/
theorem keeps_protocol (moves : List (Move σ))
    (fresh : ((registrations moves).map (·.id)).Nodup) :
    let conversation := log moves ({} : Endpoint σ)
    let last := run moves ({} : Endpoint σ)
    subscribedIds conversation = (granted last.2).map (·.1) ∧
    (subscribedIds conversation).Nodup ∧
    (∀ before connection id after,
      conversation = before ++ .said connection (.complete id) :: after →
        IsOpen connection id before ∧ ∀ c, .said c (.complete id) ∉ before ++ after) ∧
    (∀ id sink, last.1.table = [(id, sink)] → ∃ connection,
      IsOpen connection id conversation ∧
      log [.unregister id true] last.1 =
        [.said connection (.complete id), .dropped connection] ∧
      log [.unregister id false] last.1 = [.dropped connection]) := by
  intro conversation last
  have hkept : ConversationInvariant conversation last.1 := by
    have hcreate : ConversationInvariant [] ({} : Endpoint σ) :=
      .of_table_eq_nil (fun before _ _ after h => by cases before <;> cases h) rfl
    exact hcreate.run sound_create moves
  have hids : subscribedIds conversation = (granted last.2).map (·.1) :=
    subscribedIds_log moves {}
  have hnodup : (subscribedIds conversation).Nodup := hids ▸ nodup_granted_ids fresh
  refine ⟨hids, hnodup, fun before connection id after heq => ?_, fun id sink ht => ?_⟩
  · exact ⟨hkept.closes before connection id after heq, hkept.closes.not_mem hnodup heq⟩
  · exact hkept.log_unregister (sound_run moves) ht

/-- Two subscriptions over one connection, which is lost; then two over the next, of which
the server completes one and the client the other. -/
theorem keeps_protocol_reconnected :
    let q : String → Nat → Registration Nat :=
      fun id sink => ⟨id, .ofQuery "subscription { a }", sink⟩
    let moves : List (Move Nat) :=
      [.register (q "s1" 1) true, .connected 0 true, .register (q "s2" 2) true,
        .unregister "s1" true, .lost 1 closedError, .unregister "s2" true,
        .register (q "s3" 3) true, .connected 1 true, .register (q "s4" 4) true,
        .route 2 (.complete "s3"), .unregister "s3" true]
    let last := (run moves {}).1
    ((registrations moves).map (·.id)).Nodup ∧
    (subscribedIds (log moves {})).Nodup ∧ subscribedIds (log moves {}) = ["s1", "s2", "s3", "s4"] ∧
    ∃ connection,
      log [.unregister "s4" true] last =
        [.said connection (.complete "s4"), .dropped connection] ∧
      log [.unregister "s4" false] last = [.dropped connection] := by
  intro q moves last
  have fresh : ((registrations moves).map (·.id)).Nodup := by decide
  obtain ⟨hids, hnodup, -, hlast⟩ := keeps_protocol moves fresh
  obtain ⟨connection, -, hlog⟩ := hlast "s4" 4 (by decide +kernel)
  exact ⟨fresh, hnodup, hids.trans (by decide +kernel), connection, hlog⟩

/-- The writer of a connection has stopped, and the connection is still there: the last
subscription on it is removed, and no word of that is queued before it is let go. -/
theorem drops_without_completing :
    let q : Registration Nat := ⟨"s0", .ofQuery "subscription { a }", 1⟩
    let last := (run [.register q true, .connected 0 true] {}).1
    last.table.map (·.1) = ["s0"] ∧
    log [.unregister "s0" false] last = [.dropped 0] ∧
    ∀ connection, .said connection (.complete "s0") ∉ log [.unregister "s0" false] last := by
  intro q last
  have hlog : log [.unregister "s0" false] last = [.dropped 0] := rfl
  exact ⟨rfl, hlog, fun connection h => by simp [hlog] at h⟩

end Endpoint
end Switchboard
