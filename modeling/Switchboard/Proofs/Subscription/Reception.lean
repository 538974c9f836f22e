import Switchboard.Proofs.Subscription.Grant
import Switchboard.Proofs.Subscription.Status

/-!
# Switchboard.Proofs.Subscription.Reception

What the sink of a registration hears.  Each entry of the table has a share in a move,
which depends on its id and on the generation of the connection alone; what is handed out
are the shares, and nothing passes from one entry to another.

* `Move.brings` — the share of a registration in a move;
* `heard`, `stays` — what comes of all its shares in a row;
* `Change.hands_eq`, `Change.mem_table_iff` — a move hands each entry its share, and removes it if
  the share is final;
* `hears_own_connection` — the whole run, as one registration sees it.
-/

namespace Switchboard

open GraphQL (ServerMessage FieldError)

/-- What a message of the server is to the sink of a subscription. -/
def GraphQL.ServerMessage.forSink? (id : String) : ServerMessage → Option StreamMessage
  | .next i payload => if i = id then some (.next payload) else none
  | .error i errors => if i = id then some (.errors (errors.map FieldError.ofAny)) else none
  | .complete i => if i = id then some .complete else none
  | .ack _ | .ping _ | .pong _ => none

/-- What a signal hands to a sink. -/
def Signal.hand? : Signal σ → Option (σ × StreamMessage)
  | .hand sink x => some (sink, x)
  | _ => none

namespace Endpoint

variable {σ : Type} {ep : Endpoint σ} {m : Move σ} {r : Endpoint σ × List (Signal σ)}

/-! ## Shares -/

/-- The share of a registration, by its id and the generation of its connection, in a
move: a message, or the end of the registration without one.  Most moves are none of its
business. -/
def Move.brings (id : String) (generation : Nat) : Move σ → Option (Option StreamMessage)
  | .route g x => if g = generation then (x.forSink? id).map some else none
  | .lost g e => if g = generation then some (some (.lost e)) else none
  | .unregister i _ => if i = id then some none else none
  | .register .. | .connected .. | .refused .. => none

/-- What a sink hears of shares in a row: the messages, until one is final or the
registration ends without one. -/
def heard : List (Option StreamMessage) → List StreamMessage
  | [] => []
  | none :: _ => []
  | some x :: rest => if x.isFinal then [x] else x :: heard rest

/-- Whether a registration is still there after a share. -/
def outlasts : Option StreamMessage → Bool
  | none => false
  | some x => !x.isFinal

/-- Whether a registration is still there after shares in a row. -/
def stays (shares : List (Option StreamMessage)) : Bool := shares.all outlasts

/-- What is handed out, and to which sink. -/
def hands (signals : List (Signal σ)) : List (σ × StreamMessage) := signals.filterMap Signal.hand?

/-- What is handed to one sink. -/
def handed [DecidableEq σ] (sink : σ) (signals : List (Signal σ)) : List StreamMessage :=
  ((hands signals).filter (·.1 = sink)).map (·.2)

/-- Nothing that is heard follows a message that is final. -/
theorem eq_nil_of_isFinal {shares : List (Option StreamMessage)} {first rest : List StreamMessage}
    {x : StreamMessage} (h : heard shares = first ++ x :: rest) (hx : x.isFinal = true) :
    rest = [] := by
  induction shares generalizing first with
  | nil => simp [heard] at h
  | cons share more ih =>
      cases share with
      | none => simp [heard] at h
      | some y =>
          by_cases hy : y.isFinal = true
          · simp only [heard, hy, if_true] at h
            cases first with
            | nil => exact (List.cons.inj h).2.symm
            | cons z zs => simp at h
          · simp only [heard, hy] at h
            cases first with
            | nil =>
                have hxy : y = x := (List.cons.inj h).1
                exact absurd (hxy ▸ hx) hy
            | cons z zs => exact ih (List.cons.inj h).2

/-! ## What the exits hand out -/

@[simp] theorem hands_append (signals more : List (Signal σ)) :
    hands (signals ++ more) = hands signals ++ hands more := List.filterMap_append

@[simp] theorem hands_remove (ep : Endpoint σ) (id : String) : hands (ep.remove id).2 = [] := by
  rcases ep.remove_cases id with ⟨-, hr⟩ | ⟨-, hr⟩
  · rw [hr]
    cases ep.link <;> rfl
  · rw [hr]
    rfl

@[simp] theorem hands_lastMessage (ep : Endpoint σ) (id : String) (x : StreamMessage) :
    hands (ep.lastMessage id x) = (Keyed.get? id ep.table).toList.map fun sink => (sink, x) := by
  unfold lastMessage
  cases Keyed.get? id ep.table <;> rfl

@[simp] theorem hands_dropAll (ep : Endpoint σ) (e : ApiError) :
    hands (ep.dropAll e).2 = ep.table.map fun entry => (entry.2, .lost e) := by
  rw [hands, filterMap_dropAll fun _ => rfl]
  cases hl : ep.link <;> simp [hangUp, hl, Signal.hand?]

/-! ## Endpoints of a run -/

/-- What holds of every endpoint that a run leads to. -/
structure Regular (ep : Endpoint σ) : Prop where
  sound : Sound ep
  coherent : Coherent ep
  ordered : ep.table.Ordered

theorem Change.regular (hc : Change ep m r) (h : Regular ep) : Regular r.1 :=
  ⟨hc.sound h.sound, hc.coherent h.sound h.coherent, hc.ordered h.ordered⟩

theorem regular_run (moves : List (Move σ)) : Regular (run moves ({} : Endpoint σ)).1 :=
  ⟨sound_run moves, coherent_run moves, ordered_run moves⟩

/-- What is current comes over the last connection. -/
theorem Regular.eq_generation (h : Regular ep) {g : Nat} (hg : ep.isCurrent g = true) :
    g = ep.generation := by
  cases hl : ep.link with
  | none => simp [isCurrent, hl] at hg
  | some l =>
      have hlast := h.coherent.generation l hl
      simp only [isCurrent, hl, Option.map_some, beq_iff_eq, Option.some.injEq] at hg
      exact hg.symm.trans hlast

/-- What is not current comes over an earlier connection, as far as something is
registered. -/
theorem Regular.stale (h : Regular ep) {g : Nat} (hg : ep.isCurrent g = false) :
    ep.table = [] ∨ g ≠ ep.generation := by
  cases hl : ep.link with
  | none => exact .inl (h.sound.table_eq_nil hl)
  | some l =>
      have hlast := h.coherent.generation l hl
      refine .inr fun heq => ?_
      simp [isCurrent, hl, hlast, heq] at hg

/-- A move that has to wait is the business of no registration. -/
theorem Regular.waits (h : Regular ep) (hw : ep.isBusy ≠ m.opens) :
    ep.table = [] ∨ ∀ id g, m.brings id g = none := by
  cases hb : ep.isBusy with
  | true => exact .inl (h.sound.table_eq_nil (h.sound.opening hb))
  | false =>
      refine .inr fun id g => ?_
      rw [hb] at hw
      cases m with
      | connected _ _ | refused _ => rfl
      | _ => exact absurd rfl hw

theorem forSink?_of_subscription? {x : ServerMessage} (hx : x.subscription? = none) (id : String) :
    x.forSink? id = none := by
  cases x with
  | next _ _ | error _ _ | complete _ => cases hx
  | ack _ | ping _ | pong _ => rfl

/-! ## Isolation -/

/-- What an entry is handed in a move. -/
def share (m : Move σ) (generation : Nat) (entry : String × σ) : Option (σ × StreamMessage) :=
  (m.brings entry.1 generation).join.map fun x => (entry.2, x)

theorem filterMap_share_of_none {g : Nat} (h : ∀ id, (m.brings id g).join = none)
    (table : Keyed σ) : table.filterMap (share m g) = [] := by
  rw [List.filterMap_eq_nil_iff]
  intro entry _
  simp [share, h]

/-- A message for one subscription is the share of its entry. -/
theorem filterMap_share_route {g : Nat} {id : String} {msg : ServerMessage} {x : StreamMessage}
    (hx : ∀ i, msg.forSink? i = if id = i then some x else none) {table : Keyed σ}
    (ho : table.Ordered) :
    table.filterMap (share (.route g msg) g) =
      (Keyed.get? id table).toList.map fun sink => (sink, x) := by
  rw [← ho.filterMap_eq]
  congr 1
  funext entry
  by_cases hid : entry.1 = id
  · simp [share, Move.brings, hx, hid]
  · have hne : ¬ id = entry.1 := fun heq => hid heq.symm
    simp [share, Move.brings, hx, hid, hne]

/-- A move hands each entry of the table its share, and nothing else. -/
theorem Change.hands_eq (hc : Change ep m r) (h : Regular ep) :
    hands r.2 = ep.table.filterMap (share m ep.generation) := by
  have hsilent : ∀ i accepting id,
      (Move.brings (σ := σ) id ep.generation (.unregister i accepting)).join = none := by
    intro i accepting id
    by_cases hid : i = id <;> simp [Move.brings, hid]
  cases hc with
  | wait hw =>
      rcases h.waits hw with ht | hnone
      · rw [ht]; rfl
      · rw [filterMap_share_of_none fun id => by rw [hnone]; rfl]; rfl
  | subscribe | turnDown | dial | establish | strand | giveUp =>
      rw [filterMap_share_of_none fun _ => rfl]; rfl
  | unknown => rw [filterMap_share_of_none (hsilent _ _)]; rfl
  | @unregister id accepting sink =>
      have hcompletion : hands (ep.completion id accepting) = [] :=
        filterMap_completion (fun _ _ => rfl) ..
      rw [filterMap_share_of_none (hsilent _ _), hands_append, hands_remove, List.append_nil]
      exact hcompletion
  | stale _ hg | past _ hg =>
      rcases h.stale hg with ht | hne
      · rw [ht]; rfl
      · rw [filterMap_share_of_none fun id => by simp [Move.brings, hne]]; rfl
  | forward _ hg =>
      rw [← h.eq_generation hg, filterMap_share_route (fun _ => rfl) h.ordered]
      cases Keyed.get? _ ep.table <;> rfl
  | fail _ hg | complete _ hg =>
      rw [← h.eq_generation hg, filterMap_share_route (fun _ => rfl) h.ordered, hands_append,
        hands_lastMessage, hands_remove, List.append_nil]
  | ignore _ hg hidle =>
      rw [filterMap_share_of_none fun id => by
        simp [Move.brings, forSink?_of_subscription? hidle]]
      rfl
  | lost _ hg =>
      have hall : ∀ g e, share (σ := σ) (.lost g e) g = some ∘ fun entry => (entry.2, .lost e) := by
        intro g e
        funext entry
        simp [share, Move.brings]
      rw [← h.eq_generation hg, hands_dropAll, hall, List.filterMap_eq_map]

/-- Whether the entry of an id is still there after a move. -/
def remains (m : Move σ) (generation : Nat) (id : String) : Bool :=
  (m.brings id generation).all outlasts

/-- A move that ends the registration of one id leaves those of all others. -/
theorem remains_iff_ne {g : Nat} {id : String} {x : Option StreamMessage}
    (hm : ∀ i, m.brings i g = if id = i then some x else none) (hx : outlasts x = false)
    (i : String) : remains m g i = true ↔ i ≠ id := by
  by_cases hid : id = i
  · simp [remains, hm, hid, hx]
  · have hne : i ≠ id := fun heq => hid heq.symm
    simp [remains, hm, hid, hne]

/-- A move removes the entries whose share is the end, and no others. -/
theorem Change.mem_table_iff (hc : Change ep m r) (h : Regular ep) {entry : String × σ}
    (hgrant : ∀ g ∈ granted r.2, g.1 ≠ entry.1) :
    entry ∈ r.1.table ↔ entry ∈ ep.table ∧ remains m ep.generation entry.1 = true := by
  have hroute : ∀ {g : Nat} {id : String} {msg : ServerMessage} {x : StreamMessage},
      (∀ i, msg.forSink? i = if id = i then some x else none) →
      ∀ i, (Move.route (σ := σ) g msg).brings i g = if id = i then some (some x) else none := by
    intro g id msg x hx i
    by_cases hid : id = i <;> simp [Move.brings, hx, hid]
  cases hc with
  | wait hw =>
      rcases h.waits hw with ht | hnone
      · simp [ht]
      · simp [remains, hnone]
  | subscribe | establish =>
      have hne : entry.1 ≠ _ := (hgrant _ List.mem_cons_self).symm
      simp [remains, Move.brings, Keyed.mem_set_of_ne hne]
  | turnDown | dial | strand | giveUp => simp [remains, Move.brings, linked]
  | unknown _ hg =>
      rw [remains_iff_ne (fun _ => rfl) rfl]
      exact ⟨fun he => ⟨he, Keyed.get?_eq_none_iff.1 hg entry he⟩, And.left⟩
  | unregister =>
      rw [table_remove, Keyed.mem_erase, remains_iff_ne (fun _ => rfl) rfl]
  | stale _ hg | past _ hg =>
      rcases h.stale hg with ht | hne
      · simp [ht]
      · simp [remains, Move.brings, hne]
  | @forward g id payload _ hg =>
      rw [← h.eq_generation hg, remains, hroute (fun _ => rfl)]
      by_cases hid : id = entry.1 <;> simp [hid, outlasts, StreamMessage.isFinal]
  | fail _ hg | complete _ hg =>
      rw [← h.eq_generation hg, table_remove, Keyed.mem_erase,
        remains_iff_ne (hroute fun _ => rfl) rfl]
  | ignore _ hg hidle => simp [remains, Move.brings, forSink?_of_subscription? hidle]
  | lost _ hg =>
      rw [← h.eq_generation hg]
      simp [remains, Move.brings, outlasts, StreamMessage.isFinal, dropAll]

/-- As long as something is registered, no other connection is opened. -/
theorem Change.generation_eq (hc : Change ep m r) (h : Regular ep) (hne : ep.table ≠ []) :
    r.1.generation = ep.generation := by
  cases hc with
  | establish ho | strand ho =>
      exact absurd (h.sound.table_eq_nil (h.sound.link_eq_none ho)) hne
  | unregister | fail | complete => exact ep.generation_remove _
  | _ => rfl

/-! ## One registration -/

variable {id : String} {sink : σ}

/-- What a sink is handed in a move are the shares of its entries. -/
theorem Change.handed_eq [DecidableEq σ] (hc : Change ep m r) (h : Regular ep) (sink : σ) :
    handed sink r.2 =
      ((ep.table.filter (·.2 = sink)).filterMap (share m ep.generation)).map (·.2) := by
  have hfilter : ∀ table : Keyed σ,
      (table.filterMap (share m ep.generation)).filter (·.1 = sink) =
        (table.filter (·.2 = sink)).filterMap (share m ep.generation) := by
    intro table
    induction table with
    | nil => rfl
    | cons entry rest ih =>
        by_cases hs : entry.2 = sink <;>
          cases hx : (m.brings entry.1 ep.generation).join <;>
          simp [share, hs, hx] <;> exact ih
  rw [handed, hc.hands_eq h, hfilter]

/-- A registration that is not in the table, and whose sink nobody else has. -/
def Absent (id : String) (sink : σ) (ep : Endpoint σ) : Prop :=
  ∀ entry ∈ ep.table, entry.1 ≠ id ∧ entry.2 ≠ sink

/-- A registration that is in the table, and whose sink nobody else has. -/
structure Present (id : String) (sink : σ) (ep : Endpoint σ) : Prop where
  entry : (id, sink) ∈ ep.table
  own : ∀ entry ∈ ep.table, entry.2 = sink → entry.1 = id

/-- Whether a registration is new to what is granted. -/
def Unrelated (id : String) (sink : σ) (signals : List (Signal σ)) : Prop :=
  ∀ entry ∈ granted signals, entry.1 ≠ id ∧ entry.2 ≠ sink

theorem Unrelated.append {signals more : List (Signal σ)}
    (h : Unrelated id sink (signals ++ more)) :
    Unrelated id sink signals ∧ Unrelated id sink more := by
  constructor
  · intro entry he
    exact h entry (by rw [granted_append]; exact List.mem_append_left _ he)
  · intro entry he
    exact h entry (by rw [granted_append]; exact List.mem_append_right _ he)

theorem Change.absent (hc : Change ep m r) (ha : Absent id sink ep)
    (hu : Unrelated id sink r.2) : Absent id sink r.1 := by
  intro entry he
  rcases hc.mem_table he with hold | hnew
  · exact ha entry hold
  · exact hu entry hnew

/-- A sink that is in no entry is handed nothing. -/
theorem Change.handed_of_absent [DecidableEq σ] (hc : Change ep m r) (h : Regular ep)
    (ha : Absent id sink ep) : handed sink r.2 = [] := by
  have hnone : ep.table.filter (·.2 = sink) = [] := by
    rw [List.filter_eq_nil_iff]
    intro entry he
    simpa using (ha entry he).2
  rw [hc.handed_eq h, hnone]
  rfl

/-- The sink of a registration is handed its share. -/
theorem Change.handed_of_present [DecidableEq σ] (hc : Change ep m r) (h : Regular ep)
    (hp : Present id sink ep) :
    handed sink r.2 = (m.brings id ep.generation).join.toList := by
  have hget : Keyed.get? id ep.table = some sink := h.ordered.mem_iff.1 hp.entry
  have hown : ep.table.filter (·.2 = sink) = ep.table.filter (·.1 = id) := by
    refine List.filter_congr fun entry he => decide_eq_decide.2 ⟨hp.own entry he, fun hid => ?_⟩
    have hother : Keyed.get? id ep.table = some entry.2 := h.ordered.mem_iff.1 (hid ▸ he)
    exact Option.some.inj (hother.symm.trans hget)
  rw [hc.handed_eq h, hown, h.ordered.filter_eq, hget]
  cases hx : (m.brings id ep.generation).join <;> simp [share, hx]

/-- A registration stays as long as its share is not the end. -/
theorem Change.present (hc : Change ep m r) (h : Regular ep) (hp : Present id sink ep)
    (hu : Unrelated id sink r.2) (hm : remains m ep.generation id = true) :
    Present id sink r.1 where
  entry := (hc.mem_table_iff h fun entry he => (hu entry he).1).2 ⟨hp.entry, hm⟩
  own := by
    intro entry he hs
    rcases hc.mem_table he with hold | hnew
    · exact hp.own entry hold hs
    · exact absurd hs (hu entry hnew).2

theorem Change.absent_of_present (hc : Change ep m r) (h : Regular ep)
    (hp : Present id sink ep) (hu : Unrelated id sink r.2)
    (hm : remains m ep.generation id = false) : Absent id sink r.1 := by
  intro entry he
  rcases hc.mem_table he with hold | hnew
  · have hid : entry.1 ≠ id := by
      intro heq
      have hstays := ((hc.mem_table_iff h fun g hg => heq ▸ (hu g hg).1).1 he).2
      rw [heq, hm] at hstays
      cases hstays
    exact ⟨hid, fun hs => hid (hp.own entry hold hs)⟩
  · exact hu entry hnew

/-! ## Runs -/

@[simp] theorem handed_append [DecidableEq σ] (sink : σ) (signals more : List (Signal σ)) :
    handed sink (signals ++ more) = handed sink signals ++ handed sink more := by
  simp [handed]

theorem Absent.run [DecidableEq σ] (ha : Absent id sink ep) (h : Regular ep)
    {moves : List (Move σ)}
    (hu : Unrelated id sink (run moves ep).2) :
    handed sink (run moves ep).2 = [] ∧ Absent id sink (run moves ep).1 := by
  induction moves generalizing ep with
  | nil => exact ⟨rfl, ha⟩
  | cons m rest ih =>
      have hc := ep.step_change m
      obtain ⟨hfirst, hlater⟩ := hu.append
      obtain ⟨hsilent, habsent⟩ := ih (hc.absent ha hfirst) (hc.regular h) hlater
      refine ⟨?_, habsent⟩
      simp only [Endpoint.run, handed_append, hc.handed_of_absent h ha, hsilent, List.nil_append]

/-- From when it is in the table, a registration hears its shares. -/
theorem Present.run [DecidableEq σ] (hp : Present id sink ep) (h : Regular ep)
    {moves : List (Move σ)}
    (hu : Unrelated id sink (run moves ep).2) :
    handed sink (run moves ep).2 = heard (moves.filterMap (Move.brings id ep.generation)) ∧
      (if stays (moves.filterMap (Move.brings id ep.generation)) then
        Present id sink (run moves ep).1 else Absent id sink (run moves ep).1) := by
  induction moves generalizing ep with
  | nil => exact ⟨rfl, hp⟩
  | cons m rest ih =>
      have hc := ep.step_change m
      obtain ⟨hfirst, hlater⟩ := hu.append
      have hne : ep.table ≠ [] := List.ne_nil_of_mem hp.entry
      have hgeneration := hc.generation_eq h hne
      have hnow := hc.handed_of_present h hp
      have hsplit : handed sink (Endpoint.run (m :: rest) ep).2 =
          (m.brings id ep.generation).join.toList ++
            handed sink (Endpoint.run rest (ep.step m).1).2 := by
        simp only [Endpoint.run, handed_append, hnow]
      -- a share that ends the registration ends what it hears
      have hend : remains m ep.generation id = false →
          handed sink (Endpoint.run rest (ep.step m).1).2 = [] ∧
            Absent id sink (Endpoint.run (m :: rest) ep).1 := fun hm =>
        (hc.absent_of_present h hp hfirst hm).run (hc.regular h) hlater
      have hon : remains m ep.generation id = true → _ := fun hm =>
        hgeneration ▸ ih (hc.present h hp hfirst hm) (hc.regular h) hlater
      cases hm : m.brings id ep.generation with
      | none =>
          obtain ⟨hheard, hstay⟩ := hon (by simp [remains, hm])
          rw [hsplit, hm, List.filterMap_cons_none hm]
          exact ⟨hheard, hstay⟩
      | some share =>
          rw [hsplit, hm, List.filterMap_cons_some hm]
          by_cases hx : outlasts share = true
          · obtain ⟨hheard, hstay⟩ := hon (by simp [remains, hm, hx])
            cases share with
            | none => cases hx
            | some x =>
                have hfinal : x.isFinal = false := by simpa [outlasts] using hx
                have hstays : ∀ more, stays (some x :: more) = stays more := by simp [stays, hx]
                rw [hheard, hstays]
                exact ⟨by simp [heard, hfinal], hstay⟩
          · obtain ⟨hsilent, habsent⟩ := hend (by simp [remains, hm, hx])
            have hstays : ∀ more, stays (share :: more) = false := by simp [stays, hx]
            rw [hsilent, hstays]
            refine ⟨?_, habsent⟩
            cases share with
            | none => rfl
            | some x =>
                have hfinal : x.isFinal = true := by simpa [outlasts] using hx
                simp [heard, hfinal]

/-! ## The whole run -/

theorem ne_of_nodup_map_append {α β : Type} {f : α → β} {xs ys : List α}
    (h : ((xs ++ ys).map f).Nodup) {x y : α} (hx : x ∈ xs) (hy : y ∈ ys) : f x ≠ f y := by
  rw [List.map_append, List.nodup_append] at h
  exact h.2.2 _ (List.mem_map_of_mem hx) _ (List.mem_map_of_mem hy)

/-- In a fresh run, a registration that is granted at one move is granted at no other. -/
theorem Fresh.unrelated {before after : List (Move σ)} (fresh : Fresh (before ++ m :: after))
    (hg : (id, sink) ∈ granted ((run before ({} : Endpoint σ)).1.step m).2) :
    Unrelated id sink (run before ({} : Endpoint σ)).2 ∧
      Unrelated id sink (run after ((run before ({} : Endpoint σ)).1.step m).1).2 := by
  have hids := nodup_granted_ids fresh.ids
  have hsinks := nodup_granted_sinks fresh.sinks
  rw [run_append] at hids hsinks
  simp only [run, granted_append] at hids hsinks
  constructor
  · intro entry he
    have hlater := List.mem_append_left
      (granted (run after ((run before ({} : Endpoint σ)).1.step m).1).2) hg
    exact ⟨ne_of_nodup_map_append hids he hlater, ne_of_nodup_map_append hsinks he hlater⟩
  · intro entry he
    rw [← List.append_assoc] at hids hsinks
    have hearlier := List.mem_append_right (granted (run before {}).2) hg
    exact ⟨(ne_of_nodup_map_append hids hearlier he).symm,
      (ne_of_nodup_map_append hsinks hearlier he).symm⟩

/-- A registration that is granted is there from then on. -/
theorem Change.present_of_granted (hc : Change ep m r) (h : Regular r.1)
    (ha : Absent id sink ep) (hg : (id, sink) ∈ granted r.2) :
    Present id sink r.1 ∧ hands r.2 = [] ∧ r.1.isCurrent r.1.generation = true := by
  obtain ⟨q, l, hentry, hsignals, hl, htable, -⟩ := hc.of_granted hg
  have hid : q.id = id := (congrArg Prod.fst hentry).symm
  have hsink : q.sink = sink := (congrArg Prod.snd hentry).symm
  refine ⟨⟨?_, ?_⟩, by rw [hsignals]; rfl, by simp [isCurrent, hl, h.coherent.generation l hl]⟩
  · rw [h.ordered.mem_iff, htable, hid, hsink]
    exact Keyed.get?_set_self id sink ep.table
  · intro entry he hs
    rcases hc.mem_table he with hold | hnew
    · exact absurd hs (ha entry hold).2
    · rw [hsignals, granted_subscribed, List.mem_singleton] at hnew
      rw [hnew]
      exact hid

/-- The loss of the current connection cuts everything off. -/
theorem Regular.step_lost (h : Regular ep) {g : Nat} (hg : ep.isCurrent g = true) (e : ApiError) :
    ep.step (.lost g e) = ep.dropAll e := by
  have hf : ep.isBusy = false := by
    cases hb : ep.isBusy with
    | false => rfl
    | true => simp [isCurrent, h.sound.opening hb] at hg
  simp [step, Move.opens, hf, Endpoint.lost, hg]
  rfl

/-- What the sink of a registration hears of a whole run.  It is a function of what its
own connection carries for its own id from when the registration is granted, and of its
removal: each result in its turn, then at most one message that is final, and nothing
after that.  Whether the registration is still there is a function of the same.  And when
the connection is lost, each sink that is then registered is handed the loss, once. -/
theorem hears_own_connection [DecidableEq σ] (before : List (Move σ)) (m : Move σ)
    (after : List (Move σ)) (fresh : Fresh (before ++ m :: after)) (id : String) (sink : σ)
    (registered : .answer sink (.ok id) ∈ ((run before ({} : Endpoint σ)).1.step m).2) :
    let granting := ((run before ({} : Endpoint σ)).1.step m).1
    let shares := after.filterMap (Move.brings id granting.generation)
    let last := run (before ++ m :: after) ({} : Endpoint σ)
    granting.isCurrent granting.generation = true ∧
    handed sink last.2 = heard shares ∧
    Keyed.get? id last.1.table = (if stays shares then some sink else none) ∧
    (∀ first x rest, heard shares = first ++ x :: rest → x.isFinal = true → rest = []) ∧
    (∀ g e, last.1.isCurrent g = true →
      hands (last.1.step (.lost g e)).2 = last.1.table.map (fun entry => (entry.2, .lost e)) ∧
      (last.1.step (.lost g e)).1.table = []) := by
  intro granting shares last
  have hg : (id, sink) ∈ granted ((run before ({} : Endpoint σ)).1.step m).2 :=
    mem_granted.2 registered
  obtain ⟨hbefore, hafter⟩ := fresh.unrelated hg
  have hregular := regular_run (σ := σ) before
  have hc := (run before ({} : Endpoint σ)).1.step_change m
  have hnone : Absent id sink ({} : Endpoint σ) := fun _ he => by cases he
  obtain ⟨hsilent, habsent⟩ := hnone.run (regular_run []) hbefore
  obtain ⟨hpresent, hhands, hcurrent⟩ :=
    hc.present_of_granted (hc.regular hregular) habsent hg
  obtain ⟨hheard, hstay⟩ := hpresent.run (hc.regular hregular) hafter
  have hlast : last = ((run after granting).1, (run before {}).2 ++
      (((run before ({} : Endpoint σ)).1.step m).2 ++ (run after granting).2)) := by
    simp only [last, run_append, run]
    rfl
  have hlastRegular : Regular last.1 := regular_run _
  refine ⟨hcurrent, ?_, ?_, fun _ _ _ => eq_nil_of_isFinal, fun g e hcur => ?_⟩
  · have hnow : handed sink ((run before ({} : Endpoint σ)).1.step m).2 = [] := by
      rw [handed, hhands]
      rfl
    rw [hlast]
    simp only [handed_append, hsilent, hnow, List.nil_append]
    exact hheard
  · have hstate : last.1 = (run after granting).1 := by rw [hlast]
    rw [← hstate] at hstay
    by_cases hs : stays shares = true
    · rw [if_pos hs] at hstay ⊢
      exact hlastRegular.ordered.mem_iff.1 hstay.entry
    · rw [if_neg hs] at hstay ⊢
      exact Keyed.get?_eq_none_iff.2 fun entry he => (hstay entry he).1
  · rw [hlastRegular.step_lost hcur]
    exact ⟨hands_dropAll last.1 e, rfl⟩

/-- The first connection is lost and another one is opened for a second subscription, which
hears only of that one, and nothing of a third. -/
theorem hears_own_connection_reconnected :
    let q : String → Nat → Registration Nat :=
      fun id sink => ⟨id, .ofQuery "subscription { a }", sink⟩
    let before : List (Move Nat) :=
      [.register (q "s1" 1) true, .connected 0 true, .lost 1 closedError, .register (q "s2" 2) true]
    let after : List (Move Nat) :=
      [.route 1 (.next "s2" .null), .register (q "s3" 3) true, .route 2 (.next "s2" (.bool true)),
        .route 2 (.complete "s3"), .unregister "s1" true, .lost 1 closedError,
        .route 2 (.complete "s2"), .route 2 (.next "s2" .null)]
    Fresh (before ++ .connected 1 true :: after) ∧
    .answer 2 (.ok "s2") ∈ ((run before {}).1.step (.connected 1 true)).2 ∧
    handed 2 (run (before ++ .connected 1 true :: after) {}).2 =
      [.next (.bool true), .complete] := by
  intro q before after
  have fresh : Fresh (before ++ .connected 1 true :: after) := ⟨by decide, by decide⟩
  have registered : .answer 2 (.ok "s2") ∈ ((run before {}).1.step (.connected 1 true)).2 :=
    List.mem_cons_of_mem _ List.mem_cons_self
  exact ⟨fresh, registered,
    (hears_own_connection before (.connected 1 true) after fresh "s2" 2 registered).2.1⟩

end Endpoint
end Switchboard
