import Mathlib.Data.List.TakeWhile
import Switchboard.Session.Rehearsal

/-!
# Switchboard.Proofs.Session.Opening

How the opening of a session is decided.  Up to the first arrival that decides it there are only
control frames, which are passed over, and pings, which are answered.

* `Arrival.ping?`, `Arrival.isIdle`, `Acknowledges`, `Refuses` — arrivals by what they are, not by
  what the client does about them;
* `verdict_of_ping`, `verdict_of_control`, `verdict_of_acknowledges`, `verdict_of_refuses` — what
  each of them means for an opening; `Arrival.cases` says that there are no others;
* `awaitAck_eq` — the pings before the first arrival that is not idle are answered in order;
* `outcome_eq_none`, `outcome_eq_ok`, `outcome_eq_error` — and that arrival decides;
* `Rehearsal.foldl_arrive` — in a session from its beginning arrivals mean the same;
* `opening_decided_by_first` — all of it together.
-/

namespace Switchboard.Session

open GraphQL (ClientMessage ServerMessage ConnectionError)

/-! ## Arrivals -/

/-- The payload of the ping that an arrival brings, where it brings one as a message. -/
def Arrival.ping? : Arrival → Option (Option Json)
  | frame f => match f.message? with
    | some (.ok (.ping payload)) => some payload
    | _ => none
  | _ => none

/-- Control frames that leave the socket as it is. -/
def Arrival.isControl : Arrival → Bool
  | frame .ping | frame .pong => true
  | _ => false

/-- Arrivals that decide nothing. -/
def Arrival.isIdle (a : Arrival) : Bool := a.isControl || a.ping?.isSome

/-- An arrival that brings the acknowledgement. -/
def Acknowledges (a : Arrival) : Prop :=
  ∃ f payload, a = .frame f ∧ f.message? = some (.ok (.ack payload))

/-- An arrival that an opening fails on, with the error for it. -/
inductive Refuses : Arrival → ConnectionError → Prop where
  | closed (reason : Option String) :
      Refuses (.frame (.close reason))
        (.handshake ("closed before connection_ack: " ++ reason.getD ""))
  | unreadable {f : Frame} {e : Json.TextFault} (h : f.message? = some (.error e)) :
      Refuses (.frame f) (.handshake "")
  | unexpected {f : Frame} {m : ServerMessage} (h : f.message? = some (.ok m))
      (hping : ∀ payload, m ≠ .ping payload) (hack : ∀ payload, m ≠ .ack payload) :
      Refuses (.frame f) (.handshake ("unexpected message before connection_ack: " ++ m.shown))
  | broken (text : String) : Refuses (.broken text) (.webSocket text)
  | ended : Refuses .ended .closed

variable {a : Arrival} {f : Frame}

theorem ping?_of_control (h : a.isControl = true) : a.ping? = none := by
  unfold Arrival.isControl at h
  split at h
  · rfl
  · rfl
  · cases h

/-- A frame that holds a message is no control frame. -/
theorem ne_close_of_message {r : Except Json.TextFault ServerMessage} (h : f.message? = some r)
    (reason : Option String) : f ≠ .close reason := by
  rintro rfl
  cases h

/-- What a frame with a message means is what the message means. -/
theorem verdict_of_message {r : Except Json.TextFault ServerMessage} (h : f.message? = some r) :
    (Arrival.frame f).verdict = match r with
      | .ok m => ServerMessage.verdict m
      | .error _ => .fail (.handshake "") := by
  have hclose := ne_close_of_message h
  cases f with
  | close reason => exact absurd rfl (hclose reason)
  | text | binary | ping | pong => cases r <;> simp [Arrival.verdict, h]

/-! ## Verdicts -/

theorem verdict_of_control (h : a.isControl = true) : a.verdict = .ignore := by
  unfold Arrival.isControl at h
  split at h
  · rfl
  · rfl
  · cases h

theorem verdict_of_ping {payload : Option Json} (h : a.ping? = some payload) :
    a.verdict = .reply (.pong payload) := by
  unfold Arrival.ping? at h
  split at h
  · split at h
    · next hm =>
      cases h
      exact verdict_of_message hm
    · cases h
  · cases h

theorem verdict_of_acknowledges (h : Acknowledges a) : a.verdict = .accept := by
  obtain ⟨f, payload, rfl, hm⟩ := h
  exact verdict_of_message hm

theorem verdict_of_refuses {e : ConnectionError} (h : Refuses a e) : a.verdict = .fail e := by
  cases h with
  | closed reason => rfl
  | unreadable h => exact verdict_of_message h
  | @unexpected f m h hping hack =>
      have hverdict := verdict_of_message h
      cases m with
      | ack payload => exact absurd rfl (hack payload)
      | ping payload => exact absurd rfl (hping payload)
      | next | error | complete | pong => exact hverdict
  | broken text => rfl
  | ended => rfl

/-- Every arrival is one of four: a control frame, a ping, the acknowledgement, or one to fail
on. -/
theorem Arrival.cases (a : Arrival) :
    a.isControl = true ∨ (∃ payload, a.ping? = some payload) ∨ Acknowledges a ∨
      ∃ e, Refuses a e := by
  cases a with
  | ended => exact .inr (.inr (.inr ⟨_, .ended⟩))
  | broken text => exact .inr (.inr (.inr ⟨_, .broken text⟩))
  | frame f =>
    cases hm : f.message? with
    | none =>
        cases f with
        | close reason => exact .inr (.inr (.inr ⟨_, .closed reason⟩))
        | ping | pong => exact .inl rfl
        | text | binary => cases hm
    | some r =>
      cases r with
      | error e => exact .inr (.inr (.inr ⟨_, .unreadable hm⟩))
      | ok m =>
        cases m with
        | ack payload => exact .inr (.inr (.inl ⟨f, payload, rfl, hm⟩))
        | ping payload => exact .inr (.inl ⟨payload, by simp [Arrival.ping?, hm]⟩)
        | next | error | complete | pong =>
            exact .inr (.inr (.inr ⟨_, .unexpected hm (by simp) (by simp)⟩))

variable {rest : List Arrival}

/-- The first arrival that is not idle is the acknowledgement, or one to fail on. -/
theorem decides_of_dropWhile {arrivals : List Arrival}
    (h : arrivals.dropWhile Arrival.isIdle = a :: rest) : Acknowledges a ∨ ∃ e, Refuses a e := by
  have hidle : a.isIdle = false := by
    have hhead := List.head?_dropWhile_not Arrival.isIdle arrivals
    rw [h] at hhead
    simpa using hhead
  rw [Arrival.isIdle, Bool.or_eq_false_iff] at hidle
  rcases a.cases with hcontrol | ⟨payload, hping⟩ | hdecides
  · rw [hcontrol] at hidle
    cases hidle.1
  · rw [hping] at hidle
    cases hidle.2
  · exact hdecides

/-! ## The opening as a whole -/

theorem awaitAck_of_acknowledges (h : Acknowledges a) :
    awaitAck (a :: rest) = { outcome := some (.ok rest) } := by
  rw [awaitAck, verdict_of_acknowledges h]

theorem awaitAck_of_refuses {e : ConnectionError} (h : Refuses a e) :
    awaitAck (a :: rest) = { outcome := some (.error e) } := by
  rw [awaitAck, verdict_of_refuses h]

/-- An arrival that decides nothing is passed over, and answered if it is a ping. -/
theorem awaitAck_of_isIdle (h : a.isIdle = true) :
    awaitAck (a :: rest) = { awaitAck rest with
      replies := (a.ping?.map ClientMessage.pong).toList ++ (awaitAck rest).replies } := by
  rw [Arrival.isIdle, Bool.or_eq_true, Option.isSome_iff_exists] at h
  rcases h with hcontrol | ⟨payload, hping⟩
  · rw [awaitAck, verdict_of_control hcontrol, ping?_of_control hcontrol]
    rfl
  · rw [awaitAck, verdict_of_ping hping, hping]
    rfl

/-- What comes before the decision is passed over, and its pings are answered in order. -/
theorem awaitAck_append {idle : List Arrival} (h : ∀ a ∈ idle, a.isIdle = true)
    (rest : List Arrival) : awaitAck (idle ++ rest) = { awaitAck rest with
      replies := (idle.filterMap Arrival.ping?).map .pong ++ (awaitAck rest).replies } := by
  induction idle with
  | nil => rfl
  | cons a idle ih =>
    have hrest := ih fun b hb => h b (List.mem_cons_of_mem a hb)
    rw [List.cons_append, awaitAck_of_isIdle (h a List.mem_cons_self), hrest]
    cases hping : a.ping? <;> simp [hping]

/-- The first arrival that is not idle decides. -/
theorem awaitAck_eq (arrivals : List Arrival) :
    awaitAck arrivals =
      { replies := ((arrivals.takeWhile Arrival.isIdle).filterMap Arrival.ping?).map .pong
        outcome := (awaitAck (arrivals.dropWhile Arrival.isIdle)).outcome } := by
  have hidle : ∀ a ∈ arrivals.takeWhile Arrival.isIdle, a.isIdle = true :=
    fun a ha => List.mem_takeWhile_imp ha
  have hreplies : (awaitAck (arrivals.dropWhile Arrival.isIdle)).replies = [] := by
    cases hrest : arrivals.dropWhile Arrival.isIdle with
    | nil => rfl
    | cons a rest =>
      rcases decides_of_dropWhile hrest with h | ⟨e, h⟩
      · rw [awaitAck_of_acknowledges h]
      · rw [awaitAck_of_refuses h]
  have hall := awaitAck_append hidle (arrivals.dropWhile Arrival.isIdle)
  rwa [List.takeWhile_append_dropWhile, hreplies, List.append_nil] at hall

/-! ## Outcomes -/

variable {arrivals : List Arrival}

/-- How an opening ends depends on the first arrival that is not idle, and on what comes after
it. -/
theorem outcome_of_dropWhile (h : arrivals.dropWhile Arrival.isIdle = rest) :
    (awaitAck arrivals).outcome = (awaitAck rest).outcome := by
  rw [awaitAck_eq, h]

/-- That arrival decides well, or the opening fails on it. -/
theorem outcome_cases (h : arrivals.dropWhile Arrival.isIdle = a :: rest) :
    Acknowledges a ∧ (awaitAck arrivals).outcome = some (.ok rest) ∨
      ∃ e, Refuses a e ∧ (awaitAck arrivals).outcome = some (.error e) := by
  rw [outcome_of_dropWhile h]
  rcases decides_of_dropWhile h with hack | ⟨e, hrefuse⟩
  · exact .inl ⟨hack, by rw [awaitAck_of_acknowledges hack]⟩
  · exact .inr ⟨e, hrefuse, by rw [awaitAck_of_refuses hrefuse]⟩

theorem outcome_eq_none :
    (awaitAck arrivals).outcome = none ↔ arrivals.dropWhile Arrival.isIdle = [] := by
  constructor
  · intro hout
    cases hrest : arrivals.dropWhile Arrival.isIdle with
    | nil => rfl
    | cons a after =>
      rcases outcome_cases hrest with ⟨-, h⟩ | ⟨e, -, h⟩
      · cases hout.symm.trans h
      · cases hout.symm.trans h
  · intro hrest
    rw [outcome_of_dropWhile hrest]
    rfl

theorem outcome_eq_ok {after : List Arrival} :
    (awaitAck arrivals).outcome = some (.ok after) ↔
      ∃ a, Acknowledges a ∧ arrivals.dropWhile Arrival.isIdle = a :: after := by
  constructor
  · intro hout
    cases hrest : arrivals.dropWhile Arrival.isIdle with
    | nil => cases hout.symm.trans (outcome_eq_none.2 hrest)
    | cons a after' =>
      rcases outcome_cases hrest with ⟨hack, h⟩ | ⟨e, -, h⟩
      · cases hout.symm.trans h
        exact ⟨a, hack, rfl⟩
      · cases hout.symm.trans h
  · rintro ⟨a, hack, hrest⟩
    rw [outcome_of_dropWhile hrest, awaitAck_of_acknowledges hack]

theorem outcome_eq_error {e : ConnectionError} :
    (awaitAck arrivals).outcome = some (.error e) ↔
      ∃ a after, Refuses a e ∧ arrivals.dropWhile Arrival.isIdle = a :: after := by
  constructor
  · intro hout
    cases hrest : arrivals.dropWhile Arrival.isIdle with
    | nil => cases hout.symm.trans (outcome_eq_none.2 hrest)
    | cons a after =>
      rcases outcome_cases hrest with ⟨-, h⟩ | ⟨e', hrefuse, h⟩
      · cases hout.symm.trans h
      · cases hout.symm.trans h
        exact ⟨a, after, hrefuse, rfl⟩
  · rintro ⟨a, after, hrefuse, hrest⟩
    rw [outcome_of_dropWhile hrest, awaitAck_of_refuses hrefuse]

/-! ## Sessions from their beginning -/

namespace Rehearsal

variable {r : Rehearsal}

/-- After the opening has failed nothing arrives any more. -/
theorem foldl_arrive_of_failed {e : ConnectionError} (h : r.opened = some (.error e))
    (arrivals : List Arrival) : arrivals.foldl arrive r = r := by
  induction arrivals with
  | nil => rfl
  | cons a rest ih =>
    have hfirst : r.arrive a = r := by rw [arrive, h]
    rw [List.foldl_cons, hfirst, ih]

/-- After the acknowledgement everything is for the open session. -/
theorem foldl_arrive_of_opened (h : r.opened = some (.ok ())) (arrivals : List Arrival) :
    arrivals.foldl arrive r = { r with session := arrivals.foldl Session.arrive r.session } := by
  induction arrivals generalizing r with
  | nil => rfl
  | cons a rest ih =>
    have hfirst : r.arrive a = { r with session := r.session.arrive a } := by rw [arrive, h]
    have hrest := @ih { r with session := r.session.arrive a } h
    rw [List.foldl_cons, hfirst, hrest, List.foldl_cons]

/-- Until the opening is decided arrivals mean in a session what they mean for the opening: its
answers are queued, it ends alike, and what comes after that is for the session. -/
theorem foldl_arrive (h : r.opened = none) (hopen : r.session.closed = false)
    (arrivals : List Arrival) :
    arrivals.foldl arrive r =
      let opening := awaitAck arrivals
      let s := { r.session with queue := r.session.queue ++ opening.replies }
      { r with
        session := match opening.outcome with
          | some (.ok rest) => rest.foldl Session.arrive s
          | _ => s
        opened := opening.outcome.map (·.map fun _ => ()) } := by
  induction arrivals generalizing r with
  | nil => simp [awaitAck, ← h]
  | cons a rest ih =>
    rw [List.foldl_cons]
    cases hv : a.verdict with
    | ignore =>
        have hfirst : r.arrive a = r := by rw [arrive, h]; simp only [hv]
        rw [hfirst, ih h hopen, awaitAck, hv]
    | reply m =>
        have hsay : (r.session.say m).1 = { r.session with queue := r.session.queue ++ [m] } := by
          simp [say, hopen]
        have hfirst : r.arrive a = { r with session := (r.session.say m).1 } := by
          rw [arrive, h]; simp only [hv]
        have hrest := @ih { r with session := (r.session.say m).1 } h (by rw [hsay]; exact hopen)
        rw [hfirst, hrest, awaitAck, hv]
        simp [hsay]
    | accept =>
        have hfirst : r.arrive a = { r with opened := some (.ok ()) } := by
          rw [arrive, h]; simp only [hv]
        rw [hfirst, foldl_arrive_of_opened rfl, awaitAck, hv]
        simp [Except.map]
    | fail e =>
        have hfirst : r.arrive a = { r with opened := some (.error e) } := by
          rw [arrive, h]; simp only [hv]
        rw [hfirst, foldl_arrive_of_failed rfl, awaitAck, hv]
        simp [Except.map]

end Rehearsal

/-- An opening is decided by the first arrival that is neither a control frame nor a ping.  Before
it every ping is answered once, in order and with its payload.  It succeeds exactly if that arrival
brings the acknowledgement, and what comes after that is left as it is; it fails exactly if that is
an arrival to fail on, with the error for it.  In a session from its beginning the same answers are
queued, the opening ends the same way, and the open session gets what is left. -/
theorem opening_decided_by_first (arrivals : List Arrival) (payload : Option Json) :
    let idle := arrivals.takeWhile Arrival.isIdle
    let rest := arrivals.dropWhile Arrival.isIdle
    let opening := awaitAck arrivals
    opening.replies = (idle.filterMap Arrival.ping?).map .pong ∧
    (opening.outcome = none ↔ rest = []) ∧
    (∀ after, opening.outcome = some (.ok after) ↔ ∃ a, Acknowledges a ∧ rest = a :: after) ∧
    (∀ e, opening.outcome = some (.error e) ↔ ∃ a after, Refuses a e ∧ rest = a :: after) ∧
    arrivals.foldl Rehearsal.arrive (.create payload) =
      let begun : Session := { queue := .init payload :: opening.replies }
      { session := match opening.outcome with
          | some (.ok after) => after.foldl Session.arrive begun
          | _ => begun
        opened := opening.outcome.map (·.map fun _ => ()) } := by
  intro idle rest opening
  have hreplies : opening.replies = (idle.filterMap Arrival.ping?).map .pong :=
    congrArg Opening.replies (awaitAck_eq arrivals)
  have hsession := Rehearsal.foldl_arrive (r := .create payload) rfl rfl arrivals
  exact ⟨hreplies, outcome_eq_none, fun _ => outcome_eq_ok, fun _ => outcome_eq_error, hsession⟩

end Switchboard.Session
